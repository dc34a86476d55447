import Columnar.Action
import Mathlib

/-! Two runs side by side. They agree when they end in the same way, with values and states that are
related. An agreement of two actions is put together from those of their parts, so that what an action
never looks at may differ between the two runs. -/

namespace Columnar.Action

variable {ε σ α β γ δ : Type} {same : α → β → Prop} {rel : σ → σ → Prop} {before other : σ}

/-- Both runs end well with related values, or both stop with one failure; their states are related. -/
inductive Agree (same : α → β → Prop) (rel : σ → σ → Prop) :
    EStateM.Result ε σ α → EStateM.Result ε σ β → Prop where
  | ok {left : α} {right : β} {after last : σ} (values : same left right) (states : rel after last) :
      Agree same rel (.ok left after) (.ok right last)
  | error (failure : ε) {after last : σ} (states : rel after last) :
      Agree same rel (.error failure after) (.error failure last)

/-- Started in related states, the action ends alike. -/
def Respects (action : EStateM ε σ α) (rel : σ → σ → Prop) : Prop :=
  ∀ before other, rel before other → Agree Eq rel (action before) (action other)

namespace Agree

variable {first : EStateM ε σ α} {second : EStateM ε σ β}

theorem bind {next : α → EStateM ε σ γ} {follow : β → EStateM ε σ δ} {alike : γ → δ → Prop}
    (agree : Agree same rel (first before) (second other))
    (rest : ∀ left right after last, same left right → rel after last →
      Agree alike rel (next left after) (follow right last)) :
    Agree alike rel ((first >>= next) before) ((second >>= follow) other) := by
  simp only [Bind.bind, EStateM.bind]
  generalize first before = left at agree
  generalize second other = right at agree
  cases agree with
  | ok values states => exact rest _ _ _ _ values states
  | error failure states => exact .error failure states

theorem of_ok {value : α} {after : σ} (agree : Agree same rel (first before) (second other))
    (ran : first before = .ok value after) :
    ∃ result last, second other = .ok result last ∧ same value result ∧ rel after last := by
  rw [ran] at agree
  generalize second other = right at agree
  cases agree with
  | ok values states => exact ⟨_, _, rfl, values, states⟩

theorem of_error {failure : ε} {after : σ} (agree : Agree same rel (first before) (second other))
    (ran : first before = .error failure after) :
    ∃ last, second other = .error failure last ∧ rel after last := by
  rw [ran] at agree
  generalize second other = right at agree
  cases agree with
  | error failure states => exact ⟨_, rfl, states⟩

end Agree

theorem Respects.bind {action : EStateM ε σ α} {next : α → EStateM ε σ γ}
    (first : Respects action rel) (rest : ∀ value, Respects (next value) rel) :
    Respects (action >>= next) rel := by
  intro before other related
  apply (first before other related).bind
  rintro left _ after last rfl states
  exact rest left after last states

theorem Respects.tryCatch {action : EStateM ε σ α} {handler : ε → EStateM ε σ α}
    (first : Respects action rel) (rest : ∀ failure, Respects (handler failure) rel) :
    Respects (tryCatch action handler) rel := by
  intro before other related
  have agree := first before other related
  simp only [MonadExcept.tryCatch, tryCatchThe, MonadExceptOf.tryCatch, EStateM.tryCatch]
  generalize action before = left at agree ⊢
  generalize action other = right at agree ⊢
  cases agree with
  | ok values states => exact .ok values states
  | error failure states => exact rest failure _ _ states

theorem respects_throw (failure : ε) : Respects (throw failure : EStateM ε σ α) rel :=
  fun _ _ related => .error failure related

theorem respects_pure (value : α) : Respects (pure value : EStateM ε σ α) rel :=
  fun _ _ related => .ok rfl related

end Columnar.Action
