import Columnar.Action
import Mathlib

/-! Contracts of actions: what holds where an action ends well, and what holds where it stops. A
contract of an action is put together from those of its parts. -/

namespace Columnar.Action

variable {ε σ α β : Type} {action : EStateM ε σ α} {next : α → EStateM ε σ β} {before : σ}
variable {post : α → σ → Prop} {stop : ε → σ → Prop}

/-- Started in `before`, the action ends well in `post` or stops in `stop`. -/
def Ends (action : EStateM ε σ α) (before : σ) (post : α → σ → Prop) (stop : ε → σ → Prop) :
    Prop :=
  match action before with
  | .ok result after => post result after
  | .error failure after => stop failure after

/-- The action keeps an invariant where it ends well, and stops in `stop`. -/
def Keeps (action : EStateM ε σ α) (inv : σ → Prop) (stop : ε → σ → Prop) : Prop :=
  ∀ before, inv before → Ends action before (fun _ after => inv after) stop

theorem Ends.of_ok {result : α} {after : σ} (ends : Ends action before post stop)
    (ran : action before = .ok result after) : post result after := by
  rwa [Ends, ran] at ends

theorem Ends.of_error {failure : ε} {after : σ} (ends : Ends action before post stop)
    (ran : action before = .error failure after) : stop failure after := by
  rwa [Ends, ran] at ends

theorem Ends.eq_ok {action : EStateM ε σ Unit} {last : σ}
    (ends : Ends action before (fun _ after => after = last) fun _ _ => False) :
    action before = .ok () last := by
  cases ran : action before with
  | ok result after => rw [ends.of_ok ran]
  | error failure after => exact (ends.of_error ran).elim

instance [∀ result after, Decidable (post result after)]
    [∀ failure after, Decidable (stop failure after)] : Decidable (Ends action before post stop) :=
  match ran : action before with
  | .ok result after => decidable_of_iff (post result after) (by rw [Ends, ran])
  | .error failure after => decidable_of_iff (stop failure after) (by rw [Ends, ran])

theorem ends_of {post : α → σ → Prop} {stop : ε → σ → Prop}
    (well : ∀ result after, action before = .ok result after → post result after)
    (ill : ∀ failure after, action before = .error failure after → stop failure after) :
    Ends action before post stop := by
  unfold Ends
  split
  · exact well _ _ (by assumption)
  · exact ill _ _ (by assumption)

theorem Ends.mono {post' : α → σ → Prop} {stop' : ε → σ → Prop}
    (ends : Ends action before post stop)
    (well : ∀ result after, post result after → post' result after)
    (ill : ∀ failure after, stop failure after → stop' failure after) :
    Ends action before post' stop' := by
  refine ends_of ?_ ?_
  · intro result after ran
    exact well _ _ (ends.of_ok ran)
  · intro failure after ran
    exact ill _ _ (ends.of_error ran)

theorem Ends.mono_post {post' : α → σ → Prop} (ends : Ends action before post stop)
    (well : ∀ result after, post result after → post' result after) :
    Ends action before post' stop :=
  ends.mono well fun _ _ stopped => stopped

theorem Ends.mono_stop {stop' : ε → σ → Prop} (ends : Ends action before post stop)
    (ill : ∀ failure after, stop failure after → stop' failure after) :
    Ends action before post stop' :=
  ends.mono (fun _ _ reached => reached) ill

theorem Ends.mono_total {post' : α → σ → Prop} (ends : Ends action before post fun _ _ => False)
    (well : ∀ result after, post result after → post' result after) :
    Ends action before post' stop :=
  ends.mono well fun _ _ => False.elim

theorem Ends.and {post' : α → σ → Prop} {stop' : ε → σ → Prop}
    (first : Ends action before post stop) (second : Ends action before post' stop') :
    Ends action before (fun result after => post result after ∧ post' result after)
      (fun failure after => stop failure after ∧ stop' failure after) := by
  refine ends_of ?_ ?_
  · intro result after ran
    exact ⟨first.of_ok ran, second.of_ok ran⟩
  · intro failure after ran
    exact ⟨first.of_error ran, second.of_error ran⟩

@[simp] theorem ends_pure {value : α} :
    Ends (pure value : EStateM ε σ α) before post stop ↔ post value before := Iff.rfl

@[simp] theorem ends_throw {failure : ε} :
    Ends (throw failure : EStateM ε σ α) before post stop ↔ stop failure before := Iff.rfl

@[simp] theorem ends_get {post : σ → σ → Prop} :
    Ends (get : EStateM ε σ σ) before post stop ↔ post before before := Iff.rfl

theorem ends_bind {post : β → σ → Prop} :
    Ends (action >>= next) before post stop ↔
      Ends action before (fun value between => Ends (next value) between post stop) stop := by
  cases ran : action before <;> simp [Ends, bind, EStateM.bind, ran]

theorem ends_tryCatch {handler : ε → EStateM ε σ α} :
    Ends (tryCatch action handler) before post stop ↔
      Ends action before post fun failure between => Ends (handler failure) between post stop := by
  simp only [Ends, tryCatch, tryCatchThe, MonadExceptOf.tryCatch, EStateM.tryCatch]
  cases action before with
  | ok result after => rfl
  | error failure between => rfl

theorem Keeps.mono_stop {inv : σ → Prop} {stop' : ε → σ → Prop} (keeps : Keeps action inv stop)
    (ill : ∀ failure after, stop failure after → stop' failure after) : Keeps action inv stop' :=
  fun before holds => (keeps before holds).mono_stop ill

theorem Keeps.bind {inv : σ → Prop} (first : Keeps action inv stop)
    (second : ∀ value, Keeps (next value) inv stop) : Keeps (action >>= next) inv stop := by
  intro before holds
  rw [ends_bind]
  refine (first before holds).mono_post ?_
  intro value between held
  exact second value between held

theorem Keeps.tryCatch {inv : σ → Prop} {handler : ε → EStateM ε σ α}
    (first : Keeps action inv fun _ => inv) (second : ∀ failure, Keeps (handler failure) inv stop) :
    Keeps (tryCatch action handler) inv stop := by
  intro before holds
  rw [ends_tryCatch]
  refine (first before holds).mono_stop ?_
  intro failure between held
  exact second failure between held

theorem keeps_throw {inv : σ → Prop} (failure : ε) :
    Keeps (throw failure : EStateM ε σ α) inv fun _ => inv :=
  fun _ holds => holds

theorem keeps_pure {inv : σ → Prop} (value : α) : Keeps (pure value : EStateM ε σ α) inv stop :=
  fun _ holds => holds

end Columnar.Action
