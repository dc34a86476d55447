namespace Columnar.Action

variable {ε σ α β : Type} {action : EStateM ε σ α} {next : α → EStateM ε σ β}
variable {before after : σ} {result : β} {failure : ε}

theorem bind_ok : (action >>= next) before = .ok result after ↔
    ∃ value between, action before = .ok value between ∧ next value between = .ok result after := by
  cases ran : action before <;> simp [bind, EStateM.bind, ran, and_assoc]

theorem map_ok {change : α → β} : (change <$> action) before = .ok result after ↔
    ∃ value, action before = .ok value after ∧ change value = result := by
  cases ran : action before <;> simp [Functor.map, EStateM.map, ran, and_assoc]
  grind

theorem bind_error : (action >>= next) before = .error failure after ↔
    action before = .error failure after ∨
      ∃ value between, action before = .ok value between ∧
        next value between = .error failure after := by
  cases ran : action before <;> simp [bind, EStateM.bind, ran, and_assoc]

@[simp] theorem pure_apply (value : α) :
    (pure value : EStateM ε σ α) before = .ok value before := rfl

@[simp] theorem throw_apply (failure : ε) :
    (throw failure : EStateM ε σ α) before = .error failure before := rfl

@[simp] theorem get_apply : (get : EStateM ε σ σ) before = .ok before before := rfl

@[simp] theorem modify_apply (change : σ → σ) :
    (modify change : EStateM ε σ PUnit) before = .ok ⟨⟩ (change before) := rfl

end Columnar.Action
