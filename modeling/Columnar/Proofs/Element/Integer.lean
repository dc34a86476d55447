import Columnar.Element.Integer
import Mathlib

namespace Columnar

/-- The integers that elements of the kind stand for. -/
def Kind.Represents (kind : Kind) (number : Int) : Prop :=
  if kind.isUnsigned then 0 ≤ number ∧ number < 2 ^ (8 * kind.width)
  else -2 ^ (8 * kind.width - 1) ≤ number ∧ number < 2 ^ (8 * kind.width - 1)

instance (kind : Kind) (number : Int) : Decidable (kind.Represents number) := by
  unfold Kind.Represents
  infer_instance

namespace Kind

variable {kind : Kind} {number other : Int}

/-- All kinds but one represent signed 64-bit numbers only. -/
theorem Represents.word (represents : kind.Represents number) (signed : kind ≠ .uint64) :
    -2 ^ 63 ≤ number ∧ number < 2 ^ 63 := by
  cases kind <;> simp [Represents, isUnsigned, width] at represents signed ⊢ <;> omega

/-- No two integers of a kind are congruent. -/
theorem Represents.unique (first : kind.Represents number) (second : kind.Represents other)
    (congruent : number ≡ other [ZMOD 2 ^ (8 * kind.width)]) : number = other := by
  have positive : 0 < 8 * kind.width := Nat.mul_pos (by decide) kind.width_pos
  have span : (2 : Int) ^ (8 * kind.width) = 2 * 2 ^ (8 * kind.width - 1) := by
    rw [← pow_succ', Nat.sub_add_cancel positive]
  have near : |other - number| < 2 ^ (8 * kind.width) := by
    rw [abs_lt]
    cases unsigned : kind.isUnsigned <;>
      simp only [Represents, unsigned, Bool.false_eq_true, if_true, if_false] at first second <;> omega
  have same := Int.eq_zero_of_abs_lt_dvd congruent.dvd near
  omega

end Kind

namespace Element

variable {kind : Kind} {number : Int}

end Element

end Columnar
