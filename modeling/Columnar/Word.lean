/-!
Unsigned machine words. Sizes and positions are natural numbers; the operations that meet the
end of the word range say here whether they wrap or stop.
-/

namespace Columnar.Word

/-- The number of values of a word of 64 bits. -/
def size : Nat := 0x10000000000000000

def max : Nat := size - 1

/-- The largest number of bytes that one request for memory may ask for: the largest signed
word. -/
def largestRequest : Nat := 0x7fffffffffffffff

/-- Addition that starts again from zero at the end of the range. -/
def wrapAdd (left right : Nat) : Nat := (left + right) % size

/-- Subtraction that continues from the end of the range below zero. -/
def wrapSub (left right : Nat) : Nat := (left + size - right) % size

/-- Addition that stops at the largest word. -/
def clampAdd (left right : Nat) : Nat := Nat.min (left + right) max

theorem wrapAdd_eq (bounded : left + right < size) : wrapAdd left right = left + right :=
  Nat.mod_eq_of_lt bounded

theorem wrapSub_eq (bounded : left < size) (enough : right ≤ left) :
    wrapSub left right = left - right := by
  have moved : left + size - right = left - right + size := by omega
  rw [wrapSub, moved, Nat.add_mod_right]
  exact Nat.mod_eq_of_lt (by omega)

theorem clampAdd_eq (bounded : left + right < size) : clampAdd left right = left + right :=
  Nat.min_eq_left (Nat.le_sub_one_of_lt bounded)

end Columnar.Word
