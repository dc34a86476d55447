import Columnar.Text.Blank
import Mathlib

/-! Text up to the white space around it and the case of its letters. Trimming finds the one core
that has no white space at its ends, and two letters are the same where their small forms are. -/

namespace Columnar.Text

/-! ### White space at the ends -/

def Blank (text : List Char) : Prop := ∀ c ∈ text, isBlank c = true

/-- The text neither begins nor ends with white space. -/
structure Bare (text : List Char) : Prop where
  head : ∀ c, text.head? = some c → isBlank c = false
  last : ∀ c, text.getLast? = some c → isBlank c = false

/-- The text is a bare core with white space around it. -/
structure Trims (text core : List Char) : Prop where
  bare : Bare core
  around : ∃ front back, Blank front ∧ Blank back ∧ text = front ++ core ++ back

variable {text core front back : List Char}

private theorem dropWhile_eq_nil (blank : Blank text) : text.dropWhile isBlank = [] := by
  have dropped : (text ++ []).dropWhile isBlank = List.dropWhile isBlank [] :=
    List.dropWhile_append_of_pos blank
  rwa [List.append_nil] at dropped

private theorem dropWhile_eq_self (head : ∀ c, text.head? = some c → isBlank c = false) :
    text.dropWhile isBlank = text := by
  cases text with
  | nil => rfl
  | cons c rest =>
    rw [List.dropWhile_cons, head c rfl]
    rfl

private theorem head?_dropWhile {c : Char} (found : (text.dropWhile isBlank).head? = some c) :
    isBlank c = false := by
  have visible := List.head?_dropWhile_not isBlank text
  rwa [found] at visible

private theorem dropBlanksRight_append (blank : Blank back) (text : List Char) :
    dropBlanksRight (text ++ back) = dropBlanksRight text := by
  have reversed : ∀ c ∈ back.reverse, isBlank c = true := by
    intro c member
    exact blank c (List.mem_reverse.mp member)
  rw [dropBlanksRight, List.reverse_append, List.dropWhile_append_of_pos reversed]
  rfl

private theorem exists_dropBlanksRight (text : List Char) :
    ∃ back, Blank back ∧ text = dropBlanksRight text ++ back := by
  refine ⟨(text.reverse.takeWhile isBlank).reverse, ?_, ?_⟩
  · intro c member
    exact List.mem_takeWhile_imp (List.mem_reverse.mp member)
  · calc text
      _ = (text.reverse.takeWhile isBlank ++ text.reverse.dropWhile isBlank).reverse := by
        rw [List.takeWhile_append_dropWhile, List.reverse_reverse]
      _ = dropBlanksRight text ++ (text.reverse.takeWhile isBlank).reverse := List.reverse_append

/-- White space put around a text does not show in its core. -/
theorem trimBlanks_around (before : Blank front) (behind : Blank back) (text : List Char) :
    trimBlanks (front ++ text ++ back) = trimBlanks text := by
  rw [trimBlanks, List.append_assoc, List.dropWhile_append_of_pos before, List.dropWhile_append]
  -- Where the text itself is blank, what is put behind it is dropped from the front.
  by_cases empty : (text.dropWhile isBlank).isEmpty = true
  · rw [if_pos empty, dropWhile_eq_nil behind, trimBlanks, List.isEmpty_iff.mp empty]
  · rw [if_neg empty, dropBlanksRight_append behind]
    rfl

theorem Bare.trimBlanks_eq (bare : Bare text) : trimBlanks text = text := by
  have last : ∀ c, text.reverse.head? = some c → isBlank c = false := by
    intro c found
    rw [List.head?_reverse] at found
    exact bare.last c found
  rw [trimBlanks, dropWhile_eq_self bare.head, dropBlanksRight, dropWhile_eq_self last,
    List.reverse_reverse]

theorem bare_trimBlanks (text : List Char) : Bare (trimBlanks text) := by
  constructor
  · intro c found
    obtain ⟨back, _, whole⟩ := exists_dropBlanksRight (text.dropWhile isBlank)
    have visible : trimBlanks text ≠ [] := by
      intro empty
      rw [empty] at found
      cases found
    have first : (text.dropWhile isBlank).head? = some c := by
      rw [whole]
      exact (List.head?_append_of_ne_nil _ visible).trans found
    exact head?_dropWhile first
  · intro c found
    rw [trimBlanks, dropBlanksRight, List.getLast?_reverse] at found
    exact head?_dropWhile found

theorem trims_trimBlanks (text : List Char) : Trims text (trimBlanks text) := by
  obtain ⟨back, blank, whole⟩ := exists_dropBlanksRight (text.dropWhile isBlank)
  refine ⟨bare_trimBlanks text, text.takeWhile isBlank, back, ?_, blank, ?_⟩
  · intro c member
    exact List.mem_takeWhile_imp member
  · rw [List.append_assoc, trimBlanks, ← whole, List.takeWhile_append_dropWhile]

/-- Trimming finds the only bare core of a text. -/
theorem trims_iff : Trims text core ↔ core = trimBlanks text := by
  constructor
  · intro trims
    obtain ⟨front, back, before, behind, rfl⟩ := trims.around
    rw [trimBlanks_around before behind, trims.bare.trimBlanks_eq]
  · intro same
    subst same
    exact trims_trimBlanks text

/-! ### The case of letters -/

/-- The characters are the same, or one is the capital of the other among the 26 Latin letters. -/
def SameLetter (left right : Char) : Prop :=
  left = right ∨ (left.isUpper ∧ right.toNat = left.toNat + 32) ∨
    (right.isUpper ∧ left.toNat = right.toNat + 32)

/-- The texts have the same letters, in whichever case. -/
def Recased : List Char → List Char → Prop := List.Forall₂ SameLetter

theorem isUpper_iff {c : Char} : c.isUpper = true ↔ 65 ≤ c.toNat ∧ c.toNat ≤ 90 := by
  simp [Char.isUpper, UInt32.le_iff_toNat_le]

theorem toNat_toLower (c : Char) :
    c.toLower.toNat = if c.isUpper then c.toNat + 32 else c.toNat := by
  by_cases upper : c.isUpper = true
  · have range : c.val ≥ 'A'.val ∧ c.val ≤ 'Z'.val := by simpa [Char.isUpper] using upper
    have bounds := isUpper_iff.mp upper
    have number : c.toNat = c.val.toNat := rfl
    rw [if_pos upper, Char.toLower, dif_pos range]
    show (c.val + _).toNat = _
    rw [UInt32.toNat_add, number]
    simp
    omega
  · have range : ¬ (c.val ≥ 'A'.val ∧ c.val ≤ 'Z'.val) := by simpa [Char.isUpper] using upper
    rw [if_neg upper, Char.toLower, dif_neg range]

theorem sameLetter_iff {left right : Char} : SameLetter left right ↔ left.toLower = right.toLower := by
  have number {a b : Char} : a = b ↔ a.toNat = b.toNat := Char.toNat_inj.symm
  rw [SameLetter, number, number, toNat_toLower, toNat_toLower]
  simp only [isUpper_iff]
  split <;> split <;> omega

theorem recased_iff {left right : List Char} :
    Recased left right ↔ left.map Char.toLower = right.map Char.toLower := by
  rw [← List.forall₂_eq_eq_eq, List.forall₂_map_left_iff, List.forall₂_map_right_iff, Recased]
  have same : SameLetter = fun left right => left.toLower = right.toLower := by
    funext left right
    exact propext sameLetter_iff
  rw [same]

theorem isBlank_toLower (c : Char) : isBlank c.toLower = isBlank c := by
  by_cases upper : c.isUpper = true
  · have bounds := isUpper_iff.mp upper
    have number : c.toLower.toNat = c.toNat + 32 := by rw [toNat_toLower, if_pos upper]
    rw [Bool.eq_iff_iff]
    simp [isBlank, number]
    omega
  · have same : c.toLower = c := by
      apply Char.toNat_inj.mp
      rw [toNat_toLower, if_neg upper]
    rw [same]

/-- Letters have their case inside the core alone. -/
theorem trimBlanks_map_toLower (text : List Char) :
    trimBlanks (text.map Char.toLower) = (trimBlanks text).map Char.toLower := by
  have blank : isBlank ∘ Char.toLower = isBlank := funext isBlank_toLower
  simp only [trimBlanks, dropBlanksRight, List.dropWhile_map, ← List.map_reverse, blank]

end Columnar.Text
