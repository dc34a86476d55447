import Columnar.Error
import Columnar.Proofs.Bitmap.Bits
import Columnar.Proofs.Contract

namespace Columnar.Bitmap

open Columnar.Action

variable {α : Type} {bitmap : Bytes} {index : Nat}

/-- Reads the buffer. Where there is nothing to read, the reader stops. -/
def reading (read : Bytes → Option α) : EStateM Failure Bytes α := fun bitmap =>
  match read bitmap with
  | some result => .ok result bitmap
  | none => .error .outOfRange bitmap

/-- Changes the buffer. Where there is nothing to change, the writer stops. -/
def writing (write : Bytes → Option Bytes) : EStateM Failure Bytes Unit := fun bitmap =>
  match write bitmap with
  | some written => .ok () written
  | none => .error .outOfRange bitmap

/-- The buffer does not hold the bit and was left as it is. -/
structure Missed (before : Bytes) (index : Nat) (failure : Failure) (after : Bytes) : Prop where
  stopped : failure = .outOfRange
  beyond : before.size ≤ index / 8
  same : after = before

/-- The buffer holds the bit, which now is as written, and nothing else is different. -/
structure Written (before : Bytes) (index : Nat) (value : Bool) (after : Bytes) : Prop where
  covered : index / 8 < before.size
  size : after.size = before.size
  here : get? after index = some value
  others : ∀ other, other ≠ index → get? after other = get? before other

theorem missed_of_not_covers (outside : ¬ Covers bitmap index) :
    Missed bitmap index .outOfRange bitmap :=
  ⟨rfl, Nat.le_of_not_lt outside, rfl⟩

theorem written_put (covered : Covers bitmap index) (value : Bool) :
    Written bitmap index value (put bitmap index value) where
  covered := covered
  size := size_put bitmap index value
  here := by
    have held : Covers (put bitmap index value) index := by rwa [Covers, size_put]
    rw [get?_eq, if_pos held, bit_put covered, if_pos rfl]
  others other apart := by
    simp only [get?_eq, Covers, size_put, bit_put covered, if_neg apart]

theorem put?_ends (bitmap : Bytes) (index : Nat) (value : Bool) :
    Ends (writing (put? · index value)) bitmap (fun _ => Written bitmap index value)
      (Missed bitmap index) := by
  by_cases covered : Covers bitmap index
  · simp only [Ends, writing, put?, if_pos covered]
    exact written_put covered value
  · simp only [Ends, writing, put?, if_neg covered]
    exact missed_of_not_covers covered

/-- A reader that finds something exactly where the bit is held leaves the buffer. -/
theorem reading_ends {read : Bytes → Option α} {found : α}
    (reads : read bitmap = if Covers bitmap index then some found else none) :
    Ends (reading read) bitmap
      (fun result after => index / 8 < bitmap.size ∧ after = bitmap ∧ result = found)
      (Missed bitmap index) := by
  by_cases covered : Covers bitmap index
  · simp only [Ends, reading, reads, if_pos covered, and_true]
    exact covered
  · simp only [Ends, reading, reads, if_neg covered]
    exact missed_of_not_covers covered

/-- Every access to a bit stops exactly where the buffer does not hold it. A write sets that bit alone. -/
theorem bits_exactly (bitmap : Bytes) (index : Nat) (value : Bool) (flag : UInt8) :
    Ends (writing (put? · index value)) bitmap (fun _ => Written bitmap index value)
        (Missed bitmap index) ∧
      Ends (writing (putFlag? · index flag)) bitmap
        (fun _ => Written bitmap index (decide (flag ≠ 0))) (Missed bitmap index) ∧
      Ends (writing (set? · index)) bitmap (fun _ => Written bitmap index true)
        (Missed bitmap index) ∧
      Ends (reading (get? · index)) bitmap
        (fun valid after => index / 8 < bitmap.size ∧ after = bitmap ∧
          get? bitmap index = some valid)
        (Missed bitmap index) ∧
      Ends (reading (bit? · index)) bitmap
        (fun number after => index / 8 < bitmap.size ∧ after = bitmap ∧ (number = 1 ∨ number = 0) ∧
          (number = 1 ↔ get? bitmap index = some true))
        (Missed bitmap index) := by
  have flagged : decide (flag ≠ 0) = (flag != 0) := by
    rw [Bool.eq_iff_iff]
    simp
  refine ⟨put?_ends bitmap index value, ?_, put?_ends bitmap index true, ?_, ?_⟩
  · rw [flagged]
    exact put?_ends bitmap index (flag != 0)
  · refine (reading_ends (get?_eq bitmap index)).mono_post ?_
    intro valid after reached
    obtain ⟨covered, same, read⟩ := reached
    refine ⟨covered, same, ?_⟩
    rw [get?_eq, if_pos covered, read]
  · refine (reading_ends (bit?_eq bitmap index)).mono_post ?_
    intro number after reached
    obtain ⟨covered, same, read⟩ := reached
    refine ⟨covered, same, ?_⟩
    rw [get?_eq, if_pos covered, read]
    cases bit bitmap index <;> decide

end Columnar.Bitmap
