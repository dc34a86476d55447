import Columnar.Proofs.Bitmap.Copy
import Columnar.Proofs.Column.Calls

namespace Columnar

open Columnar.Action

variable {n : Nat} {kind : Kind} {slots : Slots kind}

def Column.withBits (column : Column n kind) (bits : Bytes) : Column n kind :=
  { column with validity := column.validity.mapBytes fun _ => bits }

namespace Edit

section

variable {session : Session n kind} {post : Unit → Session n kind → Prop}
variable {stop : Failure → Session n kind → Prop}

theorem ends_putBits (session : Session n kind) {bitmap bytes : Bytes} {start last : Nat}
    (copied : Bitmap.copyRange? session.column.validity.bytes bitmap start last = some bytes) :
    Ends (putBits bitmap start last) session post stop ↔
      post () { session with column := session.column.withBits bytes } := by
  simp only [Ends, putBits, copied]
  rfl

end

theorem copyFrom_turns (other : Column n kind) (source target : Nat) :
    Turns (copyFrom other source target) slots
      (Function.update slots target (other.get? source)) := by
  unfold copyFrom
  rw [Bitmap.bit?_eq]
  by_cases covered : Bitmap.Covers other.validity.bytes source
  · rw [if_pos covered]
    cases found : Slot.bytes? kind other.values.bytes source with
    | none => exact fun _ shows => .inr shows
    | some run =>
      have within := Slot.bytes?_isSome_iff.mp (Option.isSome_of_eq_some found)
      have inside := Column.lt_capacity_iff.mpr ⟨within, covered⟩
      have shown : other.get? source =
          if other.bit source then some (Element.ofBytes run) else none := by
        cases valid : other.bit source
        · exact Column.get?_of_null valid
        · exact Column.get?_of_valid inside valid found
      have flag : ((if Bitmap.bit other.validity.bytes source then 1 else 0 : UInt8) != 0) =
          other.bit source := by
        rw [Column.bit]
        cases Bitmap.bit other.validity.bytes source <;> rfl
      simp only [flag, shown]
      exact put_turns target (Slot.length_of_bytes? found) _
  · rw [if_neg covered]
    exact fun _ shows => .inr shows

theorem copyFromSafe_turns (other : Column n kind) (source target : Nat) :
    Turns (copyFromSafe other source target) slots
      (Function.update slots target (other.get? source)) :=
  (copyFrom_turns other source target).reserve_first _

end Edit

/-- The column holds `length` slots of another from `start` on, and no others. -/
structure Column.Holds (column other : Column n kind) (start length : Nat) : Prop where
  count : column.count = length
  fits : length ≤ column.capacity
  bit : ∀ index, column.bit index = (decide (index < length) && other.bit (start + index))
  bytes? : ∀ index, index < length → column.bytes? index = other.bytes? (start + index)

/-- The slots of a range, counted from its start. -/
def Slots.range (slots : Slots kind) (start length : Nat) : Slots kind :=
  fun index => if index < length then slots (start + index) else none

theorem Column.Holds.shows {column other : Column n kind} {start length : Nat}
    (holds : column.Holds other start length) (inside : start + length ≤ other.capacity) :
    column.Shows (Slots.range other.get? start length) := by
  refine ⟨⟨?_, ?_⟩, ?_⟩
  · rw [holds.count]
    exact holds.fits
  · intro index beyond
    have outside : ¬ index < length := by
      have fits := holds.fits
      omega
    simp [holds.bit, outside]
  · funext index
    rw [Slots.range]
    by_cases used : index < length
    · have bit : column.bit index = other.bit (start + index) := by simp [holds.bit, used]
      have here : index < column.capacity := Nat.lt_of_lt_of_le used holds.fits
      have there : start + index < other.capacity := by omega
      rw [if_pos used]
      cases valid : other.bit (start + index)
      · rw [get?_of_null (bit.trans valid), get?_of_null valid]
      · obtain ⟨run, found⟩ := Option.isSome_iff_exists.mp (bytes?_isSome there)
        rw [get?_of_valid here (bit.trans valid) ((holds.bytes? index used).trans found),
          get?_of_valid there valid found]
    · rw [if_neg used, get?_of_null (by simp [holds.bit, used])]

namespace Column

variable {column other : Column n kind} {start length : Nat} {run : List UInt8} {bits : Bytes}

theorem capacity_withBits (same : bits.size = column.validity.size) :
    (column.withBits bits).capacity = column.capacity :=
  capacity_of_sizes rfl same

theorem slice?_isSome (inside : start + length ≤ column.capacity) :
    (column.values.bytes.slice? (start * kind.width) ((start + length) * kind.width)).isSome := by
  have held : (start + length) * kind.width ≤ column.values.bytes.size :=
    mul_width_le_size inside
  have ordered : start * kind.width ≤ (start + length) * kind.width :=
    Nat.mul_le_mul_right _ (Nat.le_add_right _ _)
  rw [Bytes.slice?, if_pos ⟨ordered, held⟩]
  rfl

theorem length_of_range (sliced : column.values.bytes.slice? (start * kind.width)
    ((start + length) * kind.width) = some run) : run.length = length * kind.width := by
  rw [Bytes.length_of_slice? sliced, Nat.add_mul, Nat.add_sub_cancel_left]

theorem copyRange?_renewed (column : Column n kind) (inside : start + length ≤ other.capacity) :
    ∃ bits, Bitmap.copyRange? (column.renewed length).validity.bytes other.validity.bytes start
        (start + length) = some bits ∧
      bits.size = (column.renewed length).validity.size ∧
      ∀ index, Bitmap.bit bits index = (decide (index < length) && other.bit (start + index)) := by
  have room : Bitmap.bytesFor (start + length - start) ≤
      (column.renewed length).validity.bytes.size := by
    rw [Nat.add_sub_cancel_left]
    exact (Block.le_roundUp _).trans_eq (Bytes.size_zeros _).symm
  have held : Bitmap.bytesFor (start + length) ≤ other.validity.bytes.size := by
    have bound := inside.trans (Nat.min_le_right _ _)
    rw [Nat.mul_comm] at bound
    exact (Bitmap.bytesFor_le_iff _ _).mpr bound
  obtain ⟨bits, copied, size, same⟩ :=
    Bitmap.copyRange?_spec _ _ (Nat.le_add_right start length) room held
  refine ⟨bits, copied, size, ?_⟩
  intro index
  have clear : Bitmap.bit (column.renewed length).validity.bytes index = false :=
    column.bit_renewed length index
  rw [same, clear, ite_self, Nat.add_sub_cancel_left]
  by_cases used : index < length <;> simp [used, Column.bit]

/-- New memory over which the bytes and the bits of a range were written holds the range. -/
theorem holds_of_copied (fits : length ≤ column.capacity)
    (sliced : other.values.bytes.slice? (start * kind.width) ((start + length) * kind.width) = some run)
    (copied : ∀ index, Bitmap.bit bits index =
      (decide (index < length) && other.bit (start + index)))
    (same : bits.size = column.validity.size) :
    Holds ({ (column.withBytes 0 run).withBits bits with count := length } : Column n kind)
      other start length where
  count := rfl
  fits := by
    have written : bits.size = (column.withBytes 0 run).validity.size := same
    have unchanged : ((column.withBytes 0 run).withBits bits).capacity = column.capacity := by
      rw [capacity_withBits written, capacity_withBytes]
    exact fits.trans_eq unchanged.symm
  bit := copied
  bytes? index used := by
    have whole := length_of_range sliced
    have room : run.length ≤ column.values.bytes.size := by
      rw [whole]
      exact mul_width_le_size fits
    have ordered : index * kind.width ≤ (index + 1) * kind.width :=
      Nat.mul_le_mul_right _ (Nat.le_succ _)
    have inside : (index + 1) * kind.width ≤ run.length := by
      rw [whole]
      exact Nat.mul_le_mul_right _ used
    have copied := Bytes.slice?_overwrite_zero sliced room ordered inside
    rw [← Nat.add_mul, ← Nat.add_mul] at copied
    simpa [Column.bytes?, Slot.bytes?, withBytes, withBits, Block.mapBytes, Nat.add_assoc] using copied

end Column

namespace Edit

/-- Copies a range into the first slots and counts them. -/
def fill (other : Column n kind) (start length : Nat) : Edit n kind Unit := do
  let some run := other.values.bytes.slice? (start * kind.width) ((start + length) * kind.width)
    | throw .outOfRange
  putBytes 0 run
  putBits other.validity.bytes start (start + length)
  setCount length

theorem split_of_inside (session : Session n kind) (inside : start + length ≤ other.capacity)
    (bounded : other.capacity < Word.size) :
    ∃ notice, split other start length session = (allocate length >>= fun _ => fill other start length)
      ⟨session.column, session.ledger.note notice⟩ := by
  have range : ¬ (Word.size ≤ start + length ∨ other.capacity < start + length) := by omega
  refine ⟨.splitting start (start + length) other.field.name session.column.field.name, ?_⟩
  rw [split]
  simp only [if_neg range]
  rw [column_bind, note_bind]
  rfl

theorem fill_renewed (column : Column n kind) (ledger : Ledger n)
    (inside : start + length ≤ other.capacity) :
    ∃ run bits,
      other.values.bytes.slice? (start * kind.width) ((start + length) * kind.width) = some run ∧
      bits.size = (column.renewed length).validity.size ∧
      (∀ index, Bitmap.bit bits index = (decide (index < length) && other.bit (start + index))) ∧
      fill other start length ⟨column.renewed length, ledger⟩ =
        .ok () ⟨{ ((column.renewed length).withBytes 0 run).withBits bits with count := length },
          ledger⟩ := by
  obtain ⟨run, sliced⟩ := Option.isSome_iff_exists.mp (Column.slice?_isSome inside)
  obtain ⟨bits, copied, size, bit⟩ := Column.copyRange?_renewed column inside
  have room : 0 * kind.width + run.length ≤ (column.renewed length).values.bytes.size := by
    rw [Column.length_of_range sliced, Nat.zero_mul, Nat.zero_add]
    exact Column.mul_width_le_size (column.le_capacity_renewed length)
  have placed : Bitmap.copyRange? ((column.renewed length).withBytes 0 run).validity.bytes
      other.validity.bytes start (start + length) = some bits := by
    rwa [Column.validity_withBytes]
  refine ⟨run, bits, sliced, size, bit, Ends.eq_ok ?_⟩
  unfold fill
  simp only [sliced]
  rw [ends_bind, ends_putBytes, if_pos room, ends_bind,
    ends_putBits ⟨(column.renewed length).withBytes 0 run, ledger⟩ placed, ends_setCount]

/-- A split stops before it touches anything when the range is too long, or where memory is
refused; else the column holds the range. -/
theorem split_ends (other : Column n kind) (start length : Nat) (session : Session n kind)
    (bounded : other.capacity < Word.size) :
    Ends (split other start length) session
      (fun _ after => start + length ≤ other.capacity ∧ after.column.Holds other start length)
      (fun failure after =>
        other.capacity < start + length ∧ after.column = session.column ∧
            failure = .error (.splitRange start length other.capacity) ∧
            after.ledger.allocated = session.ledger.allocated ∨
          start + length ≤ other.capacity ∧ (failure = .overdrawn ∨
            after.column = session.column ∧ Block.Refused session.ledger failure after.ledger)) := by
  by_cases inside : start + length ≤ other.capacity
  · obtain ⟨notice, same⟩ := split_of_inside session inside bounded
    rw [Ends, same]
    refine ends_bind.mpr ((allocate_ends _ length).mono ?_ ?_)
    · rintro _ ⟨_, ledger⟩ rfl
      obtain ⟨run, bits, sliced, size, bit, filled⟩ := fill_renewed session.column ledger inside
      have fits := session.column.le_capacity_renewed length
      rw [Ends, filled]
      exact ⟨inside, Column.holds_of_copied fits sliced bit size⟩
    · exact fun failure after stopped => .inr ⟨inside, stopped⟩
  · have range : Word.size ≤ start + length ∨ other.capacity < start + length := by omega
    rw [split]
    simp only [if_pos range]
    exact .inl ⟨by omega, rfl, rfl, rfl⟩

theorem split_turns (other : Column n kind) (start length : Nat)
    (bounded : other.capacity < Word.size) :
    Turns (split other start length) slots (Slots.range other.get? start length) := by
  intro session shows
  refine (split_ends other start length session bounded).mono ?_ ?_
  · intro _ after reached
    obtain ⟨inside, holds⟩ := reached
    exact holds.shows inside
  · intro failure after stopped
    rcases stopped with ⟨_, same, _⟩ | ⟨_, overdrawn | ⟨same, _⟩⟩
    · exact .inr (same ▸ shows)
    · exact .inl overdrawn
    · exact .inr (same ▸ shows)

end Edit

end Columnar
