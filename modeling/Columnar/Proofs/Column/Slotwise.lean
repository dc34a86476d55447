import Columnar.Proofs.Column.Copying
import Columnar.Proofs.Column.Refusals

namespace Columnar

open Columnar.Action

variable {n : Nat} {kind : Kind}

namespace Edit

theorem allocateBoth_respects (account : Fin n) (first second : Nat) :
    Respects (Block.allocateBoth account first second) Ledger.Alike := by
  refine (Block.allocate_respects account first).bind fun left => ?_
  refine Respects.bind ?_ fun _ => respects_pure _
  refine (Block.allocate_respects account second).tryCatch fun failure => ?_
  exact (Ledger.release_respects left.account left.size).bind fun _ => respects_throw failure

theorem onLedger_respects {α : Type} {action : Accounting n α}
    (respects : Respects action Ledger.Alike) :
    Respects (onLedger action : Edit n kind α) Session.Alike :=
  fun _ _ alike => onLedger_agrees alike (respects _ _ alike.ledger)

theorem replaceBuffer_respects (which : Buffer) (block : Block n) :
    Respects (replaceBuffer which block : Edit n kind Unit) Session.Alike := by
  intro session other alike
  simp only [replaceBuffer, alike.same]
  exact onLedger_respects (Ledger.release_respects _ _) _ _ (Session.alike_of_same rfl alike.ledger)

theorem respects_column_bind {α : Type} {next : Column n kind → Edit n kind α}
    (rest : ∀ column, Respects (next column) Session.Alike) :
    Respects (column >>= next) Session.Alike := by
  intro session other alike
  rw [column_bind, column_bind, alike.same]
  exact rest session.column session other alike

theorem setCount_respects (count : Nat) : Respects (setCount count : Edit n kind Unit) Session.Alike := by
  intro session other alike
  have same : ({ other.column with count } : Column n kind) = { session.column with count } := by
    rw [alike.same]
  exact .ok rfl (Session.alike_of_same same alike.ledger)

theorem allocate_respects (slots : Nat) :
    Respects (allocate slots : Edit n kind Unit) Session.Alike := by
  refine (bufferSizes_respects slots).bind fun sizes => respects_column_bind fun column => ?_
  refine (onLedger_respects (allocateBoth_respects _ _ _)).bind fun blocks => ?_
  refine Respects.bind (.tryCatch (replaceBuffer_respects .values blocks.1) fun failure => ?_) fun _ => ?_
  · exact (onLedger_respects (Ledger.release_respects _ _)).bind fun _ => respects_throw failure
  · refine (replaceBuffer_respects .validity blocks.2).bind fun _ => ?_
    exact (setCount_respects 0).bind fun _ => rememberCapacity_respects

end Edit

namespace Column

variable {column fresh other : Column n kind} {start count length : Nat}

/-- The column is the fresh one, into which the first slots of a range were copied. -/
structure Filled (column fresh other : Column n kind) (start count : Nat) : Prop where
  same : column = fresh.changed (fun _ => column.values.bytes) (fun _ => column.validity.bytes)
  valuesSize : column.values.size = fresh.values.size
  validitySize : column.validity.size = fresh.validity.size
  values : ∀ place, place < column.values.size → column.values.bytes[place]? =
    if place < count * kind.width then other.values.bytes[start * kind.width + place]?
    else fresh.values.bytes[place]?
  bit : ∀ index, column.bit index = (decide (index < count) && other.bit (start + index))

theorem Filled.capacity (filled : column.Filled fresh other start count) :
    column.capacity = fresh.capacity := by
  rw [Column.capacity, Column.capacity, filled.valuesSize, filled.validitySize]

/-- Ranges that hold the same, copied into new memory that is the same, make the same blocks. -/
theorem Filled.blocks_eq {later model origin : Column n kind} {first : Nat}
    (filled : column.Filled fresh other start count) (again : later.Filled model origin first count)
    (blocks : model.values.bytes = fresh.values.bytes)
    (sizes : model.validity.size = fresh.validity.size)
    (bytes : ∀ place, place < count * kind.width →
      origin.values.bytes[first * kind.width + place]? = other.values.bytes[start * kind.width + place]?)
    (bits : ∀ index, index < count → origin.bit (first + index) = other.bit (start + index)) :
    later.values.bytes = column.values.bytes ∧ later.validity.bytes = column.validity.bytes := by
  have size : later.values.bytes.size = column.values.bytes.size :=
    again.valuesSize.trans ((congrArg Array.size blocks).trans filled.valuesSize.symm)
  constructor
  · apply Array.ext_getElem?
    intro place
    rcases Nat.lt_or_ge place column.values.bytes.size with inside | beyond
    · rw [filled.values place inside, again.values place (inside.trans_eq size.symm), blocks]
      split
      · rename_i used
        exact bytes place used
      · rfl
    · rw [Array.getElem?_eq_none beyond, Array.getElem?_eq_none (size.trans_le beyond)]
  · apply Bitmap.eq_of_bit (again.validitySize.trans (sizes.trans filled.validitySize.symm))
    intro index
    refine (again.bit index).trans (Eq.trans ?_ (filled.bit index).symm)
    by_cases used : index < count
    · rw [bits index used]
    · rw [decide_eq_false used, Bool.false_and, Bool.false_and]

theorem Filled.unique {later : Column n kind} (filled : column.Filled fresh other start count)
    (again : later.Filled fresh other start count) : column = later := by
  obtain ⟨values, validity⟩ := filled.blocks_eq again rfl rfl (fun _ _ => rfl) fun _ _ => rfl
  rw [filled.same, again.same, values, validity]

/-- A range that was copied from a copied range holds what it holds when it is copied at once. -/
theorem Filled.nested {inner direct model origin : Column n kind} {shift slots : Nat}
    (outer : column.Filled fresh other start length) (fits : length ≤ column.capacity)
    (within : shift + count ≤ length)
    (filled : inner.Filled model { column with count := slots } shift count)
    (once : direct.Filled origin other (start + shift) count)
    (blocks : model.values.bytes = origin.values.bytes)
    (sizes : model.validity.size = origin.validity.size) :
    inner.values.bytes = direct.values.bytes ∧ inner.validity.bytes = direct.validity.bytes := by
  refine once.blocks_eq filled blocks sizes ?_ ?_
  · intro place used
    have held : length * kind.width ≤ column.values.size := mul_width_le_size fits
    have reach : (shift + count) * kind.width ≤ length * kind.width := Nat.mul_le_mul_right _ within
    rw [Nat.add_mul] at reach
    have copied := outer.values (shift * kind.width + place) (by omega)
    rw [if_pos (by omega)] at copied
    rw [copied, Nat.add_mul, Nat.add_assoc]
  · intro index used
    have copied : column.bit (shift + index) =
        (decide (shift + index < length) && other.bit (start + (shift + index))) :=
      outer.bit (shift + index)
    rw [decide_eq_true (by omega), Bool.true_and] at copied
    rw [Nat.add_assoc]
    exact copied

theorem filled_zero (blank : ∀ index, fresh.bit index = false) :
    fresh.Filled fresh other start 0 := by
  refine ⟨rfl, rfl, rfl, ?_, ?_⟩
  · intro place _
    rw [Nat.zero_mul, if_neg (Nat.not_lt_zero _)]
  · intro index
    rw [blank, decide_eq_false (Nat.not_lt_zero _), Bool.false_and]

theorem Filled.next (filled : column.Filled fresh other start count) (inside : count < fresh.capacity)
    {run : List UInt8} (found : other.bytes? (start + count) = some run) :
    ((column.withBytes count run).withValid count (other.bit (start + count))).Filled
      fresh other start (count + 1) := by
  have whole : run.length = kind.width := Slot.length_of_bytes? found
  obtain ⟨_, covered⟩ := lt_capacity_iff.mp (filled.capacity.symm ▸ inside)
  refine ⟨?_, ?_, ?_, ?_, ?_⟩
  · conv => lhs; rw [withValid, withBytes, filled.same]
    rfl
  · exact (Bytes.size_overwrite _ _ _).trans filled.valuesSize
  · exact (Bitmap.size_put _ _ _).trans filled.validitySize
  · intro place within
    have before : place < column.values.size := within.trans_eq (Bytes.size_overwrite _ _ _)
    have written : ((column.withBytes count run).withValid count
        (other.bit (start + count))).values.bytes[place]? =
          (column.values.bytes.overwrite (count * kind.width) run)[place]? := rfl
    rw [written, Bytes.getElem?_overwrite, filled.values place before, whole, Nat.succ_mul]
    by_cases here : count * kind.width ≤ place ∧ place < count * kind.width + kind.width
    · have taken := Bytes.getElem?_of_slice? found (place - count * kind.width) (by
        rw [Nat.succ_mul]
        omega)
      have place' : (start + count) * kind.width + (place - count * kind.width) =
          start * kind.width + place := by
        rw [Nat.add_mul]
        omega
      rw [if_pos ⟨here.1, here.2, before⟩, if_pos here.2, taken, place']
    · rw [if_neg fun held => here ⟨held.1, held.2.1⟩]
      by_cases old : place < count * kind.width
      · rw [if_pos old, if_pos (by omega)]
      · rw [if_neg old, if_neg (by omega)]
  · intro index
    have put : ((column.withBytes count run).withValid count (other.bit (start + count))).bit index =
        if index = count then other.bit (start + count) else column.bit index :=
      bit_withValid covered _ index
    rw [put]
    by_cases here : index = count
    · subst here
      rw [if_pos rfl, decide_eq_true (Nat.lt_succ_self _), Bool.true_and]
    · have same : index < count + 1 ↔ index < count := by omega
      rw [if_neg here, filled.bit, decide_eq_decide.mpr same]

theorem filled_of_copied {run : List UInt8} {bits : Bytes}
    (sliced : other.values.bytes.slice? (start * kind.width) ((start + length) * kind.width) = some run)
    (copied : ∀ index, Bitmap.bit bits index =
      (decide (index < length) && other.bit (start + index)))
    (size : bits.size = fresh.validity.size) :
    ((fresh.withBytes 0 run).withBits bits).Filled fresh other start length := by
  refine ⟨rfl, Bytes.size_overwrite _ _ _, size, ?_, copied⟩
  intro place within
  have whole := length_of_range sliced
  have before : place < fresh.values.bytes.size := within.trans_eq (Bytes.size_overwrite _ _ _)
  have written : ((fresh.withBytes 0 run).withBits bits).values.bytes[place]? =
      (fresh.values.bytes.overwrite (0 * kind.width) run)[place]? := rfl
  rw [written, Nat.zero_mul, Bytes.getElem?_overwrite, whole, Nat.zero_add, Nat.sub_zero]
  by_cases used : place < length * kind.width
  · rw [if_pos ⟨Nat.zero_le _, used, before⟩, if_pos used, Bytes.getElem?_of_slice? sliced]
    rw [Nat.add_mul]
    omega
  · rw [if_neg fun held => used held.2.1, if_neg used]

end Column

namespace Edit

variable {session fresh : Session n kind} {other : Column n kind} {start length : Nat}

theorem copyFrom_eq {source target : Nat} (held : source < other.capacity)
    (inside : target < session.column.capacity) {run : List UInt8}
    (found : other.bytes? source = some run) :
    copyFrom other source target session =
      .ok () ⟨(session.column.withBytes target run).withValid target (other.bit source),
        session.ledger⟩ := by
  obtain ⟨within, covered⟩ := Column.lt_capacity_iff.mp inside
  have room : target * kind.width + run.length ≤ session.column.values.bytes.size := by
    rwa [Slot.length_of_bytes? found, ← Nat.succ_mul]
  have flag : ((if Bitmap.bit other.validity.bytes source then 1 else 0 : UInt8) != 0) =
      other.bit source := by
    rw [Column.bit]
    cases Bitmap.bit other.validity.bytes source <;> rfl
  have read : Slot.bytes? kind other.values.bytes source = some run := found
  apply Ends.eq_ok
  unfold copyFrom
  rw [Bitmap.bit?_eq, if_pos (Column.lt_capacity_iff.mp held).2]
  simp only [read, flag]
  rw [ends_bind, ends_putBytes, if_pos room, ends_putValid, Column.validity_withBytes, if_pos covered]

/-- Where new memory is to be had, a split fills it with the range. -/
theorem split_eq (inside : start + length ≤ other.capacity) (bounded : other.capacity < Word.size)
    (allocated : allocate length session = .ok () fresh) :
    ∃ (filled : Column n kind) (ledger : Ledger n),
      split other start length session = .ok () ⟨{ filled with count := length }, ledger⟩ ∧
        filled.Filled fresh.column other start length ∧ fresh.ledger.Alike ledger := by
  have renewed : fresh.column = session.column.renewed length :=
    (allocate_ends session length).of_ok allocated
  obtain ⟨notice, same⟩ := split_of_inside session inside bounded
  obtain ⟨_, ⟨column, ledger⟩, ran, _, alike⟩ :=
    (allocate_respects length _ _ (session.alike_noted notice)).of_ok allocated
  obtain rfl : column = session.column.renewed length := alike.same.trans renewed
  obtain ⟨run, bits, sliced, size, bit, filled⟩ := fill_renewed session.column ledger inside
  refine ⟨((session.column.renewed length).withBytes 0 run).withBits bits, ledger, ?_, ?_, alike.ledger⟩
  · rw [same]
    exact bind_ok.mpr ⟨(), _, ran, filled⟩
  · rw [renewed]
    exact Column.filled_of_copied sliced bit size

theorem split_stops {failure : Failure} {stopped : Session n kind}
    (inside : start + length ≤ other.capacity) (bounded : other.capacity < Word.size)
    (refused : allocate length session = .error failure stopped) :
    ∃ last, split other start length session = .error failure last ∧ stopped.Alike last := by
  obtain ⟨notice, same⟩ := split_of_inside session inside bounded
  obtain ⟨last, ran, alike⟩ :=
    (allocate_respects length _ _ (session.alike_noted notice)).of_error refused
  refine ⟨last, ?_, alike⟩
  rw [same]
  exact bind_error.mpr (.inl ran)

end Edit

end Columnar
