import Columnar.Proofs.Column.Bounds
import Columnar.Proofs.Column.Commuting

namespace Columnar

open Columnar.Action

variable {n : Nat} {kind : Kind} {index : Nat}

namespace Column

variable {column later last : Column n kind}

/-! ### Reads that may go wrong -/

/-- The validity of a slot; nothing where the bitmap falls short of its bit. -/
def readBit? (column : Column n kind) (index : Nat) : Option UInt8 :=
  if index < column.capacity then Bitmap.bit? column.validity.bytes index else some 0

/-- The value of a slot; nothing where the end of the slot is no word, or where it lies beyond the
values. -/
def readBits? (column : Column n kind) (index : Nat) : Option (Element kind) :=
  if (index + 1) * kind.width < Word.size then Slot.read? kind column.values.bytes index else none

/-- What `get` answers; nothing where one of its reads goes wrong. -/
def readValue? (column : Column n kind) (index : Nat) : Option (Except Error (Element kind)) :=
  if column.capacity ≤ index then
    some (.error (.outOfBound index column.capacity))
  else if column.config.nullChecking then do
    if (← Bitmap.bit? column.validity.bytes index) = 0 then
      return .error (.nullRead index)
    else
      return .ok (← column.readBits? index)
  else do
    return .ok (← column.readBits? index)

/-- What `get?` answers; nothing where one of its reads goes wrong. -/
def readObject? (column : Column n kind) (index : Nat) : Option (Option (Element kind)) := do
  if (← column.readBit? index) = 0 then
    return none
  else
    return some (← column.readBits? index)

/-- What `cell` answers; nothing where one of its reads goes wrong. -/
def readCell? (column : Column n kind) (index : Nat) : Option (Cell kind) := do
  if (← column.readBit? index) = 0 then
    return .null
  else
    return .valid (← column.readBits? index)

/-- None of the accessors goes wrong at a slot. -/
structure Answers (column : Column n kind) (index : Nat) : Prop where
  bit : column.readBit? index = some (column.validBit index)
  null : (column.readBit? index).map (· == 0) = some (column.isNull index)
  object : column.readObject? index = some (column.get? index)
  cell : column.readCell? index = some (column.cell index)
  value : column.readValue? index = some (column.get index)

theorem readBit?_eq (column : Column n kind) (index : Nat) :
    column.readBit? index = some (column.validBit index) := by
  unfold readBit? validBit
  by_cases inside : index < column.capacity
  · have covered := (lt_capacity_iff.mp inside).2
    rw [if_pos inside, if_pos inside, Bitmap.bit?_eq, if_pos covered, Option.getD_some]
  · rw [if_neg inside, if_neg inside]

/-- Within the capacity the bytes of a slot are there, and so its end is a word. -/
theorem Bounded.readBits?_eq (bounded : column.Bounded) (inside : index < column.capacity) :
    column.readBits? index = some (column.bitsAt index) := by
  have within : (index + 1) * kind.width ≤ column.values.bytes.size := (lt_capacity_iff.mp inside).1
  have word : (index + 1) * kind.width < Word.size :=
    Nat.lt_of_le_of_lt (within.trans bounded.values) (by decide)
  obtain ⟨run, found⟩ := Option.isSome_iff_exists.mp (bytes?_isSome inside)
  rw [readBits?, if_pos word, bitsAt, Slot.read?_of_bytes? found, Option.getD_some]

theorem lt_capacity_of_validBit (valid : column.validBit index ≠ 0) : index < column.capacity := by
  by_contra beyond
  exact valid (if_neg beyond)

/-- In a column of blocks that memory can hold, no accessor goes wrong, at any slot. -/
theorem Bounded.answers (bounded : column.Bounded) (index : Nat) : column.Answers index where
  bit := column.readBit?_eq index
  null := by
    rw [readBit?_eq, Option.map_some]
    rfl
  object := by
    by_cases null : column.validBit index = 0
    · simp [readObject?, readBit?_eq, get?, isNull, null]
    · have read := bounded.readBits?_eq (lt_capacity_of_validBit null)
      simp [readObject?, readBit?_eq, get?, isNull, null, read]
  cell := by
    by_cases null : column.validBit index = 0
    · simp [readCell?, readBit?_eq, cell, isNull, null]
    · have read := bounded.readBits?_eq (lt_capacity_of_validBit null)
      simp [readCell?, readBit?_eq, cell, isNull, null, read]
  value := by
    by_cases inside : index < column.capacity
    · have beyond := Nat.not_le_of_lt inside
      have read := bounded.readBits?_eq inside
      have bit : Bitmap.bit? column.validity.bytes index = some (column.validBit index) := by
        rw [← column.readBit?_eq index, readBit?, if_pos inside]
      rw [readValue?, Column.get, if_neg beyond, if_neg beyond, bit, isNull]
      cases column.config.nullChecking
      · simp [read]
      · by_cases null : column.validBit index = 0 <;> simp [read, null]
    · have beyond := Nat.le_of_not_lt inside
      rw [readValue?, Column.get, if_pos beyond, if_pos beyond]

/-! ### Agreement -/

/-- The accessors agree on a slot: on its value where it is valid, and else that it is null. There `get`
refuses, or where nulls are not checked decodes the bytes of the slot. -/
structure Agrees (column : Column n kind) (index : Nat) : Prop where
  binary : column.validBit index = 0 ∨ column.validBit index = 1
  null : column.isNull index = false ↔ column.validBit index = 1
  object : (column.get? index).isSome ↔ column.validBit index = 1
  flag : 0 < (column.cell index).flag ↔ column.validBit index = 1
  toOption : (column.cell index).toOption = column.get? index
  valid : ∀ value, column.get? index = some value → column.get index = .ok value
  beyond : column.capacity ≤ index →
    column.get index = .error (.outOfBound index column.capacity) ∧ column.validBit index = 0
  checked : index < column.capacity → column.get? index = none → column.config.nullChecking = true →
    column.get index = .error (.nullRead index)
  unchecked : index < column.capacity → column.config.nullChecking = false →
    ∃ run, column.bytes? index = some run ∧ column.get index = .ok (Element.ofBytes run)

/-- Within the capacity, `get` refuses a null that it checks, and else decodes the slot's bytes. -/
theorem get_eq (inside : index < column.capacity) : column.get index =
    if column.config.nullChecking && column.isNull index then .error (.nullRead index)
    else .ok (column.bitsAt index) := by
  rw [Column.get, if_neg (Nat.not_le_of_lt inside)]

theorem bitsAt_of_bytes? {run : List UInt8} (found : column.bytes? index = some run) :
    column.bitsAt index = Element.ofBytes run := by
  rw [bitsAt, Slot.read?_of_bytes? found, Option.getD_some]

theorem agrees_of_null (null : column.validBit index = 0) : column.Agrees index := by
  have isNull : column.isNull index = true := by simp [Column.isNull, null]
  have object : column.get? index = none := by simp [get?, isNull]
  have cell : column.cell index = .null := by simp [Column.cell, isNull]
  exact
    { binary := .inl null
      null := by simp [isNull, null]
      object := by simp [object, null]
      flag := by simp [cell, Cell.null, null]
      toOption := by simp [cell, object, Cell.null, Cell.toOption]
      valid := by simp [object]
      beyond := fun outside => ⟨if_pos outside, null⟩
      checked := fun inside _ checks => by
        rw [get_eq inside, checks, isNull, Bool.and_self, if_pos rfl]
      unchecked := fun inside passes => by
        obtain ⟨run, found⟩ := Option.isSome_iff_exists.mp (bytes?_isSome inside)
        rw [get_eq inside, passes, Bool.false_and, if_neg Bool.false_ne_true, bitsAt_of_bytes? found]
        exact ⟨run, found, rfl⟩ }

theorem agrees_of_valid (valid : column.validBit index = 1) : column.Agrees index := by
  have isNull : column.isNull index = false := by simp [Column.isNull, valid]
  have object : column.get? index = some (column.bitsAt index) := by simp [get?, isNull]
  have cell : column.cell index = .valid (column.bitsAt index) := by simp [Column.cell, isNull]
  have inside : index < column.capacity := lt_capacity_of_validBit (by simp [valid])
  have value : column.get index = .ok (column.bitsAt index) := by
    rw [get_eq inside, isNull, Bool.and_false, if_neg Bool.false_ne_true]
  exact
    { binary := .inr valid
      null := by simp [isNull, valid]
      object := by simp [object, valid]
      flag := by simp [cell, Cell.valid, valid]
      toOption := by simp [cell, object, Cell.valid, Cell.toOption]
      valid := fun shown found => by
        rw [object] at found
        cases found
        exact value
      beyond := fun outside => absurd inside (Nat.not_lt_of_le outside)
      checked := by simp [object]
      unchecked := fun _ _ => by
        obtain ⟨run, found⟩ := Option.isSome_iff_exists.mp (bytes?_isSome inside)
        rw [bitsAt_of_bytes? found] at value
        exact ⟨run, found, value⟩ }

/-- In every column, reached or not, the accessors agree. -/
theorem agrees (column : Column n kind) (index : Nat) : column.Agrees index := by
  by_cases held : index < column.capacity ∧ column.bit index = true
  · exact agrees_of_valid (validBit_eq.trans (if_pos held))
  · exact agrees_of_null (validBit_eq.trans (if_neg held))

/-! ### Bytes under nulls -/

/-- The later column has the slots of the column, with the same bytes, under the same configuration.
Which of them are valid is left open. -/
structure KeepsBytes (column later : Column n kind) : Prop where
  config : later.config = column.config
  capacity : column.capacity ≤ later.capacity
  bytes? : ∀ index, index < column.capacity → later.bytes? index = column.bytes? index

theorem keepsBytes_refl (column : Column n kind) : column.KeepsBytes column :=
  ⟨rfl, le_rfl, fun _ _ => rfl⟩

namespace KeepsBytes

theorem grown (kept : column.KeepsBytes later) (grown : later.Grown last) :
    column.KeepsBytes last where
  config := grown.config.trans kept.config
  capacity := kept.capacity.trans grown.capacity_le
  bytes? index inside :=
    (grown.bytes? (Nat.lt_of_lt_of_le inside kept.capacity)).trans (kept.bytes? index inside)

theorem withValid (kept : column.KeepsBytes later) (place : Nat) (valid : Bool) :
    column.KeepsBytes (later.withValid place valid) where
  config := kept.config
  capacity := by
    rw [capacity_withValid]
    exact kept.capacity
  bytes? := kept.bytes?

/-- Where nulls are not checked, or the slot is none, `get` gives what the bytes stood for before. -/
theorem get_eq (kept : column.KeepsBytes later) (inside : index < column.capacity) :
    later.get index =
      if column.config.nullChecking && later.isNull index then .error (.nullRead index)
      else .ok (column.bitsAt index) := by
  have same : later.bitsAt index = column.bitsAt index := by
    rw [bitsAt_eq, bitsAt_eq, kept.bytes? index inside]
  rw [Column.get_eq (Nat.lt_of_lt_of_le inside kept.capacity), kept.config, same]

end KeepsBytes

theorem get?_eq_some {value : Element kind} (shown : column.get? index = some value) :
    index < column.capacity ∧ column.bitsAt index = value := by
  rw [get?_eq] at shown
  obtain ⟨valid, same⟩ := Option.ite_none_right_eq_some.mp shown
  cases same
  exact ⟨valid.1, rfl⟩

end Column

/-- The slot that a call makes null without a look at its value. -/
def Call.nulls? : Call kind → Option Nat
  | setNull index => some index
  | setIf index flag _ | setIfSafe index flag _ => if 0 < flag then none else some index
  | setCell index cell | setCellSafe index cell => if cell.flag = 0 then some index else none
  | _ => none

namespace Edit

variable {column : Column n kind}

/-- The edit keeps the bytes of a column, however it ends, and where it ends well a slot is null. -/
def Nulls (index : Nat) (edit : Edit n kind Unit) : Prop :=
  ∀ (column : Column n kind) (session : Session n kind), column.KeepsBytes session.column →
    Ends edit session
      (fun _ after => column.KeepsBytes after.column ∧ after.column.isNull index = true)
      (fun _ after => column.KeepsBytes after.column)

theorem putValid_nulls (index : Nat) : Nulls index (putValid index false : Edit n kind Unit) := by
  intro column session kept
  rw [ends_putValid]
  by_cases covered : Bitmap.Covers session.column.validity.bytes index
  · have null : (session.column.withValid index false).get? index = none :=
      Column.get?_of_null (by rw [Column.bit_withValid covered, if_pos rfl])
    rw [if_pos covered]
    refine ⟨kept.withValid index false, ?_⟩
    by_contra valid
    simp [Column.get?, valid] at null
  · rw [if_neg covered]
    exact kept

theorem Nulls.reserve_first {edit : Edit n kind Unit} (nulls : Nulls index edit) (needed : Nat) :
    Nulls index (reserve needed >>= fun _ => edit) := by
  intro column session kept
  refine ends_bind.mpr ((reserve_grows needed session).mono ?_ fun _ _ grown => kept.grown grown)
  intro _ between reached
  exact nulls column between (kept.grown reached.1)

theorem setIf_nulls {flag : Int} (null : ¬ 0 < flag) (index : Nat) (value : Element kind) :
    Nulls index (setIf index flag value : Edit n kind Unit) := by
  rw [setIf, if_neg null]
  exact putValid_nulls index

end Edit

theorem Call.edit_nulls {call : Call kind} (nulls : call.nulls? = some index) :
    Edit.Nulls index (call.edit : Edit n kind Unit) := by
  cases call with
  | setNull place =>
    cases nulls
    exact (Edit.putValid_nulls index).reserve_first _
  | setIf place flag value =>
    obtain ⟨null, same⟩ := Option.ite_none_left_eq_some.mp nulls
    cases same
    exact Edit.setIf_nulls null index value
  | setIfSafe place flag value =>
    obtain ⟨null, same⟩ := Option.ite_none_left_eq_some.mp nulls
    cases same
    exact (Edit.setIf_nulls null index value).reserve_first _
  | setCell place cell =>
    obtain ⟨null, same⟩ := Option.ite_none_right_eq_some.mp nulls
    cases same
    rw [edit, Edit.setCell, if_neg (by omega)]
    exact Edit.setIf_nulls (by omega) index cell.value
  | setCellSafe place cell =>
    obtain ⟨null, same⟩ := Option.ite_none_right_eq_some.mp nulls
    cases same
    rw [edit, Edit.setCellSafe, if_neg (by omega)]
    exact (Edit.setIf_nulls (by omega) index cell.value).reserve_first _
  | _ => cases nulls

theorem Edit.ok_of_failure? {edit : Edit n kind Unit} {session : Session n kind}
    (fine : edit.failure? session = none) : ∃ after, edit session = .ok () after := by
  cases ran : edit session with
  | ok _ after => exact ⟨after, rfl⟩
  | error failure after =>
    rw [(Edit.outcome_error ran).1] at fine
    cases fine

namespace Column

variable {column : Column n kind}

theorem capacity_marked (column : Column n kind) (index : Nat) (value : Element kind) :
    (column.marked index (some value)).capacity = column.capacity :=
  (capacity_withValid _ index true).trans (capacity_withBytes column index value.toBytes)

theorem bit_marked (inside : index < column.capacity) (value : Element kind) (other : Nat) :
    (column.marked index (some value)).bit other = if other = index then true else column.bit other := by
  have covered : Bitmap.Covers (column.withBytes index value.toBytes).validity.bytes index :=
    (lt_capacity_iff.mp inside).2
  exact bit_withValid covered true other

theorem get?_marked_self (inside : index < column.capacity) (value : Element kind) :
    (column.marked index (some value)).get? index = some value := by
  have room : index < (column.marked index (some value)).capacity := by
    rwa [capacity_marked]
  have bit : (column.marked index (some value)).bit index = true :=
    (bit_marked inside value index).trans (if_pos rfl)
  have bytes : (column.marked index (some value)).bytes? index = some value.toBytes :=
    bytes?_withBytes_self value.length_toBytes (lt_capacity_iff.mp inside).1
  rw [get?_of_valid room bit bytes, Element.ofBytes_toBytes]

end Column

theorem Edit.set_reads (session : Session n kind) (index : Nat) (value : Element kind) :
    Ends (Edit.set index value) session (fun _ after => after.column.get? index = some value ∧
      after.column.config = session.column.config) (fun _ _ => True) := by
  rw [Edit.set, Edit.putValue_eq, ends_bind, Edit.ends_putBytes]
  by_cases room : index * kind.width + value.toBytes.length ≤ session.column.values.bytes.size
  · rw [if_pos room, Edit.ends_putValid, Column.validity_withBytes]
    by_cases covered : Bitmap.Covers session.column.validity.bytes index
    · have within : Slot.Within kind session.column.values.bytes index := by
        rwa [value.length_toBytes, ← Nat.succ_mul] at room
      have inside : index < session.column.capacity := Column.lt_capacity_iff.mpr ⟨within, covered⟩
      rw [if_pos covered]
      exact ⟨Column.get?_marked_self inside value, rfl⟩
    · rw [if_neg covered]
      trivial
  · rw [if_neg room]
    trivial

/-- However many slots are made null one after another, the bytes of all of them stay. -/
theorem Session.keepsBytes_runAll {column : Column n kind} {session : Session n kind}
    {calls : List (Call kind)} (nulls : ∀ call ∈ calls, call.nulls?.isSome)
    (kept : column.KeepsBytes session.column) : column.KeepsBytes (session.runAll calls).column := by
  induction calls generalizing session with
  | nil => exact kept
  | cons call rest ih =>
    obtain ⟨first, others⟩ := List.forall_mem_cons.mp nulls
    obtain ⟨place, named⟩ := Option.isSome_iff_exists.mp first
    have ends := Call.edit_nulls named column session kept
    have step : column.KeepsBytes (session.after call.edit).column := by
      rcases Edit.after_of_ends ends with ⟨_, keeps, _⟩ | ⟨_, _, keeps⟩
      · exact keeps
      · exact keeps
    exact ih others step

end Columnar
