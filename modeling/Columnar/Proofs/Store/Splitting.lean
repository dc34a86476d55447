import Columnar.Proofs.Store.Entries

namespace Columnar

open Columnar.Action

variable {n : Nat} {kind : Kind}

namespace Column

variable {column other : Column n kind} {start length index : Nat}

theorem isNull_of_clear (clear : column.bit index = false) : column.isNull index = true := by
  rw [isNull, validBit_eq, clear, if_neg (by simp)]
  rfl

theorem Holds.isNull (holds : column.Holds other start length) (beyond : length ≤ index) :
    column.isNull index = true := by
  apply isNull_of_clear
  rw [holds.bit, decide_eq_false (Nat.not_lt_of_le beyond), Bool.false_and]

theorem Holds.get?_eq (holds : column.Holds other start length)
    (inside : start + length ≤ other.capacity) (used : index < length) :
    Bitmap.get? column.validity.bytes index = Bitmap.get? other.validity.bytes (start + index) := by
  have here := (lt_capacity_iff.mp (Nat.lt_of_lt_of_le used holds.fits)).2
  have there : start + index < other.capacity := by omega
  have same : column.bit index = other.bit (start + index) := by
    rw [holds.bit, decide_eq_true used, Bool.true_and]
  rw [Bitmap.get?_eq, Bitmap.get?_eq, if_pos here, if_pos (lt_capacity_iff.mp there).2]
  exact congrArg some same

end Column

namespace Store

variable {store : Store n} {source target : String}

theorem find?_withSession_of_ne (apart : target ≠ source) (session : Session n kind) :
    ((store.withoutColumn target).withSession target session).columns.find? source =
      store.columns.find? source := by
  rw [withSession, withColumn, Table.find?_put, if_neg (Ne.symm apart), withoutColumn,
    Table.find?_without_of_ne _ (Ne.symm apart)]

theorem find?_withSession_self (store : Store n) (target : String) (session : Session n kind) :
    (store.withSession target session).columns.find? target = some ⟨kind, session.column⟩ := by
  rw [withSession, withColumn, Table.find?_put, if_pos rfl]

/-- Where both columns are there and of one kind, a command that edits one beside the other runs
the edit on it. -/
theorem ends_editBeside_of_found {other column : Column n kind} (apart : target ≠ source)
    (read : store.columns.find? source = some ⟨kind, other⟩)
    (held : store.columns.find? target = some ⟨kind, column⟩)
    {edit : (kind : Kind) → Column n kind → Edit n kind Unit} {post : Unit → Store n → Prop}
    {stop : Fault → Store n → Prop}
    (edited : Ends (edit kind other) ⟨column, store.ledger⟩
      (fun _ session => post () ((store.withoutColumn target).withSession target session))
      (fun failure session =>
        stop (.failed failure) ((store.withoutColumn target).withSession target session))) :
    Ends (editBeside target source edit) store post stop := by
  refine ends_editBeside ?_ ?_ ?_
  · rintro name (rfl | rfl) (free | itself)
    · rw [read] at free
      cases free
    · exact absurd itself apart
    · rw [held] at free
      cases free
    · exact absurd itself apart
  · intro first second foundSource foundTarget different
    rw [read] at foundSource
    rw [held] at foundTarget
    cases foundSource
    cases foundTarget
    exact absurd rfl different
  · intro own first second _ foundSource foundTarget
    rw [read] at foundSource
    rw [held] at foundTarget
    cases foundSource
    cases foundTarget
    exact edited

/-- A split is refused for its range exactly where that does not lie within the source. The target then holds
the range, bit by bit and byte by byte, or nothing has changed. -/
theorem split_runAll (limits : Vector Nat n) (commands : List (Command n))
    {other column : Column n kind} (apart : target ≠ source)
    (read : ((ofLimits limits).runAll commands).columns.find? source = some ⟨kind, other⟩)
    (held : ((ofLimits limits).runAll commands).columns.find? target = some ⟨kind, column⟩)
    (start length : Nat) :
    Ends (Command.split source target start length).run ((ofLimits limits).runAll commands)
      (fun _ after => start + length ≤ other.capacity ∧
        after.columns.find? source = some ⟨kind, other⟩ ∧
        ∃ copied : Column n kind, after.columns.find? target = some ⟨kind, copied⟩ ∧
          copied.count = length ∧
          (∀ index, index < length →
            Bitmap.get? copied.validity.bytes index =
                Bitmap.get? other.validity.bytes (start + index) ∧
              Slot.bytes? kind copied.values.bytes index =
                Slot.bytes? kind other.values.bytes (start + index)) ∧
          ∀ index, length ≤ index → copied.isNull index)
      (fun fault after =>
        (other.capacity < start + length ↔
          ∃ cause, fault = .failed (.error cause) ∧ cause.category = .invalidArgument) ∧
        (∀ cause, fault = .failed (.error cause) →
          after.columns.find? source = some ⟨kind, other⟩ ∧
          after.columns.find? target = some ⟨kind, column⟩ ∧
          ∀ id, (after.ledger.account id).allocated =
            (((ofLimits limits).runAll commands).ledger.account id).allocated) ∧
        (start + length ≤ other.capacity →
          (∃ requested limit, fault = .failed (.error (.capacityExhausted requested limit))) ∨
            fault = .failed .tooLarge ∨ fault = .failed .overdrawn)) := by
  have small := ((boundedColumns.runAll limits commands).of_find? read).capacity_lt
  refine ends_bind.mpr (ends_editBeside_of_found apart read held ?_)
  refine (Edit.split_ends other start length _ small).mono ?_ ?_
  · intro _ session reached
    obtain ⟨inside, holds⟩ := reached
    refine ⟨inside, (find?_withSession_of_ne apart session).trans read, session.column,
      find?_withSession_self _ target session, holds.count, ?_, ?_⟩
    · exact fun index used => ⟨holds.get?_eq inside used, holds.bytes? index used⟩
    · exact fun index beyond => holds.isNull beyond
  · intro failure session stopped
    have unchanged (same : session.column = column)
        (charges : session.ledger.allocated = ((ofLimits limits).runAll commands).ledger.allocated) :
        let after := (((ofLimits limits).runAll commands).withoutColumn target).withSession target session
        after.columns.find? source = some ⟨kind, other⟩ ∧
          after.columns.find? target = some ⟨kind, column⟩ ∧
          ∀ id, (after.ledger.account id).allocated =
            (((ofLimits limits).runAll commands).ledger.account id).allocated := by
      refine ⟨(find?_withSession_of_ne apart session).trans read, ?_, congrFun charges⟩
      rw [find?_withSession_self, same]
    rcases stopped with ⟨outside, same, rfl, charges⟩ |
      ⟨inside, rfl | ⟨same, ⟨⟨requested, limit, rfl⟩, charges⟩ | rfl⟩⟩
    · refine ⟨iff_of_true outside ⟨_, rfl, rfl⟩, ?_, ?_⟩
      · exact fun _ _ => unchanged same charges
      · exact fun inside => absurd outside (Nat.not_lt_of_le inside)
    · exact ⟨iff_of_false (Nat.not_lt_of_le inside) (by simp), by simp, fun _ => .inr (.inr rfl)⟩
    · refine ⟨iff_of_false (Nat.not_lt_of_le inside) (by simp [Error.category]), ?_, ?_⟩
      · exact fun _ _ => unchanged same charges
      · exact fun _ => .inl ⟨requested, limit, rfl⟩
    · exact ⟨iff_of_false (Nat.not_lt_of_le inside) (by simp), by simp, fun _ => .inr (.inl rfl)⟩

/-- A run that makes a column of eight slots with one value and a column without memory. -/
def pairing : List (Command 1) :=
  [.create "x" .uint16 "x" none 0 {}, .create "y" .uint16 "y" none 0 {},
    .edit "x" .uint16 (.allocate 8), .edit "x" .uint16 (.set 3 7)]

theorem find?_pairing_source : ((ofLimits #v[100]).runAll pairing).columns.find? "x" =
    some ⟨.uint16, (((Column.empty "x" 0 {}).renewed 8).withBytes 3 [7, 0]).withValid 3 true⟩ := by
  cbv

theorem find?_pairing_target : ((ofLimits #v[100]).runAll pairing).columns.find? "y" =
    some ⟨.uint16, .empty "y" 0 {}⟩ := by
  cbv

theorem split_runAll_pairing :
    ∃ copied : Column 1 .uint16,
      (((ofLimits #v[100]).runAll pairing).after (.split "x" "y" 2 3)).columns.find? "y" =
          some ⟨.uint16, copied⟩ ∧
        copied.count = 3 ∧ Slot.bytes? .uint16 copied.values.bytes 1 = some [7, 0] ∧
        copied.isNull 3 := by
  have ends := split_runAll #v[100] pairing (by decide) find?_pairing_source find?_pairing_target 2 3
  rcases after_of_ends ends with
    ⟨_, _, _, copied, found, count, slots, beyond⟩ | ⟨fault, stopped, _⟩
  · refine ⟨copied, found, count, (slots 1 (by decide)).2.trans ?_, beyond 3 (by decide)⟩
    decide +kernel
  · have well : (Command.split "x" "y" 2 3).fault? ((ofLimits #v[100]).runAll pairing) = none := by
      decide +kernel
    rw [well] at stopped
    cases stopped

end Store

end Columnar
