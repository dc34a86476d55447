import Columnar.Proofs.Column.Commuting
import Columnar.Proofs.Store.Slotwise

namespace Columnar

open Columnar.Action

variable {n : Nat} {kind : Kind} {index : Nat} {value? : Option (Element kind)}

/-- The slot of a call that writes it without growing the column first, with the value or the null that
the call writes. -/
def Call.plain? : Call kind → Option (Nat × Option (Element kind))
  | set index value => some (index, some value)
  | setHolder index holder => some (index, some holder.value)
  | setTruncated index number => some (index, some (Element.truncate kind number))
  | setIf index flag value => some (index, if 0 < flag then some value else none)
  | setCell index cell =>
    if cell.flag < 0 then none
    else some (index, if 0 < cell.flag then some cell.value else none)
  | _ => none

namespace Column

/-- The number of slots to which a value, or a null, can be written. -/
def reach (column : Column n kind) : Option (Element kind) → Nat
  | some _ => column.capacity
  | none => column.validity.size * 8

/-- The bitmap never falls short of the capacity. -/
theorem capacity_le_reach (column : Column n kind) (value? : Option (Element kind)) :
    column.capacity ≤ column.reach value? := by
  cases value? with
  | none => exact Nat.min_le_right _ _
  | some _ => exact le_rfl

theorem lt_reach_null {column : Column n kind} :
    index < column.reach none ↔ Bitmap.Covers column.validity.bytes index := by
  rw [Bitmap.Covers, Nat.div_lt_iff_lt_mul (by decide)]
  rfl

end Column

namespace Edit

theorem setIf_eq (index : Nat) (flag : Int) (value : Element kind) :
    (setIf index flag value : Edit n kind Unit) = mark index (if 0 < flag then some value else none) := by
  rw [setIf]
  split
  · rfl
  · rfl

theorem failure?_set_beyond {session : Session n kind} (value : Element kind)
    (beyond : ¬ index < session.column.capacity) :
    (set index value).failure? session = some .outOfRange := by
  by_cases within : Slot.Within kind session.column.values.bytes index
  · have bare : ¬ Bitmap.Covers session.column.validity.bytes index := fun covered =>
      beyond (Column.lt_capacity_iff.mpr ⟨within, covered⟩)
    let written := session.mapValues (Slot.write kind · index value)
    have placed : putValue index value session = .ok () written := by
      rw [putValue, if_pos within]
    have refused : putValid index true written = .error .outOfRange written := if_neg bare
    exact (outcome_error (bind_error.mpr (.inr ⟨_, _, placed, refused⟩))).1
  · have refused : putValue index value session = .error .outOfRange session := if_neg within
    exact (outcome_error (bind_error.mpr (.inl refused))).1

/-- A write either succeeds, within its reach, or is a breach. -/
theorem failure?_mark (index : Nat) (value? : Option (Element kind)) (session : Session n kind) :
    (mark index value?).failure? session =
      if index < session.column.reach value? then none else some .outOfRange := by
  cases value? with
  | none =>
    by_cases within : index < session.column.reach none
    · rw [if_pos within]
      simp only [failure?, mark, putValid, if_pos (Column.lt_reach_null.mp within)]
    · rw [if_neg within]
      simp only [failure?, mark, putValid, if_neg fun covered =>
        within (Column.lt_reach_null.mpr covered)]
  | some value =>
    by_cases within : index < session.column.reach (some value)
    · rw [if_pos within]
      exact (outcome_ok (mark_eq within (some value))).1
    · rw [if_neg within]
      exact failure?_set_beyond value within

end Edit

theorem Call.edit_of_plain {call : Call kind} (plain : call.plain? = some (index, value?)) :
    (call.edit : Edit n kind Unit) = Edit.mark index value? := by
  cases call with
  | set | setHolder | setTruncated =>
    cases plain
    rfl
  | setIf place flag value =>
    cases plain
    exact Edit.setIf_eq index flag value
  | setCell place cell =>
    simp only [plain?] at plain
    split at plain
    · cases plain
    · rename_i admitted
      cases plain
      simp only [Call.edit, Edit.setCell, if_neg admitted, Edit.setIf_eq]
  | _ => cases plain

namespace Store

variable {store : Store n} {name : String} {column : Column n kind}

theorem Edits.fault? {edit : Edit n kind Unit} {command : Command n}
    (edits : store.Edits name column edit command) :
    command.fault? store = (edit.failure? ⟨column, store.ledger⟩).map .failed := by
  cases ran : edit ⟨column, store.ledger⟩ with
  | ok _ later =>
    rw [(Edit.outcome_ok ran).1]
    exact (edits.after ran).1
  | error failure stopped =>
    rw [(Edit.outcome_error ran).1]
    exact (edits.after_error ran).1

theorem Edits.after_eq {edit : Edit n kind Unit} {command : Command n}
    (edits : store.Edits name column edit command) :
    store.after command = (store.withoutColumn name).withSession name
      (Session.after ⟨column, store.ledger⟩ edit) := by
  cases ran : edit ⟨column, store.ledger⟩ with
  | ok _ later => rw [(edits.after ran).2, (Edit.outcome_ok ran).2]
  | error failure stopped => rw [(edits.after_error ran).2, (Edit.outcome_error ran).2]

/-- A plain write of a value is a breach exactly beyond the capacity, one of a null only where the validity
block has no such bit. No other fault stops them. -/
theorem breaches_iff (found : store.columns.find? name = some ⟨kind, column⟩) {call : Call kind}
    (plain : call.plain? = some (index, value?)) :
    let fault? := (Command.edit name kind call).fault? store
    (fault? = some (.failed .outOfRange) ↔ column.reach value? ≤ index) ∧
      (fault? = none ↔ index < column.reach value?) ∧
      column.capacity ≤ column.reach value? ∧
      (value?.isSome → column.reach value? = column.capacity) := by
  intro fault?
  have stops : fault? = if index < column.reach value? then none else some (.failed .outOfRange) := by
    rw [show fault? = _ from (edits_edit found call).fault?, Call.edit_of_plain plain,
      Edit.failure?_mark]
    split
    · rfl
    · rfl
  refine ⟨?_, ?_, column.capacity_le_reach value?, ?_⟩
  · by_cases within : index < column.reach value?
    · simp [stops, within]
    · simp [stops, Nat.le_of_not_lt within]
  · by_cases within : index < column.reach value?
    · simp [stops, within]
    · simp [stops, within]
  · intro written
    obtain ⟨value, rfl⟩ := Option.isSome_iff_exists.mp written
    rfl

theorem breaches_iff_pairing :
    let store := (ofLimits #v[100]).runAll pairing
    (Command.edit "x" .uint16 (.set 8 5)).fault? store = some (.failed .outOfRange) ∧
      (Command.edit "x" .uint16 (.setCell 7 ⟨1, 5⟩)).fault? store = none ∧
      (Command.edit "x" .uint16 (.setIf 128 0 5)).fault? store = some (.failed .outOfRange) := by
  have beyond : (Call.set 8 5 : Call .uint16).plain? = some (8, some 5) := rfl
  have inside : (Call.setCell 7 ⟨1, 5⟩ : Call .uint16).plain? = some (7, some 5) := rfl
  have null : (Call.setIf 128 0 5 : Call .uint16).plain? = some (128, none) := rfl
  have found := find?_pairing_source
  refine ⟨(breaches_iff found beyond).1.mpr ?_, (breaches_iff found inside).2.1.mpr ?_,
    (breaches_iff found null).1.mpr ?_⟩ <;> decide +kernel

/-- A null is written beyond the capacity, since the bitmap of eight slots has bits for more. -/
theorem breaches_iff_short :
    ¬ ∀ (limits : Vector Nat 1) (commands : List (Command 1)) (name : String) (kind : Kind)
        (column : Column 1 kind) (call : Call kind) (index : Nat) (value? : Option (Element kind)),
      let store := (ofLimits limits).runAll commands
      store.columns.find? name = some ⟨kind, column⟩ → call.plain? = some (index, value?) →
        ((Command.edit name kind call).fault? store = some (.failed .outOfRange) ↔
          column.capacity ≤ index) := by
  intro always
  have breach := (always #v[100] pairing "x" .uint16 _ (.setIf 8 0 5) 8 none find?_pairing_source
    rfl).mpr (by decide +kernel)
  revert breach
  decide +kernel

end Store

end Columnar
