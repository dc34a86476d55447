import Columnar.Proofs.Column.SlotCopy
import Columnar.Proofs.Store.Breaches

namespace Columnar.Store

open Columnar.Action

variable {n : Nat} {kind : Kind} {store : Store n} {source target : String}

section

variable {other column : Column n kind} (apart : target ≠ source)
variable (read : store.columns.find? source = some ⟨kind, other⟩)
variable (held : store.columns.find? target = some ⟨kind, column⟩)

include apart read held

theorem copy_of_inside {sourceIndex targetIndex : Nat} (there : sourceIndex < other.capacity)
    (here : targetIndex < column.capacity) :
    store.Succeeds (.copy target source false sourceIndex targetIndex) ∧
      ∃ later : Column n kind, column.Copied other sourceIndex targetIndex later ∧
        store.after (.copy target source false sourceIndex targetIndex) =
          (store.withoutColumn target).withSession target ⟨later, store.ledger⟩ := by
  have edits := edits_copy apart read held sourceIndex targetIndex
  obtain ⟨later, copied, same⟩ := Edit.copyFrom_copies ⟨column, store.ledger⟩ there here
  exact ⟨(edits.after copied).1, later, same, (edits.after copied).2⟩

theorem copy_of_outside {sourceIndex targetIndex : Nat}
    (outside : ¬ (sourceIndex < other.capacity ∧ targetIndex < column.capacity)) :
    (Command.copy target source false sourceIndex targetIndex).fault? store =
      some (.failed .outOfRange) := by
  have edits := edits_copy apart read held sourceIndex targetIndex
  have breaches := Edit.copyFrom_breaches ⟨column, store.ledger⟩ outside
  cases ran : Edit.copyFrom other sourceIndex targetIndex ⟨column, store.ledger⟩ with
  | ok _ later => exact (breaches.of_ok ran).elim
  | error failure stopped =>
    obtain ⟨rfl, _⟩ := breaches.of_error ran
    exact (edits.after_error ran).1

/-- However a copy ends, growing its target first or not, nothing but its target has changed. Where it
stops the target has all its slots. -/
theorem copy_frames (safe : Bool) (sourceIndex targetIndex : Nat) :
    let command : Command n := .copy target source safe sourceIndex targetIndex
    (store.after command).blocks = store.blocks ∧
      (∀ name, name ≠ target → (store.after command).columns.find? name = store.columns.find? name) ∧
      ∀ fault, command.fault? store = some fault → ∃ later : Column n kind,
        (store.after command).columns.find? target = some ⟨kind, later⟩ ∧
        column.Retained later ∧ (safe = true → column.Grown later) := by
  intro command
  let edit : Edit n kind Unit := if safe then Edit.copyFromSafe other sourceIndex targetIndex
    else Edit.copyFrom other sourceIndex targetIndex
  have edits : store.Edits target column edit command := by
    cases safe with
    | false => exact edits_copy apart read held sourceIndex targetIndex
    | true => exact edits_copySafe apart read held sourceIndex targetIndex
  have stops : Ends edit ⟨column, store.ledger⟩ (fun _ _ => True) (fun _ after =>
      column.Retained after.column ∧ (safe = true → column.Grown after.column)) := by
    cases safe with
    | false =>
      exact (Edit.copyFrom_stops other sourceIndex targetIndex _).mono_stop fun _ _ stopped =>
        ⟨stopped.2.1, fun safe => by cases safe⟩
    | true =>
      exact (Edit.copyFromSafe_stops other sourceIndex targetIndex _).mono_stop fun _ _ grown =>
        ⟨grown.retained, fun _ => grown⟩
  rw [edits.after_eq, edits.fault?]
  refine ⟨rfl, fun name distant => find?_withSession_of_ne distant.symm _, fun fault stopped => ?_⟩
  cases ran : edit ⟨column, store.ledger⟩ with
  | ok _ later => simp [(Edit.outcome_ok ran).1] at stopped
  | error failure later =>
    rw [(Edit.outcome_error ran).2]
    exact ⟨later.column, find?_withSession_self _ target later, stops.of_error ran⟩

end

/-- A copy of a slot ends well where both columns have the slots, and is a breach where one has not. Nothing
but the target changes, and where the copy stops not even the slots of that. -/
theorem copy_exactly {other column : Column n kind} (apart : target ≠ source)
    (read : store.columns.find? source = some ⟨kind, other⟩)
    (held : store.columns.find? target = some ⟨kind, column⟩) (sourceIndex targetIndex : Nat) :
    let copy (safe : Bool) : Command n := .copy target source safe sourceIndex targetIndex
    ((copy false).fault? store =
      if sourceIndex < other.capacity ∧ targetIndex < column.capacity then none
      else some (.failed .outOfRange)) ∧
    ((copy false).fault? store = none → (store.after (copy false)).ledger = store.ledger ∧
      ∃ later : Column n kind,
        (store.after (copy false)).columns.find? target = some ⟨kind, later⟩ ∧
        column.Copied other sourceIndex targetIndex later) ∧
    ∀ safe, (store.after (copy safe)).blocks = store.blocks ∧
      (∀ name, name ≠ target →
        (store.after (copy safe)).columns.find? name = store.columns.find? name) ∧
      ∀ fault, (copy safe).fault? store = some fault → ∃ later : Column n kind,
        (store.after (copy safe)).columns.find? target = some ⟨kind, later⟩ ∧
        column.Retained later ∧ (safe = true → column.Grown later) := by
  intro copy
  have frames (safe : Bool) := copy_frames apart read held safe sourceIndex targetIndex
  by_cases both : sourceIndex < other.capacity ∧ targetIndex < column.capacity
  · obtain ⟨well, later, copied, after⟩ := copy_of_inside apart read held both.1 both.2
    refine ⟨well.trans (if_pos both).symm, fun _ => ?_, frames⟩
    rw [show store.after (copy false) = _ from after]
    exact ⟨rfl, later, find?_withSession_self _ target _, copied⟩
  · have breach := copy_of_outside apart read held both
    refine ⟨breach.trans (if_neg both).symm, fun well => ?_, frames⟩
    rw [show (copy false).fault? store = _ from breach] at well
    cases well

/-- A run that makes two columns of eight slots, one with a value. -/
def facing : List (Command 1) := pairing ++ [.edit "y" .uint16 (.allocate 8)]

theorem find?_facing_source : ((ofLimits #v[100]).runAll facing).columns.find? "x" =
    some ⟨.uint16, (((Column.empty "x" 0 {}).renewed 8).withBytes 3 [7, 0]).withValid 3 true⟩ := by
  cbv

theorem find?_facing_target : ((ofLimits #v[100]).runAll facing).columns.find? "y" =
    some ⟨.uint16, (Column.empty "y" 0 {}).renewed 8⟩ := by
  cbv

theorem copy_exactly_facing :
    let store := (ofLimits #v[100]).runAll facing
    (Command.copy "y" "x" false 3 8).fault? store = some (.failed .outOfRange) ∧
      ∃ later : Column 1 .uint16,
        (store.after (.copy "y" "x" false 3 5)).columns.find? "y" = some ⟨.uint16, later⟩ ∧
          later.bit 5 = true ∧ later.bytes? 5 = some [7, 0] ∧ later.bit 4 = false := by
  intro store
  have apart : "y" ≠ "x" := by decide
  have breach := (copy_exactly apart find?_facing_source find?_facing_target 3 8).1
  obtain ⟨ends, effect, _⟩ := copy_exactly apart find?_facing_source find?_facing_target 3 5
  obtain ⟨_, later, found, copied⟩ := effect (ends.trans (if_pos (by decide +kernel)))
  refine ⟨breach.trans (if_neg (by decide +kernel)), later, found, ?_, ?_, ?_⟩
  · rw [copied.bit]
    decide +kernel
  · rw [copied.bytes]
    decide +kernel
  · rw [copied.bit]
    decide +kernel

end Columnar.Store
