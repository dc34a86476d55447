import Columnar.Proofs.Column.FirstGrowth
import Columnar.Proofs.Store.Breaches
import Columnar.Proofs.Store.Retries

namespace Columnar

open Columnar.Action

variable {n : Nat} {kind : Kind} {name : String}

namespace Store

variable {store : Store n} {column : Column n kind}

/-- Calls on one column all have the answer that each of them has, where all of them keep what it takes. -/
theorem along_calls {inv : Session n kind → Prop} {calls : List (Call kind)} (answer : Option Failure)
    (step : ∀ call ∈ calls, ∀ session : Session n kind, inv session →
      call.edit.failure? session = answer ∧ inv (session.after call.edit))
    (found : store.columns.find? name = some ⟨kind, column⟩) (start : inv ⟨column, store.ledger⟩) :
    store.Along (fun store command => command.fault? store = answer.map .failed)
      (calls.map (.edit name kind)) := by
  induction calls generalizing store column with
  | nil => trivial
  | cons call rest ih =>
    have edits := edits_edit found call
    obtain ⟨answered, kept⟩ := step call List.mem_cons_self _ start
    refine ⟨edits.fault?.trans (congrArg _ answered), ?_⟩
    rw [edits.after_eq]
    refine ih (fun other member => step other (List.mem_cons_of_mem _ member)) ?_ kept
    exact find?_withSession_self _ name _

/-- An initial capacity is accepted where the values of so many slots are allowed, and calls on the first
slots succeed where those of twice as many are. Else every call that needs a slot is refused. -/
theorem firstGrowth_iff (found : store.columns.find? name = some ⟨kind, column⟩)
    (values : column.values.size = 0) (validity : column.validity.size = 0) (slots : Nat) :
    let setting : Command n := .edit name kind (.setInitialCapacity slots)
    let limit := column.config.maxAllocationBytes
    let allowed (size : Nat) := size < Word.size ∧ size ≤ limit
    let ready := store.after setting
    (store.Succeeds setting ↔ allowed (slots * kind.width)) ∧
      (store.Succeeds setting → ready.Succeeds (.edit name kind (.setValueCount 0)) ∧
        ∀ calls : List (Call kind), (∀ call ∈ calls, call.Fills slots) →
          (allowed (2 * slots * kind.width) → column.Roomy store.ledger (2 * slots) →
            ready.Along Succeeds (calls.map (.edit name kind))) ∧
          (¬ allowed (2 * slots * kind.width) → (∀ call ∈ calls, 0 < call.needs) →
            ready.Along (FailsWith (.failed (.error (.capacityExhausted
              (Nat.min (2 * slots * kind.width) Word.max) limit)))) (calls.map (.edit name kind)))) := by
  intro setting limit allowed ready
  have edits := edits_edit found (.setInitialCapacity slots)
  have accepted : store.Succeeds setting ↔ allowed (slots * kind.width) := by
    rw [Succeeds, edits.fault?, Option.map_eq_none_iff]
    exact Edit.failure?_setInitialCapacity slots _
  refine ⟨accepted, fun succeeds => ?_⟩
  let primed : Column n kind := { column with remembered := slots }
  have starts : primed.Starts slots := ⟨values, validity, rfl⟩
  have after := (edits.after (Edit.setInitialCapacity_eq (accepted.mp succeeds))).2
  have has : ready.columns.find? name = some ⟨kind, primed⟩ := by
    rw [show ready = _ from after]
    exact find?_withSession_self _ name _
  have ledger : ready.ledger = store.ledger := (congrArg Store.ledger after).trans rfl
  refine ⟨?_, fun calls fills => ⟨fun fits roomy => ?_, fun beyond needs => ?_⟩⟩
  · exact ((edits_edit has (.setValueCount 0)).after (Edit.setValueCount_zero _)).1
  · have small : 2 * slots < Word.size := (Nat.le_mul_of_pos_right _ kind.width_pos).trans_lt fits.1
    have room : primed.Roomy ready.ledger (2 * slots) := by
      rw [ledger]
      exact ⟨roomy.small, roomy.unlimited, roomy.word⟩
    exact along_calls none (fun call member session => Edit.fills_usable (fills call member)) has
      (.inr ⟨starts, ⟨small, fits⟩, room⟩)
  · let cause : Failure :=
      .error (.capacityExhausted (Nat.min (2 * slots * kind.width) Word.max) limit)
    let Kept (session : Session n kind) : Prop := session.column = primed
    have kept : Kept ⟨primed, ready.ledger⟩ := rfl
    refine along_calls (some cause) (fun call member session same => ?_) has kept
    exact Edit.fills_refused starts (fun fits => beyond fits.2) (fills call member) (needs call member) same

/-- A run that makes a column whose values may take so many bytes at most. -/
def capped (account : Fin n) (limit : Nat) : List (Command n) :=
  [.create "x" .uint8 "x" none account { maxAllocationBytes := limit }]

private theorem found_capped (limit : Nat) :
    ((ofLimits #v[Word.max]).runAll (capped 0 limit)).columns.find? "x" =
      some ⟨.uint8, .empty "x" 0 { maxAllocationBytes := limit }⟩ := by
  cbv

theorem firstGrowth_iff_capped :
    let store := (ofLimits #v[Word.max]).runAll (capped 0 20)
    let ready (slots : Nat) := store.after (.edit "x" .uint8 (.setInitialCapacity slots))
    let calls : List (Call .uint8) := [.setSafe 9 1, .setNull 0]
    (ready 10).Along Succeeds (calls.map (.edit "x" .uint8)) ∧
      (ready 11).Along (FailsWith (.failed (.error (.capacityExhausted 22 20))))
        (calls.map (.edit "x" .uint8)) := by
  intro store ready calls
  have roomy : (Column.empty "x" 0 { maxAllocationBytes := 20 } : Column 1 .uint8).Roomy store.ledger
      (2 * 10) := ⟨by decide, by decide +kernel, by decide +kernel⟩
  have fills {slots : Nat} (many : 10 ≤ slots) : ∀ call ∈ calls, call.Fills slots := by
    intro call member
    rcases List.mem_pair.mp member with rfl | rfl
    · exact .set 1 many
    · exact .null (by omega)
  obtain ⟨_, ten⟩ := firstGrowth_iff (found_capped 20) rfl rfl 10
  obtain ⟨_, eleven⟩ := firstGrowth_iff (found_capped 20) rfl rfl 11
  exact ⟨((ten (by decide +kernel)).2 calls (fills (by decide))).1 (by decide) roomy,
    ((eleven (by decide +kernel)).2 calls (fills (by decide))).2 (by decide) (by decide)⟩

/-- An initial capacity is accepted and then no slot can be written. -/
theorem firstGrowth_iff_accepted :
    ¬ ∀ (store : Store 1) (name : String) (kind : Kind) (column : Column 1 kind) (slots : Nat)
        (call : Call kind), store.columns.find? name = some ⟨kind, column⟩ →
      column.values.size = 0 → column.validity.size = 0 → column.Roomy store.ledger (2 * slots) →
        store.Succeeds (.edit name kind (.setInitialCapacity slots)) → call.Fills slots →
        (store.after (.edit name kind (.setInitialCapacity slots))).Succeeds (.edit name kind call) := by
  intro always
  let store : Store 1 := (ofLimits #v[Word.max]).runAll (capped 0 16)
  have roomy : (Column.empty "x" 0 { maxAllocationBytes := 16 } : Column 1 .uint8).Roomy store.ledger
      (2 * 16) := ⟨by decide, by decide +kernel, by decide +kernel⟩
  have written := always store "x" .uint8 _ 16 (.setSafe 0 1) (found_capped 16) rfl rfl roomy
    (by decide +kernel) (.set 1 (by decide))
  revert written
  decide +kernel

end Store

end Columnar
