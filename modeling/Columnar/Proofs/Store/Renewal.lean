import Columnar.Proofs.Column.Renewal
import Columnar.Proofs.Store.Handover
import Columnar.Proofs.Store.Slotwise

namespace Columnar.Store

open Columnar.Action

variable {n : Nat} {kind : Kind} {store : Store n} {name : String} {column : Column n kind}

/-- In the later store the column has new blocks in place of its old ones, and its account is charged for
them instead. -/
structure Renewed (store : Store n) (name : String) (column : Column n kind) (slots : Nat)
    (after : Store n) : Prop where
  refreshed : ∃ later : Column n kind, after.columns.find? name = some ⟨kind, later⟩ ∧
    column.Refreshed slots later
  charged : after.ledger.allocated + Pi.single column.account column.memory =
    store.ledger.allocated + Pi.single column.account
      (Block.roundUp (slots * kind.width) + Block.roundUp (Bitmap.bytesFor slots))
  columns : ∀ other, other ≠ name → after.columns.find? other = store.columns.find? other
  blocks : after.blocks = store.blocks

/-- The later store has all columns and blocks as they were, and as much is charged to every account. -/
structure Untouched (store after : Store n) : Prop where
  columns : ∀ name, after.columns.find? name = store.columns.find? name
  blocks : after.blocks = store.blocks
  charged : after.ledger.allocated = store.ledger.allocated

theorem untouched_withSession (found : store.columns.find? name = some ⟨kind, column⟩)
    {session : Session n kind} (same : session.column = column)
    (charged : session.ledger.allocated = store.ledger.allocated) :
    store.Untouched ((store.withoutColumn name).withSession name session) where
  columns other := by
    by_cases here : other = name
    · rw [here, find?_withSession_self, same, found]
    · exact find?_withSession_of_ne (Ne.symm here) session
  blocks := rfl
  charged := charged

theorem Balanced.renewed (balanced : store.Balanced 0)
    (found : store.columns.find? name = some ⟨kind, column⟩) {slots : Nat} {session : Session n kind}
    (taken : session.column = column.renewed slots)
    (kept : session.Balanced (0 + (store.withoutColumn name).charge)) :
    store.Renewed name column slots ((store.withoutColumn name).withSession name session) where
  refreshed := ⟨session.column, find?_withSession_self _ name session,
    taken ▸ column.refreshed_renewed slots⟩
  charged := by
    have owns : column.Owns := balanced.owns.of_find? found
    have before := (balanced.session found).charged
    have after := kept.charged
    rw [owns.charge_eq] at before
    rw [taken, Column.charge_renewed, ← Pi.single_add] at after
    rw [show ((store.withoutColumn name).withSession name session).ledger = session.ledger from rfl,
      after, before, add_right_comm]
  columns other apart := find?_withSession_of_ne apart.symm session
  blocks := rfl

/-- With exact accounts a column has its memory anew, or it is refused and nothing changes, or what it asks
for is too large. -/
theorem Balanced.allocate_ends (balanced : store.Balanced 0)
    (found : store.columns.find? name = some ⟨kind, column⟩) (slots : Nat) :
    Ends (Command.edit name kind (.allocate slots)).run store
      (fun _ after => column.Affords store.ledger slots ∧ store.Renewed name column slots after)
      (fun fault after =>
        fault = .failed .tooLarge ∧ Word.largestRequest < Block.roundUp (slots * kind.width) ∨
          (∃ requested limit, fault = .failed (.error (.capacityExhausted requested limit))) ∧
            ¬ column.Affords store.ledger slots ∧ store.Untouched after) := by
  refine edits_edit found (.allocate slots) _ _
    ((Edit.allocate_exact slots (balanced.session found)).mono ?_ ?_)
  · rintro _ session ⟨affords, taken, kept⟩
    exact ⟨affords, balanced.renewed found taken kept⟩
  · rintro failure session (⟨rfl, large⟩ | ⟨⟨requested, limit, rfl⟩, unaffordable, same, charged⟩)
    · exact .inl ⟨rfl, Nat.lt_of_not_le large⟩
    · exact .inr ⟨⟨requested, limit, rfl⟩, unaffordable, untouched_withSession found same charged⟩

/-- A column takes memory anew exactly where it can afford both blocks besides those that it still has. A
refusal, of the second block too, leaves everything as before. -/
theorem renewal_runAll (limits : Vector Nat n) (commands : List (Command n))
    (fits : (ofLimits limits).Along Fits commands)
    (found : ((ofLimits limits).runAll commands).columns.find? name = some ⟨kind, column⟩) (slots : Nat) :
    let store := (ofLimits limits).runAll commands
    let command : Command n := .edit name kind (.allocate slots)
    let bytes := Block.roundUp (slots * kind.width)
    IsLeast {bytes | Block.grain ∣ bytes ∧ slots * kind.width ≤ bytes} bytes ∧
    (bytes ≤ Word.largestRequest → (store.Succeeds command ↔ column.Affords store.ledger slots)) ∧
    Ends command.run store
      (fun _ after => column.Affords store.ledger slots ∧ store.Renewed name column slots after)
      (fun fault after =>
        fault = .failed .tooLarge ∧ Word.largestRequest < bytes ∨
          (∃ requested limit, fault = .failed (.error (.capacityExhausted requested limit))) ∧
            ¬ column.Affords store.ledger slots ∧ store.Untouched after) := by
  intro store command bytes
  have balanced : store.Balanced 0 := balanced_runAll fits
  have ends := balanced.allocate_ends found slots
  refine ⟨Block.isLeast_roundUp _, fun small => ?_, ends⟩
  rcases after_of_ends ends with ⟨well, affords, _⟩ | ⟨fault, stopped, refused⟩
  · exact iff_of_true well affords
  · have failed : ¬ store.Succeeds command := by
      rw [Succeeds, stopped]
      exact Option.some_ne_none fault
    rcases refused with ⟨_, large⟩ | ⟨_, unaffordable, _⟩
    · exact absurd small (Nat.not_le_of_lt large)
    · exact iff_of_false failed unaffordable

/-- The values of seventeen slots would be accepted, but not the bitmap beside them. -/
theorem renewal_runAll_making :
    let store := (ofLimits #v[40]).runAll (making 0 8)
    (∃ later : Column 1 .uint8,
      (store.after (.edit "x" .uint8 (.allocate 9))).columns.find? "x" = some ⟨.uint8, later⟩ ∧
        later.capacity = 16) ∧
    (Command.edit "x" .uint8 (.allocate 17)).fault? store =
      some (.failed (.error (.capacityExhausted 16 40))) ∧
    (store.after (.edit "x" .uint8 (.allocate 17))).columns.find? "x" =
      some ⟨.uint8, .empty "x" 0 { initialCapacity := 8 }⟩ := by
  intro store
  have found : ((ofLimits #v[40]).runAll (making 0 8)).columns.find? "x" =
      some ⟨.uint8, .empty "x" 0 { initialCapacity := 8 }⟩ := by
    cbv
  obtain ⟨_, granted, renewed⟩ := renewal_runAll #v[40] (making 0 8) (by decide +kernel) found 9
  obtain ⟨_, _, refused⟩ := renewal_runAll #v[40] (making 0 8) (by decide +kernel) found 17
  have well : store.Succeeds (.edit "x" .uint8 (.allocate 9)) :=
    (granted (by decide)).mpr (by decide +kernel)
  have stopped : (Command.edit "x" .uint8 (.allocate 17)).fault? store =
      some (.failed (.error (.capacityExhausted 16 40))) := by
    decide +kernel
  obtain ⟨_, ⟨later, held, refreshed⟩, _⟩ := after_of_well renewed well
  refine ⟨⟨later, held, refreshed.capacity⟩, stopped, ?_⟩
  rcases after_of_fault refused stopped with ⟨large, _⟩ | ⟨_, _, untouched⟩
  · cases large
  · exact (untouched.columns "x").trans found

end Columnar.Store
