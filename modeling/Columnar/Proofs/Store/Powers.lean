import Columnar.Proofs.Column.Powers
import Columnar.Proofs.Store.Origin
import Columnar.Proofs.Store.Refused

namespace Columnar

open Columnar.Action

variable {n : Nat} {kind : Kind} {name : String}

theorem grainedColumns : ColumnContract (n := n) Column.Grained (fun _ => Column.Grained) where
  new := Column.Sized.ofType (Column.asked_grains _)
  edits := Edit.sizedInvariant (Column.asked_grains _)
  transfer := Exchange.transfer_sized (Column.asked_grains _)

/-- A command that grows a column and writes to it leaves the capacity that it grew to. -/
theorem Command.GrowsInto.reaches {store : Store n} {command : Command n} {column : Column n kind}
    {holds : Nat → Prop} (grows : command.GrowsInto name)
    (found : store.columns.find? name = some ⟨kind, column⟩)
    (reserved : Ends (Edit.reserve (command.needs name)) ⟨column, store.ledger⟩
      (fun _ after => holds after.column.capacity) (fun _ _ => True)) :
    Ends command.run store (fun _ after => ∃ later : Column n kind,
      after.columns.find? name = some ⟨kind, later⟩ ∧ holds later.capacity) (fun _ _ => True) := by
  have put {edit : Edit n kind Unit} (edited : Ends edit ⟨column, store.ledger⟩
      (fun _ after => holds after.column.capacity) (fun _ _ => True)) :
      Ends edit ⟨column, store.ledger⟩ (fun _ session => ∃ later : Column n kind,
        ((store.withoutColumn name).withSession name session).columns.find? name = some ⟨kind, later⟩ ∧
          holds later.capacity) (fun _ _ => True) := by
    refine edited.mono_post ?_
    exact fun _ session reached => ⟨session.column, Store.find?_withSession_self _ name session, reached⟩
  cases grows with
  | edit own call grows =>
    rw [show (Command.edit name own call : Command n).needs name = call.needs from if_pos rfl] at reserved
    refine ends_bind.mpr (Store.ends_editColumn (fun _ => trivial) ?_ ?_)
    · exact fun entry _ _ => ends_of (fun _ _ _ => trivial) fun _ _ _ => trivial
    · intro other held
      rw [found] at held
      cases held
      exact put (Call.reaches grows reserved)
  | copy source sourceIndex targetIndex =>
    rw [show (Command.copy name source true sourceIndex targetIndex : Command n).needs name =
      targetIndex + 1 from if_pos ⟨rfl, rfl⟩] at reserved
    refine ends_bind.mpr (Store.ends_editBeside (fun _ _ _ => trivial) ?_ ?_)
    · exact fun _ entry _ _ _ => ends_of (fun _ _ _ => trivial) fun _ _ _ => trivial
    · intro own other held _ _ there
      rw [found] at there
      cases there
      exact put (Edit.reserve_first_reaches
        (fun _ => Edit.fixesInvariant.copyFrom other sourceIndex targetIndex) reserved)

namespace Store

/-- Fewer than 63 doublings lead to any number of slots or to a refusal, and every size that is computed on
the way is a word. -/
theorem powers_runAll (limits : Vector Nat n) (commands : List (Command n)) {column : Column n kind}
    (found : ((ofLimits limits).runAll commands).columns.find? name = some ⟨kind, column⟩) :
    (∀ (slots : Nat) (ledger : Ledger n), let session : Session n kind := ⟨column, ledger⟩
      (Edit.passed slots session).length < 63 ∧
      (∀ held ∈ column.capacity :: Edit.passed slots session,
        2 * held * kind.width + Block.grain ≤ Word.size) ∧
      (Word.size ≤ 2 * column.growthBase * kind.width + (Block.grain - 1) → Ends Edit.grow session
        (fun _ _ => False) (fun failure after => failure.Exhausted ∧ after.column = column)) ∧
      Ends Edit.grow session
        (fun _ after => 0 < column.growthBase ∧ 2 * column.growthBase ≤ after.column.capacity ∧
          (0 < column.capacity → after.column.capacity = 2 * column.capacity))
        (fun failure _ => failure.Exhausted ∨ failure = .tooLarge) ∧
      Ends (Edit.reserve slots) session
        (fun _ after => column.GrowsTo slots after.column.capacity)
        (fun failure _ => failure.Exhausted ∨ failure = .tooLarge)) ∧
    ∀ command : Command n, command.GrowsInto name →
      let store := (ofLimits limits).runAll commands
      command.fault? store = none → ∃ later : Column n kind,
        (store.after command).columns.find? name = some ⟨kind, later⟩ ∧
        column.GrowsTo (command.needs name) later.capacity := by
  have grained : column.Grained :=
    (grainedColumns.runAll (fun _ _ _ _ _ _ _ holds => holds) limits commands along_true).of_find? found
  have bounded : column.Bounded := (boundedColumns.runAll limits commands).of_find? found
  refine ⟨fun slots ledger => ?_, fun command grows => ?_⟩
  · intro session
    have kept : Action.Keeps Edit.grow
        (fun session : Session n kind => session.column.Grained ∧ session.column.Bounded)
        (fun _ _ => True) := fun session held =>
      (((Edit.sizedInvariant (Column.asked_grains kind)).grow session held.1).and
        (Edit.boundedInvariant.grow session held.2)).mono_stop fun _ _ _ => trivial
    refine ⟨Edit.length_passed_lt slots session bounded, ?_, Edit.grow_refuses session bounded, ?_,
      Edit.reserve_growsTo slots session grained⟩
    · intro held member
      rcases List.mem_cons.mp member with rfl | passed
      · exact grained.room bounded
      · obtain ⟨between, ⟨whole, small⟩, rfl⟩ := Edit.exists_of_mem_passed kept ⟨grained, bounded⟩ passed
        exact whole.room small
    · exact (Edit.grow_powers session grained).mono_post
        fun _ _ reached => ⟨column.growthBase_pos, reached⟩
  · intro store well
    have reserved := (Edit.reserve_growsTo (command.needs name) ⟨column, store.ledger⟩ grained).mono_stop
      fun _ _ _ => trivial
    rcases after_of_ends (grows.reaches found reserved) with ⟨_, reached⟩ | ⟨fault, stopped, _⟩
    · exact reached
    · rw [well] at stopped
      cases stopped

theorem powers_runAll_cramped :
    ∃ later : Column 1 .uint8,
      (((ofLimits #v[1000]).runAll (cramped 0)).after (.edit "x" .uint8 (.setSafe 200 7))).columns.find? "x" =
          some ⟨.uint8, later⟩ ∧
        later.capacity = 16 * 2 ^ 4 := by
  have found : ((ofLimits #v[1000]).runAll (cramped 0)).columns.find? "x" =
      some ⟨.uint8, (((Column.empty "x" 0 { initialCapacity := 8 } : Column 1 .uint8).doubled).withBytes
        0 [5]).withValid 0 true⟩ := by
    cbv
  obtain ⟨later, held, reached⟩ := (powers_runAll #v[1000] (cramped 0) found).2
    (.edit "x" .uint8 (.setSafe 200 7)) (.edit .uint8 _ rfl) (by decide +kernel)
  have doubles : DoublesTo 16 201 later.capacity := reached.doubles (by decide +kernel)
  exact ⟨later, held, doubles.unique ⟨4, rfl, by decide, by decide⟩⟩

end Store

end Columnar
