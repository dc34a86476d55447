import Columnar.Proofs.Column.Reads
import Columnar.Proofs.Store.Entries

namespace Columnar

variable {n : Nat} {kind : Kind}

namespace Store

/-- In every column that a run reaches no accessor goes wrong, at any index, and all of them agree. Slots
that are made null keep their bytes. -/
theorem reads_runAll (limits : Vector Nat n) (commands : List (Command n)) {name : String}
    {column : Column n kind}
    (found : ((ofLimits limits).runAll commands).columns.find? name = some ⟨kind, column⟩)
    (ledger : Ledger n) {calls : List (Call kind)} (nulls : ∀ call ∈ calls, call.nulls?.isSome) :
    let session : Session n kind := ⟨column, ledger⟩
    let later := (session.runAll calls).column
    (∀ index, column.Answers index ∧ column.Agrees index) ∧
      (∀ (call : Call kind) (index : Nat), call.nulls? = some index →
        call.edit.failure? session = none →
        (session.after call.edit).column.isNull index = true) ∧
      (∀ index, index < column.capacity → later.bytes? index = column.bytes? index ∧
        later.get index =
          if column.config.nullChecking && later.isNull index then .error (.nullRead index)
          else .ok (column.bitsAt index)) ∧
      ∀ (write : Call kind) (index : Nat) (value : Element kind),
        write = .set index value ∨ write = .setSafe index value →
        write.edit.failure? session = none →
        let last := (session.runAll (write :: calls)).column
        last.get index =
          if column.config.nullChecking && last.isNull index then .error (.nullRead index)
          else .ok value := by
  intro session later
  have bounded : column.Bounded := (boundedColumns.runAll limits commands).of_find? found
  have kept : column.KeepsBytes later := Session.keepsBytes_runAll nulls column.keepsBytes_refl
  refine ⟨fun index => ⟨bounded.answers index, column.agrees index⟩, ?_, ?_, ?_⟩
  · intro call index named fine
    have ends := Call.edit_nulls named column session column.keepsBytes_refl
    obtain ⟨_, ran⟩ := Edit.ok_of_failure? fine
    rw [(Edit.outcome_ok ran).2]
    exact (ends.of_ok ran).2
  · intro index inside
    exact ⟨kept.bytes? index inside, kept.get_eq inside⟩
  · intro write index value writes fine last
    obtain ⟨between, ran⟩ := Edit.ok_of_failure? fine
    obtain ⟨shown, config⟩ : between.column.get? index = some value ∧
        between.column.config = column.config := by
      rcases writes with rfl | rfl
      · exact (Edit.set_reads session index value).of_ok ran
      · obtain ⟨_, grown, reserved, written⟩ := Action.bind_ok.mp ran
        obtain ⟨shown, same⟩ := (Edit.set_reads grown index value).of_ok written
        exact ⟨shown, same.trans ((Edit.reserve_grows _ session).of_ok reserved).1.config⟩
    have left : last = (between.runAll calls).column := by
      rw [← (Edit.outcome_ok ran).2]
      rfl
    obtain ⟨inside, bits⟩ := Column.get?_eq_some shown
    have kept : between.column.KeepsBytes last := by
      rw [left]
      exact Session.keepsBytes_runAll nulls between.column.keepsBytes_refl
    rw [kept.get_eq inside, config, bits]

/-- A run that makes a column in which nulls are not checked, and writes to it. -/
def unchecking (account : Fin n) : List (Command n) :=
  [.create "x" .uint16 "x" none account { nullChecking := false }, .edit "x" .uint16 (.allocate 8),
    .edit "x" .uint16 (.set 3 7)]

def unchecked (account : Fin n) : Column n .uint16 :=
  (((Column.empty "x" account { nullChecking := false }).renewed 8).withBytes 3 [7, 0]).withValid 3 true

theorem find?_unchecking : ((ofLimits #v[100]).runAll (unchecking 0)).columns.find? "x" =
    some ⟨.uint16, unchecked 0⟩ := by
  cbv

theorem reads_runAll_unchecking :
    let session : Session 1 .uint16 := ⟨unchecked 0, .ofLimits #v[100]⟩
    let calls : List (Call .uint16) := [.setNull 3, .setIf 3 0 9, .setCell 3 ⟨0, 5⟩]
    (unchecked 0 : Column 1 .uint16).get 8 = .error (.outOfBound 8 8) ∧
      (session.runAll calls).column.get 3 = .ok 7 ∧
      (session.runAll (.set 3 5 :: calls)).column.get 3 = .ok 5 := by
  intro session calls
  have capacity : (unchecked 0 : Column 1 .uint16).capacity = 8 := by decide
  have bits : (unchecked 0 : Column 1 .uint16).bitsAt 3 = 7 := by decide
  have nulls : ∀ call ∈ calls, call.nulls?.isSome := by decide
  obtain ⟨agree, _, kept, written⟩ :=
    reads_runAll #v[100] (unchecking 0) find?_unchecking (.ofLimits #v[100]) nulls
  refine ⟨((agree 8).2.beyond capacity.le).1.trans (by rw [capacity]), ?_, ?_⟩
  · rw [(kept 3 (by rw [capacity]; decide)).2, bits]
    rfl
  · rw [written (.set 3 5) 3 5 (.inl rfl) (by decide +kernel)]
    rfl

end Store

end Columnar
