import Columnar.Proofs.Column.Commuting
import Columnar.Proofs.Store.Accounts

namespace Columnar

open Columnar.Action

variable {n : Nat} {kind : Kind}

theorem leadingColumns : ColumnContract (n := n) Column.Leading
    (fun failure {_} column => failure = .overdrawn ∨ column.Leading) where
  new := Column.leading_ofType
  edits := Edit.leadingInvariant
  transfer exchange both := by
    refine (Exchange.transfer_ends exchange).mono ?_ fun _ _ overdrawn => ⟨.inl overdrawn, .inl overdrawn⟩
    rintro _ after ⟨gave, received⟩
    exact ⟨gave ▸ exchange.source.leading_emptied, received ▸ both.1.receiving⟩

namespace Store

theorem leading_runAll {limits : Vector Nat n} {commands : List (Command n)}
    (solvent : (ofLimits limits).Along Solvent commands) :
    ((ofLimits limits).runAll commands).All Column.Leading := by
  refine leadingColumns.runAll ?_ limits commands solvent
  intro store command failure solvent stopped pair _ lost
  rcases lost with rfl | leading
  · exact absurd stopped solvent
  · exact leading

/-- Safe writes of different slots of a column that a run reaches can be made in any order, also where some
of them are refused. -/
theorem writes_runAll (limits : Vector Nat n) (commands : List (Command n))
    (fits : (ofLimits limits).Along Fits commands) {name : String} {column : Column n kind}
    (found : ((ofLimits limits).runAll commands).columns.find? name = some ⟨kind, column⟩)
    (ledger : Ledger n) {calls others : List (Call kind)}
    (safe : ∀ call ∈ calls, call.safeSlot?.isSome) (apart : (calls.map Call.safeSlot?).Nodup)
    (perm : calls.Perm others) :
    let session : Session n kind := ⟨column, ledger⟩
    (∀ answer ∈ session.answers calls, answer.2 ≠ some .tooLarge) →
      (session.answers calls).Perm (session.answers others) ∧
        (session.runAll others).column = (session.runAll calls).column ∧
        (session.runAll others).ledger.accounts = (session.runAll calls).ledger.accounts := by
  intro session fine
  have solvent : (ofLimits limits).Along Solvent commands :=
    along_of_keeps (fun _ _ balanced fits => balanced.after fits) (balanced_ofLimits limits) fits
  have leading : column.Leading := (leading_runAll solvent).of_find? found
  obtain ⟨answers, states⟩ := session.answers_perm perm leading safe apart fine
  exact ⟨answers, states.same, states.ledger⟩

theorem writes_runAll_narrow :
    let session : Session 1 .uint8 := ⟨.empty "x" 0 { initialCapacity := 8 }, .ofLimits #v[64]⟩
    let calls : List (Call .uint8) := [.setSafe 200 7, .setNull 20, .setIfSafe 0 1 5]
    session.answers calls = [(.setSafe 200 7, some (.error (.capacityExhausted 64 64))),
        (.setNull 20, none), (.setIfSafe 0 1 5, none)] ∧
      (session.answers calls).Perm (session.answers calls.reverse) ∧
      (session.runAll calls.reverse).column = (session.runAll calls).column ∧
      (session.runAll calls.reverse).ledger.accounts = (session.runAll calls).ledger.accounts := by
  intro session calls
  have found : ((ofLimits #v[64]).runAll (making 0 8)).columns.find? "x" =
      some ⟨.uint8, .empty "x" 0 { initialCapacity := 8 }⟩ := by
    cbv
  have answers : session.answers calls = [(.setSafe 200 7, some (.error (.capacityExhausted 64 64))),
      (.setNull 20, none), (.setIfSafe 0 1 5, none)] := by
    decide +kernel
  refine ⟨answers, writes_runAll #v[64] (making 0 8) (by decide +kernel) found (.ofLimits #v[64])
    (by decide) (by decide) (List.reverse_perm calls).symm ?_⟩
  rw [answers]
  decide

end Store

end Columnar
