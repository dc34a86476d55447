import Columnar.Proofs.Column.Doubling
import Columnar.Proofs.Store.Picture

namespace Columnar

open Columnar.Action

variable {n : Nat}

theorem regularColumns : ColumnContract (n := n) Column.Regular
    (fun failure {_} column => failure = .overdrawn ∨ column.Regular) where
  new := Column.regular_ofType
  edits := Edit.regularInvariant
  transfer exchange both := by
    refine (Exchange.transfer_ends exchange).mono ?_ fun _ _ overdrawn => ⟨.inl overdrawn, .inl overdrawn⟩
    rintro _ after ⟨gave, received⟩
    exact ⟨gave ▸ exchange.source.regular_emptied, received ▸ both.1.receiving exchange.target⟩

namespace Store

theorem regular_runAll {limits : Vector Nat n} {commands : List (Command n)}
    (solvent : (ofLimits limits).Along Solvent commands) :
    ((ofLimits limits).runAll commands).All Column.Regular := by
  refine regularColumns.runAll ?_ limits commands solvent
  intro store command failure solvent stopped pair _ lost
  rcases lost with rfl | regular
  · exact absurd stopped solvent
  · exact regular

/-- Without an overdraft a column that has slots doubles them, or a refusal leaves the column and every
account as they were. -/
theorem growth_runAll (limits : Vector Nat n) (commands : List (Command n))
    (solvent : (ofLimits limits).Along Solvent commands) :
    ∀ pair ∈ ((ofLimits limits).runAll commands).columns.entries,
      let column := pair.2.column
      0 < column.capacity → ∀ ledger : Ledger n,
        Ends Edit.grow ⟨column, ledger⟩
          (fun _ after => after.column = column.doubled ∧ 2 * column.capacity ≤ after.column.capacity)
          (fun failure after => after.column = column ∧
            (failure.Exhausted ∧ after.ledger.accounts = ledger.accounts ∨ failure = .tooLarge)) := by
  intro pair member column some ledger
  have regular : column.Regular := regular_runAll solvent pair member
  have base : column.growthBase = column.capacity := if_pos some
  have doubles : Ends Edit.grow ⟨column, ledger⟩ _ _ := Edit.grow_doubles regular
  refine ends_of ?_ ?_
  · intro _ after grown
    exact ⟨doubles.of_ok grown, base ▸ Edit.le_capacity_of_grow grown⟩
  · intro failure after stopped
    rcases doubles.of_error stopped with ⟨refused, same, kept⟩ | ⟨large, same⟩ | ⟨_, none, _⟩
    · exact ⟨same, .inl ⟨refused, kept⟩⟩
    · exact ⟨same, .inr large⟩
    · exact absurd none some.ne'

theorem growth_runAll_handing :
    let store := (ofLimits #v[40, 8]).runAll (handing.take 3)
    (ofLimits #v[40, 8]).Along Solvent (handing.take 3) ∧ store.columns.names = ["x"] ∧
      ∀ pair ∈ store.columns.entries, 0 < pair.2.column.capacity ∧
        Ends Edit.grow ⟨pair.2.column, store.ledger⟩ (fun _ _ => False)
          (fun failure after => failure.Exhausted ∧ after.column = pair.2.column) := by
  intro store
  refine ⟨by decide +kernel, by decide +kernel, fun pair member => ?_⟩
  have some : 0 < pair.2.column.capacity := by
    revert pair
    decide +kernel
  have refused : Ends Edit.grow ⟨pair.2.column, store.ledger⟩ (fun _ _ => False)
      (fun failure _ => failure.Exhausted) := by
    revert pair
    decide +kernel
  have atomic := growth_runAll #v[40, 8] (handing.take 3) (by decide +kernel) pair member some store.ledger
  exact ⟨some, (refused.and atomic).mono (fun _ _ reached => reached.1) fun _ _ stopped =>
    ⟨stopped.1, stopped.2.1⟩⟩

/-- A run that ends with a column whose blocks are charged to two accounts: a request larger than memory
leaves its charge behind, so that a transfer wraps around and stops half-way. -/
def parting (first second : Fin n) : List (Command n) :=
  [.create "y" .uint8 "y" none second {}, .edit "y" .uint8 (.allocate 128),
    .allocateBlock "b" second (Word.size - 160), .allocateBlock "a" first 144, .moveBlock "a" second,
    .create "x" .uint8 "x" none first {}, .transfer "y" "x"]

/-- After an overdraft a refusal leaves a column with its values grown. -/
theorem growth_runAll_parting :
    ¬ ∀ (limits : Vector Nat 2) (commands : List (Command 2)),
      ∀ pair ∈ ((ofLimits limits).runAll commands).columns.entries, 0 < pair.2.column.capacity →
        Ends Edit.grow ⟨pair.2.column, ((ofLimits limits).runAll commands).ledger⟩ (fun _ _ => True)
          (fun failure after => failure.Exhausted →
            after.column.values.size = pair.2.column.values.size) := by
  intro always
  have atomic := always #v[Word.max, Word.max] (parting 0 1)
  revert atomic
  decide +kernel

end Store

end Columnar
