import Columnar.Proofs.Column.Cover
import Columnar.Proofs.Store.Picture

namespace Columnar

open Columnar.Action

variable {n : Nat}

theorem coveredColumns : ColumnContract (n := n) Column.Covered
    (fun failure {_} column => failure = .overdrawn ∨ column.Covered ∨
      failure.Exhausted ∧ column.CutOff) where
  new := Column.covered_ofType
  edits := Edit.coveredInvariant
  transfer exchange both := by
    refine (Exchange.transfer_ends exchange).mono ?_ fun _ _ overdrawn => ⟨.inl overdrawn, .inl overdrawn⟩
    rintro _ after ⟨gave, received⟩
    exact ⟨gave ▸ exchange.source.covered_emptied, received ▸ both.1.receiving⟩

namespace Store

/-- The command is refused memory, and leaves a column with values but no bitmap. -/
def CutsOff (store : Store n) (command : Command n) : Prop :=
  match command.fault? store with
  | some (.failed failure) =>
    failure.Exhausted ∧ ∃ pair ∈ (store.after command).columns.entries, pair.2.column.CutOff
  | _ => False

instance (store : Store n) (command : Command n) : Decidable (store.CutsOff command) :=
  match stopped : command.fault? store with
  | some (.failed failure) =>
    decidable_of_iff (failure.Exhausted ∧
      ∃ pair ∈ (store.after command).columns.entries, pair.2.column.CutOff) (by rw [CutsOff, stopped])
  | some (.unknownName _) | some .kindMismatch | none => isFalse (by simp [CutsOff, stopped])

/-- The command neither overdraws an account nor is cut off between the two blocks of a column. -/
def Whole (store : Store n) (command : Command n) : Prop :=
  store.Solvent command ∧ ¬ store.CutsOff command

instance (store : Store n) (command : Command n) : Decidable (store.Whole command) :=
  inferInstanceAs (Decidable (_ ∧ _))

/-- In every store that a run reaches without an overdraft and without a growth that is cut off, every
column's bitmap has a bit for each slot of its values, so all of them can be addressed. -/
theorem cover_runAll (limits : Vector Nat n) (commands : List (Command n))
    (whole : (ofLimits limits).Along Whole commands) :
    ∀ pair ∈ ((ofLimits limits).runAll commands).columns.entries,
      pair.2.column.values.size / pair.2.kind.width ≤ pair.2.column.validity.size * 8 ∧
        pair.2.column.capacity = pair.2.column.values.size / pair.2.kind.width := by
  have covered : ((ofLimits limits).runAll commands).All Column.Covered := by
    refine coveredColumns.runAll ?_ limits commands whole
    intro store command failure whole stopped pair member lost
    obtain ⟨solvent, uncut⟩ := whole
    rcases lost with rfl | covered | ⟨refused, cut⟩
    · exact absurd stopped solvent
    · exact covered
    · rw [CutsOff, stopped] at uncut
      exact absurd ⟨refused, pair, member, cut⟩ uncut
  intro pair member
  have covers := (covered pair member).covers
  exact ⟨covers, Nat.min_eq_left covers⟩

theorem cover_runAll_handing :
    (ofLimits #v[40, 8]).Along Whole handing ∧
      ∀ pair ∈ ((ofLimits #v[40, 8]).runAll handing).columns.entries,
        pair.2.column.values.size / pair.2.kind.width ≤ pair.2.column.validity.size * 8 :=
  ⟨by decide +kernel, fun pair member =>
    (cover_runAll #v[40, 8] handing (by decide +kernel) pair member).1⟩

/-- A run in which the first growth of a column is cut off: the account has room for the values, and
for the bitmap no more. -/
def cutting (account : Fin n) : List (Command n) :=
  [.create "x" .uint8 "x" none account { initialCapacity := 8 }, .edit "x" .uint8 (.setSafe 0 7)]

/-- After a growth that was cut off, a column holds values that it cannot address. -/
theorem cover_runAll_cutting :
    ¬ ∀ (limits : Vector Nat 1) (commands : List (Command 1)),
      ∀ pair ∈ ((ofLimits limits).runAll commands).columns.entries,
        pair.2.column.values.size / pair.2.kind.width ≤ pair.2.column.validity.size * 8 := by
  intro always
  have covers := always #v[24] (cutting 0)
  revert covers
  decide +kernel

end Store

end Columnar
