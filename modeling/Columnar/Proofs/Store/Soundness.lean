import Columnar.Proofs.Bitmap.Count
import Columnar.Proofs.Store.Picture

namespace Columnar

open Columnar.Action

variable {n : Nat} {kind : Kind}

namespace Column

variable {column : Column n kind}

theorem Sound.bytesFor_le (sound : column.Sound) :
    Bitmap.bytesFor column.count ≤ column.validity.bytes.size := by
  have bound := sound.count_le.trans (Nat.min_le_right _ _)
  rw [Nat.mul_comm] at bound
  exact (Bitmap.bytesFor_le_iff _ _).mpr bound

theorem Sound.mul_width_le (sound : column.Sound) :
    column.count * kind.width ≤ column.values.bytes.size :=
  mul_width_le_size sound.count_le

theorem Sound.nullCount?_eq (sound : column.Sound) : column.nullCount? =
    some ((List.range column.count).countP fun index => (column.get? index).isNone) := by
  rw [nullCount?, Bitmap.falseCount?_eq _ _ sound.bytesFor_le]
  congr 2
  funext index
  rw [← Option.not_isSome, sound.get?_isSome, Column.bit]

theorem Sound.bufferSize_lt (sound : column.Sound) (bounded : column.Bounded) :
    column.bufferSize < Word.size := by
  have values := sound.mul_width_le.trans bounded.values
  have validity := sound.bytesFor_le.trans bounded.validity
  have total : Word.largestRequest + Word.largestRequest < Word.size := by decide
  rw [bufferSize]
  omega

theorem Sound.buffers?_isSome (sound : column.Sound) : column.buffers?.isSome := by
  have validity : column.validity.bytes.slice? 0 (Bitmap.bytesFor column.count) = some _ :=
    if_pos ⟨Nat.zero_le _, sound.bytesFor_le⟩
  have values : column.values.bytes.slice? 0 (column.count * kind.width) = some _ :=
    if_pos ⟨Nat.zero_le _, sound.mul_width_le⟩
  rw [buffers?, validity, values]
  rfl

theorem Sound.get?_beyond (sound : column.Sound) {index : Nat} (beyond : column.capacity ≤ index) :
    Bitmap.get? column.validity.bytes index ≠ some true := by
  have clear : Bitmap.bit column.validity.bytes index = false := sound.clear index beyond
  rw [Bitmap.get?_eq, clear]
  split <;> simp

end Column

namespace Store

/-- Without an overdraft the slots in use of every column lie within its capacity and no bit beyond is set,
also where growing stops half-way. -/
theorem sound_runAll (limits : Vector Nat n) (commands : List (Command n))
    (solvent : (ofLimits limits).Along Solvent commands) :
    ∀ pair ∈ ((ofLimits limits).runAll commands).columns.entries,
      let column := pair.2.column
      column.count ≤ column.capacity ∧
        (∀ index, column.capacity ≤ index → Bitmap.get? column.validity.bytes index ≠ some true) ∧
        column.nullCount? =
          some ((List.range column.count).countP fun index => (column.get? index).isNone) ∧
        column.bufferSize < Word.size ∧ column.buffers?.isSome ∧
        ∀ (ledger : Ledger n) (edit : Edit n pair.2.kind Unit),
          (edit = Edit.grow ∨ ∃ slots, edit = Edit.reserve slots) →
          Ends edit ⟨column, ledger⟩
            (fun _ later => ∀ index, column.capacity ≤ index → later.column.get? index = none)
            (fun _ later => ∀ index, column.capacity ≤ index → later.column.get? index = none) := by
  intro pair member column
  have depicts := (depicts_ofLimits limits).runAll (all_ofLimits limits) solvent
  have sound : column.Sound := depicts.sound (depicts.distinct.find?_of_mem member)
  have bounded : column.Bounded := boundedColumns.runAll limits commands pair member
  refine ⟨sound.count_le, fun _ => sound.get?_beyond, sound.nullCount?_eq,
    sound.bufferSize_lt bounded, sound.buffers?_isSome, ?_⟩
  intro ledger edit growing
  have growth := Edit.grownInvariant column
  have keeps : Keeps edit (fun session => column.Grown session.column)
      (fun _ session => column.Grown session.column) := by
    rcases growing with rfl | ⟨slots, rfl⟩
    · exact growth.grow
    · exact growth.reserve slots
  refine (keeps ⟨column, ledger⟩ (.refl column)).mono ?_ ?_
  · exact fun _ later grown index => grown.get?_new sound
  · exact fun _ later grown index => grown.get?_new sound

theorem sound_runAll_handing :
    (ofLimits #v[40, 8]).Along Solvent handing ∧
      ∀ pair ∈ ((ofLimits #v[40, 8]).runAll handing).columns.entries,
        pair.2.column.count ≤ pair.2.column.capacity ∧ pair.2.column.buffers?.isSome := by
  refine ⟨by decide +kernel, fun pair member => ?_⟩
  have sound := sound_runAll #v[40, 8] handing (by decide +kernel) pair member
  exact ⟨sound.1, sound.2.2.2.2.1⟩

/-- After an overdraft more slots are in use than there are. -/
theorem sound_runAll_overdraft :
    ¬ ∀ (limits : Vector Nat 2) (commands : List (Command 2)),
      ∀ pair ∈ ((ofLimits limits).runAll commands).columns.entries,
        pair.2.column.count ≤ pair.2.column.capacity := by
  intro always
  have within := always #v[Word.max, Word.max] overdraft
  revert within
  decide +kernel

end Store

end Columnar
