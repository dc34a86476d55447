import Columnar.Proofs.Column.Doubling

/-! Columns whose validity bitmap has a bit for every slot that the values have room for. Both blocks
are taken and grown for the same number of slots, and rounding gives the bitmap no less than the
values; only a growth from nothing that is cut off between them leaves values without a bitmap. -/

namespace Columnar

open Columnar.Action

variable {n : Nat} {kind : Kind}

namespace Column

variable {column : Column n kind}

/-- The bitmap has a bit for every slot of the values, and there is none without values. -/
structure Covered (column : Column n kind) : Prop where
  regular : column.Regular
  covers : column.values.size / kind.width ≤ column.validity.size * 8
  paired : column.values.size = 0 → column.validity.size = 0

/-- The column holds values, but no bitmap at all. -/
def CutOff (column : Column n kind) : Prop := 0 < column.values.size ∧ column.validity.size = 0

instance (column : Column n kind) : Decidable column.CutOff := inferInstanceAs (Decidable (_ ∧ _))

theorem covers_roundUp (kind : Kind) (slots : Nat) :
    Block.roundUp (slots * kind.width) / kind.width ≤ Block.roundUp (Bitmap.bytesFor slots) * 8 := by
  have bits := Bitmap.le_bytesFor slots
  cases kind <;> simp only [Kind.width, Block.roundUp, Block.grain] <;> omega

theorem roundUp_values_pos (kind : Kind) {slots : Nat} (some : 0 < slots) :
    0 < Block.roundUp (slots * kind.width) :=
  (Nat.mul_pos some kind.width_pos).trans_le (Block.le_roundUp _)

theorem covered_ofType (name : String) (type : FieldType) (account : Fin n) (config : Config) :
    (ofType name type account config : Column n kind).Covered where
  regular := regular_ofType ..
  covers := (Nat.zero_div _).trans_le (Nat.zero_le _)
  paired := id

theorem covered_emptied (column : Column n kind) : column.emptied.Covered where
  regular := column.regular_emptied
  covers := (Nat.zero_div _).trans_le (Nat.zero_le _)
  paired := id

theorem covered_renewed (column : Column n kind) (slots : Nat) : (column.renewed slots).Covered := by
  have values : (column.renewed slots).values.size = Block.roundUp (slots * kind.width) :=
    Bytes.size_zeros _
  have validity : (column.renewed slots).validity.size = Block.roundUp (Bitmap.bytesFor slots) :=
    Bytes.size_zeros _
  refine ⟨column.regular_renewed slots, ?_, ?_⟩
  · rw [values, validity]
    exact covers_roundUp kind slots
  · rw [values, validity]
    intro nothing
    rcases Nat.eq_zero_or_pos slots with rfl | some
    · rfl
    · exact absurd nothing (roundUp_values_pos kind some).ne'

namespace Covered

variable (covered : column.Covered)

include covered

theorem receiving {receiver : Column n kind} : (receiver.receiving column).Covered :=
  ⟨covered.regular.receiving receiver, covered.covers, covered.paired⟩

theorem doubled : column.doubled.Covered := by
  have values := covered.regular.size_stretched
  have validity := covered.regular.size_doubled
  have slots : 0 < 2 * column.growthBase := Nat.mul_pos Nat.two_pos column.growthBase_pos
  refine ⟨covered.regular.doubled, ?_, ?_⟩
  · rw [show column.doubled.values = column.stretched.values from rfl, values, validity]
    have fresh := covers_roundUp kind (2 * column.growthBase)
    have old := covered.covers
    rcases max_choice column.values.size (Block.roundUp (2 * column.growthBase * kind.width)) with
      longer | longer <;> rw [longer] <;> omega
  · rw [show column.doubled.values = column.stretched.values from rfl, values]
    have taken := roundUp_values_pos kind slots
    omega

/-- A covered column without slots has no memory, so values that grow alone are cut off. -/
theorem stretched_cutOff (none : column.capacity = 0) : column.stretched.CutOff := by
  have capacity : column.capacity = column.values.size / kind.width :=
    Nat.min_eq_left covered.covers
  have short : column.values.size < kind.width := by
    rw [none] at capacity
    exact (Nat.div_eq_zero_iff_lt kind.width_pos).mp capacity.symm
  have nothing : column.values.size = 0 :=
    Nat.eq_zero_of_dvd_of_lt covered.regular.values
      (short.trans_le (kind.width_le.trans (by decide)))
  refine ⟨?_, covered.paired nothing⟩
  rw [covered.regular.size_stretched]
  have slots : 0 < 2 * column.growthBase := Nat.mul_pos Nat.two_pos column.growthBase_pos
  exact (roundUp_values_pos kind slots).trans_le (le_max_right _ _)

end Covered

end Column

namespace Edit

/-- Every edit keeps the values covered, unless an account was overdrawn or a growth from nothing was
cut off. -/
theorem coveredInvariant : EditInvariant (fun session : Session n kind => session.column.Covered)
    (fun failure session => failure = .overdrawn ∨ session.column.Covered ∨
      failure.Exhausted ∧ session.column.CutOff) where
  noted _ covered := covered
  remembered slots covered :=
    ⟨regularInvariant.remembered slots covered.regular, covered.covers, covered.paired⟩
  outOfRange covered := .inr (.inl covered)
  reported _ covered := .inr (.inl covered)
  counted count small covered :=
    ⟨regularInvariant.counted count small covered.regular, covered.covers, covered.paired⟩
  written {session} bytes same covered := by
    have size : (session.mapValues fun _ => bytes).column.values.size = session.column.values.size :=
      same
    refine ⟨regularInvariant.written bytes same covered.regular, ?_, ?_⟩
    · rw [size]
      exact covered.covers
    · rw [size]
      exact covered.paired
  marked {session} bytes same covered := by
    have size : (session.mapValidity fun _ => bytes).column.validity.size =
      session.column.validity.size := same
    refine ⟨regularInvariant.marked bytes same covered.regular, ?_, ?_⟩
    · rw [size]
      exact covered.covers
    · rw [size]
      exact covered.paired
  grow session covered := by
    refine (grow_doubles covered.regular).mono ?_ ?_
    · exact fun _ _ grown => (congrArg Column.Covered grown).mpr covered.doubled
    · rintro failure after (⟨_, same, _⟩ | ⟨_, same⟩ | ⟨refused, none, cut⟩)
      · exact .inr (.inl (same ▸ covered))
      · exact .inr (.inl (same ▸ covered))
      · exact .inr (.inr ⟨refused, cut ▸ covered.stretched_cutOff none⟩)
  allocate slots :=
    (allocate_keepsColumn Column.covered_renewed slots).mono_stop fun _ _ => Or.imp_right .inl
  clear := (clear_keepsColumn Column.covered_emptied).mono_stop fun _ _ => Or.imp_right .inl

end Edit

end Columnar
