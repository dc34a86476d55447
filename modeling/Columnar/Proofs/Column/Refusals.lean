import Columnar.Proofs.Column.Doubling
import Columnar.Proofs.Column.Twins

namespace Columnar

open Columnar.Action

variable {n : Nat} {kind : Kind}

namespace Column

variable {column : Column n kind}

/-- Regular, with a bitmap only where there are slots: the values are taken first. -/
structure Leading (column : Column n kind) : Prop where
  regular : column.Regular
  bitmap : column.capacity = 0 → column.validity.size = 0

theorem leading_ofType (name : String) (type : FieldType) (account : Fin n) (config : Config) :
    (ofType name type account config : Column n kind).Leading :=
  ⟨regular_ofType .., fun _ => rfl⟩

theorem leading_emptied (column : Column n kind) : column.emptied.Leading :=
  ⟨column.regular_emptied, fun _ => rfl⟩

theorem leading_renewed (column : Column n kind) (slots : Nat) : (column.renewed slots).Leading := by
  refine ⟨column.regular_renewed slots, ?_⟩
  intro nothing
  have none : slots = 0 := Nat.eq_zero_of_le_zero (nothing ▸ column.le_capacity_renewed slots)
  subst none
  rfl

namespace Leading

variable (leading : column.Leading)

include leading

theorem receiving {receiver : Column n kind} : (receiver.receiving column).Leading :=
  ⟨leading.regular.receiving receiver, leading.bitmap⟩

theorem doubled : column.doubled.Leading := by
  refine ⟨leading.regular.doubled, ?_⟩
  intro none
  have base := column.growthBase_pos
  have slots := column.le_capacity_doubled
  omega

theorem stretched (none : column.capacity = 0) : column.stretched.Leading :=
  ⟨leading.regular.stretched, fun _ => leading.bitmap none⟩

theorem capacity_stretched (none : column.capacity = 0) : column.stretched.capacity = 0 := by
  have bitmap : column.stretched.validity.size = 0 := leading.bitmap none
  rw [capacity, bitmap]
  exact Nat.min_eq_right (Nat.zero_le _)

end Leading

end Column

namespace Edit

variable {session stopped : Session n kind} {failure : Failure} {slots : Nat}

theorem grow_leading : Keeps grow (fun session : Session n kind => session.column.Leading)
    (fun _ session => session.column.Leading) := by
  intro session leading
  refine (grow_doubles leading.regular).mono ?_ ?_
  · exact fun _ _ grown => (congrArg Column.Leading grown).mpr leading.doubled
  · rintro failure after (⟨_, same, _⟩ | ⟨_, same⟩ | ⟨_, none, cut⟩)
    · exact same ▸ leading
    · exact same ▸ leading
    · exact cut ▸ leading.stretched none

/-- Every edit keeps the bitmap behind the values, unless an account was overdrawn. -/
theorem leadingInvariant : EditInvariant (fun session : Session n kind => session.column.Leading)
    (fun failure session => failure = .overdrawn ∨ session.column.Leading) where
  noted _ leading := leading
  remembered slots leading := ⟨regularInvariant.remembered slots leading.regular, leading.bitmap⟩
  outOfRange leading := .inr leading
  reported _ leading := .inr leading
  counted count small leading :=
    ⟨regularInvariant.counted count small leading.regular, leading.bitmap⟩
  written {session} bytes same leading := by
    have size : (session.mapValues fun _ => bytes).column.values.size = session.column.values.size :=
      same
    refine ⟨regularInvariant.written bytes same leading.regular, ?_⟩
    rw [Column.capacity, size]
    exact leading.bitmap
  marked {session} bytes same leading := by
    have size : (session.mapValidity fun _ => bytes).column.validity.size =
      session.column.validity.size := same
    refine ⟨regularInvariant.marked bytes same leading.regular, ?_⟩
    rw [Column.capacity, size]
    exact leading.bitmap
  grow := grow_leading.mono_stop fun _ _ => .inr
  allocate := allocate_keepsColumn Column.leading_renewed
  clear := clear_keepsColumn Column.leading_emptied

/-! ### Refused again -/

/-- The slots are within the limits of numbers and of the configuration. -/
def Allowed (column : Column n kind) (slots : Nat) : Prop :=
  slots < Word.size ∧ slots * kind.width < Word.size ∧
    slots * kind.width ≤ column.config.maxAllocationBytes

theorem bufferSizes_eq {slots : Nat} (fits : slots * kind.width < Word.size ∧
      slots * kind.width ≤ session.column.config.maxAllocationBytes) :
    bufferSizes slots session = .ok (slots * kind.width, Bitmap.bytesFor slots) session := by
  rw [bufferSizes, column_bind, if_pos fits]
  rfl

def growBlocks (slots : Nat) : Edit n kind Unit := do
  growBuffer .values (slots * kind.width)
  growBuffer .validity (Bitmap.bytesFor slots)
  rememberCapacity

theorem grow_of_allowed (allowed : Allowed session.column (2 * session.column.growthBase)) :
    ∃ notice, grow session = growBlocks (2 * session.column.growthBase)
      ⟨session.column, session.ledger.note notice⟩ := by
  obtain ⟨small, fits⟩ := allowed
  refine ⟨.growing session.column.field.name session.column.capacity
    (2 * session.column.growthBase), ?_⟩
  simp only [grow, column_bind]
  rw [if_neg (Nat.not_le_of_lt small)]
  simp only [bind, EStateM.bind, bufferSizes_eq fits]
  rfl

theorem grow_of_not_allowed (beyond : ¬ Allowed session.column (2 * session.column.growthBase)) :
    Ends grow session (fun _ _ => False) (fun _ after => session.Alike after) := by
  rw [grow, ends_column_bind]
  by_cases huge : Word.size ≤ 2 * session.column.growthBase
  · rw [if_pos huge]
    exact session.alike_refl
  · rw [if_neg huge]
    refine ends_bind.mpr (ends_bufferSizes ?_ fun _ _ _ _ => session.alike_noted _)
    intro small allowed
    exact absurd ⟨Nat.lt_of_not_le huge, small, allowed⟩ beyond

theorem growBuffer_of_le {which : Buffer} {size : Nat}
    (enough : size ≤ (session.column.buffer which).size) :
    growBuffer which size session = .ok () session := by
  rw [growBuffer, column_bind, if_pos enough]
  rfl

/-- A refusal changes nothing, or it is the bitmap that was refused after the values had grown. -/
theorem grow_refused (fine : failure ≠ .tooLarge) (refused : grow session = .error failure stopped) :
    session.Alike stopped ∨ Allowed session.column (2 * session.column.growthBase) ∧
      ∃ between, between.column = session.column.stretched ∧ between.Alike stopped ∧
        growBuffer .validity (Bitmap.bytesFor (2 * session.column.growthBase)) between =
          .error failure stopped := by
  by_cases allowed : Allowed session.column (2 * session.column.growthBase)
  · obtain ⟨notice, run⟩ := grow_of_allowed allowed
    rw [run, growBlocks] at refused
    rcases bind_error.mp refused with declined | ⟨_, between, grew, refused⟩
    · obtain ⟨same, ⟨_, _, kept⟩ | ⟨large, _⟩⟩ := (growBuffer_fits .values _ _).of_error declined
      · exact .inl (Session.alike_of_same same kept)
      · exact absurd large fine
    · obtain ⟨stretched, _⟩ := (growBuffer_fits .values _ _).of_ok grew
      rcases bind_error.mp refused with declined | ⟨_, _, _, remembered⟩
      · obtain ⟨same, ⟨_, _, kept⟩ | ⟨large, _⟩⟩ := (growBuffer_fits .validity _ _).of_error declined
        · exact .inr ⟨allowed, between, stretched, Session.alike_of_same same kept, declined⟩
        · exact absurd large fine
      · cases remembered
  · exact .inl ((grow_of_not_allowed allowed).of_error refused)

/-- A refused doubling leaves the capacity and is refused again, which then changes nothing. -/
theorem grow_refused_again (leading : session.column.Leading) (fine : failure ≠ .tooLarge)
    (refused : grow session = .error failure stopped) :
    stopped.column.capacity = session.column.capacity ∧
      ∃ after, grow stopped = .error failure after ∧ stopped.Alike after := by
  have unchanged (alike : session.Alike stopped) :
      stopped.column.capacity = session.column.capacity ∧
        ∃ after, grow stopped = .error failure after ∧ stopped.Alike after :=
    ⟨alike.capacity, (grow_respects _ _ alike).of_error refused⟩
  rcases grow_refused fine refused with alike | ⟨allowed, between, stretched, alike, declined⟩
  · exact unchanged alike
  rcases (grow_doubles leading.regular).of_error refused with ⟨_, same, kept⟩ | ⟨large, _⟩ | ⟨_, none, cut⟩
  · exact unchanged (Session.alike_of_same same kept)
  · exact absurd large fine
  have empty : stopped.column.capacity = 0 :=
    (congrArg Column.capacity cut).trans (leading.capacity_stretched none)
  have base : stopped.column.growthBase = session.column.growthBase := by
    rw [Column.growthBase, Column.growthBase, empty, none, cut]
    rfl
  have still : Allowed stopped.column (2 * stopped.column.growthBase) := by
    rw [Allowed, base, cut]
    exact allowed
  obtain ⟨notice, run⟩ := grow_of_allowed still
  have room : 2 * session.column.growthBase * kind.width ≤ stopped.column.values.size := by
    rw [cut, leading.regular.size_stretched]
    exact (Block.le_roundUp _).trans (le_max_right _ _)
  obtain ⟨after, again, unchanged⟩ :=
    (growBuffer_respects .validity _ _ _ (alike.trans (stopped.alike_noted notice))).of_error declined
  refine ⟨empty.trans none.symm, after, ?_, unchanged⟩
  rw [run, base, growBlocks]
  exact bind_error.mpr (.inr ⟨(), _, growBuffer_of_le room, bind_error.mpr (.inl again)⟩)

/-! ### Growing to a size -/

/-- Growing to a size passes through every smaller size. -/
theorem reserve_through {needed : Nat} (less : needed ≤ slots) (session : Session n kind) :
    reserve slots session = (reserve needed >>= fun _ => reserve slots) session := by
  induction session using reserve.induct needed with
  | case1 session enough =>
    have here : reserve needed session = .ok () session := by rw [reserve_eq, if_pos enough]
    simp only [bind, EStateM.bind, here]
  | case2 session short result larger grown ih =>
    have step : reserve needed session = reserve needed larger := by
      rw [reserve_eq, if_neg short, grown]
    have beyond : ¬ slots ≤ session.column.capacity := fun enough => short (less.trans enough)
    rw [reserve_eq, if_neg beyond, grown]
    simp only [bind, EStateM.bind, step]
    exact ih
  | case3 session short failure stopped refused =>
    have step : reserve needed session = .error failure stopped := by
      rw [reserve_eq, if_neg short, refused]
    have beyond : ¬ slots ≤ session.column.capacity := fun enough => short (less.trans enough)
    rw [reserve_eq, if_neg beyond, refused]
    simp only [bind, EStateM.bind, step]

theorem reserve_of_le (enough : slots ≤ session.column.capacity) :
    reserve slots session = .ok () session := by
  rw [reserve_eq, if_pos enough]

theorem reserve_refused_again (leading : session.column.Leading) (fine : failure ≠ .tooLarge)
    (refused : reserve slots session = .error failure stopped) :
    ∃ after, reserve slots stopped = .error failure after ∧ stopped.Alike after := by
  induction session using reserve.induct slots with
  | case1 session enough =>
    rw [reserve_of_le enough] at refused
    cases refused
  | case2 session short result larger grown ih =>
    rw [reserve_eq, if_neg short, grown] at refused
    exact ih ((grow_leading session leading).of_ok grown) refused
  | case3 session short cause last declined =>
    rw [reserve_eq, if_neg short, declined] at refused
    cases refused
    obtain ⟨capacity, after, again, unchanged⟩ := grow_refused_again leading fine declined
    have still : ¬ slots ≤ stopped.column.capacity := by rwa [capacity]
    refine ⟨after, ?_, unchanged⟩
    rw [reserve_eq, if_neg still, again]

end Edit

end Columnar
