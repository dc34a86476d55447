import Columnar.Proofs.Column.Bounds
import Columnar.Proofs.Column.Origin
import Columnar.Proofs.Column.Reports
import Columnar.Proofs.Column.Sizes

/-! Growing to a size, exactly. Blocks are whole numbers of grains and so are those for twice as many
slots, wherever a growth was cut off before: rounding adds nothing, and a column that has slots doubles
them to the slot. Growing therefore reaches a size after less than a word's length of doublings. -/

namespace Columnar

open Columnar.Action

variable {n : Nat} {kind : Kind}

/-- The last number is the first, doubled until it reaches the needed one and no further. -/
def DoublesTo (held needed reached : Nat) : Prop :=
  ∃ times, reached = held * 2 ^ times ∧ needed ≤ held * 2 ^ times ∧
    ∀ fewer < times, held * 2 ^ fewer < needed

namespace DoublesTo

variable {held needed reached : Nat}

theorem refl (enough : needed ≤ held) : DoublesTo held needed held :=
  ⟨0, by simp, by simpa using enough, fun _ none => absurd none (Nat.not_lt_zero _)⟩

theorem next (short : held < needed) (rest : DoublesTo (2 * held) needed reached) :
    DoublesTo held needed reached := by
  obtain ⟨times, same, enough, least⟩ := rest
  have doubled (times : Nat) : held * 2 ^ (times + 1) = 2 * held * 2 ^ times := by ring
  refine ⟨times + 1, (doubled times).symm ▸ same, (doubled times).symm ▸ enough, ?_⟩
  rintro (_ | fewer) less
  · simpa using short
  · rw [doubled]
    exact least fewer (Nat.lt_of_succ_lt_succ less)

theorem unique {other : Nat} (doubles : DoublesTo held needed reached)
    (again : DoublesTo held needed other) : reached = other := by
  obtain ⟨times, rfl, enough, least⟩ := doubles
  obtain ⟨often, rfl, reaches, fewest⟩ := again
  rcases Nat.lt_trichotomy times often with fewer | rfl | more
  · exact absurd (fewest times fewer) enough.not_gt
  · rfl
  · exact absurd (least often more) reaches.not_gt

end DoublesTo

namespace Column

variable {column : Column n kind}

/-- A column that has slots has no more than twice as many when it is doubled. The block that they fill is
doubled to the byte. -/
theorem Grained.capacity_doubled_le (grained : column.Grained) (some : 0 < column.capacity) :
    column.doubled.capacity ≤ 2 * column.capacity := by
  have base : column.growthBase = column.capacity := if_pos some
  have values := grained.size_stretched
  have validity := grained.size_doubled
  rw [base] at values validity
  rcases min_choice (column.values.size / kind.width) (column.validity.size * 8) with filled | filled
  · have slots : column.capacity * kind.width = column.values.size := by
      rw [show column.capacity = column.values.size / kind.width from filled]
      exact Nat.div_mul_cancel (kind.width_dvd.trans grained.values)
    have twice : column.stretched.values.size = 2 * column.capacity * kind.width := by
      rw [values, Nat.mul_assoc, slots, Block.roundUp_eq (grained.values.mul_left 2)]
      omega
    refine (Nat.min_le_left _ _).trans_eq ?_
    rw [show column.doubled.values = column.stretched.values from rfl, twice]
    exact Nat.mul_div_cancel _ kind.width_pos
  · have slots : column.capacity = column.validity.size * 8 := filled
    have bytes : Bitmap.bytesFor (2 * column.capacity) = 2 * column.validity.size := by
      rw [Bitmap.bytesFor_eq]
      omega
    have twice : column.doubled.validity.size = 2 * column.validity.size := by
      rw [validity, bytes, Block.roundUp_eq (grained.validity.mul_left 2)]
      omega
    refine (Nat.min_le_right _ _).trans ?_
    omega

theorem Grained.capacity_doubled (grained : column.Grained) (some : 0 < column.capacity) :
    column.doubled.capacity = 2 * column.capacity := by
  apply Nat.le_antisymm (grained.capacity_doubled_le some)
  have base : column.growthBase = column.capacity := if_pos some
  rw [← base]
  exact column.le_capacity_doubled

theorem Grained.room (grained : column.Grained) (bounded : column.Bounded) :
    2 * column.capacity * kind.width + Block.grain ≤ Word.size := by
  have slots : column.capacity * kind.width ≤ column.values.size := mul_width_le_size le_rfl
  obtain ⟨grains, whole⟩ := grained.values
  have small := bounded.values
  rw [whole] at slots small
  rw [Nat.mul_assoc]
  simp only [Block.grain, Word.largestRequest, Word.size] at *
  omega

end Column

namespace Edit

variable {session : Session n kind} {slots : Nat}

/-! ### One doubling -/

theorem grow_refuses (session : Session n kind) (bounded : session.column.Bounded)
    (huge : Word.size ≤ 2 * session.column.growthBase * kind.width + (Block.grain - 1)) :
    Ends grow session (fun _ _ => False)
      (fun failure after => failure.Exhausted ∧ after.column = session.column) := by
  have large : Word.largestRequest < 2 * session.column.growthBase * kind.width := by
    simp only [Word.size, Block.grain, Word.largestRequest] at huge ⊢
    omega
  refine ends_grow (fun _ _ exhausted _ => ⟨exhausted, rfl⟩) fun notice _ => ?_
  refine (growBuffer_fits .values _ _).mono ?_ ?_
  · rintro _ after ⟨stretched, unchanged | ⟨small, _⟩⟩
    · have same : session.column.values.fitting (2 * session.column.growthBase * kind.width) =
          session.column.values :=
        congrArg Column.values (stretched.symm.trans (congrArg Session.column unchanged))
      have enough := session.column.values.le_size_fitting
        (2 * session.column.growthBase * kind.width)
      rw [same] at enough
      exact absurd (enough.trans bounded.values) large.not_ge
    · exact absurd ((Block.le_roundUp _).trans small) large.not_ge
  · rintro failure after ⟨same, ⟨refused, _⟩ | ⟨_, _, accepts, _⟩⟩
    · exact ⟨⟨_, _, refused⟩, same⟩
    · exact absurd accepts (Block.not_accepts_of_huge huge _)

/-- A doubling that ends well at least doubles a base that is positive, and doubles slots exactly. -/
theorem grow_powers (session : Session n kind) (grained : session.column.Grained) : Ends grow session
    (fun _ after => 2 * session.column.growthBase ≤ after.column.capacity ∧
      (0 < session.column.capacity → after.column.capacity = 2 * session.column.capacity))
    (fun failure _ => failure.Exhausted ∨ failure = .tooLarge) := by
  refine (grow_leaves session).mono ?_ fun _ _ => And.left
  rintro _ after ⟨grown, _⟩
  rw [grown]
  exact ⟨session.column.le_capacity_doubled, grained.capacity_doubled⟩

/-! ### Doubling until the slots are there -/

theorem passed_of_enough (enough : slots ≤ session.column.capacity) : passed slots session = [] := by
  rw [passed, if_pos enough]

theorem passed_of_refused {failure : Failure} {stopped : Session n kind}
    (refused : grow session = .error failure stopped) : passed slots session = [] := by
  rw [passed]
  split
  · rfl
  · split
    · rename_i found
      rw [refused] at found
      cases found
    · rfl

theorem exists_of_mem_passed {inv : Session n kind → Prop} {stop : Failure → Session n kind → Prop}
    (step : Keeps grow inv stop) (holds : inv session) {held : Nat}
    (member : held ∈ passed slots session) :
    ∃ between : Session n kind, inv between ∧ between.column.capacity = held := by
  induction session using reserve.induct slots with
  | case1 session enough =>
    rw [passed_of_enough enough] at member
    cases member
  | case2 session short result larger grown ih =>
    have kept := (step session holds).of_ok grown
    rw [passed_of_grow short grown] at member
    rcases List.mem_cons.mp member with rfl | later
    · exact ⟨larger, kept, rfl⟩
    · exact ih kept later
  | case3 session short failure stopped refused =>
    rw [passed_of_refused refused] at member
    cases member

private theorem one_max_capacity_le {column : Column n kind} (bounded : column.Bounded) :
    max 1 column.capacity ≤ Word.largestRequest :=
  max_le (by decide) (column.capacity_le_size.trans bounded.values)

/-- Every capacity passed at least doubles the one before, or is at least two after none. -/
theorem pow_length_passed_le (slots : Nat) (session : Session n kind) (bounded : session.column.Bounded) :
    max 1 session.column.capacity * 2 ^ (passed slots session).length ≤ Word.largestRequest := by
  induction session using reserve.induct slots with
  | case1 session enough => simpa [passed_of_enough enough] using one_max_capacity_le bounded
  | case2 session short result larger grown ih =>
    have later := ih ((boundedInvariant.grow session bounded).of_ok grown)
    have reached := le_capacity_of_grow grown
    have base := session.column.growthBase_pos
    have twice : 2 * max 1 session.column.capacity ≤ max 1 larger.column.capacity := by
      by_cases some : 0 < session.column.capacity
      · have same : session.column.growthBase = session.column.capacity := if_pos some
        omega
      · omega
    rw [passed_of_grow short grown, List.length_cons, pow_succ', ← Nat.mul_assoc,
      Nat.mul_comm (max 1 session.column.capacity) 2]
    exact (Nat.mul_le_mul_right _ twice).trans later
  | case3 session short failure stopped refused =>
    simpa [passed_of_refused refused] using one_max_capacity_le bounded

/-- So fewer capacities are passed than a size has bits. -/
theorem length_passed_lt (slots : Nat) (session : Session n kind) (bounded : session.column.Bounded) :
    (passed slots session).length < 63 := by
  have positive : 0 < max 1 session.column.capacity := Nat.zero_lt_one.trans_le (le_max_left _ _)
  have power : 2 ^ (passed slots session).length < 2 ^ 63 :=
    calc 2 ^ (passed slots session).length
      _ ≤ max 1 session.column.capacity * 2 ^ (passed slots session).length :=
        Nat.le_mul_of_pos_left _ positive
      _ ≤ Word.largestRequest := pow_length_passed_le slots session bounded
      _ < 2 ^ 63 := by decide
  exact (Nat.pow_lt_pow_iff_right (by decide)).mp power

/-- A column that has slots doubles them until there are enough, and no further. -/
theorem reserve_doublesTo (slots : Nat) (session : Session n kind) (grained : session.column.Grained)
    (some : 0 < session.column.capacity) : Ends (reserve slots) session
      (fun _ after => DoublesTo session.column.capacity slots after.column.capacity) (fun _ _ => True) := by
  induction session using reserve.induct slots with
  | case1 session enough =>
    rw [Ends, reserve_eq, if_pos enough]
    exact .refl enough
  | case2 session short result larger grown ih =>
    have twice := ((grow_powers session grained).of_ok grown).2 some
    have kept := ((sizedInvariant (Column.asked_grains kind)).grow session grained).of_ok grown
    rw [Ends, reserve_eq, if_neg short, grown]
    refine (ih kept (by omega)).mono_post ?_
    intro _ after reached
    rw [twice] at reached
    exact reached.next (Nat.lt_of_not_le short)
  | case3 session short failure stopped refused =>
    rw [Ends, reserve_eq, if_neg short, refused]
    trivial

end Edit

namespace Column

/-- The capacity that a column comes to when it grows to a number of slots: the least doubling of the slots
that it has, or from none at least twice a positive base. -/
structure GrowsTo (column : Column n kind) (slots capacity : Nat) : Prop where
  enough : slots ≤ capacity
  doubles : 0 < column.capacity → DoublesTo column.capacity slots capacity
  starts : column.capacity = 0 → 0 < slots → 0 < column.growthBase ∧ 2 * column.growthBase ≤ capacity

end Column

namespace Edit

variable {session : Session n kind} {slots : Nat}

theorem reserve_growsTo (slots : Nat) (session : Session n kind) (grained : session.column.Grained) :
    Ends (reserve slots) session
      (fun _ after => session.column.GrowsTo slots after.column.capacity)
      (fun failure _ => failure.Exhausted ∨ failure = .tooLarge) := by
  have stops := reserve_ends grow_stops slots session trivial
  refine ends_of ?_ fun _ _ stopped => stops.of_error stopped
  intro _ after reached
  refine ⟨(stops.of_ok reached).2, fun some => ?_, fun none positive => ?_⟩
  · exact (reserve_doublesTo slots session grained some).of_ok reached
  · have short : ¬ slots ≤ session.column.capacity := by omega
    rw [reserve_eq, if_neg short] at reached
    cases grown : grow session with
    | error failure stopped =>
      rw [grown] at reached
      cases reached
    | ok _ larger =>
      rw [grown] at reached
      have further := ((reserve_grows slots larger).of_ok reached).1.capacity_le
      exact ⟨session.column.growthBase_pos, (le_capacity_of_grow grown).trans further⟩

/-- What an edit leaves of the capacity that it grows to first. -/
theorem reserve_first_reaches {edit : Edit n kind Unit} {holds : Nat → Prop}
    (fixes : ∀ column, Keeps edit (Fixes column) (fun _ => Fixes column))
    (reserved : Ends (reserve slots) session (fun _ after => holds after.column.capacity)
      (fun _ _ => True)) :
    Ends (reserve slots >>= fun _ => edit) session (fun _ after => holds after.column.capacity)
      (fun _ _ => True) := by
  refine ends_bind.mpr (reserved.mono_post ?_)
  intro _ between reached
  refine (fixes between.column between (Column.fixed_refl _)).mono ?_ fun _ _ _ => trivial
  intro _ after fixed
  exact fixed.capacity ▸ reached

end Edit

theorem Call.reaches {session : Session n kind} {call : Call kind} {holds : Nat → Prop}
    (grows : call.GrowsFirst)
    (reserved : Ends (Edit.reserve call.needs) session (fun _ after => holds after.column.capacity)
      (fun _ _ => True)) :
    Ends call.edit session (fun _ after => holds after.column.capacity) (fun _ _ => True) := by
  have safe {index : Nat} (slot : call.safeSlot? = some index) (needs : call.needs = index + 1) :
      Ends call.edit session (fun _ after => holds after.column.capacity) (fun _ _ => True) := by
    rw [needs] at reserved
    have writes : Edit.Writes index (call.edit : Edit n kind Unit) := Call.writes slot
    generalize (call.edit : Edit n kind Unit) = edit at writes ⊢
    cases writes with
    | refused cause => trivial
    | put value? => exact Edit.reserve_first_reaches (fun _ => Edit.fixesInvariant.mark index value?) reserved
  cases call with
  | setValueCount count => exact Edit.reserve_first_reaches (fun _ => Edit.setCount_fixes count) reserved
  | setSafe | setIfSafe | setNull | setHolderSafe | setCellSafe | setTruncatedSafe | setEncoded =>
    exact safe rfl rfl
  | _ => cases grows

end Columnar
