import Columnar.Proofs.Column.Commuting
import Columnar.Proofs.Column.Transfer

/-! How much memory a column can come to hold. A growth doubles the slots that are there or that are
remembered. Where there are slots they are fewer than what is asked for; so only a column that had slots
and gave them away grows beyond twice of that. -/

namespace Columnar

open Columnar.Action

variable {n : Nat} {kind : Kind} {slots volume : Nat}

namespace Column

variable {column later : Column n kind}

/-- The values take no more than the given volume, and will not when they next grow from nothing. -/
structure Within (column : Column n kind) (volume : Nat) : Prop where
  values : column.values.size ≤ volume
  some : 0 < column.remembered
  remembered : column.remembered * kind.width ≤ volume
  fresh : column.capacity = 0 → 2 * column.remembered * kind.width ≤ volume

/-- A volume in which twice the given slots find room. -/
structure Ample (kind : Kind) (slots volume : Nat) : Prop where
  whole : Block.grain ∣ volume
  room : 2 * slots * kind.width ≤ volume

theorem Ample.double (ample : Ample kind slots volume) : Ample kind slots (2 * volume) :=
  ⟨Nat.dvd_mul_left_of_dvd ample.whole 2, ample.room.trans (Nat.le_mul_of_pos_left _ Nat.two_pos)⟩

namespace Within

variable (within : column.Within volume)

include within

theorem mono {larger : Nat} (le : volume ≤ larger) : column.Within larger :=
  ⟨within.values.trans le, within.some, within.remembered.trans le,
    fun nothing => (within.fresh nothing).trans le⟩

theorem capacity_le : column.capacity * kind.width ≤ volume :=
  (mul_width_le_size le_rfl).trans within.values

theorem resized (values : later.values.size = column.values.size)
    (validity : later.validity.size = column.validity.size)
    (same : later.remembered = column.remembered) : later.Within volume := by
  have capacity : later.capacity = column.capacity := capacity_of_sizes values validity
  refine ⟨values.trans_le within.values, ?_, ?_, ?_⟩
  · rw [same]
    exact within.some
  · rw [same]
    exact within.remembered
  · rw [capacity, same]
    exact within.fresh

/-- What growing doubles fits twice into the volume, where fewer slots are there than asked for. -/
theorem growth (ample : Ample kind slots volume) (short : column.capacity < slots) :
    Block.roundUp (2 * column.growthBase * kind.width) ≤ volume := by
  refine Block.roundUp_le ?_ ample.whole
  rcases Nat.eq_zero_or_pos column.capacity with nothing | held
  · have base : column.growthBase = column.remembered := by
      rw [growthBase, if_neg (by omega), if_pos within.some]
    rw [base]
    exact within.fresh nothing
  · have base : column.growthBase = column.capacity := if_pos held
    rw [base]
    exact (Nat.mul_le_mul_right _ (Nat.mul_le_mul_left 2 short.le)).trans ample.room

theorem grown (grown : column.Grown later) (values : later.values.size ≤ volume)
    (same : later.remembered = column.remembered) : later.Within volume := by
  refine ⟨values, ?_, ?_, ?_⟩
  · rw [same]
    exact within.some
  · rw [same]
    exact within.remembered
  · intro nothing
    rw [same]
    exact within.fresh (Nat.eq_zero_of_le_zero (nothing ▸ grown.capacity_le))

end Within

/-- A column with slots that remembers how many they are keeps within the volume of its values. -/
theorem within_of_remembered (values : column.values.size ≤ volume) (held : 0 < column.capacity)
    (same : column.remembered = column.capacity) : column.Within volume where
  values := values
  some := same ▸ held
  remembered := by
    rw [same]
    exact (mul_width_le_size le_rfl).trans values
  fresh nothing := absurd nothing held.ne'

/-- The column is as it was, or it gave its values away. -/
def Vacated (column later : Column n kind) : Prop :=
  later = column ∨ later.values.size = 0 ∧ later.remembered = column.remembered

theorem Within.vacated (within : column.Within volume) (vacated : column.Vacated later) :
    later.Within (if 0 < column.capacity ∧ later.capacity = 0 then 2 * volume else volume) := by
  rcases vacated with rfl | ⟨nothing, same⟩
  · rw [if_neg fun lost => lost.1.ne' lost.2]
    exact within
  · have empty : later.capacity = 0 := by
      rw [capacity, nothing, Nat.zero_div]
      exact Nat.min_eq_left (Nat.zero_le _)
    have room : 2 * column.remembered * kind.width ≤
        if 0 < column.capacity ∧ later.capacity = 0 then 2 * volume else volume := by
      by_cases held : 0 < column.capacity
      · rw [if_pos ⟨held, empty⟩, Nat.mul_assoc]
        exact Nat.mul_le_mul_left 2 within.remembered
      · rw [if_neg fun lost => held lost.1]
        exact within.fresh (Nat.eq_zero_of_not_pos held)
    refine ⟨nothing.trans_le (Nat.zero_le _), same ▸ within.some, ?_, fun _ => same ▸ room⟩
    rw [same]
    exact (Nat.mul_le_mul_right _ (Nat.le_mul_of_pos_left _ Nat.two_pos)).trans room

end Column

namespace Edit

variable {session : Session n kind}

/-- The column of the session keeps within the volume. -/
abbrev Held (volume : Nat) (session : Session n kind) : Prop := session.column.Within volume

/-- Growing keeps within a volume that is ample for the slots asked for. -/
theorem grow_within (ample : Column.Ample kind slots volume) (within : session.column.Within volume)
    (short : session.column.capacity < slots) :
    Ends grow session (fun _ after => after.column.Within volume)
      (fun _ after => after.column.Within volume) := by
  have fits : session.column.stretched.values.size ≤ volume := by
    rcases session.column.values.size_fitting_eq_or (2 * session.column.growthBase * kind.width) with
      same | taken
    · exact same.trans_le within.values
    · exact taken.trans_le (within.growth ample short)
  refine (grow_leaves session).mono ?_ ?_
  · rintro _ after ⟨grown, _⟩
    have base := session.column.growthBase_pos
    have slots := session.column.le_capacity_doubled
    rw [grown]
    exact Column.within_of_remembered fits (by omega) rfl
  · rintro _ after ⟨_, same | ⟨cut, _⟩⟩
    · rw [same]
      exact within
    · rw [cut]
      exact within.grown ⟨rfl, rfl, rfl, rfl, Block.extends_fitting _ _, .refl _⟩ fits rfl

theorem reserve_within (ample : Column.Ample kind slots volume) {needed : Nat}
    (less : needed ≤ slots) : Keeps (reserve needed : Edit n kind Unit) (Held volume)
      (fun _ => Held volume) := by
  intro session within
  induction session using reserve.induct needed with
  | case1 session enough =>
    rw [Ends, reserve_eq, if_pos enough]
    exact within
  | case2 session short result larger grown ih =>
    rw [Ends, reserve_eq, if_neg short, grown]
    exact ih ((grow_within ample within ((Nat.lt_of_not_le short).trans_le less)).of_ok grown)
  | case3 session short failure stopped refused =>
    rw [Ends, reserve_eq, if_neg short, refused]
    exact (grow_within ample within ((Nat.lt_of_not_le short).trans_le less)).of_error refused

theorem heldInvariant : WriteInvariant (Held volume : Session n kind → Prop) (fun _ => Held volume) where
  outOfRange within := within
  written _ same within := within.resized same rfl rfl
  marked _ same within := within.resized rfl same rfl

theorem copyFromSafe_within (ample : Column.Ample kind slots volume) (other : Column n kind)
    {source target : Nat} (less : target < slots) :
    Keeps (copyFromSafe other source target) (Held volume) (fun _ => Held volume) :=
  (reserve_within ample less).bind fun _ => heldInvariant.copyFrom other source target

theorem clear_vacates (session : Session n kind) : Ends clear session
    (fun _ after => session.column.Vacated after.column)
    (fun _ after => session.column.Vacated after.column) := by
  refine (clear_leaves session).mono ?_ ?_
  · exact fun _ _ gone => gone ▸ .inr ⟨rfl, rfl⟩
  · rintro _ after ⟨_, midway | midway⟩
    · exact midway ▸ .inr ⟨rfl, rfl⟩
    · exact midway ▸ .inr ⟨rfl, rfl⟩

end Edit

/-- A column that is transferred gives its values away, unless the transfer stops before. -/
theorem Exchange.transfer_vacates (exchange : Exchange n kind) : Ends transfer exchange
    (fun _ after => exchange.source.Vacated after.source)
    (fun _ after => exchange.source.Vacated after.source) := by
  have bare (ledger : Ledger n) : Ends Edit.clear ⟨exchange.source.bare, ledger⟩
      (fun _ last => exchange.source.Vacated last.column)
      (fun _ last => exchange.source.Vacated last.column) := by
    have left (later : Column n kind) (vacated : exchange.source.bare.Vacated later) :
        exchange.source.Vacated later := by
      rcases vacated with rfl | gone
      · exact .inr ⟨rfl, rfl⟩
      · exact .inr gone
    exact (Edit.clear_vacates _).mono (fun _ _ => left _) fun _ _ => left _
  refine ends_transfer fun _ => ends_of ?_ fun _ _ _ => .inl rfl
  intro _ cleared _
  refine ends_of ?_ fun _ _ _ => .inr ⟨rfl, rfl⟩
  exact fun _ charged _ => bare charged.ledger

/-- The call writes a slot below a bound, sets the count to no more, or empties the column. -/
inductive Call.StaysBelow (slots : Nat) : Call kind → Prop where
  | write {call : Call kind} {index : Nat} (slot : call.safeSlot? = some index)
    (less : index < slots) : StaysBelow slots call
  | count {count : Nat} (less : count ≤ slots) : StaysBelow slots (.setValueCount count)
  | reset : StaysBelow slots .reset
  | clear : StaysBelow slots .clear

/-- Such a call keeps within a volume that is ample for the bound, unless it clears the column. -/
theorem Call.StaysBelow.within {call : Call kind} (below : call.StaysBelow slots)
    (ample : Column.Ample kind slots volume) (keeping : call ≠ .clear) :
    Keeps (call.edit : Edit n kind Unit) (Edit.Held volume) (fun _ => Edit.Held volume) := by
  cases below with
  | write slot less =>
    have writes : Edit.Writes _ (call.edit : Edit n kind Unit) := Call.writes slot
    generalize (call.edit : Edit n kind Unit) = edit at writes ⊢
    cases writes with
    | refused cause => exact keeps_throw _
    | put value? => exact (Edit.reserve_within ample less).bind fun _ => Edit.heldInvariant.mark _ value?
  | count less =>
    exact (Edit.reserve_within ample less).bind fun _ _ within => within.resized rfl rfl rfl
  | reset => exact fun _ within => within.resized (Bytes.size_zeros _) (Bytes.size_zeros _) rfl
  | clear => exact absurd rfl keeping

end Columnar
