import Columnar.Proofs.Column.Accounts

/-! What a doubling does, to the last byte. It ends with both blocks grown, or it is refused and changes
nothing. The bytes that the old values give back cover the larger validity bitmap, so only a column
that had no slots at all can be left with its values grown and its bitmap refused. -/

namespace Columnar

open Columnar.Action

variable {n : Nat} {kind : Kind}

namespace Column

variable {column : Column n kind}

/-- Both blocks are whole numbers of grains, charged to the column's own account. -/
structure Regular (column : Column n kind) : Prop where
  owns : column.Owns
  values : Block.grain ∣ column.values.size
  validity : Block.grain ∣ column.validity.size

theorem regular_ofType (name : String) (type : FieldType) (account : Fin n) (config : Config) :
    (ofType name type account config : Column n kind).Regular :=
  ⟨⟨rfl, rfl⟩, Nat.dvd_zero _, Nat.dvd_zero _⟩

theorem regular_emptied (column : Column n kind) : column.emptied.Regular :=
  ⟨⟨rfl, rfl⟩, Nat.dvd_zero _, Nat.dvd_zero _⟩

theorem regular_renewed (column : Column n kind) (slots : Nat) : (column.renewed slots).Regular := by
  refine ⟨⟨rfl, rfl⟩, ?_, ?_⟩
  · exact (Block.grain_dvd_roundUp _).trans (dvd_of_eq (Bytes.size_zeros _).symm)
  · exact (Block.grain_dvd_roundUp _).trans (dvd_of_eq (Bytes.size_zeros _).symm)

theorem Regular.receiving {giver : Column n kind} (regular : giver.Regular) (column : Column n kind) :
    (column.receiving giver).Regular := ⟨⟨rfl, rfl⟩, regular.values, regular.validity⟩

theorem growthBase_pos (column : Column n kind) : 0 < column.growthBase := by
  unfold growthBase
  split
  · assumption
  · split
    · assumption
    · decide

/-- The column with room for the values of twice as many slots, but no larger a bitmap. -/
def stretched (column : Column n kind) : Column n kind :=
  { column with values := column.values.fitting (2 * column.growthBase * kind.width) }

/-- The column with room for twice as many slots, of which it remembers how many they are. -/
def doubled (column : Column n kind) : Column n kind :=
  let grown : Column n kind :=
    { column.stretched with
      validity := column.validity.fitting (Bitmap.bytesFor (2 * column.growthBase)) }
  { grown with remembered := grown.capacity }

theorem le_capacity_doubled (column : Column n kind) :
    2 * column.growthBase ≤ column.doubled.capacity := by
  have values : 2 * column.growthBase * kind.width ≤ column.doubled.values.size :=
    column.values.le_size_fitting _
  have validity : Bitmap.bytesFor (2 * column.growthBase) ≤ column.doubled.validity.size :=
    column.validity.le_size_fitting _
  have bits := Bitmap.le_bytesFor (2 * column.growthBase)
  exact Nat.le_min.mpr ⟨(Nat.le_div_iff_mul_le kind.width_pos).mpr values, by omega⟩

namespace Regular

variable (regular : column.Regular)

include regular

theorem size_stretched : column.stretched.values.size =
    max column.values.size (Block.roundUp (2 * column.growthBase * kind.width)) :=
  Block.size_fitting regular.values _

theorem size_doubled : column.doubled.validity.size =
    max column.validity.size (Block.roundUp (Bitmap.bytesFor (2 * column.growthBase))) :=
  Block.size_fitting regular.validity _

theorem doubled : column.doubled.Regular := by
  refine ⟨⟨?_, ?_⟩, ?_, ?_⟩
  · exact (column.values.account_fitting _).trans regular.owns.values
  · exact (column.validity.account_fitting _).trans regular.owns.validity
  · exact Block.grain_dvd_fitting regular.values _
  · exact Block.grain_dvd_fitting regular.validity _

theorem stretched : column.stretched.Regular := by
  refine ⟨⟨?_, regular.owns.validity⟩, ?_, regular.validity⟩
  · exact (column.values.account_fitting _).trans regular.owns.values
  · exact Block.grain_dvd_fitting regular.values _

theorem bitmap_le_values (some : 0 < column.capacity) :
    Block.roundUp (Bitmap.bytesFor (2 * column.growthBase)) ≤ column.values.size := by
  have base : column.growthBase = column.capacity := if_pos some
  have slots := column.capacity_le_size
  have whole : 16 ≤ column.values.size := Nat.le_of_dvd (some.trans_le slots) regular.values
  refine Block.roundUp_le ?_ regular.values
  rw [base]
  unfold Bitmap.bytesFor
  split <;> omega

end Regular

end Column

namespace Edit

variable {session : Session n kind} {size : Nat}

/-- A block that grows leaves its account with room for all that it took before. -/
theorem growBuffer_fits (which : Buffer) (session : Session n kind) (size : Nat) :
    Ends (growBuffer which size) session
      (fun _ after =>
        after.column = session.column.withBuffer which ((session.column.buffer which).fitting size) ∧
        (after = session ∨ Block.roundUp size ≤ Word.largestRequest ∧
          ∀ amount ≤ (session.column.buffer which).size,
            (after.ledger.account (session.column.buffer which).account).Accepts amount))
      (fun failure after => after.column = session.column ∧ Block.Declined session.ledger
        (session.column.buffer which).account size failure after.ledger) := by
  refine ends_growBuffer (fun enough => ⟨?_, .inl rfl⟩) fun short => ?_
  · rw [Block.fitting_of_le enough, Column.withBuffer_self]
  · refine (Block.enlarge_fits short).mono ?_ fun _ _ declined => ⟨rfl, declined⟩
    intro larger between reached
    obtain ⟨rfl, small, released⟩ := reached
    exact released.mono_total fun _ _ room => ⟨rfl, .inr ⟨small, room⟩⟩

/-- Growing doubles the column within what its configuration allows. Where it stops, for want of memory,
the column is as it was or has its values grown. -/
theorem grow_leaves (session : Session n kind) : Ends grow session
    (fun _ after => after.column = session.column.doubled ∧
      2 * session.column.growthBase * kind.width ≤ session.column.config.maxAllocationBytes)
    (fun failure after => (failure.Exhausted ∨ failure = .tooLarge) ∧ (after.column = session.column ∨
      after.column = session.column.stretched ∧
        2 * session.column.growthBase * kind.width ≤ session.column.config.maxAllocationBytes)) := by
  refine ends_grow (fun _ _ exhausted _ => ⟨.inl exhausted, .inl rfl⟩) fun notice allowed => ?_
  refine (growBuffer_fits .values _ _).mono ?_ fun _ _ stopped => ⟨stopped.2.stops, .inl stopped.1⟩
  rintro _ ⟨column, ledger⟩ ⟨stretched, _⟩
  dsimp only at stretched
  subst stretched
  refine (growBuffer_fits .validity _ _).mono ?_ fun _ _ stopped => ⟨stopped.2.stops, .inr ⟨stopped.1, allowed⟩⟩
  rintro _ after ⟨grown, _⟩
  rw [grown]
  exact ⟨rfl, allowed⟩

/-- How a doubling may stop: refused without a trace, too large, or cut off between the two blocks where
there were no slots. -/
def Undoubled (before : Session n kind) (failure : Failure) (after : Session n kind) : Prop :=
  failure.Exhausted ∧ after.column = before.column ∧ after.ledger.accounts = before.ledger.accounts ∨
    failure = .tooLarge ∧ after.column = before.column ∨
    failure.Exhausted ∧ before.column.capacity = 0 ∧ after.column = before.column.stretched

theorem undoubled_of_declined {ledger : Ledger n} {account : Fin n} {failure : Failure}
    {after : Session n kind} (still : ledger.accounts = session.ledger.accounts)
    (same : after.column = session.column)
    (declined : Block.Declined ledger account size failure after.ledger) :
    Undoubled session failure after := by
  rcases declined with ⟨refused, _, kept⟩ | ⟨large, _⟩
  · exact .inl ⟨⟨_, _, refused⟩, same, kept.trans still⟩
  · exact .inr (.inl ⟨large, same⟩)

/-- After the values have grown, the bitmap is declined only to a column that had no slots. -/
theorem undoubled_of_cut {ledger : Ledger n} {failure : Failure} {after : Session n kind}
    (regular : session.column.Regular)
    (small : Block.roundUp (2 * session.column.growthBase * kind.width) ≤ Word.largestRequest)
    (accepts : ∀ amount ≤ session.column.values.size,
      (ledger.account session.column.values.account).Accepts amount)
    (same : after.column = session.column.stretched)
    (declined : Block.Declined ledger session.column.validity.account
      (Bitmap.bytesFor (2 * session.column.growthBase)) failure after.ledger) :
    Undoubled session failure after := by
  have shared : session.column.values.account = session.column.validity.account :=
    regular.owns.values.trans regular.owns.validity.symm
  rcases declined with ⟨refused, rejects, _⟩ | ⟨_, large, _⟩
  · by_cases some : 0 < session.column.capacity
    · exact absurd (shared ▸ accepts _ (regular.bitmap_le_values some)) rejects
    · exact .inr (.inr ⟨⟨_, _, refused⟩, Nat.eq_zero_of_not_pos some, same⟩)
  · have bitmap := (Block.roundUp_mono (bytesFor_le kind _)).trans small
    exact absurd bitmap (Nat.not_le_of_lt large)

/-- A doubling doubles or leaves the column as it was, unless that had no slots. -/
theorem grow_doubles (regular : session.column.Regular) : Ends grow session
    (fun _ after => after.column = session.column.doubled) (Undoubled session) := by
  refine ends_grow (fun _ _ exhausted same => .inl ⟨exhausted, rfl, same⟩) fun notice _ => ?_
  have kept : (session.ledger.note notice).accounts = session.ledger.accounts := rfl
  refine (growBuffer_fits .values _ _).mono ?_ ?_
  · rintro _ ⟨column, ledger⟩ ⟨stretched, room⟩
    dsimp only at stretched
    subst stretched
    refine (growBuffer_fits .validity _ _).mono ?_ ?_
    · rintro _ after ⟨grown, _⟩
      rw [grown]
      rfl
    · rintro failure after ⟨same, declined⟩
      rcases room with unchanged | ⟨small, accepts⟩
      · obtain ⟨enough, rfl⟩ := Session.mk.inj unchanged
        exact undoubled_of_declined kept (same.trans enough) declined
      · exact undoubled_of_cut regular small accepts same declined
  · rintro failure after ⟨same, declined⟩
    exact undoubled_of_declined kept same declined

theorem regularInvariant : EditInvariant (fun session : Session n kind => session.column.Regular)
    (fun failure session => failure = .overdrawn ∨ session.column.Regular) where
  noted _ regular := regular
  remembered _ regular :=
    ⟨⟨regular.owns.values, regular.owns.validity⟩, regular.values, regular.validity⟩
  outOfRange regular := .inr regular
  reported _ regular := .inr regular
  counted _ _ regular :=
    ⟨⟨regular.owns.values, regular.owns.validity⟩, regular.values, regular.validity⟩
  written _ same regular :=
    ⟨⟨regular.owns.values, regular.owns.validity⟩,
      regular.values.trans (dvd_of_eq same.symm), regular.validity⟩
  marked _ same regular :=
    ⟨⟨regular.owns.values, regular.owns.validity⟩, regular.values,
      regular.validity.trans (dvd_of_eq same.symm)⟩
  grow session regular := by
    refine (grow_doubles regular).mono ?_ ?_
    · exact fun _ _ grown => (congrArg Column.Regular grown).mpr regular.doubled
    · rintro failure after (⟨_, same, _⟩ | ⟨_, same⟩ | ⟨_, _, cut⟩)
      · exact .inr (same ▸ regular)
      · exact .inr (same ▸ regular)
      · exact .inr (cut ▸ regular.stretched)
  allocate := allocate_keepsColumn Column.regular_renewed
  clear := clear_keepsColumn Column.regular_emptied

end Edit

end Columnar
