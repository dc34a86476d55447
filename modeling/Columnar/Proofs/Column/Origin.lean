import Columnar.Proofs.Column.Volume

namespace Columnar

open Columnar.Action

variable {n : Nat} {kind : Kind} {session : Session n kind} {slots : Nat} {had : List Nat}

namespace Edit

/-- The capacities that growing to a number of slots passes. -/
def passed (slots : Nat) (session : Session n kind) : List Nat :=
  if slots ≤ session.column.capacity then
    []
  else
    match _ : grow session with
    | .ok _ larger => larger.column.capacity :: passed slots larger
    | .error _ _ => []
termination_by slots - session.column.capacity
decreasing_by
  have larger := capacity_lt_of_grow (by assumption)
  omega

theorem passed_of_grow {larger : Session n kind} (short : ¬ slots ≤ session.column.capacity)
    (grown : grow session = .ok () larger) :
    passed slots session = larger.column.capacity :: passed slots larger := by
  rw [passed, if_neg short]
  split
  · rename_i found
    rw [grown] at found
    cases found
    rfl
  · rename_i found
    rw [grown] at found
    cases found

end Edit

namespace Column

variable {column later : Column n kind}

/-- The column remembers the given number of slots, or a positive capacity: one of the list, or the one
that it has. -/
def Recalls (column : Column n kind) (slots : Nat) (had : List Nat) : Prop :=
  column.remembered = slots ∨ 0 < column.remembered ∧ column.remembered ∈ column.capacity :: had

/-- The later column has the capacity of the column and remembers as many slots. -/
structure Fixed (column later : Column n kind) : Prop where
  remembered : later.remembered = column.remembered
  capacity : later.capacity = column.capacity

theorem growthBase_of_remembered (none : column.capacity = 0) (remembers : 0 < column.remembered) :
    column.growthBase = column.remembered := by
  rw [growthBase, if_neg (Nat.not_lt_of_le none.le), if_pos remembers]

theorem capacity_of_values (none : column.values.size = 0) : column.capacity = 0 := by
  rw [capacity, none, Nat.zero_div]
  exact Nat.min_eq_left (Nat.zero_le _)

theorem fixed_refl (column : Column n kind) : column.Fixed column := ⟨rfl, rfl⟩

theorem Fixed.resized {later last : Column n kind} (fixed : column.Fixed later)
    (values : last.values.size = later.values.size) (validity : last.validity.size = later.validity.size)
    (same : last.remembered = later.remembered) : column.Fixed last :=
  ⟨same.trans fixed.remembered, (capacity_of_sizes values validity).trans fixed.capacity⟩

end Column

namespace Edit

/-! ### Edits that remember nothing new -/

variable {column : Column n kind}

/-- The column of the session has the capacity of a column and remembers as many slots. -/
abbrev Fixes (column : Column n kind) (session : Session n kind) : Prop := column.Fixed session.column

theorem fixesInvariant : WriteInvariant (Fixes column) (fun _ => Fixes column) where
  outOfRange fixed := fixed
  written _ same fixed := fixed.resized same rfl rfl
  marked _ same fixed := fixed.resized rfl same rfl

theorem setCount_fixes (count : Nat) :
    Keeps (setCount count) (Fixes column) (fun _ => Fixes column) :=
  fun _ fixed => ⟨fixed.remembered, fixed.capacity⟩

theorem reset_fixes : Keeps reset (Fixes column) (fun _ => Fixes column) :=
  fun _ fixed => fixed.resized (Bytes.size_zeros _) (Bytes.size_zeros _) rfl

theorem clear_remembers (session : Session n kind) :
    Ends clear session (fun _ after => after.column.remembered = session.column.remembered)
      (fun _ after => after.column.remembered = session.column.remembered) := by
  have same (later : Column n kind) (vacated : session.column.Vacated later) :
      later.remembered = session.column.remembered := by
    rcases vacated with rfl | ⟨_, same⟩
    · rfl
    · exact same
  exact (clear_vacates session).mono (fun _ _ => same _) fun _ _ => same _

/-! ### Edits that do -/

/-- However the edit ends, the column remembers what it did, or a capacity that it passed or has now. -/
def Rebases (edit : Edit n kind Unit) (session : Session n kind) (had : List Nat) : Prop :=
  Ends edit session (fun _ after => after.column.Recalls session.column.remembered had)
    (fun _ after => after.column.Recalls session.column.remembered had)

theorem rebases_of_fixes {edit : Edit n kind Unit}
    (fixes : ∀ column, Keeps edit (Fixes column) (fun _ => Fixes column)) :
    Rebases edit session had :=
  (fixes session.column session (Column.fixed_refl _)).mono (fun _ _ fixed => .inl fixed.remembered)
    fun _ _ fixed => .inl fixed.remembered

theorem grow_remembers (session : Session n kind) :
    Ends grow session
      (fun _ after => 0 < after.column.remembered ∧ after.column.remembered = after.column.capacity)
      (fun _ after => after.column.remembered = session.column.remembered) := by
  refine (grow_leaves session).mono ?_ ?_
  · rintro _ after ⟨grown, _⟩
    have base := session.column.growthBase_pos
    have slots := session.column.le_capacity_doubled
    rw [grown]
    exact ⟨show 0 < session.column.doubled.capacity by omega, rfl⟩
  · rintro _ after ⟨_, same | ⟨cut, _⟩⟩
    · rw [same]
    · rw [cut]
      rfl

/-- Growing to a number of slots remembers the last capacity that it passed. -/
theorem reserve_remembers (slots : Nat) (session : Session n kind) :
    let held (after : Session n kind) := after.column.remembered = session.column.remembered ∨
      0 < after.column.remembered ∧ after.column.remembered ∈ passed slots session
    Ends (reserve slots) session (fun _ => held) (fun _ => held) := by
  induction session using reserve.induct slots with
  | case1 session enough =>
    rw [Ends, reserve_eq, if_pos enough]
    exact .inl rfl
  | case2 session short result larger grown ih =>
    obtain ⟨pos, same⟩ := (grow_remembers session).of_ok grown
    have further (after : Session n kind)
        (held : after.column.remembered = larger.column.remembered ∨
          0 < after.column.remembered ∧ after.column.remembered ∈ passed slots larger) :
        0 < after.column.remembered ∧ after.column.remembered ∈ passed slots session := by
      rw [passed_of_grow short grown]
      rcases held with still | ⟨more, later⟩
      · rw [still]
        exact ⟨pos, same ▸ List.mem_cons_self⟩
      · exact ⟨more, List.mem_cons_of_mem _ later⟩
    rw [Ends, reserve_eq, if_neg short, grown]
    exact ih.mono (fun _ after held => .inr (further after held))
      fun _ after held => .inr (further after held)
  | case3 session short failure stopped refused =>
    rw [Ends, reserve_eq, if_neg short, refused]
    exact .inl ((grow_remembers session).of_error refused)

/-- An edit that remembers nothing new, after growing to a number of slots. -/
theorem reserve_rebases {edit : Edit n kind Unit}
    (fixes : ∀ column, Keeps edit (Fixes column) (fun _ => Fixes column)) (slots : Nat)
    (session : Session n kind) :
    Rebases (reserve slots >>= fun _ => edit) session (passed slots session) := by
  have recalls (between : Column n kind) (held : between.remembered = session.column.remembered ∨
      0 < between.remembered ∧ between.remembered ∈ passed slots session) (later : Column n kind)
      (fixed : between.Fixed later) :
      later.Recalls session.column.remembered (passed slots session) := by
    rw [Column.Recalls, fixed.remembered]
    exact held.imp_right fun passed => ⟨passed.1, List.mem_cons_of_mem _ passed.2⟩
  refine ends_bind.mpr ((reserve_remembers slots session).mono ?_ ?_)
  · intro _ between held
    exact (fixes between.column between (Column.fixed_refl _)).mono
      (fun _ _ => recalls between.column held _) fun _ _ => recalls between.column held _
  · exact fun _ after held => recalls after.column held _ (Column.fixed_refl _)

/-- A column without memory that grows takes memory for twice the slots that it remembers. -/
theorem grow_from_nothing (remembers : 0 < session.column.remembered)
    (values : session.column.values.size = 0) (validity : session.column.validity.size = 0) :
    Ends grow session
      (fun _ after =>
        after.column.values.size = Block.roundUp (2 * session.column.remembered * kind.width) ∧
        after.column.validity.size = Block.roundUp (Bitmap.bytesFor (2 * session.column.remembered)))
      (fun _ _ => True) := by
  have base : session.column.growthBase = session.column.remembered :=
    Column.growthBase_of_remembered (Column.capacity_of_values values) remembers
  have whole (block : Block n) (none : block.size = 0) (size : Nat) :
      (block.fitting size).size = Block.roundUp size := by
    rw [Block.size_fitting (none ▸ Nat.dvd_zero _), none, Nat.zero_max]
  refine (grow_leaves session).mono ?_ fun _ _ _ => trivial
  rintro _ after ⟨grown, _⟩
  rw [grown, Column.doubled, Column.stretched, base]
  exact ⟨whole _ values _, whole _ validity _⟩

theorem allocate_remembers (positive : 0 < slots) (session : Session n kind) :
    Ends (allocate slots) session
      (fun _ after => 0 < after.column.remembered ∧ after.column.remembered = after.column.capacity)
      (fun _ after => after.column.remembered = session.column.remembered) := by
  refine (allocate_leaves session slots).mono ?_ ?_
  · rintro _ after ⟨taken, _⟩
    rw [taken]
    exact ⟨positive.trans_le (session.column.le_capacity_renewed slots), rfl⟩
  · rintro _ after (⟨same, _⟩ | ⟨_, _, midway | midway⟩)
    · rw [same]
    · rw [midway]
    · rw [midway]

theorem allocate_rebases (positive : 0 < slots) (session : Session n kind) :
    Rebases (allocate slots) session had := by
  refine (allocate_remembers positive session).mono ?_ fun _ _ same => .inl same
  rintro _ after ⟨pos, same⟩
  exact .inr ⟨pos, same ▸ List.mem_cons_self⟩

theorem split_rebases (other : Column n kind) (start : Nat) (positive : 0 < slots) (session : Session n kind) :
    Rebases (split other start slots) session had := by
  rw [Rebases, split]
  by_cases range : Word.size ≤ start + slots ∨ other.capacity < start + slots
  · simp only [if_pos range]
    exact .inl rfl
  · simp only [if_neg range]
    rw [ends_column_bind, ends_bind, ends_note, ends_bind]
    refine (allocate_remembers positive _).mono ?_ fun _ _ same => .inl same
    rintro _ between ⟨pos, same⟩
    have recalls (later : Column n kind) (fixed : between.column.Fixed later) :
        later.Recalls session.column.remembered had := by
      refine .inr ⟨fixed.remembered ▸ pos, ?_⟩
      rw [fixed.remembered, same, ← fixed.capacity]
      exact List.mem_cons_self
    cases other.values.bytes.slice? (start * kind.width) ((start + slots) * kind.width) with
    | none => exact recalls _ (Column.fixed_refl _)
    | some run =>
      have filled : Keeps _ (Fixes between.column) (fun _ => Fixes between.column) :=
        (fixesInvariant.putBytes 0 run).bind fun _ =>
          (fixesInvariant.putBits other.validity.bytes start (start + slots)).bind fun _ => setCount_fixes slots
      exact (filled between (Column.fixed_refl _)).mono (fun _ _ => recalls _) fun _ _ => recalls _

theorem setInitialCapacity_remembers (slots : Nat) (session : Session n kind) :
    Ends (setInitialCapacity slots) session (fun _ after => after.column.remembered = slots)
      (fun _ after => after.column.remembered = session.column.remembered) :=
  ends_bind.mpr (ends_bufferSizes (fun _ _ => rfl) fun _ _ _ _ => rfl)

end Edit

/-! ### Calls -/

def Call.initial? : Call kind → Option Nat
  | setInitialCapacity slots => some slots
  | _ => none

def Call.needs : Call kind → Nat
  | setValueCount count => count
  | call => (call.safeSlot?.map (· + 1)).getD 0

theorem Call.rebases_of_safe {call : Call kind} {index : Nat} (safe : call.safeSlot? = some index)
    (session : Session n kind) : Edit.Rebases call.edit session (Edit.passed (index + 1) session) := by
  have writes : Edit.Writes index (call.edit : Edit n kind Unit) := Call.writes safe
  generalize (call.edit : Edit n kind Unit) = edit at writes ⊢
  cases writes with
  | refused cause => exact .inl rfl
  | put value? => exact Edit.reserve_rebases (fun _ => Edit.fixesInvariant.mark index value?) _ session

/-- No call but one that sets the initial capacity remembers anything else than a capacity, and none but
one that takes memory for no slots remembers that there were none. -/
theorem Call.rebases {call : Call kind} (unset : call.initial? = none) (spared : call ≠ .allocate 0)
    (held : 0 < session.column.remembered) :
    Edit.Rebases call.edit session (Edit.passed call.needs session) := by
  cases call with
  | setInitialCapacity => cases unset
  | allocateRemembered => exact Edit.allocate_rebases held session
  | allocate slots =>
    have positive : 0 < slots := Nat.pos_of_ne_zero fun none => spared (congrArg Call.allocate none)
    exact Edit.allocate_rebases positive session
  | grow =>
    refine (Edit.grow_remembers session).mono ?_ fun _ _ same => .inl same
    rintro _ after ⟨pos, same⟩
    exact .inr ⟨pos, same ▸ List.mem_cons_self⟩
  | setValueCount count => exact Edit.reserve_rebases (fun _ => Edit.setCount_fixes count) count session
  | clear =>
    exact (Edit.clear_remembers session).mono (fun _ _ same => .inl same) fun _ _ same => .inl same
  | reset => exact Edit.rebases_of_fixes fun _ => Edit.reset_fixes
  | set index value => exact Edit.rebases_of_fixes fun _ => Edit.fixesInvariant.mark index (some value)
  | setIf index flag value => exact Edit.rebases_of_fixes fun _ => Edit.fixesInvariant.setIf index flag value
  | setHolder index holder =>
    exact Edit.rebases_of_fixes fun _ => Edit.fixesInvariant.mark index (some holder.value)
  | setCell index cell =>
    refine Edit.rebases_of_fixes fun column => ?_
    simp only [edit, Edit.setCell]
    split
    · exact keeps_throw _
    · exact Edit.fixesInvariant.setIf index cell.flag cell.value
  | setTruncated index number => exact Edit.rebases_of_fixes fun _ => Edit.fixesInvariant.mark index (some _)
  | setSafe | setIfSafe | setNull | setHolderSafe | setCellSafe | setTruncatedSafe | setEncoded =>
    exact Call.rebases_of_safe rfl session

/-! ### Transfers -/

theorem Edit.chargeBlocks_remembers (session : Session n kind) : Ends chargeBlocks session
    (fun _ after => after.column.remembered = session.column.remembered ∧
      after.column.capacity = session.column.capacity)
    (fun _ after => after.column.remembered = session.column.remembered) := by
  refine (chargeBlocks_recharges session).mono ?_ fun _ _ recharged => recharged.remembered
  exact fun _ _ recharged =>
    ⟨recharged.remembered, Column.capacity_of_sizes recharged.values recharged.validity⟩

/-- However a transfer ends, the giving column remembers what it did, and the receiving one that or the
capacity that it received. -/
theorem Exchange.transfer_remembers (exchange : Exchange n kind) (had : List Nat)
    (slots : 0 < exchange.source.capacity) :
    let held (after : Exchange n kind) := after.source.remembered = exchange.source.remembered ∧
      after.target.Recalls exchange.target.remembered had
    Ends transfer exchange (fun _ => held) (fun _ => held) := by
  refine ends_transfer fun _ => (Edit.clear_remembers _).mono ?_ fun _ _ same => ⟨rfl, .inl same⟩
  intro _ cleared same
  refine (Edit.chargeBlocks_remembers _).mono ?_ fun _ _ still => ⟨rfl, .inl (still.trans same)⟩
  rintro _ charged ⟨_, capacity⟩
  have pos : 0 < charged.column.capacity := slots.trans_eq capacity.symm
  let received : Column n kind := { charged.column with
    count := exchange.source.count, remembered := charged.column.capacity }
  have recalls : received.Recalls exchange.target.remembered had := .inr ⟨pos, List.mem_cons_self⟩
  exact (Edit.clear_remembers _).mono (fun _ _ gone => ⟨gone, recalls⟩) fun _ _ gone => ⟨gone, recalls⟩

end Columnar
