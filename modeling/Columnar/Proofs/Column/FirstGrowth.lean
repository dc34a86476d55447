import Columnar.Proofs.Column.Origin
import Columnar.Proofs.Column.Reads

/-! The first growth of a column without memory. It takes memory for twice the slots that the column
remembers, while an initial capacity is accepted by the memory for the slots themselves. So between a half
of the limit and the limit every growth from an accepted capacity is refused, and below it none is where
the accounts have room. -/

namespace Columnar

open Columnar.Action

variable {n : Nat} {kind : Kind} {session : Session n kind} {slots size : Nat}

namespace Block

variable {block : Block n} {ledger : Ledger n}

theorem accepts_of_unlimited {account : Account} (amount : Nat) (unlimited : account.limit = Word.max)
    (word : account.allocated + amount < Word.size) : account.Accepts amount := by
  refine ⟨word, ?_⟩
  rw [unlimited]
  exact Nat.le_sub_one_of_lt word

/-- A block without memory that is enlarged, and then given back for nothing, charges its account with the
larger one at most. -/
theorem enlarge_from_nothing (none : block.size = 0)
    (accepts : (ledger.account block.account).Accepts (roundUp size))
    (small : roundUp size ≤ Word.largestRequest) :
    Ends (block.enlarge size) ledger
      (fun _ between => Ends block.release between
        (fun _ after => ∀ id, (after.account id).limit = (ledger.account id).limit ∧
          (after.account id).allocated ≤ (ledger.account id).allocated + roundUp size)
        (fun _ _ => False))
      (fun _ _ => False) := by
  refine ends_bind.mpr ((allocate_exact ledger block.account size).mono ?_ ?_)
  · rintro larger between ⟨_, _, _, rfl⟩
    have kept : Word.wrapSub ((ledger.account block.account).allocated + roundUp size) 0 =
        (ledger.account block.account).allocated + roundUp size :=
      Word.wrapSub_eq accepts.1 (Nat.zero_le _)
    refine (Ledger.release_exact _ block.account block.size).mono ?_ ?_
    · rintro _ after ⟨_, rfl⟩ id
      rw [none, Ledger.account_put_self]
      by_cases same : block.account = id
      · subst same
        rw [Ledger.account_put_self, Account.limit_discharge_charged,
          Account.allocated_discharge_charged, kept]
        exact ⟨rfl, le_rfl⟩
      · rw [Ledger.account_put_of_ne _ same, Ledger.account_put_of_ne _ same]
        exact ⟨rfl, Nat.le_add_right _ _⟩
    · rintro _ after ⟨_, less, _⟩
      rw [none] at less
      exact Nat.not_lt_zero _ less
  · rintro failure after (⟨_, refused, _⟩ | ⟨_, large, _⟩)
    · exact refused accepts
    · omega

end Block

namespace Column

/-- The column has no memory, and remembers so many slots. -/
structure Starts (column : Column n kind) (slots : Nat) : Prop where
  values : column.values.size = 0
  validity : column.validity.size = 0
  remembered : column.remembered = slots

theorem Starts.growthBase_eq {column : Column n kind} (starts : column.Starts slots) (positive : 0 < slots) :
    column.growthBase = slots := by
  obtain ⟨values, _, rfl⟩ := starts
  exact growthBase_of_remembered (capacity_of_values values) positive

/-- The blocks' accounts have no limit, and room for both blocks of a number of slots, neither of which is
larger than memory can be. -/
structure Roomy (column : Column n kind) (ledger : Ledger n) (slots : Nat) : Prop where
  small : Block.roundUp (slots * kind.width) ≤ Word.largestRequest
  unlimited : ∀ id, id = column.values.account ∨ id = column.validity.account →
    (ledger.account id).limit = Word.max
  word : ∀ id, id = column.values.account ∨ id = column.validity.account →
    (ledger.account id).allocated +
      (Block.roundUp (slots * kind.width) + Block.roundUp (Bitmap.bytesFor slots)) < Word.size

end Column

namespace Edit

theorem outcome_of_ends {edit : Edit n kind Unit} {inv : Session n kind → Prop} {answer : Option Failure}
    (ends : Ends edit session (fun _ after => answer = none ∧ inv after)
      (fun failure after => answer = some failure ∧ inv after)) :
    edit.failure? session = answer ∧ inv (session.after edit) := by
  rcases after_of_ends ends with ⟨done, answered, held⟩ | ⟨failure, stopped, answered, held⟩
  · exact ⟨done.trans answered.symm, held⟩
  · exact ⟨stopped.trans answered.symm, held⟩

theorem growBuffer_completes (which : Buffer) {size : Nat} (none : (session.column.buffer which).size = 0)
    (accepts : (session.ledger.account (session.column.buffer which).account).Accepts (Block.roundUp size))
    (small : Block.roundUp size ≤ Word.largestRequest) :
    Ends (growBuffer which size) session
      (fun _ after => (∃ block, after.column = session.column.withBuffer which block) ∧
        ∀ id, (after.ledger.account id).limit = (session.ledger.account id).limit ∧
          (after.ledger.account id).allocated ≤
            (session.ledger.account id).allocated + Block.roundUp size)
      (fun _ _ => False) := by
  refine ends_growBuffer (fun _ => ⟨⟨_, (Column.withBuffer_self _ _).symm⟩, fun id => ?_⟩) fun _ => ?_
  · exact ⟨rfl, Nat.le_add_right _ _⟩
  · refine (Block.enlarge_from_nothing none accepts small).mono_post ?_
    intro larger between released
    exact released.mono_post fun _ _ charged => ⟨⟨larger, rfl⟩, charged⟩

theorem growBlocks_completes {base : Nat} (starts : session.column.Starts base)
    (roomy : session.column.Roomy session.ledger slots) :
    Ends (growBlocks slots) session (fun _ _ => True) (fun _ _ => False) := by
  have first := roomy.word _ (.inl rfl)
  have second := roomy.word _ (.inr rfl)
  have bitmap : Block.roundUp (Bitmap.bytesFor slots) ≤ Block.roundUp (slots * kind.width) :=
    Block.roundUp_mono (bytesFor_le kind slots)
  have accepts := Block.accepts_of_unlimited (Block.roundUp (slots * kind.width))
    (roomy.unlimited _ (.inl rfl)) (by omega)
  refine ends_bind.mpr ((growBuffer_completes .values starts.values accepts roomy.small).mono_post ?_)
  rintro _ between ⟨⟨larger, replaced⟩, charged⟩
  have same : between.column.validity = session.column.validity := by
    rw [replaced]
    rfl
  -- Both blocks may be charged to one account, so the second one meets the charge of the first.
  obtain ⟨limit, total⟩ := charged session.column.validity.account
  have further := Block.accepts_of_unlimited (Block.roundUp (Bitmap.bytesFor slots))
    (limit.trans (roomy.unlimited _ (.inr rfl))) (by omega)
  rw [← same] at further
  have none : between.column.validity.size = 0 := same ▸ starts.validity
  exact ends_bind.mpr ((growBuffer_completes .validity none further
    (bitmap.trans roomy.small)).mono_post fun _ _ _ => trivial)

theorem grow_exhausted (beyond : ¬ Allowed session.column (2 * session.column.growthBase)) :
    Ends grow session (fun _ _ => False) (fun failure after => after.column = session.column ∧
      failure = .error (.capacityExhausted
        (Nat.min (2 * session.column.growthBase * kind.width) Word.max)
        session.column.config.maxAllocationBytes)) := by
  rw [grow, ends_column_bind]
  by_cases huge : Word.size ≤ 2 * session.column.growthBase
  · have bytes : Word.max ≤ 2 * session.column.growthBase * kind.width :=
      ((Nat.sub_le _ _).trans huge).trans (Nat.le_mul_of_pos_right _ kind.width_pos)
    rw [if_pos huge]
    refine ⟨rfl, congrArg (fun requested => Failure.error (.capacityExhausted requested _)) ?_⟩
    exact (Nat.min_eq_right bytes).symm
  · rw [if_neg huge, ends_bind, bufferSizes, ends_column_bind]
    have refused : ¬ (2 * session.column.growthBase * kind.width < Word.size ∧
        2 * session.column.growthBase * kind.width ≤ session.column.config.maxAllocationBytes) :=
      fun fits => beyond ⟨Nat.lt_of_not_le huge, fits⟩
    simp only [if_neg refused]
    exact ⟨rfl, rfl⟩

theorem setInitialCapacity_eq (fits : slots * kind.width < Word.size ∧
      slots * kind.width ≤ session.column.config.maxAllocationBytes) :
    setInitialCapacity slots session =
      .ok () { session with column := { session.column with remembered := slots } } := by
  simp only [setInitialCapacity, bind, EStateM.bind, bufferSizes_eq fits]
  rfl

theorem failure?_setInitialCapacity (slots : Nat) (session : Session n kind) :
    (setInitialCapacity slots).failure? session = none ↔ slots * kind.width < Word.size ∧
      slots * kind.width ≤ session.column.config.maxAllocationBytes := by
  refine ⟨fun accepted => ?_, fun fits => (outcome_ok (setInitialCapacity_eq fits)).1⟩
  by_contra beyond
  have refused : Ends (setInitialCapacity slots) session (fun _ _ => False) (fun _ _ => True) :=
    ends_bind.mpr (ends_bufferSizes (fun small allowed => beyond ⟨small, allowed⟩) fun _ _ _ _ => trivial)
  rcases after_of_ends refused with ⟨_, never⟩ | ⟨failure, stopped, _⟩
  · exact never
  · cases stopped.symm.trans accepted

theorem reserve_first (starts : session.column.Starts slots) {needed : Nat} (positive : 0 < needed)
    (less : needed ≤ slots) : reserve needed session = grow session := by
  have empty := Column.capacity_of_values starts.values
  have base := starts.growthBase_eq (positive.trans_le less)
  rw [reserve_eq, if_neg (by omega)]
  cases grown : grow session with
  | ok _ larger =>
    have reached := le_capacity_of_grow grown
    exact reserve_of_le (by omega)
  | error failure stopped => rfl

theorem setValueCount_zero (session : Session n kind) : setValueCount 0 session =
    .ok () { session with column := { session.column with count := 0 } } := by
  have reserved : reserve 0 session = .ok () session := reserve_of_le (Nat.zero_le _)
  simp only [setValueCount, bind, EStateM.bind, reserved]
  rfl

end Edit

/-! ### Calls that need the first slots -/

/-- The call writes one of the first slots, of which there are so many, or counts some of them. -/
inductive Call.Fills (slots : Nat) : Call kind → Prop where
  | set {index : Nat} (value : Element kind) (less : index < slots) : Fills slots (.setSafe index value)
  | null {index : Nat} (less : index < slots) : Fills slots (.setNull index)
  | count {count : Nat} (less : count ≤ slots) : Fills slots (.setValueCount count)

/-- Such a call grows the column to the slots that it needs, and then succeeds and keeps them. -/
theorem Call.Fills.edit_eq {call : Call kind} (fills : call.Fills slots) :
    ∃ next : Edit n kind Unit, call.edit = (Edit.reserve call.needs >>= fun _ => next) ∧
      call.needs ≤ slots ∧ ∀ session : Session n kind, call.needs ≤ session.column.capacity →
        Ends next session (fun _ after => after.column.capacity = session.column.capacity)
          (fun _ _ => False) := by
  have marks {index : Nat} (value? : Option (Element kind)) (session : Session n kind)
      (inside : index < session.column.capacity) : Ends (Edit.mark index value?) session
        (fun _ after => after.column.capacity = session.column.capacity) (fun _ _ => False) := by
    have fixed := Edit.fixesInvariant.mark index value? session session.column.fixed_refl
    rw [Ends, Edit.mark_eq inside] at fixed ⊢
    exact fixed.capacity
  cases fills with
  | @set index value less => exact ⟨_, rfl, less, marks (some value)⟩
  | @null index less => exact ⟨_, rfl, less, marks none⟩
  | @count count less => exact ⟨_, rfl, less, fun _ _ => rfl⟩

theorem Call.Fills.eq_of_needs {call : Call kind} (fills : call.Fills slots) (none : call.needs = 0) :
    call = .setValueCount 0 := by
  cases fills with
  | set | null => cases none
  | count => exact congrArg Call.setValueCount none

/-- The column has the slots, or has no memory and can take twice as many of them. -/
def Session.Usable (slots : Nat) (session : Session n kind) : Prop :=
  slots ≤ session.column.capacity ∨
    session.column.Starts slots ∧ Edit.Allowed session.column (2 * slots) ∧
      session.column.Roomy session.ledger (2 * slots)

namespace Edit

variable {call : Call kind}

/-- The first slots that a usable column is asked for make it have all of them. -/
theorem reserve_usable {needed : Nat} (usable : session.Usable slots) (positive : 0 < needed)
    (less : needed ≤ slots) :
    Ends (reserve needed) session (fun _ after => slots ≤ after.column.capacity) (fun _ _ => False) := by
  rcases usable with held | ⟨starts, allowed, roomy⟩
  · rw [Ends, reserve_of_le (less.trans held)]
    exact held
  · have base := starts.growthBase_eq (positive.trans_le less)
    have grown : Ends grow session (fun _ _ => True) (fun _ _ => False) := by
      obtain ⟨notice, grows⟩ := grow_of_allowed (by rwa [base])
      rw [Ends, grows, base]
      exact growBlocks_completes ⟨starts.values, starts.validity, starts.remembered⟩
        ⟨roomy.small, roomy.unlimited, roomy.word⟩
    rw [Ends, reserve_first starts positive less]
    refine ends_of (fun _ after larger => ?_) fun _ _ stopped => grown.of_error stopped
    have reached := le_capacity_of_grow larger
    omega

/-- A call on some of the first slots succeeds, and leaves them usable. -/
theorem fills_usable (fills : call.Fills slots) (usable : session.Usable slots) :
    call.edit.failure? session = none ∧ (session.after call.edit).Usable slots := by
  refine outcome_of_ends ?_
  obtain ⟨next, same, less, completes⟩ := fills.edit_eq (n := n)
  rcases Nat.eq_zero_or_pos call.needs with none | positive
  · -- No slot is needed, so the column may still have none.
    obtain rfl := fills.eq_of_needs none
    rw [Call.edit, Ends, setValueCount_zero]
    refine ⟨rfl, usable.imp id ?_⟩
    rintro ⟨starts, allowed, roomy⟩
    exact ⟨⟨starts.values, starts.validity, starts.remembered⟩, allowed,
      ⟨roomy.small, roomy.unlimited, roomy.word⟩⟩
  · rw [same]
    refine ends_bind.mpr ((reserve_usable usable positive less).mono ?_ fun _ _ => False.elim)
    intro _ between held
    refine (completes between (less.trans held)).mono ?_ fun _ _ => False.elim
    exact fun _ after kept => ⟨rfl, .inl (held.trans_eq kept.symm)⟩

/-- Where twice the slots are not allowed, every call that needs some of the first ones is refused, and the
column stays as it is. -/
theorem fills_refused {column : Column n kind} (starts : column.Starts slots)
    (beyond : ¬ Allowed column (2 * slots)) (fills : call.Fills slots) (positive : 0 < call.needs)
    (same : session.column = column) :
    call.edit.failure? session = some (.error (.capacityExhausted
        (Nat.min (2 * slots * kind.width) Word.max) column.config.maxAllocationBytes)) ∧
      (session.after call.edit).column = column := by
  subst same
  obtain ⟨next, split, less, _⟩ := fills.edit_eq (n := n)
  have base := starts.growthBase_eq (positive.trans_le less)
  have refused := grow_exhausted (by rwa [base])
  rw [Ends, base, ← reserve_first starts positive less] at refused
  let cause : Failure := .error (.capacityExhausted (Nat.min (2 * slots * kind.width) Word.max)
    session.column.config.maxAllocationBytes)
  let Kept (after : Session n kind) : Prop := after.column = session.column
  have ends : Ends call.edit session (fun _ after => some cause = none ∧ Kept after)
      (fun failure after => some cause = some failure ∧ Kept after) := by
    rw [split]
    exact ends_bind.mpr (Ends.mono refused (fun _ _ => False.elim) fun _ _ stopped =>
      ⟨congrArg some stopped.2.symm, stopped.1⟩)
  exact outcome_of_ends ends

end Edit

end Columnar
