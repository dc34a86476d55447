import Columnar.Column.Reserve
import Columnar.Proofs.Column.View

namespace Columnar.Edit

open Columnar.Action

variable {n : Nat} {kind : Kind} {α : Type} {session : Session n kind} {size slots : Nat}
variable {stop : Failure → Session n kind → Prop}

theorem ends_onLedger {action : Accounting n α} {post : α → Session n kind → Prop} :
    Ends (onLedger action) session post stop ↔
      Ends action session.ledger (fun result ledger => post result { session with ledger })
        (fun failure ledger => stop failure { session with ledger }) := by
  cases ran : action session.ledger <;> simp [Ends, onLedger, ran]

section

variable {post : Unit → Session n kind → Prop}

@[simp] theorem ends_note {notice : Notice} : Ends (note notice) session post stop ↔
    post () { session with ledger := session.ledger.note notice } := Iff.rfl

@[simp] theorem ends_setCount {count : Nat} : Ends (setCount count) session post stop ↔
    post () { session with column := { session.column with count } } := Iff.rfl

@[simp] theorem ends_rememberCapacity : Ends rememberCapacity session post stop ↔
    post () { session with
      column := { session.column with remembered := session.column.capacity } } := Iff.rfl

@[simp] theorem ends_column_bind {next : Column n kind → Edit n kind α}
    {post : α → Session n kind → Prop} :
    Ends (column >>= next) session post stop ↔ Ends (next session.column) session post stop :=
  Iff.rfl

variable {which : Buffer}

theorem ends_replaceBuffer {block : Block n} : Ends (replaceBuffer which block) session post stop ↔
    Ends (session.column.buffer which).release session.ledger
      (fun _ ledger => post () ⟨session.column.withBuffer which block, ledger⟩)
      (fun failure ledger => stop failure ⟨session.column.withBuffer which block, ledger⟩) :=
  ends_onLedger

/-- The larger block is in place before the smaller one is given back. -/
theorem ends_growBuffer (enough : size ≤ (session.column.buffer which).size → post () session)
    (short : (session.column.buffer which).size < size →
      Ends ((session.column.buffer which).enlarge size) session.ledger
        (fun larger between => Ends (session.column.buffer which).release between
          (fun _ ledger => post () ⟨session.column.withBuffer which larger, ledger⟩)
          (fun failure ledger => stop failure ⟨session.column.withBuffer which larger, ledger⟩))
        (fun failure ledger => stop failure ⟨session.column, ledger⟩)) :
    Ends (growBuffer which size) session post stop := by
  by_cases fits : size ≤ (session.column.buffer which).size
  · rw [growBuffer, ends_column_bind, if_pos fits]
    exact enough fits
  · rw [growBuffer, ends_column_bind, if_neg fits, ends_bind, ends_onLedger]
    refine (short (Nat.lt_of_not_le fits)).mono_post ?_
    intro larger between given
    exact ends_replaceBuffer.mpr given

end

theorem bytesFor_le (kind : Kind) (slots : Nat) : Bitmap.bytesFor slots ≤ slots * kind.width := by
  have wide : slots ≤ slots * kind.width := Nat.le_mul_of_pos_right slots kind.width_pos
  refine le_trans ?_ wide
  unfold Bitmap.bytesFor
  split <;> omega

theorem ends_bufferSizes {post : Nat × Nat → Session n kind → Prop}
    (fits : slots * kind.width < Word.size → slots * kind.width ≤ session.column.config.maxAllocationBytes →
      post (slots * kind.width, Bitmap.bytesFor slots) session)
    (refused : ∀ notice failure, failure.Exhausted →
      ¬ (slots * kind.width < Word.size ∧ slots * kind.width ≤ session.column.config.maxAllocationBytes) →
      stop failure { session with ledger := session.ledger.note notice }) :
    Ends (bufferSizes slots) session post stop := by
  rw [bufferSizes, ends_column_bind]
  by_cases small : slots * kind.width < Word.size ∧
      slots * kind.width ≤ session.column.config.maxAllocationBytes
  · simp only [if_pos small]
    exact fits small.1 small.2
  · simp only [if_neg small]
    exact refused _ _ ⟨_, _, rfl⟩ small

/-- Growing is refused before anything but the journal is touched, or it makes room for the values
and then for the validity bitmap. -/
theorem ends_grow {post : Unit → Session n kind → Prop}
    (refused : ∀ failure ledger, failure.Exhausted → ledger.accounts = session.ledger.accounts →
      stop failure { session with ledger })
    (grown : ∀ notice, 2 * session.column.growthBase * kind.width ≤ session.column.config.maxAllocationBytes →
      Ends (growBuffer .values (2 * session.column.growthBase * kind.width))
        { session with ledger := session.ledger.note notice }
        (fun _ between =>
          Ends (growBuffer .validity (Bitmap.bytesFor (2 * session.column.growthBase))) between
            (fun _ after => post ()
              { after with column := { after.column with remembered := after.column.capacity } }) stop)
        stop) :
    Ends grow session post stop := by
  rw [grow, ends_column_bind]
  by_cases huge : Word.size ≤ 2 * session.column.growthBase
  · simp only [if_pos huge]
    exact refused _ _ ⟨_, _, rfl⟩ rfl
  · simp only [if_neg huge]
    refine ends_bind.mpr (ends_bufferSizes (fun _ allowed => ?_) ?_)
    · refine ends_bind.mpr (ends_bind.mpr ((grown _ allowed).mono_post ?_))
      intro _ between growing
      exact ends_bind.mpr growing
    · exact fun notice failure exhausted _ => refused failure _ exhausted rfl

/-- An invariant that growing one block keeps, and that neither notices nor the remembered
capacity touch. -/
structure GrowthInvariant (inv : Session n kind → Prop) (stop : Failure → Session n kind → Prop) :
    Prop where
  noted : ∀ {session} notice, inv session →
    inv { session with ledger := session.ledger.note notice }
  remembered : ∀ {session} slots, inv session →
    inv { session with column := { session.column with remembered := slots } }
  refused : ∀ {session failure}, failure.Exhausted → inv session → stop failure session
  growBuffer : ∀ which size, Keeps (growBuffer which size) inv stop

namespace GrowthInvariant

variable {inv : Session n kind → Prop}

theorem bufferSizes (growth : GrowthInvariant inv stop) (slots : Nat) :
    Keeps (bufferSizes slots) inv stop := by
  intro session holds
  exact ends_bufferSizes (fun _ _ => holds) fun notice _ exhausted _ =>
    growth.refused exhausted (growth.noted notice holds)

theorem grow (growth : GrowthInvariant inv stop) : Keeps grow inv stop := by
  intro session holds
  rw [Edit.grow, ends_column_bind]
  by_cases huge : Word.size ≤ 2 * session.column.growthBase
  · simp only [if_pos huge]
    exact growth.refused ⟨_, _, rfl⟩ holds
  · simp only [if_neg huge]
    refine growth.bufferSizes _ |>.bind (fun sizes => ?_) session holds
    intro between held
    refine ends_bind.mpr (growth.growBuffer .values sizes.1 |>.bind (fun _ => ?_) _ (growth.noted _ held))
    refine growth.growBuffer .validity sizes.2 |>.bind fun _ => ?_
    intro last kept
    exact growth.remembered _ kept

theorem setInitialCapacity (growth : GrowthInvariant inv stop) (slots : Nat) :
    Keeps (setInitialCapacity slots) inv stop := by
  refine growth.bufferSizes slots |>.bind fun _ => ?_
  intro session holds
  exact growth.remembered slots holds

end GrowthInvariant

theorem reserve_eq (slots : Nat) (session : Session n kind) : reserve slots session =
    if slots ≤ session.column.capacity then .ok () session
    else match grow session with
      | .ok _ larger => reserve slots larger
      | .error failure stopped => .error failure stopped := by
  rw [reserve]
  split
  · rfl
  · split <;> simp [*]

theorem reserve_ends {inv : Session n kind → Prop} (step : Keeps grow inv stop) (slots : Nat)
    (session : Session n kind) (holds : inv session) :
    Ends (reserve slots) session (fun _ after => inv after ∧ slots ≤ after.column.capacity) stop := by
  induction session using reserve.induct slots with
  | case1 session enough =>
    rw [Ends, reserve_eq, if_pos enough]
    exact ⟨holds, enough⟩
  | case2 session short result larger grown ih =>
    rw [Ends, reserve_eq, if_neg short, grown]
    exact ih ((step session holds).of_ok grown)
  | case3 session short failure stopped refused =>
    rw [Ends, reserve_eq, if_neg short, refused]
    exact (step session holds).of_error refused

theorem GrowthInvariant.reserve {inv : Session n kind → Prop} (growth : GrowthInvariant inv stop)
    (slots : Nat) : Keeps (reserve slots) inv stop := by
  intro session holds
  refine (reserve_ends growth.grow slots session holds).mono_post ?_
  intro _ after kept
  exact kept.1

/-- However growing ends, the column has only become longer. -/
theorem grownInvariant (first : Column n kind) :
    GrowthInvariant (fun session => first.Grown session.column)
      (fun _ session => first.Grown session.column) where
  noted _ grown := grown
  remembered _ grown := ⟨grown.field, grown.config, grown.account, grown.count, grown.values, grown.validity⟩
  refused _ grown := grown
  growBuffer which size session grown := by
    refine ends_growBuffer (fun _ => grown) fun _ => ?_
    refine (Block.enlarge_ends _ _ size).mono ?_ fun _ _ _ => grown
    intro larger between reached
    obtain ⟨rfl, _⟩ := reached
    have longer := grown.withBuffer which (.extendTo _ (Block.roundUp size))
    exact (Block.release_stops _ between).mono (fun _ _ _ => longer) fun _ _ _ => longer

theorem reserve_grows (slots : Nat) (session : Session n kind) :
    Ends (reserve slots) session
      (fun _ after => session.column.Grown after.column ∧ slots ≤ after.column.capacity)
      (fun _ after => session.column.Grown after.column) :=
  reserve_ends (grownInvariant session.column).grow slots session (.refl _)

/-- After growing to a size the column shows what it showed, and has the slots; where growing stops
it shows the same. -/
theorem reserve_shows {slots : Slots kind} (session : Session n kind)
    (shows : session.column.Shows slots) (needed : Nat) :
    Ends (reserve needed) session
      (fun _ after => after.column.Shows slots ∧ needed ≤ after.column.capacity)
      (fun _ after => after.column.Shows slots) := by
  refine (reserve_grows needed session).mono ?_ ?_
  · intro _ after reached
    obtain ⟨grown, enough⟩ := reached
    exact ⟨grown.shows shows, enough⟩
  · intro _ after grown
    exact grown.shows shows

end Columnar.Edit
