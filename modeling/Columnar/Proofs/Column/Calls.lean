import Columnar.Column.Call
import Columnar.Column.Copy
import Columnar.Proofs.Column.Memory

namespace Columnar

open Columnar.Action

variable {n : Nat} {kind : Kind} {slots shown : Slots kind} {index : Nat}

/-- What a call that ends well makes of the slots. -/
def Call.effect : Call kind → Slots kind → Slots kind
  | setInitialCapacity _, slots | grow, slots | setValueCount _, slots => slots
  | allocateRemembered, _ | allocate _, _ | clear, _ | reset, _ => Slots.blank
  | set index value, slots | setSafe index value, slots => Function.update slots index (some value)
  | setIf index flag value, slots | setIfSafe index flag value, slots =>
    Function.update slots index (if 0 < flag then some value else none)
  | setNull index, slots => Function.update slots index none
  | setHolder index holder, slots | setHolderSafe index holder, slots =>
    Function.update slots index (some holder.value)
  | setCell index cell, slots | setCellSafe index cell, slots =>
    Function.update slots index cell.toOption
  | setTruncated index number, slots | setTruncatedSafe index number, slots =>
    Function.update slots index (some (Element.truncate kind number))
  | setEncoded index code, slots => Function.update slots index (some (Element.truncate kind code))

namespace Edit

section

variable {session : Session n kind} {post : Unit → Session n kind → Prop}
variable {stop : Failure → Session n kind → Prop}

theorem ends_putBytes {run : List UInt8} :
    Ends (putBytes index run) session post stop ↔
      if index * kind.width + run.length ≤ session.column.values.bytes.size then
        post () { session with column := session.column.withBytes index run }
      else stop .outOfRange session := by
  by_cases fits : index * kind.width + run.length ≤ session.column.values.bytes.size
  · simp only [Ends, putBytes, if_pos fits]
    rfl
  · simp only [Ends, putBytes, if_neg fits]

theorem ends_putValid {valid : Bool} : Ends (putValid index valid) session post stop ↔
    if Bitmap.Covers session.column.validity.bytes index then
      post () { session with column := session.column.withValid index valid }
    else stop .outOfRange session := by
  by_cases covered : Bitmap.Covers session.column.validity.bytes index
  · simp only [Ends, putValid, if_pos covered]
    rfl
  · simp only [Ends, putValid, if_neg covered]

end

theorem putValue_eq (index : Nat) (value : Element kind) :
    putValue (n := n) index value = putBytes index value.toBytes := by
  funext session
  simp only [putValue, putBytes, Slot.Within, Element.length_toBytes, Nat.succ_mul]
  rfl

/-- The edit turns a column that shows `slots` into one that shows `shown`. Where it stops, the
column still shows `slots`, unless an account was overdrawn. -/
def Turns (edit : Edit n kind Unit) (slots shown : Slots kind) : Prop :=
  ∀ session, session.column.Shows slots →
    Ends edit session (fun _ after => after.column.Shows shown)
      (fun failure after => failure = .overdrawn ∨ after.column.Shows slots)

theorem Turns.reserve_first {edit : Edit n kind Unit} (turns : Turns edit slots shown) (needed : Nat) :
    Turns (reserve needed >>= fun _ => edit) slots shown := by
  intro session shows
  refine ends_bind.mpr ((reserve_shows session shows needed).mono ?_ fun _ _ shows => .inr shows)
  intro _ between reached
  exact turns between reached.1

/-- An edit that only makes the column longer, however it ends, changes no slot. -/
theorem turns_of_grown {edit : Edit n kind Unit}
    (grows : ∀ column : Column n kind, Keeps edit (fun session => column.Grown session.column)
      (fun _ session => column.Grown session.column)) : Turns edit slots slots := by
  intro session shows
  refine (grows session.column session (.refl _)).mono ?_ ?_
  · intro _ after grown
    exact grown.shows shows
  · intro _ after grown
    exact .inr (grown.shows shows)

theorem setInitialCapacity_turns (capacity : Nat) :
    Turns (n := n) (setInitialCapacity capacity) slots slots :=
  turns_of_grown fun column => (grownInvariant column).setInitialCapacity capacity

theorem grow_turns : Turns (n := n) grow slots slots :=
  turns_of_grown fun column => (grownInvariant column).grow

theorem setValueCount_turns (count : Nat) : Turns (n := n) (setValueCount count) slots slots := by
  intro session shows
  refine ends_bind.mpr ((reserve_shows session shows count).mono ?_ fun _ _ shows => .inr shows)
  intro _ after reached
  obtain ⟨still, enough⟩ := reached
  refine ⟨⟨enough, still.sound.clear⟩, ?_⟩
  rw [← still.reads]
  rfl

theorem allocate_turns (capacity : Nat) : Turns (n := n) (allocate capacity) slots Slots.blank :=
  fun session shows => allocate_shows session capacity shows

theorem clear_turns : Turns (n := n) clear slots Slots.blank :=
  fun session _ => (clear_shows session).mono_stop fun _ _ => .inl

theorem reset_turns : Turns (n := n) reset slots Slots.blank :=
  fun session _ => (reset_shows session).mono_stop fun _ _ => False.elim

/-- A slot's bytes and then its bit are written; beyond the capacity neither is seen. -/
theorem put_turns (index : Nat) {run : List UInt8} (whole : run.length = kind.width) (valid : Bool) :
    Turns (n := n) (putBytes index run >>= fun _ => putValid index valid) slots
      (Function.update slots index (if valid then some (Element.ofBytes run) else none)) := by
  intro session shows
  rw [ends_bind, ends_putBytes]
  by_cases room : index * kind.width + run.length ≤ session.column.values.bytes.size
  · rw [if_pos room, ends_putValid, Column.validity_withBytes]
    by_cases covered : Bitmap.Covers session.column.validity.bytes index
    · have within : Slot.Within kind session.column.values.bytes index := by
        rw [whole] at room
        rwa [Slot.Within, Nat.succ_mul]
      rw [if_pos covered]
      exact shows.put (Column.lt_capacity_iff.mpr ⟨within, covered⟩) whole valid
    · have beyond : session.column.capacity ≤ index := by
        by_contra inside
        exact covered (Column.lt_capacity_iff.mp (Nat.lt_of_not_le inside)).2
      rw [if_neg covered]
      exact .inr (shows.withBytes_beyond beyond whole)
  · rw [if_neg room]
    exact .inr shows

theorem set_turns (index : Nat) (value : Element kind) :
    Turns (n := n) (set index value) slots (Function.update slots index (some value)) := by
  have written : Turns (n := n) _ slots _ := put_turns index value.length_toBytes true
  rwa [if_pos rfl, Element.ofBytes_toBytes, ← putValue_eq] at written

theorem set_completes {session : Session n kind} (inside : index < session.column.capacity)
    (value : Element kind) : Ends (set index value) session (fun _ _ => True) (fun _ _ => False) := by
  obtain ⟨within, covered⟩ := Column.lt_capacity_iff.mp inside
  have room : index * kind.width + value.toBytes.length ≤ session.column.values.bytes.size := by
    rwa [value.length_toBytes, ← Nat.succ_mul]
  rw [set, putValue_eq, ends_bind, ends_putBytes, if_pos room, ends_putValid,
    Column.validity_withBytes, if_pos covered]
  trivial

theorem mark_turns (index : Nat) :
    Turns (n := n) (putValid index false) slots (Function.update slots index none) := by
  intro session shows
  rw [ends_putValid]
  by_cases covered : Bitmap.Covers session.column.validity.bytes index
  · rw [if_pos covered]
    exact shows.withValid_false covered
  · rw [if_neg covered]
    exact .inr shows

theorem setIf_turns (index : Nat) (flag : Int) (value : Element kind) :
    Turns (n := n) (setIf index flag value) slots
      (Function.update slots index (if 0 < flag then some value else none)) := by
  unfold setIf
  by_cases positive : 0 < flag
  · rw [if_pos positive, if_pos positive]
    exact set_turns index value
  · rw [if_neg positive, if_neg positive]
    exact mark_turns index

theorem refuse_turns {edit : Edit n kind Unit} {refused : Prop} [Decidable refused] (cause : Error)
    (turns : Turns edit slots shown) :
    Turns (if refused then throw (.error cause) else edit) slots shown := by
  by_cases holds : refused
  · rw [if_pos holds]
    exact fun _ shows => .inr shows
  · rw [if_neg holds]
    exact turns

end Edit

theorem Call.turns (call : Call kind) (slots : Slots kind) :
    Edit.Turns (n := n) call.edit slots (call.effect slots) := by
  cases call with
  | setInitialCapacity capacity => exact Edit.setInitialCapacity_turns capacity
  | allocateRemembered => exact fun session shows => Edit.allocate_turns _ session shows
  | allocate capacity => exact Edit.allocate_turns capacity
  | grow => exact Edit.grow_turns
  | setValueCount count => exact Edit.setValueCount_turns count
  | clear => exact Edit.clear_turns
  | reset => exact Edit.reset_turns
  | set index value => exact Edit.set_turns index value
  | setSafe index value => exact (Edit.set_turns index value).reserve_first _
  | setIf index flag value => exact Edit.setIf_turns index flag value
  | setIfSafe index flag value => exact (Edit.setIf_turns index flag value).reserve_first _
  | setNull index => exact (Edit.mark_turns index).reserve_first _
  | setHolder index holder => exact Edit.set_turns index holder.value
  | setHolderSafe index holder => exact (Edit.set_turns index holder.value).reserve_first _
  | setCell index cell => exact Edit.refuse_turns _ (Edit.setIf_turns index cell.flag cell.value)
  | setCellSafe index cell =>
    exact Edit.refuse_turns _ ((Edit.setIf_turns index cell.flag cell.value).reserve_first _)
  | setTruncated index number => exact Edit.set_turns index _
  | setTruncatedSafe index number => exact (Edit.set_turns index _).reserve_first _
  | setEncoded index code => exact (Edit.set_turns index _).reserve_first _

end Columnar
