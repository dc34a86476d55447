import Columnar.Proofs.Column.Commuting
import Columnar.Proofs.Column.SlotCopy

namespace Columnar

open Columnar.Action

variable {n : Nat} {kind : Kind} {slots : Nat}

namespace Edit

variable {session : Session n kind} {edit next : Edit n kind Unit}

theorem grow_stops : Keeps grow (fun _ : Session n kind => True)
    (fun failure _ => failure.Exhausted ∨ failure = .tooLarge) := by
  intro session _
  exact (grow_leaves session).mono (fun _ _ _ => trivial) fun _ _ stopped => stopped.1

/-- Where the edit reports an error the column has grown at most, and not even that, nor has any account
changed, when it is an argument that was refused. -/
def LosesNothing (edit : Edit n kind Unit) : Prop :=
  ∀ session, Ends edit session (fun _ _ => True)
    (fun failure after => ∀ cause, failure = .error cause →
      session.column.Grown after.column ∧ (cause.category = .invalidArgument → after = session))

/-- Once the column has grown, what follows has to report nothing. -/
theorem losesNothing_of_silent (silent : ∀ session : Session n kind, slots ≤ session.column.capacity →
      Ends next session (fun _ _ => True) (fun failure _ => ∀ cause, failure ≠ .error cause)) :
    LosesNothing (reserve slots >>= fun _ => next) := by
  intro session
  have stops := reserve_ends grow_stops slots session trivial
  refine ends_bind.mpr (((reserve_grows slots session).and stops).mono ?_ ?_)
  · rintro _ between ⟨⟨_, enough⟩, _⟩
    refine (silent between enough).mono_stop ?_
    exact fun failure _ silent cause reported => absurd reported (silent cause)
  · rintro failure after ⟨grown, ⟨_, _, rfl⟩ | rfl⟩ cause reported
    · cases reported
      refine ⟨grown, ?_⟩
      intro refused
      cases refused
    · cases reported

theorem Writes.losesNothing {index : Nat} (writes : Writes index edit) : LosesNothing edit := by
  cases writes with
  | refused cause => exact fun session _ _ => ⟨.refl session.column, fun _ => rfl⟩
  | put value? =>
    refine losesNothing_of_silent fun session inside => ?_
    rw [Ends, mark_eq inside value?]
    trivial

theorem setValueCount_losesNothing (count : Nat) :
    LosesNothing (setValueCount count : Edit n kind Unit) :=
  losesNothing_of_silent fun _ _ => trivial

theorem copyFrom_silent (other : Column n kind) (source target : Nat) (session : Session n kind) :
    Ends (copyFrom other source target) session (fun _ _ => True)
      (fun failure _ => ∀ cause, failure ≠ .error cause) := by
  refine (copyFrom_stops other source target session).mono_stop ?_
  rintro _ after ⟨rfl, _⟩ cause reported
  cases reported

theorem copyFromSafe_losesNothing (other : Column n kind) (source target : Nat) :
    LosesNothing (copyFromSafe other source target) :=
  losesNothing_of_silent fun session _ => copyFrom_silent other source target session

end Edit

/-- The call grows the column before it writes. -/
def Call.GrowsFirst : Call kind → Prop
  | setValueCount _ => True
  | call => call.safeSlot?.isSome

theorem Call.losesNothing {call : Call kind} (grows : call.GrowsFirst) :
    Edit.LosesNothing (call.edit : Edit n kind Unit) := by
  cases call with
  | setValueCount count => exact Edit.setValueCount_losesNothing count
  | _ =>
    obtain ⟨index, slot⟩ := Option.isSome_iff_exists.mp grows
    exact (Call.writes slot).losesNothing

/-- All that the earlier column had is still there, and slots that were added are null. -/
structure Column.Preserved (column later : Column n kind) : Prop where
  count : later.count = column.count
  capacity : column.capacity ≤ later.capacity
  bit : ∀ index, index < column.capacity → later.bit index = column.bit index
  bytes : ∀ index, index < column.capacity → later.bytes? index = column.bytes? index
  fresh : ∀ index, column.capacity ≤ index → later.get? index = none

theorem Column.Sound.preserved {column later : Column n kind} (sound : column.Sound)
    (grown : column.Grown later) : column.Preserved later :=
  { grown.retained with fresh := fun _ beyond => grown.get?_new sound beyond }

end Columnar
