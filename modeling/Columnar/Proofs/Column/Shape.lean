import Columnar.Proofs.Column.Copying

namespace Columnar

open Columnar.Action

variable {n : Nat} {kind : Kind} {inv : Session n kind → Prop}
variable {stop : Failure → Session n kind → Prop}

namespace Edit

/-- An invariant that does not depend on what is in the blocks. -/
structure WriteInvariant (inv : Session n kind → Prop) (stop : Failure → Session n kind → Prop) :
    Prop where
  outOfRange : ∀ {session}, inv session → stop .outOfRange session
  written : ∀ {session} bytes, bytes.size = session.column.values.bytes.size → inv session →
    inv (session.mapValues fun _ => bytes)
  marked : ∀ {session} bytes, bytes.size = session.column.validity.bytes.size → inv session →
    inv (session.mapValidity fun _ => bytes)

namespace WriteInvariant

variable (writes : WriteInvariant inv stop)

include writes

theorem putBytes (index : Nat) (run : List UInt8) : Keeps (putBytes index run) inv stop := by
  intro session holds
  rw [ends_putBytes]
  by_cases fits : index * kind.width + run.length ≤ session.column.values.bytes.size
  · rw [if_pos fits]
    exact writes.written _ (Bytes.size_overwrite _ _ _) holds
  · rw [if_neg fits]
    exact writes.outOfRange holds

theorem putValid (index : Nat) (valid : Bool) : Keeps (putValid index valid) inv stop := by
  intro session holds
  rw [ends_putValid]
  by_cases covered : Bitmap.Covers session.column.validity.bytes index
  · rw [if_pos covered]
    exact writes.marked _ (Bitmap.size_put _ _ _) holds
  · rw [if_neg covered]
    exact writes.outOfRange holds

theorem putBits (bitmap : Bytes) (start last : Nat) : Keeps (putBits bitmap start last) inv stop := by
  intro session holds
  cases copied : Bitmap.copyRange? session.column.validity.bytes bitmap start last with
  | none =>
    simp only [Ends, Edit.putBits, copied]
    exact writes.outOfRange holds
  | some bytes =>
    rw [ends_putBits session copied]
    exact writes.marked bytes (Bitmap.size_of_copyRange? copied) holds

theorem set (index : Nat) (value : Element kind) : Keeps (set index value) inv stop := by
  rw [Edit.set, putValue_eq]
  exact (writes.putBytes index value.toBytes).bind fun _ => writes.putValid index true

theorem setIf (index : Nat) (flag : Int) (value : Element kind) :
    Keeps (setIf index flag value) inv stop := by
  unfold Edit.setIf
  split
  · exact writes.set index value
  · exact writes.putValid index false

theorem copyFrom (other : Column n kind) (source target : Nat) :
    Keeps (copyFrom other source target) inv stop := by
  unfold Edit.copyFrom
  split
  · split
    · exact (writes.putBytes target _).bind fun _ => writes.putValid target _
    · exact fun _ holds => writes.outOfRange holds
  · exact fun _ holds => writes.outOfRange holds

end WriteInvariant

/-- An invariant that every primitive edit keeps. -/
structure ShapeInvariant (inv : Session n kind → Prop) (stop : Failure → Session n kind → Prop) : Prop
    extends GrowthInvariant inv stop where
  outOfRange : ∀ {session}, inv session → stop .outOfRange session
  reported : ∀ {session} cause, inv session → stop (.error cause) session
  counted : ∀ {session} count, count < Word.size ∨ count ≤ session.column.capacity → inv session →
    inv { session with column := { session.column with count } }
  written : ∀ {session} bytes, bytes.size = session.column.values.bytes.size → inv session →
    inv (session.mapValues fun _ => bytes)
  marked : ∀ {session} bytes, bytes.size = session.column.validity.bytes.size → inv session →
    inv (session.mapValidity fun _ => bytes)
  allocate : ∀ slots, Keeps (allocate slots) inv stop
  clear : Keeps clear inv stop

/-- An invariant that every doubling as a whole keeps, though growing one block alone may not. -/
structure EditInvariant (inv : Session n kind → Prop) (stop : Failure → Session n kind → Prop) :
    Prop where
  noted : ∀ {session} notice, inv session →
    inv { session with ledger := session.ledger.note notice }
  remembered : ∀ {session} slots, inv session →
    inv { session with column := { session.column with remembered := slots } }
  outOfRange : ∀ {session}, inv session → stop .outOfRange session
  reported : ∀ {session} cause, inv session → stop (.error cause) session
  counted : ∀ {session} count, count < Word.size ∨ count ≤ session.column.capacity → inv session →
    inv { session with column := { session.column with count } }
  written : ∀ {session} bytes, bytes.size = session.column.values.bytes.size → inv session →
    inv (session.mapValues fun _ => bytes)
  marked : ∀ {session} bytes, bytes.size = session.column.validity.bytes.size → inv session →
    inv (session.mapValidity fun _ => bytes)
  grow : Keeps grow inv stop
  allocate : ∀ slots, Keeps (allocate slots) inv stop
  clear : Keeps clear inv stop

theorem ShapeInvariant.edits (shape : ShapeInvariant inv stop) : EditInvariant inv stop where
  noted := shape.noted
  remembered := shape.remembered
  outOfRange := shape.outOfRange
  reported := shape.reported
  counted := shape.counted
  written := shape.written
  marked := shape.marked
  grow := shape.grow
  allocate := shape.allocate
  clear := shape.clear

theorem EditInvariant.and {inv' : Session n kind → Prop} {stop' : Failure → Session n kind → Prop}
    (first : EditInvariant inv stop) (second : EditInvariant inv' stop') :
    EditInvariant (fun session => inv session ∧ inv' session)
      (fun failure session => stop failure session ∧ stop' failure session) where
  noted notice := And.imp (first.noted notice) (second.noted notice)
  remembered slots := And.imp (first.remembered slots) (second.remembered slots)
  outOfRange := And.imp first.outOfRange second.outOfRange
  reported cause := And.imp (first.reported cause) (second.reported cause)
  counted count within := And.imp (first.counted count within) (second.counted count within)
  written bytes same := And.imp (first.written bytes same) (second.written bytes same)
  marked bytes same := And.imp (first.marked bytes same) (second.marked bytes same)
  grow session holds := (first.grow session holds.1).and (second.grow session holds.2)
  allocate slots session holds :=
    (first.allocate slots session holds.1).and (second.allocate slots session holds.2)
  clear session holds := (first.clear session holds.1).and (second.clear session holds.2)

namespace EditInvariant

variable (edits : EditInvariant inv stop)

include edits

theorem writes : WriteInvariant inv stop := ⟨edits.outOfRange, edits.written, edits.marked⟩

theorem setInitialCapacity (slots : Nat) : Keeps (setInitialCapacity slots) inv stop := by
  intro session holds
  refine ends_bind.mpr (ends_bufferSizes (fun _ _ => edits.remembered slots holds) ?_)
  intro notice failure exhausted _
  obtain ⟨requested, limit, rfl⟩ := exhausted
  exact edits.reported _ (edits.noted notice holds)

theorem reserve (slots : Nat) : Keeps (reserve slots) inv stop := by
  intro session holds
  refine (reserve_ends edits.grow slots session holds).mono_post ?_
  intro _ after kept
  exact kept.1

theorem setCount {count : Nat} (word : count < Word.size) : Keeps (setCount count) inv stop :=
  fun _ holds => edits.counted count (.inl word) holds

theorem setValueCount (count : Nat) : Keeps (setValueCount count) inv stop := by
  intro session holds
  refine ends_bind.mpr ((reserve_ends edits.grow count session holds).mono_post ?_)
  rintro _ after ⟨kept, enough⟩
  exact edits.counted count (.inr enough) kept

theorem set (index : Nat) (value : Element kind) : Keeps (set index value) inv stop :=
  edits.writes.set index value

theorem setIf (index : Nat) (flag : Int) (value : Element kind) :
    Keeps (setIf index flag value) inv stop :=
  edits.writes.setIf index flag value

theorem reserve_first {edit : Edit n kind Unit} (keeps : Keeps edit inv stop) (needed : Nat) :
    Keeps (Edit.reserve needed >>= fun _ => edit) inv stop :=
  (edits.reserve needed).bind fun _ => keeps

theorem refuse {edit : Edit n kind Unit} {refused : Prop} [Decidable refused] (cause : Error)
    (keeps : Keeps edit inv stop) : Keeps (if refused then throw (.error cause) else edit) inv stop := by
  split
  · exact fun _ holds => edits.reported cause holds
  · exact keeps

theorem reset : Keeps reset inv stop := by
  intro session holds
  have zeroed : inv (session.mapValues fun bytes => Bytes.zeros bytes.size) :=
    edits.written _ (Bytes.size_zeros _) holds
  have blank : inv ((session.mapValues fun bytes => Bytes.zeros bytes.size).mapValidity
      fun bytes => Bytes.zeros bytes.size) :=
    edits.marked _ (Bytes.size_zeros _) zeroed
  exact edits.counted 0 (.inl (by decide)) blank

theorem call (call : Call kind) : Keeps call.edit inv stop := by
  cases call with
  | setInitialCapacity capacity => exact edits.setInitialCapacity capacity
  | allocateRemembered => exact fun session holds => edits.allocate _ session holds
  | allocate capacity => exact edits.allocate capacity
  | grow => exact edits.grow
  | setValueCount count => exact edits.setValueCount count
  | clear => exact edits.clear
  | reset => exact edits.reset
  | set index value => exact edits.set index value
  | setSafe index value => exact edits.reserve_first (edits.set index value) _
  | setIf index flag value => exact edits.setIf index flag value
  | setIfSafe index flag value => exact edits.reserve_first (edits.setIf index flag value) _
  | setNull index => exact edits.reserve_first (edits.writes.putValid index false) _
  | setHolder index holder => exact edits.set index holder.value
  | setHolderSafe index holder => exact edits.reserve_first (edits.set index holder.value) _
  | setCell index cell => exact edits.refuse _ (edits.setIf index cell.flag cell.value)
  | setCellSafe index cell =>
    exact edits.refuse _ (edits.reserve_first (edits.setIf index cell.flag cell.value) _)
  | setTruncated index number => exact edits.set index _
  | setTruncatedSafe index number => exact edits.reserve_first (edits.set index _) _
  | setEncoded index code => exact edits.reserve_first (edits.set index _) _

theorem copyFrom (other : Column n kind) (source target : Nat) :
    Keeps (copyFrom other source target) inv stop :=
  edits.writes.copyFrom other source target

theorem copyFromSafe (other : Column n kind) (source target : Nat) :
    Keeps (copyFromSafe other source target) inv stop :=
  edits.reserve_first (edits.copyFrom other source target) _

theorem split (other : Column n kind) (start length : Nat) :
    Keeps (split other start length) inv stop := by
  intro session holds
  unfold Edit.split
  by_cases range : Word.size ≤ start + length ∨ other.capacity < start + length
  · simp only [if_pos range]
    exact edits.reported _ holds
  · simp only [if_neg range]
    rw [ends_column_bind, ends_bind, ends_note]
    have word : length < Word.size := by omega
    refine (edits.allocate length).bind (fun _ => ?_) _ (edits.noted _ holds)
    split
    · refine (edits.writes.putBytes 0 _).bind fun _ => ?_
      exact (edits.writes.putBits _ _ _).bind fun _ => edits.setCount word
    · exact fun _ holds => edits.outOfRange holds

end EditInvariant

end Edit

end Columnar
