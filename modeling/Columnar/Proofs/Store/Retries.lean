import Columnar.Proofs.Column.Requests
import Columnar.Proofs.Store.Commuting
import Columnar.Proofs.Store.Doubling
import Columnar.Proofs.Store.Refused
import Columnar.Proofs.Store.Slotwise

/-! Retries of what was refused for want of memory. The first refusal may leave a column that has grown
on the way. From there on every retry is refused for the same reason and changes nothing. -/

namespace Columnar

open Columnar.Action

variable {n : Nat} {kind : Kind} {failure : Failure}

/-- The fault says that memory was refused. -/
def Fault.Exhausted (fault : Fault) : Prop := ∃ failure : Failure, fault = .failed failure ∧ failure.Exhausted

namespace Edit

variable {session other : Session n kind} {edit : Edit n kind Unit} {slots : Nat}

/-- The edit stops in the session and leaves it as it is, but for notices. -/
def Stuck (edit : Edit n kind Unit) (failure : Failure) (session : Session n kind) : Prop :=
  ∃ after, edit session = .error failure after ∧ session.Alike after

theorem Stuck.congr (stuck : Stuck edit failure session) (respects : Respects edit Session.Alike)
    (alike : session.Alike other) : Stuck edit failure other := by
  obtain ⟨after, ran, unchanged⟩ := stuck
  obtain ⟨last, again, same⟩ := (respects session other alike).of_error ran
  exact ⟨last, again, alike.symm.trans (unchanged.trans same)⟩

/-- Where the edit was refused memory it is stuck, and no notice changes that. -/
structure Stalls (edit : Edit n kind Unit) : Prop where
  respects : Respects edit Session.Alike
  stuck : ∀ {session stopped : Session n kind} {failure : Failure}, session.column.Leading →
    failure.Exhausted → edit session = .error failure stopped → Stuck edit failure stopped

theorem grow_stalls : Stalls (grow : Edit n kind Unit) where
  respects := grow_respects
  stuck leading exhausted refused :=
    (grow_refused_again leading exhausted.ne_tooLarge refused).2

/-- What follows the growing is not refused anything, so it is the growing that is refused again. -/
theorem reserve_stalls {next : Edit n kind Unit} (respects : Respects next Session.Alike)
    (silent : ∀ session : Session n kind, slots ≤ session.column.capacity →
      Ends next session (fun _ _ => True) (fun failure _ => ∀ cause, failure ≠ .error cause)) :
    Stalls (reserve slots >>= fun _ => next) := by
  refine ⟨(reserve_respects slots).bind fun _ => respects, ?_⟩
  intro session stopped failure leading exhausted refused
  rcases bind_error.mp refused with short | ⟨_, between, reserved, failed⟩
  · obtain ⟨after, again, unchanged⟩ :=
      reserve_refused_again leading exhausted.ne_tooLarge short
    exact ⟨after, bind_error.mpr (.inl again), unchanged⟩
  · obtain ⟨requested, limit, rfl⟩ := exhausted
    have enough := ((reserve_grows slots session).of_ok reserved).2
    exact absurd rfl ((silent between enough).of_error failed _)

theorem copyFrom_respects (column : Column n kind) (source target : Nat) :
    Respects (copyFrom column source target) Session.Alike := by
  unfold copyFrom
  cases Bitmap.bit? column.validity.bytes source with
  | none => exact respects_throw _
  | some bit =>
    cases Slot.bytes? kind column.values.bytes source with
    | none => exact respects_throw _
    | some run => exact (putBytes_respects target run).bind fun _ => putValid_respects target _

theorem copyFromSafe_stalls (column : Column n kind) (source target : Nat) :
    Stalls (copyFromSafe column source target) :=
  reserve_stalls (copyFrom_respects column source target)
    fun session _ => copyFrom_silent column source target session

theorem Writes.stalls {index : Nat} (writes : Writes index edit) : Stalls edit := by
  refine ⟨writes.respects, ?_⟩
  cases writes with
  | refused cause =>
    intro session stopped failure _ _ refused
    cases refused
    exact ⟨session, rfl, session.alike_refl⟩
  | put value? =>
    refine (reserve_stalls (mark_respects index value?) fun session inside => ?_).stuck
    rw [Ends, mark_eq inside value?]
    trivial

end Edit

theorem Call.stalls {call : Call kind} (grows : call.GrowsFirst) :
    Edit.Stalls (call.edit : Edit n kind Unit) := by
  cases call with
  | setValueCount count =>
    exact Edit.reserve_stalls (Edit.setCount_respects count) fun _ _ => trivial
  | _ =>
    obtain ⟨index, slot⟩ := Option.isSome_iff_exists.mp grows
    exact (Call.writes slot).stalls

/-- The command grows the column of that name, alone or before it writes to it. -/
inductive Command.Grows (name : String) : Command n → Prop where
  | double (kind : Kind) : Grows name (.edit name kind .grow)
  | first {command : Command n} (grows : command.GrowsInto name) : Grows name command

namespace Store

variable {store rest : Store n} {name : String} {command : Command n}

def FailsWith (fault : Fault) (store : Store n) (command : Command n) : Prop :=
  command.fault? store = some fault

instance (fault : Fault) (store : Store n) (command : Command n) :
    Decidable (FailsWith fault store command) := inferInstanceAs (Decidable (_ = _))

/-- Whatever the column has become, the command runs the edit on it. -/
def Drives (rest : Store n) (name : String) (edit : Edit n kind Unit) (command : Command n) : Prop :=
  ∀ session, (rest.withSession name session).Edits name session.column edit command

/-- A command whose edit is stuck can be tried any number of times. -/
theorem Drives.retry {edit : Edit n kind Unit} (drives : rest.Drives name edit command)
    (respects : Respects edit Session.Alike) {session : Session n kind}
    (stuck : edit.Stuck failure session) (retries : Nat) :
    ∃ last, session.Alike last ∧
      (rest.withSession name session).Along (FailsWith (.failed failure))
        (List.replicate retries command) ∧
      (rest.withSession name session).runAll (List.replicate retries command) =
        rest.withSession name last := by
  induction retries generalizing session with
  | zero => exact ⟨session, session.alike_refl, trivial, rfl⟩
  | succ retries ih =>
    obtain ⟨after, ran, unchanged⟩ := stuck
    obtain ⟨fails, left⟩ := (drives session).after_error ran
    rw [withSession_again] at left
    obtain ⟨last, alike, along, reached⟩ :=
      ih (Edit.Stuck.congr ⟨after, ran, unchanged⟩ respects unchanged)
    refine ⟨last, unchanged.trans alike, ⟨fails, left ▸ along⟩, ?_⟩
    rw [← reached, ← left]
    rfl

/-- The command runs an edit on the column, again and again the same one. -/
structure Reruns (store : Store n) (name : String) (column : Column n kind) (edit : Edit n kind Unit)
    (command : Command n) : Prop where
  stalls : edit.Stalls
  first : store.Edits name column edit command
  again : (store.withoutColumn name).Drives name edit command

/-- Where memory was refused, the command runs an edit on the column, which stalls. -/
def Refuses (store : Store n) (name : String) (command : Command n) (fault : Fault) : Prop :=
  fault.Exhausted → ∃ (kind : Kind) (column : Column n kind) (edit : Edit n kind Unit),
    store.columns.find? name = some ⟨kind, column⟩ ∧ store.Reruns name column edit command

theorem refuses_of_mismatch : store.Refuses name command .kindMismatch := by
  rintro ⟨failure, same, _⟩
  cases same

theorem refuses_of_unknown {missing : String} : store.Refuses name command (.unknownName missing) := by
  rintro ⟨failure, same, _⟩
  cases same

theorem putColumn_refuses (entry : Entry n) (between : Store n) :
    Ends (putColumn name entry) between (fun _ _ => store.Refuses name command .kindMismatch)
      (fun fault _ => store.Refuses name command fault) := by
  refine (putColumn_stops name entry between).mono (fun _ _ _ => refuses_of_mismatch) ?_
  rintro _ _ rfl ⟨failure, same, _, _, rfl⟩
  cases same

theorem edit_refuses (store : Store n) (name : String) (kind : Kind) {call : Call kind}
    (stalls : Edit.Stalls (call.edit : Edit n kind Unit)) :
    Ends (Command.edit name kind call).run store (fun _ _ => True)
      (fun fault _ => store.Refuses name (.edit name kind call) fault) := by
  refine ends_bind.mpr (ends_editColumn ?_ ?_ ?_)
  · exact fun _ => refuses_of_unknown
  · exact fun entry _ _ => putColumn_refuses entry _
  · intro column found
    refine ends_of (fun _ _ _ => trivial) fun _ _ _ _ => ?_
    exact ⟨kind, column, call.edit, found, stalls, edits_edit found call, fun session =>
      edits_edit (find?_withSession_self _ name session) call⟩

/-- A command that grows a column is refused memory by an edit of the column, now and whenever it is
tried again. -/
theorem grows_refuses (grows : command.Grows name) (store : Store n) :
    Ends command.run store (fun _ _ => True) (fun fault _ => store.Refuses name command fault) := by
  rcases grows with own | ⟨own, call, grows⟩ | ⟨source, sourceIndex, targetIndex⟩
  · exact edit_refuses store name own Edit.grow_stalls
  · exact edit_refuses store name own (Call.stalls grows)
  · refine ends_bind.mpr (ends_editBeside ?_ ?_ ?_)
    · exact fun _ _ _ => refuses_of_unknown
    · exact fun _ entry _ _ _ => putColumn_refuses entry _
    · intro kind other column apart read held
      refine ends_of (fun _ _ _ => trivial) fun _ _ _ _ => ?_
      refine ⟨kind, column, _, held, Edit.copyFromSafe_stalls other sourceIndex targetIndex,
        edits_copySafe apart read held sourceIndex targetIndex, fun session => ?_⟩
      exact edits_copySafe apart ((find?_withSession_of_ne apart session).trans read)
        (find?_withSession_self _ name session) sourceIndex targetIndex

/-- Without an overdraft, what is refused memory is refused for the same reason however often it is tried
again, and everything stays as the first refusal left it. -/
theorem retries_runAll (limits : Vector Nat n) (commands : List (Command n))
    (solvent : (ofLimits limits).Along Solvent commands) (grows : command.Grows name) {fault : Fault}
    (exhausted : fault.Exhausted)
    (refused : command.fault? ((ofLimits limits).runAll commands) = some fault) (retries : Nat) :
    let first := ((ofLimits limits).runAll commands).after command
    first.Along (FailsWith fault) (List.replicate retries command) ∧
      first.Alike (first.runAll (List.replicate retries command)) := by
  intro first
  rcases after_of_ends (grows_refuses grows ((ofLimits limits).runAll commands)) with
    ⟨well, _⟩ | ⟨_, stopped, refuses⟩
  · rw [refused] at well
    cases well
  rw [refused] at stopped
  cases stopped
  obtain ⟨kind, column, edit, found, reruns⟩ := refuses exhausted
  obtain ⟨failure, rfl, short⟩ := exhausted
  have leading : column.Leading := (leading_runAll solvent).of_find? found
  cases ran : edit ⟨column, ((ofLimits limits).runAll commands).ledger⟩ with
  | ok _ later =>
    rw [(reruns.first.after ran).1] at refused
    cases refused
  | error cause stopped =>
    obtain ⟨same, left⟩ := reruns.first.after_error ran
    rw [same] at refused
    cases refused
    have stuck := reruns.stalls.stuck leading short ran
    obtain ⟨last, alike, along, reached⟩ :=
      reruns.again.retry reruns.stalls.respects stuck retries
    rw [show first = _ from left]
    exact ⟨along, reached ▸ alike_of_session alike⟩

theorem retries_runAll_cramped :
    let write : Command 1 := .edit "x" .uint8 (.setSafe 200 7)
    let first := ((ofLimits #v[64]).runAll (cramped 0)).after write
    first.Along (FailsWith (.failed (.error (.capacityExhausted 64 64)))) [write, write, write] ∧
      first.Alike (first.runAll [write, write, write]) := by
  have grows : (Command.edit "x" .uint8 (.setSafe 200 7) : Command 1).Grows "x" :=
    .first (.edit .uint8 (.setSafe 200 7) rfl)
  have refused : (Command.edit "x" .uint8 (.setSafe 200 7)).fault?
      ((ofLimits #v[64]).runAll (cramped 0)) = some (.failed (.error (.capacityExhausted 64 64))) := by
    decide +kernel
  exact retries_runAll #v[64] (cramped 0) (by decide +kernel) grows ⟨_, rfl, _, _, rfl⟩ refused 3

/-- A run that ends with a column whose blocks are charged to two accounts, with a bitmap for more slots
than there are values. -/
def skewing (own other : Fin n) : List (Command n) :=
  [.create "y" .uint8 "y" none other {}, .edit "y" .uint8 (.allocate 80),
    .allocateBlock "b" other (Word.size - 112), .allocateBlock "a" own 96, .moveBlock "a" other,
    .create "x" .uint8 "x" none own {}, .transfer "y" "x"]

/-- After an overdraft the values of a column can grow with every retry. -/
theorem retries_runAll_skewing :
    ¬ ∀ (limits : Vector Nat 2) (commands : List (Command 2)) (name : String) (command : Command 2)
        (fault : Fault),
      let store := (ofLimits limits).runAll commands
      let first := store.after command
      command.Grows name → fault.Exhausted → command.fault? store = some fault →
        command.fault? first = some fault ∧ first.Alike (first.after command) := by
  intro always
  have refused : (Command.edit "x" .uint8 .grow).fault?
      ((ofLimits #v[Word.max, Word.max]).runAll (skewing 0 1)) =
        some (.failed (.error (.capacityExhausted 32 Word.max))) := by
    decide +kernel
  have unchanged := (always #v[Word.max, Word.max] (skewing 0 1) "x" _ _ (.double .uint8)
    ⟨_, rfl, _, _, rfl⟩ refused).2.columns
  have same := congrArg (fun columns => (columns.find? "x").map fun entry => entry.column.values.size)
    unchanged
  revert same
  decide +kernel

end Store

end Columnar
