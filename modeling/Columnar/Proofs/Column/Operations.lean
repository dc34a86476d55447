import Columnar.Proofs.Column.Shape
import Columnar.Proofs.Column.Transfer
import Columnar.Proofs.Operations

namespace Columnar

open Columnar.Action

variable {n : Nat} {kind : Kind} {α : Type} {forced : Forcing n}

instance : Accountable (Session n kind) Failure n := ⟨Session.ledger, .overdrawn⟩

instance : Accountable (Exchange n kind) Failure n := ⟨Exchange.ledger, .overdrawn⟩

namespace Column

def returned (column : Column n kind) : List (Operation n) :=
  column.values.returned ++ column.validity.returned

def moved (column : Column n kind) (target : Fin n) : List (Operation n) :=
  column.values.moved target ++ column.validity.moved target

/-- The operations of a transfer, which clears the receiving column before and the giving one after. -/
def transferred {other : Kind} (giver : Column n kind) (receiver : Column n other) : List (Operation n) :=
  receiver.returned ++ giver.moved receiver.account ++ giver.bare.returned

theorem release_executes (column : Column n kind) {ledger : Ledger n} :
    Executes forced column.release ledger column.returned := by
  refine ends_bind.mpr (ends_tryCatch.mpr ((Block.release_leads forced column.values ledger).mono ?_ ?_))
  · exact fun _ _ given => (Block.release_after given column.validity).mono_stop fun _ _ => .inl
  · rintro failure between rfl
    exact ends_bind.mpr ((Block.release_stops _ _).mono (fun _ _ _ => .inl rfl) fun _ _ => .inl)

end Column

namespace Edit

variable {session : Session n kind} {slots : Nat}

def growing (session : Session n kind) : List (Operation n) :=
  let column := session.column
  let target := 2 * column.growthBase
  if Word.size ≤ target then []
  else following (bufferSizes target) session fun sizes between =>
    let session := { between with
      ledger := between.ledger.note (.growing column.field.name column.capacity target) }
    session.column.values.grown sizes.1 session.ledger ++
      following (growBuffer .values sizes.1) session fun _ last =>
        last.column.validity.grown sizes.2 last.ledger

def reserving (slots : Nat) (session : Session n kind) : List (Operation n) :=
  if slots ≤ session.column.capacity then []
  else growing session ++
    match _ : grow session with
    | .ok _ larger => reserving slots larger
    | .error _ _ => []
termination_by slots - session.column.capacity
decreasing_by
  have larger := capacity_lt_of_grow (by assumption)
  omega

def renewing (slots : Nat) (session : Session n kind) : List (Operation n) :=
  let column := session.column
  let size := slots * kind.width
  if size < Word.size ∧ size ≤ column.config.maxAllocationBytes then
    Block.requestedBoth column.account size (Bitmap.bytesFor slots) session.ledger ++
      following (Block.allocateBoth column.account size (Bitmap.bytesFor slots)) session.ledger
        fun _ _ => column.returned
  else []

def splitting (other : Column n kind) (start length : Nat) (session : Session n kind) :
    List (Operation n) :=
  let stop := start + length
  if Word.size ≤ stop ∨ other.capacity < stop then []
  else renewing length { session with
    ledger := session.ledger.note
      (.splitting start stop other.field.name session.column.field.name) }

theorem onLedger_executes {action : Accounting n α} {operations : List (Operation n)}
    (executes : Executes forced action session.ledger operations) :
    Executes forced (onLedger action) session operations := ends_onLedger.mpr executes

theorem executes_column_bind {next : Column n kind → Edit n kind α} {operations : List (Operation n)} :
    Executes forced (column >>= next) session operations ↔
      Executes forced (next session.column) session operations := Iff.rfl

theorem executes_note_bind {notice : Notice} {next : Unit → Edit n kind α}
    {operations : List (Operation n)} :
    Executes forced (note notice >>= next) session operations ↔
      Executes forced (next ()) { session with ledger := session.ledger.note notice } operations :=
  Iff.rfl

theorem executes_of_keeps {edit : Edit n kind α}
    (keeps : Keeps edit (fun other => other.ledger.accounts = session.ledger.accounts)
      fun _ other => other.ledger.accounts = session.ledger.accounts) :
    Executes forced edit session [] := .nil (keeps session rfl)

/-- Writing slots leaves the accounts. -/
theorem silentWrites (session : Session n kind) :
    WriteInvariant (fun other : Session n kind => other.ledger.accounts = session.ledger.accounts)
      fun _ other => other.ledger.accounts = session.ledger.accounts :=
  ⟨id, fun _ _ => id, fun _ _ => id⟩

theorem following_onLedger {β : Type} (action : Accounting n α) (session : Session n kind)
    (next : α → Session n kind → List β) : following (onLedger action) session next =
      following action session.ledger fun result ledger => next result { session with ledger } := by
  unfold following onLedger
  cases action session.ledger <;> rfl

theorem bufferSizes_executes (slots : Nat) : Executes forced (bufferSizes slots) session [] :=
  .nil (ends_bufferSizes (fun _ _ => rfl) fun _ _ _ _ => rfl)

theorem replaceBuffer_executes (which : Buffer) (block : Block n) :
    Executes forced (replaceBuffer which block) session (session.column.buffer which).returned :=
  ends_replaceBuffer.mpr (Block.release_executes _)

theorem growBuffer_executes (which : Buffer) (size : Nat) : Executes forced (growBuffer which size) session
    ((session.column.buffer which).grown size session.ledger) := by
  rw [growBuffer, executes_column_bind]
  by_cases enough : size ≤ (session.column.buffer which).size
  · rw [Block.grown, if_pos enough, if_pos enough]
    exact .nil rfl
  · rw [Block.grown, if_neg enough, if_neg enough]
    rw [← following_onLedger _ session fun _ _ => (session.column.buffer which).returned]
    refine (onLedger_executes (Block.enlarge_executes _ size)).bind fun larger between ran => ?_
    obtain ⟨ledger, _, rfl⟩ := ok_of_onLedger ran
    exact replaceBuffer_executes which larger

theorem grow_executes : Executes forced grow session (growing session) := by
  rw [grow, executes_column_bind]
  by_cases huge : Word.size ≤ 2 * session.column.growthBase
  · simp only [growing, if_pos huge]
    exact .nil rfl
  · simp only [growing, if_neg huge]
    refine (bufferSizes_executes _).bind fun sizes between _ => executes_note_bind.mpr ?_
    refine (growBuffer_executes .values sizes.1).bind fun _ last _ => ?_
    exact (growBuffer_executes .validity sizes.2).bind_silent fun _ _ => .nil rfl

theorem reserving_of_short (short : ¬ slots ≤ session.column.capacity) : reserving slots session =
    growing session ++ following grow session fun _ larger => reserving slots larger := by
  rw [reserving, if_neg short, following]
  split <;> simp [*]

theorem reserve_of_short (short : ¬ slots ≤ session.column.capacity) :
    reserve slots session = (grow >>= fun _ => reserve slots) session := by
  simp only [reserve_eq slots session, if_neg short, bind, EStateM.bind]
  cases grow session <;> rfl

theorem reserve_executes (slots : Nat) (session : Session n kind) :
    Executes forced (reserve slots) session (reserving slots session) := by
  have step {session : Session n kind} (short : ¬ slots ≤ session.column.capacity)
      (further : ∀ result larger, grow session = .ok result larger →
        Executes forced (reserve slots) larger (reserving slots larger)) :
      Executes forced (reserve slots) session (reserving slots session) := by
    rw [Executes, Ends, reserve_of_short short, reserving_of_short short]
    exact grow_executes.bind further
  induction session using reserve.induct slots with
  | case1 session enough =>
    rw [Executes, Ends, reserve_eq, reserving, if_pos enough, if_pos enough]
    rfl
  | case2 session short result larger grown ih =>
    refine step short fun _ _ ran => ?_
    cases grown.symm.trans ran
    exact ih
  | case3 session short failure stopped refused =>
    exact step short fun _ _ ran => by cases refused.symm.trans ran

theorem allocate_executes (slots : Nat) :
    Executes forced (allocate slots) session (renewing slots session) := by
  refine ends_allocate (fun notice failure _ beyond => ?_) fun small allowed => ?_
  · rw [renewing, if_neg beyond]
    exact .inr rfl
  · rw [renewing, if_pos ⟨small, allowed⟩]
    have taken : Executes forced (Block.allocateBoth _ _ _) session.ledger _ :=
      Block.allocateBoth_executes session.column.account (slots * kind.width) (Bitmap.bytesFor slots)
    refine ends_of ?_ ?_
    · intro blocks between ran
      rw [following, ran, Column.returned, ← List.append_assoc]
      refine (Block.release_after (taken.of_ok ran) session.column.values).mono ?_ ?_
      · exact fun _ _ given => (Block.release_after given session.column.validity).mono_stop fun _ _ => .inl
      · rintro failure middle rfl
        exact (Block.release_stops _ _).mono (fun _ _ _ => .inl rfl) fun _ _ => .inl
    · intro failure between ran
      rw [following, ran, List.append_nil]
      exact taken.of_error ran

theorem clear_executes : Executes forced clear session session.column.returned := by
  rw [clear, executes_column_bind]
  refine ends_bind.mpr (ends_replaceBuffer.mpr
    ((Block.release_leads forced session.column.values session.ledger).mono ?_ fun _ _ => .inl))
  intro _ between given
  exact ends_bind.mpr (ends_replaceBuffer.mpr
    ((Block.release_after given session.column.validity).mono_stop fun _ _ => .inl))

theorem split_executes (other : Column n kind) (start length : Nat) :
    Executes forced (split other start length) session (splitting other start length session) := by
  unfold split splitting
  by_cases beyond : Word.size ≤ start + length ∨ other.capacity < start + length
  · simp only [if_pos beyond]
    exact .nil rfl
  · simp only [if_neg beyond]
    rw [executes_column_bind, executes_note_bind]
    refine (allocate_executes length).bind_silent fun _ between => ?_
    split
    · refine executes_of_keeps (((silentWrites between).putBytes 0 _).bind fun _ => ?_)
      exact ((silentWrites between).putBits _ _ _).bind fun _ _ held => held
    · exact .nil rfl

end Edit

def Call.operations (session : Session n kind) : Call kind → List (Operation n)
  | allocateRemembered => Edit.renewing session.column.remembered session
  | allocate slots => Edit.renewing slots session
  | grow => Edit.growing session
  | setValueCount count => Edit.reserving count session
  | clear => session.column.returned
  | setCellSafe index cell => if cell.flag < 0 then [] else Edit.reserving (index + 1) session
  | setSafe index _ | setIfSafe index _ _ | setNull index | setHolderSafe index _
  | setTruncatedSafe index _ | setEncoded index _ => Edit.reserving (index + 1) session
  | setInitialCapacity _ | reset | set _ _ | setIf _ _ _ | setHolder _ _ | setCell _ _
  | setTruncated _ _ => []

theorem Call.executes (call : Call kind) (session : Session n kind) :
    Executes forced call.edit session (call.operations session) := by
  have set (index : Nat) (value : Element kind) (session : Session n kind) :
      Executes forced (Edit.set index value) session [] :=
    Edit.executes_of_keeps ((Edit.silentWrites session).set index value)
  have setIf (index : Nat) (flag : Int) (value : Element kind) (session : Session n kind) :
      Executes forced (Edit.setIf index flag value) session [] :=
    Edit.executes_of_keeps ((Edit.silentWrites session).setIf index flag value)
  have safely {edit : Edit n kind Unit} (index : Nat) (silent : ∀ session, Executes forced edit session []) :
      Executes forced (Edit.reserve (index + 1) >>= fun _ => edit) session
        (Edit.reserving (index + 1) session) :=
    (Edit.reserve_executes (index + 1) session).bind_silent fun _ => silent
  have refuse {edit : Edit n kind Unit} {operations : List (Operation n)} (cell : Cell kind)
      (executes : Executes forced edit session operations) :
      Executes forced (if cell.flag < 0 then throw (.error (.negativeFlag cell.flag)) else edit) session
        (if cell.flag < 0 then [] else operations) := by
    split
    · exact .nil rfl
    · exact executes
  cases call with
  | setInitialCapacity slots => exact (Edit.bufferSizes_executes slots).bind_silent fun _ _ => .nil rfl
  | allocateRemembered => exact Edit.allocate_executes session.column.remembered
  | allocate slots => exact Edit.allocate_executes slots
  | grow => exact Edit.grow_executes
  | setValueCount count => exact (Edit.reserve_executes count session).bind_silent fun _ _ => .nil rfl
  | clear => exact Edit.clear_executes
  | reset => exact .nil rfl
  | set index value => exact set index value session
  | setSafe index value => exact safely index (set index value)
  | setIf index flag value => exact setIf index flag value session
  | setIfSafe index flag value => exact safely index (setIf index flag value)
  | setNull index =>
    exact safely index fun session => Edit.executes_of_keeps ((Edit.silentWrites session).putValid index false)
  | setHolder index holder => exact set index holder.value session
  | setHolderSafe index holder => exact safely index (set index holder.value)
  | setCell index cell =>
    have silent := refuse cell (setIf index cell.flag cell.value session)
    rw [ite_self] at silent
    exact silent
  | setCellSafe index cell => exact refuse cell (safely index (setIf index cell.flag cell.value))
  | setTruncated index number => exact set index _ session
  | setTruncatedSafe index number => exact safely index (set index _)
  | setEncoded index code => exact safely index (set index _)

theorem Edit.copyFromSafe_executes (other : Column n kind) (source target : Nat) {session : Session n kind} :
    Executes forced (copyFromSafe other source target) session (reserving (target + 1) session) :=
  (reserve_executes (target + 1) session).bind_silent fun _ between =>
    executes_of_keeps ((silentWrites between).copyFrom other source target)

/-- The charges of the column's blocks to its own account may be forced, that of the validity bitmap
after that of the values. -/
structure Session.Movable (forced : Forcing n) (session : Session n kind) : Prop where
  values : session.column.values.account ≠ session.column.account →
    forced session.ledger.accounts session.column.account session.column.values.size
  validity : ∀ {moved between},
    session.column.values.moveTo session.column.account session.ledger = .ok moved between →
      session.column.validity.account ≠ session.column.account →
        forced between.accounts session.column.account session.column.validity.size

/-- The charges of a transfer may be forced, once the receiving column has given its blocks back. -/
def Exchange.Movable (forced : Forcing n) (exchange : Exchange n kind) : Prop :=
  ∀ {notice cleared}, Edit.clear ⟨exchange.target, exchange.ledger.note notice⟩ = .ok () cleared →
    Session.Movable forced ⟨cleared.column.holding exchange.source, cleared.ledger⟩

theorem Edit.chargeBlocks_executes {session : Session n kind} (movable : session.Movable forced) :
    Executes forced chargeBlocks session (session.column.moved session.column.account) := by
  refine Edit.ends_chargeBlocks (fun _ _ leads => leads) ?_
  have first : Executes forced (session.column.values.moveTo _) session.ledger _ :=
    Block.moveTo_executes movable.values
  refine ends_of (fun moved between ran => ?_) fun _ _ ran => ?_
  · exact (Block.moveTo_executes (movable.validity ran)).after (first.of_ok ran)
  · exact .inl ((Block.moveTo_stops _ _ _).of_error ran)

namespace Exchange

theorem transfer_executes {exchange : Exchange n kind} (movable : exchange.Movable forced) :
    Executes forced transfer exchange (exchange.source.transferred exchange.target) := by
  refine ends_transfer fun notice => ?_
  have first : Executes forced Edit.clear ⟨exchange.target, exchange.ledger.note notice⟩ _ :=
    Edit.clear_executes
  refine ends_of (fun _ cleared ran => ?_) fun _ _ ran => .inl ((Edit.clear_ends _).of_error ran)
  have home : cleared.column.account = exchange.target.account := by
    rw [(Edit.clear_ends _).of_ok ran]
    rfl
  have start : Operation.Leads forced exchange.target.returned exchange.ledger.accounts
      cleared.ledger.accounts := first.of_ok ran
  have second := (Edit.chargeBlocks_executes (movable ran)).after start
  refine (second.and (Edit.chargeBlocks_ends _)).mono ?_ fun _ _ stopped => .inl stopped.2
  rintro _ charged ⟨leads, _⟩
  change Operation.Leads forced (exchange.target.returned ++
    exchange.source.moved cleared.column.account) _ _ at leads
  rw [home] at leads
  exact Edit.clear_executes.after leads

end Exchange

end Columnar
