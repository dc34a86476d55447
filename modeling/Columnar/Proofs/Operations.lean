import Columnar.Proofs.Block

/-! The operations on accounts that an action executes, as a list that is computed beside it. -/

namespace Columnar

open Columnar.Action

variable {n : Nat} {ε σ α β : Type}

/-- A change of one account. -/
inductive Operation (n : Nat) where
  | charge (id : Fin n) (amount : Nat)
  | force (id : Fin n) (amount : Nat)
  | discharge (id : Fin n) (amount : Nat)
  deriving DecidableEq

/-- Which charges may be forced, of an account and by an amount. -/
abbrev Forcing (n : Nat) := Vector Account n → Fin n → Nat → Prop

namespace Operation

variable {forced : Forcing n}

/-- The accounts after an operation. A charge that is refused leaves them. -/
def apply (accounts : Vector Account n) : Operation n → Vector Account n
  | charge id amount =>
    accounts.set id.val (((accounts.get id).charge? amount).getD (accounts.get id)) id.isLt
  | force id amount => accounts.set id.val ((accounts.get id).force amount) id.isLt
  | discharge id amount => accounts.set id.val ((accounts.get id).discharge amount) id.isLt

/-- No more is given back than is charged, and a charge is forced only where it may be. -/
def Lawful (forced : Forcing n) (accounts : Vector Account n) : Operation n → Prop
  | charge _ _ => True
  | force id amount => forced accounts id amount
  | discharge id amount => amount ≤ (accounts.get id).allocated

/-- The lawful operations lead from the first accounts to the last. -/
def Leads (forced : Forcing n) : List (Operation n) → Vector Account n → Vector Account n → Prop
  | [], first, last => last = first
  | operation :: rest, first, last =>
    operation.Lawful forced first ∧ Leads forced rest (operation.apply first) last

namespace Leads

variable {operations further : List (Operation n)} {first middle last : Vector Account n}

theorem append (before : Leads forced operations first middle) (after : Leads forced further middle last) :
    Leads forced (operations ++ further) first last := by
  induction operations generalizing first with
  | nil => exact before ▸ after
  | cons operation rest ih => exact ⟨before.1, ih before.2⟩

theorem of_append (leads : Leads forced (operations ++ further) first last) :
    ∃ middle, Leads forced operations first middle ∧ Leads forced further middle last := by
  induction operations generalizing first with
  | nil => exact ⟨first, rfl, leads⟩
  | cons operation rest ih =>
    obtain ⟨middle, before, after⟩ := ih leads.2
    exact ⟨middle, ⟨leads.1, before⟩, after⟩

theorem eq_foldl (leads : Leads forced operations first last) : last = operations.foldl apply first := by
  induction operations generalizing first with
  | nil => exact leads
  | cons operation rest ih => exact ih leads.2

theorem earlier (leads : Leads forced operations first last) {earlier : List (Operation n)}
    (start : earlier <+: operations) : Leads forced earlier first (earlier.foldl apply first) := by
  obtain ⟨further, rfl⟩ := start
  obtain ⟨middle, before, _⟩ := leads.of_append
  exact before.eq_foldl ▸ before

end Leads

end Operation

open Operation

/-- What is done where an action ends well. -/
def following (action : EStateM ε σ α) (before : σ) (next : α → σ → List β) : List β :=
  match action before with
  | .ok result after => next result after
  | .error _ _ => []

/-- What is done where an action stops. -/
def stopping (action : EStateM ε σ α) (before : σ) (handler : ε → σ → List β) : List β :=
  match action before with
  | .ok _ _ => []
  | .error failure after => handler failure after

/-- States that carry a ledger, and how an action on them tells that an account was overdrawn. -/
class Accountable (σ : Type) (ε : outParam Type) (n : outParam Nat) where
  ledger : σ → Ledger n
  overdrawn : ε

instance : Accountable (Ledger n) Failure n := ⟨id, .overdrawn⟩

section

variable [Accountable σ ε n] {forced : Forcing n} {action : EStateM ε σ α} {before : σ}
variable {operations further : List (Operation n)}

def accounts (state : σ) : Vector Account n := (Accountable.ledger state).accounts

/-- However the action ends, the operations have led to its accounts, unless one was overdrawn. -/
def Executes (forced : Forcing n) (action : EStateM ε σ α) (before : σ)
    (operations : List (Operation n)) : Prop :=
  Ends action before (fun _ after => Leads forced operations (accounts before) (accounts after))
    fun failure after => failure = Accountable.overdrawn σ ∨
      Leads forced operations (accounts before) (accounts after)

namespace Executes

theorem nil (leaves : Ends action before (fun _ after => accounts after = accounts before)
    fun _ after => accounts after = accounts before) : Executes forced action before [] :=
  leaves.mono_stop fun _ _ => .inr

theorem after {first : Vector Account n} (second : Executes forced action before further)
    (start : Leads forced operations first (accounts before)) :
    Ends action before (fun _ after => Leads forced (operations ++ further) first (accounts after))
      fun failure after => failure = Accountable.overdrawn σ ∨
        Leads forced (operations ++ further) first (accounts after) :=
  second.mono (fun _ _ => start.append) fun _ _ => Or.imp_right start.append

/-- The first action may stop only where it overdraws, or where nothing is executed afterwards. -/
theorem andThen {next : α → EStateM ε σ β} (first : Executes forced action before operations)
    (second : ∀ result between, action before = .ok result between →
      Executes forced (next result) between further)
    (stopped : ∀ failure between, action before = .error failure between →
      failure = Accountable.overdrawn σ ∨ further = []) :
    Executes forced (action >>= next) before (operations ++ further) := by
  refine ends_bind.mpr (ends_of ?_ ?_)
  · intro result between ran
    exact (second result between ran).after (first.of_ok ran)
  · intro failure between ran
    rcases stopped failure between ran with overdrawn | rfl
    · exact .inl overdrawn
    · rw [List.append_nil]
      exact first.of_error ran

theorem bind {next : α → EStateM ε σ β} {rest : α → σ → List (Operation n)}
    (first : Executes forced action before operations)
    (second : ∀ result between, action before = .ok result between →
      Executes forced (next result) between (rest result between)) :
    Executes forced (action >>= next) before (operations ++ following action before rest) := by
  refine first.andThen ?_ ?_
  · intro result between ran
    rw [following, ran]
    exact second result between ran
  · intro failure between ran
    rw [following, ran]
    exact .inr rfl

theorem bind_total {next : α → EStateM ε σ β} (first : Executes forced action before operations)
    (stops : Ends action before (fun _ _ => True) fun failure _ => failure = Accountable.overdrawn σ)
    (second : ∀ result between, action before = .ok result between →
      Executes forced (next result) between further) :
    Executes forced (action >>= next) before (operations ++ further) :=
  first.andThen second fun _ _ ran => .inl (stops.of_error ran)

theorem bind_silent {next : α → EStateM ε σ β} (first : Executes forced action before operations)
    (second : ∀ result between, Executes forced (next result) between []) :
    Executes forced (action >>= next) before operations := by
  rw [← List.append_nil operations]
  exact first.andThen (fun result between _ => second result between) fun _ _ _ => .inr rfl

theorem bind_pure {result : α → β} (first : Executes forced action before operations) :
    Executes forced (action >>= fun value => pure (result value)) before operations :=
  first.bind_silent fun _ _ => .nil rfl

end Executes

end

namespace Ledger

variable {ledger : Ledger n} {forced : Forcing n}

theorem acquire_executes (id : Fin n) (amount : Nat) :
    Executes forced (acquire id amount) ledger [.charge id amount] := by
  refine (acquire_exact ledger id amount).mono ?_ ?_
  · rintro _ after ⟨accepts, rfl⟩
    refine ⟨trivial, ?_⟩
    change _ = ledger.accounts.set id (((ledger.account id).charge? amount).getD (ledger.account id))
    rw [Account.charge?_eq, if_pos accepts]
    rfl
  · rintro _ after ⟨_, rejects, same⟩
    refine .inr ⟨trivial, ?_⟩
    change after.accounts =
      ledger.accounts.set id (((ledger.account id).charge? amount).getD (ledger.account id))
    rw [Account.charge?_eq, if_neg rejects, same]
    exact (Vector.set_getElem_self _).symm

theorem forceAcquire_executes {id : Fin n} {amount : Nat} (allowed : forced ledger.accounts id amount) :
    Executes forced (forceAcquire id amount) ledger [.force id amount] := ⟨allowed, rfl⟩

end Ledger

namespace Block

variable {ledger : Ledger n} {forced : Forcing n}

def requested (account : Fin n) (size : Nat) : List (Operation n) :=
  if Word.size ≤ size + (grain - 1) then [] else [.charge account (roundUp size)]

def returned (block : Block n) : List (Operation n) := [.discharge block.account block.size]

/-- The operations of a request for two blocks or none. -/
def requestedBoth (account : Fin n) (first second : Nat) (ledger : Ledger n) : List (Operation n) :=
  requested account first ++ following (allocate account first) ledger fun left between =>
    requested account second ++ stopping (allocate account second) between fun _ _ => left.returned

/-- The operations of making room in a block, which is given back once a larger one is there. -/
def grown (block : Block n) (size : Nat) (ledger : Ledger n) : List (Operation n) :=
  if size ≤ block.size then []
  else requested block.account size ++ following (block.enlarge size) ledger fun _ _ => block.returned

def moved (block : Block n) (target : Fin n) : List (Operation n) :=
  if block.account = target then [] else [.force target block.size, .discharge block.account block.size]

theorem allocate_executes (account : Fin n) (size : Nat) :
    Executes forced (allocate account size) ledger (requested account size) := by
  by_cases huge : Word.size ≤ size + (grain - 1)
  · rw [allocate, requested, if_pos huge, if_pos huge]
    exact .nil rfl
  · rw [allocate, requested, if_neg huge, if_neg huge]
    refine (Ledger.acquire_executes account (roundUp size)).bind_silent fun _ between => ?_
    split
    · exact .nil rfl
    · exact .nil rfl

theorem release_after {operations : List (Operation n)} {first : Vector Account n}
    (start : Leads forced operations first ledger.accounts) (block : Block n) :
    Ends block.release ledger
      (fun _ after => Leads forced (operations ++ block.returned) first after.accounts)
      (fun failure _ => failure = .overdrawn) := by
  refine (Ledger.release_exact ledger block.account block.size).mono ?_ fun _ _ => And.left
  rintro _ after ⟨enough, rfl⟩
  exact start.append ⟨enough, rfl⟩

theorem release_leads (forced : Forcing n) (block : Block n) (ledger : Ledger n) :
    Ends block.release ledger (fun _ after => Leads forced block.returned ledger.accounts after.accounts)
      (fun failure _ => failure = .overdrawn) := by
  have start : Leads forced [] ledger.accounts ledger.accounts := rfl
  exact release_after start block

theorem release_executes (block : Block n) : Executes forced block.release ledger block.returned :=
  (release_leads forced block ledger).mono_stop fun _ _ => .inl

theorem enlarge_executes (block : Block n) (size : Nat) :
    Executes forced (block.enlarge size) ledger (requested block.account size) :=
  (allocate_executes block.account size).bind_pure

theorem allocateBoth_executes (account : Fin n) (first second : Nat) :
    Executes forced (allocateBoth account first second) ledger
      (requestedBoth account first second ledger) := by
  refine (allocate_executes account first).bind fun left between _ => ?_
  refine Executes.bind_pure ?_
  have second : Executes forced (allocate account second) between (requested account second) :=
    allocate_executes account second
  refine ends_tryCatch.mpr (ends_of ?_ ?_)
  · intro right after ran
    rw [stopping, ran, List.append_nil]
    exact second.of_ok ran
  · intro failure after ran
    have stopped := (allocate_exact between account _).of_error ran
    rw [stopping, ran]
    rcases second.of_error ran with rfl | start
    · exact absurd rfl stopped.denied.refused.ne_overdrawn
    · exact ends_bind.mpr ((release_after start left).mono (fun _ _ => .inr) fun _ _ => .inl)

theorem moveTo_executes {block : Block n} {target : Fin n}
    (allowed : block.account ≠ target → forced ledger.accounts target block.size) :
    Executes forced (block.moveTo target) ledger (block.moved target) := by
  by_cases home : block.account = target
  · rw [moveTo, moved, if_pos home, if_pos home]
    exact .nil rfl
  · rw [moveTo, moved, if_neg home, if_neg home]
    refine (Ledger.forceAcquire_executes (allowed home)).bind_total trivial fun fits between _ => ?_
    exact (release_executes block).bind_pure

end Block

end Columnar
