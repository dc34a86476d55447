import Columnar.Error
import Columnar.Notice
import Columnar.Word

/-!
Ledgers of memory. Each account has a limit and knows how many bytes are charged to it now and
at most so far. A charge beyond the limit is refused, unless it is forced. Accounts are known by
their place in the ledger, and whoever shares a place shares the account.
-/

namespace Columnar

structure Account where
  limit : Nat
  allocated : Nat := 0
  peak : Nat := 0
  deriving DecidableEq

namespace Account

def unlimited : Account := { limit := Word.max }

/-- The account charged with more bytes, where its limit admits them. -/
def charge? (account : Account) (amount : Nat) : Option Account :=
  let total := account.allocated + amount
  if total < Word.size ∧ total ≤ account.limit then
    some { account with allocated := total, peak := Nat.max account.peak total }
  else
    none

/-- The account charged with more bytes whatever its limit. -/
def force (account : Account) (amount : Nat) : Account :=
  { account with
    allocated := Word.wrapAdd account.allocated amount
    peak := Nat.max account.peak (Word.clampAdd account.allocated amount) }

/-- The limit admits what is charged together with more bytes. -/
def admits (account : Account) (amount : Nat) : Bool :=
  Word.clampAdd account.allocated amount ≤ account.limit

def discharge (account : Account) (amount : Nat) : Account :=
  { account with allocated := Word.wrapSub account.allocated amount }

end Account

/-- The accounts in use and the notices given so far, the latest first. -/
structure Ledger (n : Nat) where
  accounts : Vector Account n
  journal : List Notice := []

/-- An action on a ledger. What it did before it failed stays done. -/
abbrev Accounting (n : Nat) := EStateM Failure (Ledger n)

namespace Ledger

variable {n : Nat}

def ofLimits (limits : Vector Nat n) : Ledger n :=
  { accounts := limits.map fun limit => { limit } }

def account (ledger : Ledger n) (id : Fin n) : Account := ledger.accounts[id]

def put (ledger : Ledger n) (id : Fin n) (account : Account) : Ledger n :=
  { ledger with accounts := ledger.accounts.set id account }

def note (ledger : Ledger n) (notice : Notice) : Ledger n :=
  { ledger with journal := notice :: ledger.journal }

/-- Charges an account, or gives notice that its limit forbids it. -/
def acquire (id : Fin n) (amount : Nat) : Accounting n Unit := fun ledger =>
  let account := ledger.account id
  match account.charge? amount with
  | some charged => .ok () (ledger.put id charged)
  | none =>
    .error (.error (.capacityExhausted amount account.limit))
      (ledger.note (.requestRefused amount account.allocated account.limit))

/-- Charges an account whatever its limit, and tells whether it is still within it. -/
def forceAcquire (id : Fin n) (amount : Nat) : Accounting n Bool := fun ledger =>
  let account := ledger.account id
  .ok (account.admits amount) (ledger.put id (account.force amount))

/-- Gives back bytes, which must have been charged. -/
def release (id : Fin n) (amount : Nat) : Accounting n Unit := fun ledger =>
  let account := ledger.account id
  let discharged := ledger.put id (account.discharge amount)
  if amount ≤ account.allocated then .ok () discharged else .error .overdrawn discharged

theorem account_put (ledger : Ledger n) (id other : Fin n) (account : Account) :
    (ledger.put id account).account other = if id = other then account else ledger.account other := by
  by_cases same : id = other
  · subst same
    simp [put, Ledger.account]
  · have apart : id.val ≠ other.val := fun equal => same (Fin.ext equal)
    simp [put, Ledger.account, same, Vector.getElem_set_ne, apart]

theorem account_put_self (ledger : Ledger n) (id : Fin n) (account : Account) :
    (ledger.put id account).account id = account := by
  rw [account_put, if_pos rfl]

theorem account_put_of_ne (ledger : Ledger n) {id other : Fin n} (apart : id ≠ other)
    (account : Account) : (ledger.put id account).account other = ledger.account other := by
  rw [account_put, if_neg apart]

@[simp] theorem account_note (ledger : Ledger n) (notice : Notice) (id : Fin n) :
    (ledger.note notice).account id = ledger.account id := rfl

end Ledger

end Columnar
