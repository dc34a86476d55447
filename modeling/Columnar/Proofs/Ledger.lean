import Columnar.Ledger
import Columnar.Proofs.Contract

namespace Columnar

/-- Memory was refused, with an error that says so. -/
def Failure.Exhausted (failure : Failure) : Prop :=
  ∃ requested limit, failure = .error (.capacityExhausted requested limit)

instance (failure : Failure) : Decidable failure.Exhausted :=
  match failure with
  | .error (.capacityExhausted requested limit) => isTrue ⟨requested, limit, rfl⟩
  | .error (.nullRead _) | .error (.typeMismatch _ _) | .error (.negativeFlag _)
  | .error (.splitRange _ _ _) | .error (.outOfBound _ _) | .breach =>
    isFalse fun ⟨_, _, same⟩ => by simp at same

namespace Account

/-- With the amount the charge stays a word and within the limit. -/
def Accepts (account : Account) (amount : Nat) : Prop :=
  account.allocated + amount < Word.size ∧ account.allocated + amount ≤ account.limit

instance (account : Account) (amount : Nat) : Decidable (account.Accepts amount) :=
  inferInstanceAs (Decidable (_ ∧ _))

def charged (account : Account) (amount : Nat) : Account :=
  { account with
    allocated := account.allocated + amount
    peak := Nat.max account.peak (account.allocated + amount) }

theorem charge?_eq (account : Account) (amount : Nat) :
    account.charge? amount = if account.Accepts amount then some (account.charged amount) else none :=
  rfl

theorem allocated_discharge_charged (account : Account) (amount returned : Nat) :
    ((account.charged amount).discharge returned).allocated =
      Word.wrapSub (account.allocated + amount) returned := rfl

theorem limit_discharge_charged (account : Account) (amount returned : Nat) :
    ((account.charged amount).discharge returned).limit = account.limit := by
  rw [discharge, charged]

/-- What an accepting account gives back after the charge, it accepts again. -/
theorem Accepts.again {account : Account} {amount returned further : Nat}
    (accepts : account.Accepts amount) (enough : returned ≤ account.allocated + amount)
    (less : further ≤ returned) : ((account.charged amount).discharge returned).Accepts further := by
  obtain ⟨word, within⟩ := accepts
  have total : account.allocated + amount - returned + further ≤ account.allocated + amount := by
    omega
  rw [Accepts, allocated_discharge_charged, limit_discharge_charged, Word.wrapSub_eq word enough]
  exact ⟨total.trans_lt word, total.trans within⟩

/-- A forced charge that stays a word is a charge like any other. -/
theorem force_eq {account : Account} {amount : Nat} (bounded : account.allocated + amount < Word.size) :
    account.force amount = account.charged amount := by
  rw [force, charged, Word.wrapAdd_eq bounded, Word.clampAdd_eq bounded]

theorem accepts_charged {account : Account} {amount further : Nat} :
    (account.charged amount).Accepts further ↔ account.Accepts (amount + further) := by
  rw [Accepts, Accepts, charged, Nat.add_assoc]

theorem Accepts.mono {account : Account} {amount fewer : Nat} (accepts : account.Accepts amount)
    (less : fewer ≤ amount) : account.Accepts fewer :=
  have total := Nat.add_le_add_left less account.allocated
  ⟨total.trans_lt accepts.1, total.trans accepts.2⟩

end Account

namespace Ledger

open Columnar.Action

variable {n : Nat} {ledger : Ledger n} {id : Fin n} {amount : Nat}

def allocated (ledger : Ledger n) : Fin n → Nat := fun id => (ledger.account id).allocated

/-- Every account's charge is a word. -/
def InRange (ledger : Ledger n) : Prop := ∀ id, ledger.allocated id < Word.size

theorem allocated_put (ledger : Ledger n) (id : Fin n) (account : Account) :
    (ledger.put id account).allocated = Function.update ledger.allocated id account.allocated := by
  funext other
  by_cases same : other = id
  · subst same
    rw [allocated, account_put_self, Function.update_self]
  · rw [allocated, account_put_of_ne _ (Ne.symm same), Function.update_of_ne same, allocated]

theorem allocated_ofLimits (limits : Vector Nat n) : (ofLimits limits).allocated = 0 := by
  funext id
  simp [allocated, account, ofLimits]

theorem update_eq_add (charges : Fin n → Nat) (id : Fin n) (amount : Nat) :
    Function.update charges id (charges id + amount) = charges + Pi.single id amount := by
  funext other
  by_cases same : other = id
  · subst same
    simp
  · simp [same]

theorem InRange.congr {after : Ledger n} (inRange : ledger.InRange)
    (same : after.allocated = ledger.allocated) : after.InRange := by
  intro id
  rw [same]
  exact inRange id

theorem InRange.of_charge {after : Ledger n} (inRange : ledger.InRange)
    (charged : after.allocated = ledger.allocated + Pi.single id amount)
    (bounded : after.allocated id < Word.size) : after.InRange := by
  intro other
  by_cases same : other = id
  · exact same ▸ bounded
  · rw [charged, Pi.add_apply, Pi.single_eq_of_ne same, Nat.add_zero]
    exact inRange other

theorem InRange.of_discharge {after : Ledger n} {charges : Fin n → Nat} (inRange : ledger.InRange)
    (discharged : ledger.allocated = after.allocated + charges) : after.InRange := by
  intro other
  have before := inRange other
  rw [discharged, Pi.add_apply] at before
  exact Nat.lt_of_le_of_lt (Nat.le_add_right _ _) before

/-- A charge is made exactly where the account accepts it; a refusal leaves all accounts. -/
theorem acquire_exact (ledger : Ledger n) (id : Fin n) (amount : Nat) :
    Ends (acquire id amount) ledger
      (fun _ after => (ledger.account id).Accepts amount ∧
        after = ledger.put id ((ledger.account id).charged amount))
      (fun failure after => failure = .error (.capacityExhausted amount (ledger.account id).limit) ∧
        ¬ (ledger.account id).Accepts amount ∧ after.accounts = ledger.accounts) := by
  by_cases accepts : (ledger.account id).Accepts amount
  · simp only [Ends, acquire, Account.charge?_eq, if_pos accepts, and_true]
    exact accepts
  · simp only [Ends, acquire, Account.charge?_eq, if_neg accepts, true_and]
    exact ⟨accepts, rfl⟩

theorem allocated_congr {after : Ledger n} (same : after.accounts = ledger.accounts) :
    after.allocated = ledger.allocated := by
  funext id
  rw [allocated, allocated, account, account, same]

theorem allocated_charged (ledger : Ledger n) (id : Fin n) (amount : Nat) :
    (ledger.put id ((ledger.account id).charged amount)).allocated =
      ledger.allocated + Pi.single id amount := by
  rw [allocated_put]
  exact update_eq_add ledger.allocated id amount

/-- An amount is given back exactly where the account holds it, and taken off in any case. -/
theorem release_exact (ledger : Ledger n) (id : Fin n) (amount : Nat) :
    Ends (release id amount) ledger
      (fun _ after => amount ≤ (ledger.account id).allocated ∧
        after = ledger.put id ((ledger.account id).discharge amount))
      (fun failure after => failure = .overdrawn ∧ (ledger.account id).allocated < amount ∧
        after = ledger.put id ((ledger.account id).discharge amount)) := by
  by_cases enough : amount ≤ (ledger.account id).allocated
  · simp only [Ends, release, if_pos enough, and_true]
    exact enough
  · simp only [Ends, release, if_neg enough, and_true, true_and]
    exact Nat.lt_of_not_le enough

theorem release_ends (enough : amount ≤ ledger.allocated id)
    (bounded : ledger.allocated id < Word.size) :
    Ends (release id amount) ledger
      (fun _ after => ledger.allocated = after.allocated + Pi.single id amount)
      (fun _ _ => False) := by
  have left : Word.wrapSub (ledger.allocated id) amount = ledger.allocated id - amount :=
    Word.wrapSub_eq bounded enough
  have held : amount ≤ (ledger.account id).allocated := enough
  simp only [Ends, release, if_pos held, allocated_put, Account.discharge]
  have total : ledger.allocated id = Word.wrapSub (ledger.allocated id) amount + amount := by omega
  funext other
  by_cases same : other = id
  · subst same
    rw [Pi.add_apply, Function.update_self, Pi.single_eq_same]
    exact total
  · rw [Pi.add_apply, Function.update_of_ne same, Pi.single_eq_of_ne same, Nat.add_zero]

theorem release_stops (ledger : Ledger n) (id : Fin n) (amount : Nat) :
    Ends (release id amount) ledger (fun _ _ => True) (fun failure _ => failure = .overdrawn) :=
  (release_exact ledger id amount).mono (fun _ _ _ => trivial) fun _ _ stopped => stopped.1

/-- Where there is room for it, a forced charge is made like any other, and the answer is right. -/
theorem forceAcquire_exact (bounded : ledger.allocated id + amount < Word.size) :
    Ends (forceAcquire id amount) ledger
      (fun fits after => after = ledger.put id ((ledger.account id).charged amount) ∧
        (fits = true ↔ ledger.allocated id + amount ≤ (ledger.account id).limit))
      (fun _ _ => False) := by
  have total : Word.clampAdd (ledger.account id).allocated amount = ledger.allocated id + amount :=
    Word.clampAdd_eq bounded
  refine ⟨congrArg (ledger.put id) (Account.force_eq bounded), ?_⟩
  rw [Account.admits, total, decide_eq_true_iff]

theorem forceAcquire_ends (bounded : ledger.allocated id + amount < Word.size) :
    Ends (forceAcquire id amount) ledger
      (fun _ after => after.allocated = ledger.allocated + Pi.single id amount ∧
        after.allocated id < Word.size)
      (fun _ _ => False) := by
  refine (forceAcquire_exact bounded).mono_total ?_
  rintro _ after ⟨rfl, _⟩
  refine ⟨allocated_charged ledger id amount, ?_⟩
  rw [allocated_charged, Pi.add_apply, Pi.single_eq_same]
  exact bounded

/-! ### Peaks -/

def peaks (ledger : Ledger n) : Fin n → Nat := fun id => (ledger.account id).peak

/-- The account's peak is a former one, or what is charged to it now where that is more. -/
def Peaked (ledger : Ledger n) (id : Fin n) (former : Nat) : Prop :=
  ledger.peaks id = max former (ledger.allocated id)

theorem Peaked.congr {after : Ledger n} {former : Nat} (peaked : ledger.Peaked id former)
    (same : after.account id = ledger.account id) : after.Peaked id former := by
  rw [Peaked, peaks, allocated, same]
  exact peaked

theorem release_peaks (ledger : Ledger n) (id : Fin n) (amount : Nat) :
    Ends (release id amount) ledger (fun _ after => after.peaks = ledger.peaks)
      (fun failure _ => failure = .overdrawn) := by
  refine (release_exact ledger id amount).mono ?_ fun _ _ stopped => stopped.1
  rintro _ after ⟨_, rfl⟩
  funext other
  by_cases same : id = other
  · subst same
    rw [peaks, account_put_self, Account.discharge, peaks]
  · rw [peaks, account_put_of_ne _ same, peaks]

theorem forceAcquire_peaked (bounded : ledger.allocated id + amount < Word.size) :
    Ends (forceAcquire id amount) ledger
      (fun _ after => ∀ former, ledger.Peaked id former → after.Peaked id former)
      (fun _ _ => False) := by
  refine (forceAcquire_exact bounded).mono_total ?_
  rintro _ after ⟨rfl, _⟩ former peaked
  have raised : max (ledger.peaks id) (ledger.allocated id + amount) =
      max former (ledger.allocated id + amount) := by
    rw [peaked, max_assoc, max_eq_right (Nat.le_add_right _ _)]
  rw [Peaked, peaks, allocated, account_put_self]
  exact raised

end Ledger

end Columnar
