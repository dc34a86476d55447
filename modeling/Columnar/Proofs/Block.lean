import Columnar.Block
import Columnar.Proofs.Bytes
import Columnar.Proofs.Ledger

namespace Columnar.Block

open Columnar.Action

variable {n : Nat} {block : Block n} {ledger : Ledger n} {account : Fin n} {size : Nat}

/-- What the block costs each account. -/
def charge (block : Block n) : Fin n → Nat := Pi.single block.account block.size

@[simp] theorem charge_empty (account : Fin n) : (empty account).charge = 0 :=
  Pi.single_zero account

theorem charge_congr {other : Block n} (home : other.account = block.account)
    (same : other.size = block.size) : other.charge = block.charge := by
  rw [charge, charge, home, same]

/-! ### Rounding up -/

theorem grain_dvd_roundUp (size : Nat) : grain ∣ roundUp size := Nat.dvd_mul_left _ _

theorem roundUp_lt (size : Nat) : roundUp size < size + grain := by
  simp only [roundUp, grain]
  omega

/-- Rounding up gives the least whole number of grains. -/
theorem roundUp_le {bound : Nat} (within : size ≤ bound) (whole : grain ∣ bound) :
    roundUp size ≤ bound := by
  obtain ⟨grains, rfl⟩ := whole
  simp only [roundUp, grain] at within ⊢
  omega

theorem roundUp_mono {larger : Nat} (le : size ≤ larger) : roundUp size ≤ roundUp larger :=
  roundUp_le (le.trans (le_roundUp larger)) (grain_dvd_roundUp larger)

theorem roundUp_eq (whole : grain ∣ size) : roundUp size = size :=
  Nat.le_antisymm (roundUp_le le_rfl whole) (le_roundUp size)

/-- A size that is no word after rounding up is accepted by no account. -/
theorem not_accepts_of_huge (huge : Word.size ≤ size + (grain - 1)) (holder : Account) :
    ¬ holder.Accepts (roundUp size) := by
  intro accepts
  have word := accepts.1
  simp only [roundUp, grain, Word.size] at huge word
  omega

/-! ### Requests -/

/-- Memory was not to be had: it was refused, exactly where the account does not accept it, and
leaves all accounts as they were; or it was accepted though it is too large, and stays charged. -/
def Declined (before : Ledger n) (account : Fin n) (size : Nat) (failure : Failure)
    (after : Ledger n) : Prop :=
  let requested := if Word.size ≤ size + (grain - 1) then size else roundUp size
  failure = .error (.capacityExhausted requested (before.account account).limit) ∧
      ¬ (before.account account).Accepts (roundUp size) ∧ after.accounts = before.accounts ∨
    failure = .tooLarge ∧ Word.largestRequest < roundUp size ∧
      (before.account account).Accepts (roundUp size) ∧
      after = before.put account ((before.account account).charged (roundUp size))

/-- A request is granted exactly where the account accepts it, unless it is too large. -/
theorem allocate_exact (ledger : Ledger n) (account : Fin n) (size : Nat) :
    Ends (allocate account size) ledger
      (fun block after => block = ⟨Bytes.zeros (roundUp size), account⟩ ∧
        roundUp size ≤ Word.largestRequest ∧ (ledger.account account).Accepts (roundUp size) ∧
        after = ledger.put account ((ledger.account account).charged (roundUp size)))
      (Declined ledger account size) := by
  by_cases huge : Word.size ≤ size + (grain - 1)
  · rw [allocate, if_pos huge]
    refine .inl ⟨?_, not_accepts_of_huge huge _, rfl⟩
    rw [if_pos huge]
  · rw [allocate, if_neg huge]
    refine ends_bind.mpr ((Ledger.acquire_exact ledger account (roundUp size)).mono ?_ ?_)
    · intro _ after reached
      obtain ⟨accepts, charged⟩ := reached
      by_cases large : Word.largestRequest < roundUp size
      · rw [if_pos large]
        exact .inr ⟨rfl, large, accepts, charged⟩
      · rw [if_neg large]
        exact ⟨rfl, Nat.le_of_not_lt large, accepts, charged⟩
    · intro failure after refused
      rw [Declined, if_neg huge]
      exact .inl refused

/-- Memory was not to be had: either it was refused and nothing is charged for it, or it was
accepted though it is too large, and stays charged. -/
def Denied (before : Ledger n) (account : Fin n) (size : Nat) (failure : Failure)
    (after : Ledger n) : Prop :=
  failure.Exhausted ∧ after.allocated = before.allocated ∨
    failure = .tooLarge ∧ after.allocated = before.allocated + Pi.single account (roundUp size) ∧
      after.allocated account < Word.size

theorem charged_of_accepts (accepts : (ledger.account account).Accepts size) :
    let after := ledger.put account ((ledger.account account).charged size)
    after.allocated = ledger.allocated + Pi.single account size ∧
      after.allocated account < Word.size := by
  have charged := Ledger.allocated_charged ledger account size
  refine ⟨charged, ?_⟩
  rw [charged, Pi.add_apply, Pi.single_eq_same]
  exact accepts.1

theorem Declined.denied {failure : Failure} {after : Ledger n}
    (declined : Declined ledger account size failure after) :
    Denied ledger account size failure after := by
  rcases declined with ⟨rfl, _, same⟩ | ⟨rfl, _, accepts, rfl⟩
  · exact .inl ⟨⟨_, _, rfl⟩, Ledger.allocated_congr same⟩
  · exact .inr ⟨rfl, charged_of_accepts accepts⟩

theorem Declined.stops {failure : Failure} {after : Ledger n}
    (declined : Declined ledger account size failure after) : failure.Exhausted ∨ failure = .tooLarge :=
  declined.imp (fun refused => ⟨_, _, refused.1⟩) And.left

theorem allocate_ends (ledger : Ledger n) (account : Fin n) (size : Nat) :
    Ends (allocate account size) ledger
      (fun block after => block = ⟨Bytes.zeros (roundUp size), account⟩ ∧
        roundUp size ≤ Word.largestRequest ∧
        after.allocated = ledger.allocated + Pi.single account (roundUp size) ∧
        after.allocated account < Word.size)
      (Denied ledger account size) := by
  refine (allocate_exact ledger account size).mono ?_ fun _ _ => Declined.denied
  rintro block after ⟨rfl, small, accepts, rfl⟩
  exact ⟨rfl, small, charged_of_accepts accepts⟩

theorem release_ends (enough : block.charge ≤ ledger.allocated) (inRange : ledger.InRange) :
    Ends block.release ledger (fun _ after => ledger.allocated = after.allocated + block.charge)
      (fun _ _ => False) := by
  have held := enough block.account
  rw [charge, Pi.single_eq_same] at held
  exact Ledger.release_ends held (inRange block.account)

theorem release_leaves {charges : Fin n → Nat} (charged : ledger.allocated = charges + block.charge)
    (inRange : ledger.InRange) :
    Ends block.release ledger (fun _ after => after.allocated = charges ∧ after.InRange)
      (fun _ _ => False) := by
  have enough : block.charge ≤ ledger.allocated := by
    rw [charged]
    exact le_add_self
  refine (release_ends enough inRange).mono_total ?_
  intro _ after discharged
  refine ⟨?_, inRange.of_discharge discharged⟩
  rw [charged] at discharged
  exact (add_right_cancel discharged).symm

theorem release_stops (block : Block n) (ledger : Ledger n) :
    Ends block.release ledger (fun _ _ => True) (fun failure _ => failure = .overdrawn) :=
  Ledger.release_stops ledger block.account block.size

/-- No memory was had, and nothing is charged for it unless the request was too large. -/
def Refused (before : Ledger n) (failure : Failure) (after : Ledger n) : Prop :=
  failure.Exhausted ∧ after.allocated = before.allocated ∨ failure = .tooLarge

theorem Denied.refused {failure : Failure} {after : Ledger n}
    (denied : Denied ledger account size failure after) : Refused ledger failure after := by
  rcases denied with refused | ⟨large, _, _⟩
  · exact .inl refused
  · exact .inr large

theorem Refused.ne_overdrawn {failure : Failure} {after : Ledger n}
    (refused : Refused ledger failure after) : failure ≠ .overdrawn := by
  rcases refused with ⟨⟨_, _, rfl⟩, _⟩ | rfl
  · simp
  · decide

/-- Where the second of two blocks is denied, the first one is given back. -/
theorem allocateBoth_ends (ledger : Ledger n) (account : Fin n) (first second : Nat) :
    Ends (allocateBoth account first second) ledger
      (fun blocks after =>
        blocks = (⟨Bytes.zeros (roundUp first), account⟩, ⟨Bytes.zeros (roundUp second), account⟩) ∧
        roundUp first ≤ Word.largestRequest ∧ roundUp second ≤ Word.largestRequest ∧
        after.allocated = ledger.allocated +
          (Pi.single account (roundUp first) + Pi.single account (roundUp second)) ∧
        after.allocated account < Word.size)
      (Refused ledger) := by
  refine ends_bind.mpr ((allocate_ends ledger account first).mono ?_ fun _ _ => Denied.refused)
  intro left middle reached
  obtain ⟨rfl, small, charged, bounded⟩ := reached
  refine ends_bind.mpr (ends_tryCatch.mpr ((allocate_ends middle account second).mono ?_ ?_))
  · intro right after reached
    obtain ⟨rfl, fits, added, within⟩ := reached
    refine ⟨rfl, small, fits, ?_, within⟩
    rw [added, charged, add_assoc]
  · intro failure after denied
    have size : (⟨Bytes.zeros (roundUp first), account⟩ : Block n).size = roundUp first :=
      Bytes.size_zeros _
    have held : roundUp first ≤ after.allocated account ∧ after.allocated account < Word.size := by
      rcases denied with ⟨_, same⟩ | ⟨_, same, within⟩
      · rw [same]
        refine ⟨?_, bounded⟩
        simp [charged]
      · refine ⟨?_, within⟩
        simp [same, charged]
        omega
    refine ends_bind.mpr ?_
    rw [release, size]
    refine (Ledger.release_ends held.1 held.2).mono_total ?_
    intro _ last discharged
    rcases denied with ⟨reported, same⟩ | ⟨large, _, _⟩
    · refine .inl ⟨reported, ?_⟩
      rw [same, charged] at discharged
      exact (add_right_cancel discharged).symm
    · exact .inr large

/-- Two blocks are had where the account accepts both together, and refused only where it does not. -/
theorem allocateBoth_accepts (ledger : Ledger n) (account : Fin n) (first second : Nat) :
    Ends (allocateBoth account first second) ledger
      (fun _ _ => (ledger.account account).Accepts (roundUp first + roundUp second))
      (fun failure _ => failure.Exhausted →
        ¬ (ledger.account account).Accepts (roundUp first + roundUp second)) := by
  have rejects {before after : Ledger n} {failure : Failure} {size : Nat}
      (declined : Declined before account size failure after) (exhausted : failure.Exhausted) :
      ¬ (before.account account).Accepts (roundUp size) := by
    rcases declined with ⟨_, refused, _⟩ | ⟨rfl, _⟩
    · exact refused
    · exact absurd exhausted (by decide)
  refine ends_bind.mpr ((allocate_exact ledger account first).mono ?_ ?_)
  · rintro left _ ⟨_, _, _, rfl⟩
    have charged := Ledger.account_put_self ledger account
      ((ledger.account account).charged (roundUp first))
    refine ends_bind.mpr (ends_tryCatch.mpr ((allocate_exact _ account second).mono ?_ ?_))
    · rintro right after ⟨_, _, accepts, _⟩
      rwa [charged, Account.accepts_charged] at accepts
    · intro failure after declined
      refine ends_bind.mpr ((release_stops left after).mono ?_ ?_)
      · intro _ _ _ exhausted
        have refused := rejects declined exhausted
        rwa [charged, Account.accepts_charged] at refused
      · rintro _ _ rfl exhausted
        exact absurd exhausted (by decide)
  · intro failure after declined exhausted accepts
    exact rejects declined exhausted (accepts.mono (Nat.le_add_right _ _))

theorem enlarge_ends (block : Block n) (ledger : Ledger n) (size : Nat) :
    Ends (block.enlarge size) ledger
      (fun larger after => larger = ⟨block.bytes.extendTo (roundUp size), block.account⟩ ∧
        roundUp size ≤ Word.largestRequest ∧
        after.allocated = ledger.allocated + Pi.single block.account (roundUp size) ∧
        after.allocated block.account < Word.size)
      (Refused ledger) := by
  refine ends_bind.mpr ((allocate_ends ledger block.account size).mono ?_ fun _ _ => Denied.refused)
  intro larger after reached
  obtain ⟨rfl, small, charged, bounded⟩ := reached
  exact ⟨by rw [Block.size, Bytes.size_zeros], small, charged, bounded⟩

@[simp] theorem charge_zeros (account : Fin n) (size : Nat) :
    (⟨Bytes.zeros size, account⟩ : Block n).charge = Pi.single account size := by
  rw [charge, Block.size, Bytes.size_zeros]

theorem size_of_enlarged (short : block.size < size) :
    (⟨block.bytes.extendTo (roundUp size), block.account⟩ : Block n).size = roundUp size :=
  Bytes.size_extendTo _ ((Nat.le_of_lt short).trans (le_roundUp size))

/-- A larger block in place of a smaller one moves the charge from one to the other. -/
theorem enlarge_replaces {charges : Fin n → Nat} (short : block.size < size)
    (charged : ledger.allocated = charges + block.charge) (inRange : ledger.InRange) :
    Ends (block.enlarge size) ledger
      (fun larger between => larger.account = block.account ∧ Ends block.release between
        (fun _ after => after.allocated = charges + larger.charge ∧ after.InRange)
        (fun _ _ => False))
      (Refused ledger) := by
  refine (enlarge_ends block ledger size).mono_post ?_
  intro larger between reached
  obtain ⟨rfl, _, added, bounded⟩ := reached
  refine ⟨rfl, ?_⟩
  have total : between.allocated =
      charges + Pi.single block.account (roundUp size) + block.charge := by
    rw [added, charged, add_right_comm]
  rw [charge, size_of_enlarged short]
  exact release_leaves total (inRange.of_charge added bounded)

theorem sum_charge (block : Block n) : ∑ id, block.charge id = block.size := by
  rw [charge, Finset.sum_pi_single', if_pos (Finset.mem_univ _)]

/-- Where all charges together are a word, a block finds room in every other account. -/
theorem room_elsewhere {charges : Fin n → Nat} {target : Fin n}
    (charged : ledger.allocated = charges + block.charge)
    (room : ∑ id, ledger.allocated id < Word.size) (away : block.account ≠ target) :
    ledger.allocated target + block.size < Word.size := by
  have held : block.size ≤ ledger.allocated block.account := by
    rw [charged, Pi.add_apply, charge, Pi.single_eq_same]
    exact Nat.le_add_left _ _
  have both := Finset.add_le_sum (f := ledger.allocated) (fun id _ => Nat.zero_le _)
    (Finset.mem_univ target) (Finset.mem_univ block.account) (Ne.symm away)
  omega

theorem moveTo_ends {charges : Fin n → Nat} (block : Block n) (target : Fin n)
    (charged : ledger.allocated = charges + block.charge) (inRange : ledger.InRange)
    (room : ∑ id, ledger.allocated id < Word.size) :
    Ends (block.moveTo target) ledger
      (fun moved after => moved.1 = ⟨block.bytes, target⟩ ∧
        after.allocated = charges + moved.1.charge ∧ after.InRange ∧
        ∑ id, after.allocated id < Word.size)
      (fun _ _ => False) := by
  by_cases home : block.account = target
  · subst home
    rw [moveTo, if_pos rfl]
    exact ⟨rfl, charged, inRange, room⟩
  · rw [moveTo, if_neg home]
    refine ends_bind.mpr ((Ledger.forceAcquire_ends (room_elsewhere charged room home)).mono_total ?_)
    intro fits between reached
    obtain ⟨added, within⟩ := reached
    have total : between.allocated = charges + Pi.single target block.size + block.charge := by
      rw [added, charged, add_right_comm]
    refine ends_bind.mpr ((release_leaves total (inRange.of_charge added within)).mono_total ?_)
    intro _ after reached
    obtain ⟨left, words⟩ := reached
    have moved : ∑ id, after.allocated id = ∑ id, ledger.allocated id := by
      rw [left, charged]
      simp only [Pi.add_apply, Finset.sum_add_distrib, sum_charge]
      rw [Finset.sum_pi_single', if_pos (Finset.mem_univ _)]
    exact ⟨rfl, left, words, moved.trans_lt room⟩

/-- Moving a block to another account charges it there and gives it back where it was, and tells whether
that leaves the other account within its limit. -/
theorem moveTo_exact {target : Fin n} (away : block.account ≠ target)
    (held : block.size ≤ ledger.allocated block.account)
    (room : ledger.allocated target + block.size < Word.size) :
    Ends (block.moveTo target) ledger
      (fun moved after => moved.1 = ⟨block.bytes, target⟩ ∧
        (moved.2 = true ↔ ledger.allocated target + block.size ≤ (ledger.account target).limit) ∧
        after = (ledger.put target ((ledger.account target).charged block.size)).put block.account
          ((ledger.account block.account).discharge block.size))
      (fun _ _ => False) := by
  rw [moveTo, if_neg away]
  refine ends_bind.mpr ((Ledger.forceAcquire_exact room).mono_total ?_)
  rintro fits _ ⟨rfl, told⟩
  have kept := Ledger.account_put_of_ne ledger (Ne.symm away)
    ((ledger.account target).charged block.size)
  refine ends_bind.mpr ((Ledger.release_exact _ block.account block.size).mono ?_ ?_)
  · rintro _ after ⟨_, rfl⟩
    exact ⟨rfl, told, by rw [kept]⟩
  · rintro _ _ ⟨_, lacking, _⟩
    rw [kept] at lacking
    exact absurd held (Nat.not_le_of_lt lacking)

/-- Moving a block raises the peak of the account it comes to, and no more than its charge. -/
theorem moveTo_peaked (block : Block n) (target : Fin n)
    (room : block.account ≠ target → ledger.allocated target + block.size < Word.size) :
    Ends (block.moveTo target) ledger
      (fun _ after => ∀ former, ledger.Peaked target former → after.Peaked target former)
      (fun failure _ => failure = .overdrawn) := by
  by_cases home : block.account = target
  · rw [moveTo, if_pos home]
    exact fun _ peaked => peaked
  · rw [moveTo, if_neg home]
    refine ends_bind.mpr ((Ledger.forceAcquire_peaked (room home)).mono_total ?_)
    intro fits between raised
    refine ends_bind.mpr ((Ledger.release_exact _ _ _).mono ?_ fun _ _ stopped => stopped.1)
    rintro _ after ⟨_, rfl⟩ former peaked
    exact (raised former peaked).congr (Ledger.account_put_of_ne _ home _)

theorem moveTo_stops (block : Block n) (target : Fin n) (ledger : Ledger n) :
    Ends (block.moveTo target) ledger (fun moved _ => moved.1 = ⟨block.bytes, target⟩)
      (fun failure _ => failure = .overdrawn) := by
  by_cases home : block.account = target
  · subst home
    rw [moveTo, if_pos rfl]
    rfl
  · rw [moveTo, if_neg home]
    refine ends_bind.mpr (ends_bind.mpr ((release_stops block _).mono_post ?_))
    intro _ after _
    rfl

/-- The block became longer by zeros, or stayed as it was. -/
structure Extends (old new : Block n) : Prop where
  account : new.account = old.account
  bytes : ∃ length, new.bytes = old.bytes.extendTo length

namespace Extends

variable {old new : Block n}

theorem refl (block : Block n) : block.Extends block := by
  refine ⟨rfl, 0, ?_⟩
  simp [Bytes.extendTo, Bytes.zeros]

theorem extendTo (block : Block n) (length : Nat) :
    block.Extends ⟨block.bytes.extendTo length, block.account⟩ := ⟨rfl, length, rfl⟩

theorem trans {newer : Block n} (first : old.Extends new) (second : new.Extends newer) :
    old.Extends newer := by
  obtain ⟨length, longer⟩ := first.bytes
  obtain ⟨further, longest⟩ := second.bytes
  refine ⟨second.account.trans first.account, max length further, ?_⟩
  rw [longest, longer, Bytes.extendTo_extendTo]

theorem size_le (extended : old.Extends new) : old.size ≤ new.size := by
  obtain ⟨length, longer⟩ := extended.bytes
  rw [Block.size, Block.size, longer]
  exact old.bytes.le_size_extendTo length

end Extends

/-! ### Making room -/

/-- The block itself where it has the size, and else a longer one in its place. -/
def fitting (block : Block n) (size : Nat) : Block n :=
  if size ≤ block.size then block else ⟨block.bytes.extendTo (roundUp size), block.account⟩

theorem fitting_of_le (enough : size ≤ block.size) : block.fitting size = block := if_pos enough

theorem fitting_of_lt (short : block.size < size) :
    block.fitting size = ⟨block.bytes.extendTo (roundUp size), block.account⟩ :=
  if_neg (Nat.not_le_of_lt short)

theorem extends_fitting (block : Block n) (size : Nat) : block.Extends (block.fitting size) := by
  unfold fitting
  split
  · exact .refl block
  · exact .extendTo block _

@[simp] theorem account_fitting (block : Block n) (size : Nat) :
    (block.fitting size).account = block.account :=
  (block.extends_fitting size).account

theorem size_fitting_eq_or (block : Block n) (size : Nat) :
    (block.fitting size).size = block.size ∨ (block.fitting size).size = roundUp size := by
  by_cases enough : size ≤ block.size
  · rw [fitting_of_le enough]
    exact .inl rfl
  · have short := Nat.lt_of_not_le enough
    rw [fitting_of_lt short]
    exact .inr (size_of_enlarged short)

theorem le_size_fitting (block : Block n) (size : Nat) : size ≤ (block.fitting size).size := by
  by_cases enough : size ≤ block.size
  · rwa [fitting_of_le enough]
  · have short := Nat.lt_of_not_le enough
    rw [fitting_of_lt short, size_of_enlarged short]
    exact le_roundUp size

/-- A block of whole grains that makes room is as long as the request, unless it was longer. -/
theorem size_fitting (whole : grain ∣ block.size) (size : Nat) :
    (block.fitting size).size = max block.size (roundUp size) := by
  by_cases enough : size ≤ block.size
  · rw [fitting_of_le enough, max_eq_left (roundUp_le enough whole)]
  · have short := Nat.lt_of_not_le enough
    have longer := (Nat.le_of_lt short).trans (le_roundUp size)
    rw [fitting_of_lt short, size_of_enlarged short, max_eq_right longer]

theorem grain_dvd_fitting (whole : grain ∣ block.size) (size : Nat) :
    grain ∣ (block.fitting size).size := by
  rw [size_fitting whole]
  rcases max_choice block.size (roundUp size) with same | same
  · rwa [same]
  · rw [same]
    exact grain_dvd_roundUp size

/-- The account of a block that was enlarged and then given back accepts as much again. -/
theorem enlarge_fits (short : block.size < size) :
    Ends (block.enlarge size) ledger
      (fun larger between => larger = block.fitting size ∧ roundUp size ≤ Word.largestRequest ∧
        Ends block.release between
          (fun _ after => ∀ amount ≤ block.size, (after.account block.account).Accepts amount)
          (fun _ _ => False))
      (Declined ledger block.account size) := by
  refine ends_bind.mpr ((allocate_exact ledger block.account size).mono_post ?_)
  intro larger between reached
  obtain ⟨rfl, small, accepts, rfl⟩ := reached
  have enough : block.size ≤ (ledger.account block.account).allocated + roundUp size :=
    (Nat.le_of_lt short).trans ((le_roundUp size).trans (Nat.le_add_left _ _))
  have longer : (⟨Bytes.zeros (roundUp size), block.account⟩ : Block n).size = roundUp size :=
    Bytes.size_zeros _
  have held : (ledger.put block.account ((ledger.account block.account).charged
      (roundUp size))).account block.account = (ledger.account block.account).charged (roundUp size) :=
    Ledger.account_put_self ledger block.account _
  refine ⟨by rw [longer, fitting_of_lt short], small, ?_⟩
  refine (Ledger.release_exact _ block.account block.size).mono ?_ ?_
  · intro _ after reached
    obtain ⟨_, rfl⟩ := reached
    intro amount less
    rw [Ledger.account_put_self, held]
    exact accepts.again enough less
  · intro _ _ stopped
    obtain ⟨_, lacking, _⟩ := stopped
    rw [held] at lacking
    exact absurd enough (Nat.not_le_of_lt lacking)

end Columnar.Block
