import Columnar.Proofs.Store.Accounts

namespace Columnar

open Columnar.Action

variable {n : Nat}

/-- How the charges move with a block, and what is told of the account that it comes to. -/
structure Ledger.Moved (before after : Ledger n) (block : Block n) (target : Fin n) (told : Bool) :
    Prop where
  taken : block.account ≠ target →
    after.allocated target = before.allocated target + block.size
  given : block.account ≠ target →
    after.allocated block.account + block.size = before.allocated block.account
  shared : block.account = target → after = before
  others : ∀ id, id ≠ block.account → id ≠ target → after.account id = before.account id
  limit : (after.account target).limit = (before.account target).limit
  told : told = true ↔
    block.account = target ∨ after.allocated target ≤ (after.account target).limit

namespace Block

variable {block : Block n} {ledger : Ledger n} {target : Fin n}

theorem moved_of_away (away : block.account ≠ target) (inRange : ledger.InRange)
    (held : block.size ≤ ledger.allocated block.account) {told : Bool}
    (right : told = true ↔ ledger.allocated target + block.size ≤ (ledger.account target).limit) :
    ledger.Moved ((ledger.put target ((ledger.account target).charged block.size)).put block.account
      ((ledger.account block.account).discharge block.size)) block target told := by
  let between := ledger.put target ((ledger.account target).charged block.size)
  let after := between.put block.account ((ledger.account block.account).discharge block.size)
  have source : after.account block.account = (ledger.account block.account).discharge block.size :=
    Ledger.account_put_self between block.account _
  have come : after.account target = (ledger.account target).charged block.size :=
    (Ledger.account_put_of_ne between away _).trans (Ledger.account_put_self ledger target _)
  have total : after.allocated target = ledger.allocated target + block.size :=
    congrArg Account.allocated come
  have limit : (after.account target).limit = (ledger.account target).limit := by
    rw [come, Account.charged]
  refine ⟨fun _ => total, fun _ => ?_, fun home => absurd home away, ?_, limit, ?_⟩
  · have left : after.allocated block.account = ledger.allocated block.account - block.size :=
      (congrArg Account.allocated source).trans (Word.wrapSub_eq (inRange block.account) held)
    exact (congrArg (· + block.size) left).trans (Nat.sub_add_cancel held)
  · intro id notSource notTarget
    exact (Ledger.account_put_of_ne between (Ne.symm notSource) _).trans
      (Ledger.account_put_of_ne ledger (Ne.symm notTarget) _)
  · rw [right, show after.allocated target = _ from total, limit]
    simp [away]

theorem moveTo_moved {charges : Fin n → Nat} (charged : ledger.allocated = charges + block.charge)
    (inRange : ledger.InRange) (room : ∑ id, ledger.allocated id < Word.size) (target : Fin n) :
    Ends (block.moveTo target) ledger
      (fun moved after => moved.1 = ⟨block.bytes, target⟩ ∧ ledger.Moved after block target moved.2)
      (fun _ _ => False) := by
  by_cases home : block.account = target
  · subst home
    rw [moveTo, if_pos rfl]
    refine ⟨rfl, fun away => absurd rfl away, fun away => absurd rfl away, fun _ => rfl,
      fun _ _ _ => rfl, rfl, ?_⟩
    exact iff_of_true rfl (.inl rfl)
  · have held : block.size ≤ ledger.allocated block.account := by
      rw [charged, Pi.add_apply, charge, Pi.single_eq_same]
      exact Nat.le_add_left _ _
    refine (moveTo_exact home held (room_elsewhere charged room home)).mono_total ?_
    rintro moved after ⟨same, right, rfl⟩
    exact ⟨same, moved_of_away home inRange held right⟩

end Block

namespace Store

variable {store : Store n}

theorem Balanced.charged_live (balanced : store.Balanced 0) {block : Block n}
    (live : block ∈ store.live) : ∃ charges, store.ledger.allocated = charges + block.charge := by
  obtain ⟨front, back, split⟩ := List.append_of_mem live
  refine ⟨Block.charges front + Block.charges back, ?_⟩
  rw [balanced.charged, zero_add, charge_eq, split]
  simp only [Block.charges, List.map_append, List.map_cons, List.sum_append, List.sum_cons]
  abel

/-- Each live block can be moved to each account, with its bytes and its charge. It is told that the account
is within its limit exactly where it is, or where the block had been with it before. -/
theorem moves_runAll (limits : Vector Nat n) (commands : List (Command n))
    (fits : (ofLimits limits).Along Fits commands) :
    let store := (ofLimits limits).runAll commands
    store.liveBytes < Word.size →
      (∀ block ∈ store.live, ∀ target, Ends (block.moveTo target) store.ledger
        (fun moved after =>
          moved.1 = ⟨block.bytes, target⟩ ∧ store.ledger.Moved after block target moved.2)
        (fun _ _ => False)) ∧
      ∀ (name : String) (block : Block n), store.blocks.find? name = some block → ∀ target,
        Ends (Command.moveBlock name target).run store
          (fun reply after => after.columns = store.columns ∧
            after.blocks.find? name = some ⟨block.bytes, target⟩ ∧
            (∀ other, other ≠ name → after.blocks.find? other = store.blocks.find? other) ∧
            ∃ told, reply = .fits told ∧ store.ledger.Moved after.ledger block target told)
          (fun _ _ => False) := by
  intro store room
  have balanced : store.Balanced 0 := balanced_runAll fits
  have words := balanced.total.trans_lt room
  refine ⟨fun block live target => ?_, fun name block found target => ?_⟩
  · obtain ⟨charges, charged⟩ := balanced.charged_live live
    exact Block.moveTo_moved charged balanced.inRange words target
  · refine ends_editBlock balanced.distinct ?_ ?_
    · intro missing
      cases found.symm.trans missing
    · intro other held
      cases found.symm.trans held
      refine ends_bind.mpr ((Block.moveTo_moved (balanced.charged_block found) balanced.inRange words
        target).mono_total ?_)
      rintro ⟨_, told⟩ after ⟨rfl, moved⟩
      refine ⟨rfl, ?_, ?_, told, rfl, moved⟩
      · rw [withBlock, Table.find?_put, if_pos rfl]
      · intro other apart
        rw [withBlock, Table.find?_put, if_neg apart, withoutBlock, Table.find?_without_of_ne _ apart]

/-- A run that moves a block to another account, which may be too small for it. -/
def crowding (first second : Fin n) : List (Command n) :=
  [.allocateBlock "a" first 16, .moveBlock "a" second]

theorem find?_crowding : ((ofLimits #v[Word.max, 8]).runAll (crowding 0 1)).blocks.find? "a" =
    some ⟨Bytes.zeros 16, 1⟩ := by
  cbv

theorem moves_runAll_crowding :
    let store := (ofLimits #v[Word.max, 8]).runAll (crowding 0 1)
    store.ledger.allocated 1 = 16 ∧
      Ends (Command.moveBlock "a" 0).run store
        (fun reply after => after.ledger.allocated 0 = 16 ∧ after.ledger.allocated 1 = 0 ∧
          reply = .fits true)
        (fun _ _ => False) := by
  intro store
  have before : store.ledger.allocated 0 = 0 ∧ store.ledger.allocated 1 = 16 := by decide +kernel
  refine ⟨before.2, ?_⟩
  refine ((moves_runAll #v[Word.max, 8] (crowding 0 1) (by decide +kernel) (by decide +kernel)).2 "a" _
    find?_crowding 0).mono_post ?_
  rintro reply after ⟨_, _, _, told, rfl, moved⟩
  have come : after.ledger.allocated 0 = store.ledger.allocated 0 + 16 := moved.taken (by decide)
  have gone : after.ledger.allocated 1 + 16 = store.ledger.allocated 1 := moved.given (by decide)
  have limit : (after.ledger.account 0).limit = Word.max :=
    moved.limit.trans (by decide +kernel)
  have within : told = true := by
    refine moved.told.mpr (.inr ?_)
    rw [limit, come, before.1]
    decide
  exact ⟨by omega, by omega, congrArg Reply.fits within⟩

/-- A block that stays with an account that is beyond its limit is said to fit. -/
theorem moves_runAll_staying :
    ¬ ∀ (limits : Vector Nat 2) (commands : List (Command 2)) (name : String) (block : Block 2)
        (target : Fin 2), (ofLimits limits).Along Fits commands →
      let store := (ofLimits limits).runAll commands
      store.liveBytes < Word.size → store.blocks.find? name = some block →
        Ends (Command.moveBlock name target).run store
          (fun reply after => reply = .fits
            (decide (after.ledger.allocated target ≤ (after.ledger.account target).limit)))
          (fun _ _ => False) := by
  intro always
  have told := always #v[Word.max, 8] (crowding 0 1) "a" _ 1 (by decide +kernel) (by decide +kernel)
    find?_crowding
  revert told
  decide +kernel

end Store

end Columnar
