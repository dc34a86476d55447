import Columnar.Proofs.Store.Operations

/-! Peaks and limits. The peak of an account is the most that it was charged with after any of the
operations so far, which is within its limit unless a block was moved to it from another account. -/

namespace Columnar

open Columnar.Action

variable {n : Nat} {kind : Kind} {rest : Fin n → Nat} {received : Fin n → Prop}

/-- Charges are forced of accounts that receive blocks, and only as far as the total stays a word. -/
def Forcing.within (received : Fin n → Prop) : Forcing n := fun accounts id amount =>
  received id ∧ (accounts.get id).allocated + amount < Word.size

theorem Word.wrapSub_le {left right : Nat} (enough : right ≤ left) : wrapSub left right ≤ left := by
  have moved : left + size - right = left - right + size := by omega
  rw [wrapSub, moved, Nat.add_mod_right]
  exact (Nat.mod_le _ _).trans (Nat.sub_le _ _)

namespace Account

/-- No more is charged than has been charged at most. -/
def Steady (account : Account) : Prop := account.allocated ≤ account.peak

/-- One step of an account, which may be charged beyond its limit where that is allowed. -/
inductive Step (beyond : Prop) (account : Account) : Account → Prop where
  | same : Step beyond account account
  | charge {amount : Nat} (allowed : account.allocated + amount ≤ account.limit ∨ beyond) :
    Step beyond account (account.charged amount)
  | discharge {amount : Nat} (enough : amount ≤ account.allocated) :
    Step beyond account (account.discharge amount)

namespace Step

variable {beyond : Prop} {before after : Account}

theorem limit (step : Step beyond before after) : after.limit = before.limit := by
  cases step with
  | same => rfl
  | charge allowed => rw [charged]
  | discharge enough => rw [Account.discharge]

theorem steady (step : Step beyond before after) (steady : before.Steady) : after.Steady := by
  cases step with
  | same => exact steady
  | charge allowed =>
    rw [Steady, charged]
    exact Nat.le_max_right _ _
  | discharge enough =>
    rw [Steady, Account.discharge]
    exact (Word.wrapSub_le enough).trans steady

/-- The peak rises to what is charged, and no further. -/
theorem peak (step : Step beyond before after) (steady : before.Steady) :
    after.peak = max before.peak after.allocated := by
  have held := step.steady steady
  cases step with
  | same => exact (max_eq_left steady).symm
  | charge allowed => rfl
  | @discharge amount enough =>
    have kept : (before.discharge amount).peak = before.peak := by rw [Account.discharge]
    rw [Steady, kept] at held
    exact kept.trans (max_eq_left held).symm

theorem within (step : Step beyond before after) (never : ¬ beyond)
    (within : before.peak ≤ before.limit) : after.peak ≤ after.limit := by
  cases step with
  | same => exact within
  | charge allowed =>
    rw [charged]
    exact Nat.max_le.mpr ⟨within, allowed.resolve_right never⟩
  | discharge enough =>
    rw [Account.discharge]
    exact within

end Step

end Account

namespace Operation

variable {accounts first last : Vector Account n} {operations : List (Operation n)}

theorem step_set {target : Fin n} {account : Account}
    (step : (accounts.get target).Step (received target) account) (id : Fin n) :
    (accounts.get id).Step (received id) ((accounts.set target.val account target.isLt).get id) := by
  have read : (accounts.set target.val account target.isLt).get id =
      if target = id then account else accounts.get id :=
    Ledger.account_put ⟨accounts, []⟩ target id account
  rw [read]
  split
  · rename_i same
    subst same
    exact step
  · exact .same

theorem step_apply {operation : Operation n} (lawful : operation.Lawful (.within received) accounts)
    (id : Fin n) : (accounts.get id).Step (received id) ((operation.apply accounts).get id) := by
  cases operation with
  | charge target amount =>
    refine step_set ?_ id
    rw [Account.charge?_eq]
    split
    · exact .charge (.inl (by rename_i accepts; exact accepts.2))
    · exact .same
  | force target amount =>
    refine step_set ?_ id
    rw [Account.force_eq lawful.2]
    exact .charge (.inr lawful.1)
  | discharge target amount => exact step_set (.discharge lawful) id

/-- The most that was charged to an account. -/
def most (id : Fin n) (history : List (Vector Account n)) : Nat :=
  (history.map fun accounts => (accounts.get id).allocated).foldr max 0

theorem le_most_scanl (accounts : Vector Account n) (id : Fin n) (operations : List (Operation n)) :
    (accounts.get id).allocated ≤ most id (operations.scanl apply accounts) := by
  cases operations <;> simp [most]

theorem most_scanl_cons (id : Fin n) (operation : Operation n) (rest : List (Operation n)) :
    most id ((operation :: rest).scanl apply accounts) =
      max (accounts.get id).allocated (most id (rest.scanl apply (operation.apply accounts))) := by
  rw [List.scanl_cons]
  rfl

/-- The peak is the most of all that was charged on the way, and within the limit of an account that
receives nothing. -/
theorem Leads.account (leads : Leads (.within received) operations first last) {id : Fin n}
    (steady : (first.get id).Steady) :
    (last.get id).limit = (first.get id).limit ∧ (last.get id).Steady ∧
      (last.get id).peak = max (first.get id).peak (most id (operations.scanl apply first)) ∧
      (¬ received id → (first.get id).peak ≤ (first.get id).limit →
        (last.get id).peak ≤ (last.get id).limit) := by
  induction operations generalizing first with
  | nil =>
    cases leads
    refine ⟨rfl, steady, ?_, fun _ within => within⟩
    simpa [most] using (max_eq_left steady).symm
  | cons operation rest ih =>
    have step := step_apply leads.1 id
    obtain ⟨limit, still, peak, within⟩ := ih leads.2 (step.steady steady)
    refine ⟨limit.trans step.limit, still, ?_, fun spared held => ?_⟩
    · have head := le_most_scanl (operation.apply first) id rest
      rw [peak, step.peak steady, most_scanl_cons, max_assoc, max_eq_right head, ← max_assoc,
        max_eq_left steady]
    · exact within spared (step.within spared held)

end Operation

/-! ### Requests -/

/-- A request that is granted leaves the account within its limit, whatever it was charged with before,
and one that is refused would not have. -/
theorem Block.allocate_limited (ledger : Ledger n) (id : Fin n) (size : Nat) :
    Ends (Block.allocate id size) ledger
      (fun _ after => (after.account id).allocated ≤ (after.account id).limit)
      (fun failure after => failure ≠ .tooLarge →
        failure.Exhausted ∧ after.accounts = ledger.accounts ∧
          ¬ (ledger.account id).Accepts (Block.roundUp size)) := by
  refine (Block.allocate_exact ledger id size).mono ?_ ?_
  · rintro block after ⟨_, _, accepts, rfl⟩
    rw [Ledger.account_put_self]
    exact accepts.2
  · rintro failure after (⟨refused, denied, same⟩ | ⟨large, _⟩) fine
    · exact ⟨⟨_, _, refused⟩, same, denied⟩
    · exact absurd large fine

/-- An account beyond its limit refuses every request. -/
theorem Block.allocate_refused {ledger : Ledger n} {id : Fin n}
    (beyond : (ledger.account id).limit < (ledger.account id).allocated) (size : Nat) :
    Ends (Block.allocate id size) ledger (fun _ _ => False)
      (fun failure after => failure.Exhausted ∧ after.accounts = ledger.accounts) := by
  have denied : ¬ (ledger.account id).Accepts (Block.roundUp size) := by
    intro accepts
    exact absurd ((Nat.le_add_right _ _).trans accepts.2) (Nat.not_le_of_lt beyond)
  refine (Block.allocate_exact ledger id size).mono ?_ ?_
  · rintro block after ⟨_, _, accepts, _⟩
    exact denied accepts
  · rintro failure after (⟨refused, _, same⟩ | ⟨_, _, accepts, _⟩)
    · exact ⟨⟨_, _, refused⟩, same⟩
    · exact absurd accepts denied

/-! ### Blocks that move -/

/-- Blocks find room in the account that they are moved to, where all charges together are a word. -/
theorem Session.movable_of_charged {session : Session n kind}
    (charged : session.ledger.allocated = rest + session.column.charge)
    (inRange : session.ledger.InRange) (room : ∑ id, session.ledger.allocated id < Word.size)
    (receives : session.column.values.account ≠ session.column.account ∨
      session.column.validity.account ≠ session.column.account → received session.column.account) :
    session.Movable (.within received) := by
  have values := charged.trans (Column.add_charge rest session.column)
  constructor
  · intro away
    exact ⟨receives (.inl away), Block.room_elsewhere values room away⟩
  · intro moved between ran away
    obtain ⟨_, added, _, still⟩ := (Block.moveTo_ends _ _ values inRange room).of_ok ran
    have validity : between.allocated = rest + moved.1.charge + session.column.validity.charge := by
      rw [added, add_right_comm]
    exact ⟨receives (.inr away), Block.room_elsewhere validity still away⟩

theorem Exchange.movable_of_charged {exchange : Exchange n kind}
    (charged : exchange.ledger.allocated = rest + exchange.source.charge + exchange.target.charge)
    (inRange : exchange.ledger.InRange) (gives : exchange.source.Owns) (owns : exchange.target.Owns)
    (room : ∑ id, exchange.ledger.allocated id < Word.size)
    (receives : exchange.source.account ≠ exchange.target.account → received exchange.target.account) :
    exchange.Movable (.within received) := by
  intro notice cleared ran
  obtain ⟨emptied, held, words, still, _⟩ :=
    (clear_leaves exchange charged inRange owns room notice).of_ok ran
  have home : cleared.column.account = exchange.target.account := by
    rw [emptied]
    rfl
  refine Session.movable_of_charged held words still ?_
  change exchange.source.values.account ≠ cleared.column.account ∨
    exchange.source.validity.account ≠ cleared.column.account → received cleared.column.account
  rw [home, gives.values, gives.validity, or_self]
  exact receives

namespace Command

/-- The command moves a block to the account from another one. -/
def MovesInto (store : Store n) (id : Fin n) : Command n → Prop
  | transfer source target =>
    ∃ giver ∈ store.columns.find? source,
      ∃ receiver ∈ (store.withoutColumn source).columns.find? target,
        giver.kind = receiver.kind ∧ receiver.column.account = id ∧ giver.column.account ≠ id
  | moveBlock name target =>
    target = id ∧ ∃ block ∈ store.blocks.find? name, block.account ≠ id
  | _ => False

instance (store : Store n) (id : Fin n) (command : Command n) :
    Decidable (command.MovesInto store id) := by
  unfold MovesInto
  split <;> infer_instance

variable {store : Store n} {command : Command n}

/-- With exact accounts a command forces only the charges of blocks that it moves, and finds room for
them. -/
theorem movable_of_balanced (balanced : store.Balanced 0) (room : store.liveBytes < Word.size)
    (receives : ∀ id, command.MovesInto store id → received id) :
    command.Movable (.within received) store := by
  have words := balanced.total.trans_lt room
  cases command with
  | transfer source target =>
    intro kind giver receiver given held
    refine Exchange.movable_of_charged (balanced.charged_pair given held) balanced.inRange
      (balanced.owns.of_find? given) ((balanced.withoutColumn given).owns.of_find? held) words ?_
    intro away
    exact receives _ ⟨_, given, _, held, rfl, rfl, away⟩
  | moveBlock name target =>
    intro block found away
    exact ⟨receives target ⟨rfl, block, found, away⟩,
      Block.room_elsewhere (balanced.charged_block found) words away⟩
  | _ => trivial

end Command

namespace Store

variable {store : Store n} {commands : List (Command n)}

/-- Some command of the run moves a block to the account from another one. -/
def Receives (store : Store n) (commands : List (Command n)) (id : Fin n) : Prop :=
  ¬ store.Along (fun store command => ¬ command.MovesInto store id) commands

instance (store : Store n) (commands : List (Command n)) (id : Fin n) :
    Decidable (store.Receives commands id) := inferInstanceAs (Decidable (¬ _))

theorem along_receives (receives : ∀ id, store.Receives commands id → received id) :
    store.Along (fun store command => ∀ id, command.MovesInto store id → received id) commands := by
  induction commands generalizing store with
  | nil => trivial
  | cons command rest ih =>
    constructor
    · intro id moves
      exact receives id fun along => along.1 moves
    · exact ih fun id later => receives id fun along => later along.2

/-- The operations of a run lead to its accounts. -/
theorem leads_runAll (orderly : store.Orderly) (fits : store.Along Fits commands)
    (receives : store.Along (fun store command => ∀ id, command.MovesInto store id → received id)
      commands) :
    Operation.Leads (.within received) (store.operations commands) store.ledger.accounts
      (store.runAll commands).ledger.accounts := by
  induction commands generalizing store with
  | nil => rfl
  | cons command rest ih =>
    obtain ⟨kept, solvent⟩ := orderly.after fits.1
    have movable := Command.movable_of_balanced orderly.balanced fits.1.2 receives.1
    exact (command.leads orderly movable solvent).append (ih kept fits.2 receives.2)

theorem account_ofLimits (limits : Vector Nat n) (id : Fin n) :
    (ofLimits limits).ledger.accounts.get id = { limit := limits.get id } := by
  simp [ofLimits, Ledger.ofLimits, Vector.get_eq_getElem]

theorem steady_ofLimits (limits : Vector Nat n) (id : Fin n) :
    ((ofLimits limits).ledger.accounts.get id).Steady := by
  rw [account_ofLimits]
  exact Nat.le_refl 0

theorem leads_ofLimits {limits : Vector Nat n} (fits : (ofLimits limits).Along Fits commands)
    (receives : ∀ id, (ofLimits limits).Receives commands id → received id) :
    Operation.Leads (.within received) ((ofLimits limits).operations commands)
      (ofLimits limits).ledger.accounts ((ofLimits limits).runAll commands).ledger.accounts :=
  leads_runAll (.ofLimits limits) fits (along_receives receives)

theorem steady_runAll {limits : Vector Nat n} (fits : (ofLimits limits).Along Fits commands) (id : Fin n) :
    (((ofLimits limits).runAll commands).ledger.account id).Steady :=
  ((leads_ofLimits fits fun _ receives => receives).account (steady_ofLimits limits id)).2.1

/-- The accounts change by the operations of the commands alone. After each of these the peak is the most
that was charged so far, and within the limit of an account that no block was moved to. -/
theorem peaks_runAll (limits : Vector Nat n) (commands : List (Command n))
    (fits : (ofLimits limits).Along Fits commands) :
    let store := ofLimits limits
    let start := store.ledger.accounts
    (∀ done, done <+: commands → store.operations done <+: store.operations commands ∧
      (store.runAll done).ledger.accounts = (store.operations done).foldl Operation.apply start) ∧
    (∀ earlier, earlier <+: store.operations commands →
      let now := earlier.foldl Operation.apply start
      Operation.Leads (.within (store.Receives commands)) earlier start now ∧
      ∀ id, (now.get id).limit = limits.get id ∧
        (now.get id).peak = Operation.most id (earlier.scanl Operation.apply start) ∧
        (¬ store.Receives commands id →
          (now.get id).allocated ≤ (now.get id).peak ∧ (now.get id).peak ≤ (now.get id).limit)) ∧
    ∀ (ledger : Ledger n) (id : Fin n) (size : Nat),
      Ends (Block.allocate id size) ledger
        (fun _ after => (after.account id).allocated ≤ (after.account id).limit)
        (fun failure after => failure ≠ .tooLarge →
          failure.Exhausted ∧ after.accounts = ledger.accounts ∧
            ¬ (ledger.account id).Accepts (Block.roundUp size)) ∧
      ((ledger.account id).limit < (ledger.account id).allocated →
        Ends (Block.allocate id size) ledger (fun _ _ => False)
          (fun failure after => failure.Exhausted ∧ after.accounts = ledger.accounts)) := by
  intro store start
  refine ⟨?_, ?_, ?_⟩
  · rintro done ⟨further, rfl⟩
    refine ⟨?_, (leads_ofLimits fits.of_append fun _ => id).eq_foldl⟩
    rw [operations_append]
    exact List.prefix_append _ _
  · intro earlier began now
    have led : Operation.Leads (.within (store.Receives commands)) earlier start now :=
      (leads_ofLimits fits fun _ => id).earlier began
    refine ⟨led, fun id => ?_⟩
    obtain ⟨limit, steady, peak, within⟩ := led.account (steady_ofLimits limits id)
    have new : (start.get id) = { limit := limits.get id } := account_ofLimits limits id
    rw [new] at limit peak within
    exact ⟨limit, peak.trans (Nat.zero_max _), fun spared => ⟨steady, within spared (Nat.zero_le _)⟩⟩
  · intro ledger id size
    exact ⟨Block.allocate_limited ledger id size, fun beyond => Block.allocate_refused beyond size⟩

/-- In the run both blocks are moved to the second account, whose limit is less than one of them. -/
theorem peaks_runAll_handing :
    let start := (ofLimits #v[40, 8]).ledger.accounts
    let executed : List (Operation 2) := [.charge 0 16, .charge 0 16, .discharge 0 0, .discharge 0 0,
      .charge 0 32, .discharge 1 0, .discharge 1 0, .force 1 16, .discharge 0 16, .force 1 16,
      .discharge 0 16, .discharge 0 0, .discharge 0 0]
    let last := executed.foldl Operation.apply start
    (ofLimits #v[40, 8]).operations handing = executed ∧
      ((ofLimits #v[40, 8]).runAll handing).ledger.accounts = last ∧
      (last.get 1).peak = Operation.most 1 (executed.scanl Operation.apply start) ∧
      (last.get 1).limit < (last.get 1).peak ∧
      (last.get 0).peak ≤ (last.get 0).limit := by
  intro start executed last
  have ran : (ofLimits #v[40, 8]).operations handing = executed := by decide +kernel
  obtain ⟨reaches, exact, _⟩ := peaks_runAll #v[40, 8] handing (by decide +kernel)
  have reached := (reaches handing List.prefix_rfl).2
  obtain ⟨_, each⟩ := exact executed (ran ▸ List.prefix_rfl)
  rw [ran] at reached
  exact ⟨ran, reached, (each 1).2.1, by decide +kernel, ((each 0).2.2 (by decide +kernel)).2⟩

end Store

end Columnar
