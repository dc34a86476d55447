import Columnar.Proofs.Store.Accounts
import Columnar.Proofs.Store.Peaks

namespace Columnar

open Columnar.Action

variable {n : Nat} {kind : Kind}

namespace Column

def memory (column : Column n kind) : Nat := column.values.size + column.validity.size

theorem Owns.charge_eq {column : Column n kind} (owns : column.Owns) :
    column.charge = Pi.single column.account column.memory := by
  rw [charge, Block.charge, Block.charge, owns.values, owns.validity, memory, Pi.single_add]

/-- What a transfer makes of a column that gives and one that receives. -/
structure HandedOver (giver receiver emptied received : Column n kind) : Prop where
  values : received.values.bytes = giver.values.bytes
  validity : received.validity.bytes = giver.validity.bytes
  count : received.count = giver.count
  capacity : received.capacity = giver.capacity
  noMemory : emptied.values.size = 0 ∧ emptied.validity.size = 0
  noSlots : emptied.capacity = 0 ∧ emptied.count = 0
  sameGiver : emptied.field = giver.field ∧ emptied.config = giver.config ∧ emptied.account = giver.account
  sameReceiver : received.field = receiver.field ∧ received.config = receiver.config ∧
    received.account = receiver.account

theorem handedOver (giver receiver : Column n kind) :
    giver.HandedOver receiver giver.emptied (receiver.receiving giver) where
  values := rfl
  validity := rfl
  count := rfl
  capacity := rfl
  noMemory := ⟨rfl, rfl⟩
  noSlots := ⟨Nat.min_eq_right (Nat.zero_le _), rfl⟩
  sameGiver := ⟨rfl, rfl, rfl⟩
  sameReceiver := ⟨rfl, rfl, rfl⟩

end Column

/-- How the charges move when one column gives its blocks to another. -/
structure Ledger.HandedOver (before after : Ledger n) (giver receiver : Column n kind) : Prop where
  given : giver.account ≠ receiver.account →
    after.allocated giver.account + giver.memory = before.allocated giver.account
  received : giver.account ≠ receiver.account →
    after.allocated receiver.account + receiver.memory =
      before.allocated receiver.account + giver.memory
  shared : giver.account = receiver.account →
    after.allocated receiver.account + receiver.memory = before.allocated receiver.account
  others : ∀ id, id ≠ giver.account → id ≠ receiver.account → after.allocated id = before.allocated id
  peak : after.peaks receiver.account =
    max (before.peaks receiver.account) (after.allocated receiver.account)

theorem Ledger.handedOver {before after : Ledger n} {giver receiver : Column n kind}
    {rest : Fin n → Nat} (given : giver.Owns) (received : receiver.Owns)
    (charged : before.allocated = rest + giver.charge + receiver.charge)
    (moved : after.allocated = rest + Pi.single receiver.account giver.memory)
    (peaked : after.Peaked receiver.account (before.peaks receiver.account)) :
    before.HandedOver after giver receiver := by
  rw [given.charge_eq, received.charge_eq] at charged
  refine ⟨?_, ?_, ?_, ?_, peaked⟩
  · intro apart
    rw [charged, moved]
    simp [apart]
  · intro apart
    rw [charged, moved]
    simp [apart.symm]
    omega
  · intro same
    rw [charged, moved, same]
    simp
  · intro id notGiver notReceiver
    rw [charged, moved]
    simp [notGiver, notReceiver]

namespace Store

variable {store : Store n} {source target : String}

/-- Where both columns are there and of one kind, a transfer runs the exchange of the two. -/
theorem ends_transferColumn_of_found {giver receiver : Column n kind}
    (given : store.columns.find? source = some ⟨kind, giver⟩)
    (held : (store.withoutColumn source).columns.find? target = some ⟨kind, receiver⟩)
    {post : Unit → Store n → Prop} {stop : Fault → Store n → Prop}
    (moved : Ends Exchange.transfer ⟨giver, receiver, store.ledger⟩
      (fun _ exchange => post ()
        (((store.withoutColumn source).withoutColumn target).withExchange source target exchange))
      (fun failure exchange => stop (.failed failure)
        (((store.withoutColumn source).withoutColumn target).withExchange source target exchange))) :
    Ends (transferColumn source target) store post stop := by
  refine ends_transferColumn ?_ ?_ ?_ ?_
  · intro free
    rw [given] at free
    cases free
  · intro _ _ free
    rw [held] at free
    cases free
  · intro first second foundSource foundTarget different
    rw [given] at foundSource
    rw [held] at foundTarget
    cases foundSource
    cases foundTarget
    exact absurd rfl different
  · intro own first second foundSource foundTarget
    rw [given] at foundSource
    rw [held] at foundTarget
    cases foundSource
    cases foundTarget
    exact moved

theorem find?_withExchange (store : Store n) (apart : source ≠ target) (exchange : Exchange n kind) :
    let after := ((store.withoutColumn source).withoutColumn target).withExchange source target exchange
    after.columns.find? source = some ⟨kind, exchange.source⟩ ∧
      after.columns.find? target = some ⟨kind, exchange.target⟩ ∧
      ∀ name, name ≠ source → name ≠ target → after.columns.find? name = store.columns.find? name := by
  refine ⟨?_, ?_, ?_⟩
  · rw [withExchange, withColumn, Table.find?_put, if_neg apart, withColumn, Table.find?_put, if_pos rfl]
  · rw [withExchange, withColumn, Table.find?_put, if_pos rfl]
  · intro name notSource notTarget
    rw [withExchange, withColumn, Table.find?_put, if_neg notTarget, withColumn, Table.find?_put,
      if_neg notSource, withoutColumn, Table.find?_without_of_ne _ notTarget, withoutColumn,
      Table.find?_without_of_ne _ notSource]

/-- In every store that a run reaches, a transfer between columns of one kind ends well. Bytes, count and
capacity go to the receiving column, and the charge with them. -/
theorem transfer_runAll (limits : Vector Nat n) (commands : List (Command n))
    (fits : (ofLimits limits).Along Fits commands) :
    let store := (ofLimits limits).runAll commands
    store.liveBytes < Word.size → ∀ (source target : String), source ≠ target →
      ∀ (kind : Kind) (giver receiver : Column n kind),
        store.columns.find? source = some ⟨kind, giver⟩ →
        store.columns.find? target = some ⟨kind, receiver⟩ →
        Ends (Command.transfer source target).run store
          (fun _ after => after.blocks = store.blocks ∧
            (∀ name, name ≠ source → name ≠ target →
              after.columns.find? name = store.columns.find? name) ∧
            store.ledger.HandedOver after.ledger giver receiver ∧
            ∃ emptied received : Column n kind,
              after.columns.find? source = some ⟨kind, emptied⟩ ∧
              after.columns.find? target = some ⟨kind, received⟩ ∧
              giver.HandedOver receiver emptied received)
          (fun _ _ => False) := by
  intro store room source target apart kind giver receiver given held
  have balanced : store.Balanced 0 := balanced_runAll fits
  have steady : ∀ id, (store.ledger.account id).Steady := steady_runAll fits
  have free : (store.withoutColumn source).columns.find? target = some ⟨kind, receiver⟩ :=
    (Table.find?_without_of_ne _ apart.symm).trans held
  refine ends_bind.mpr (ends_transferColumn_of_found given free ?_)
  refine ((Exchange.transfer_ends _).and (Exchange.transfer_balances ⟨giver, receiver, store.ledger⟩
    (balanced.charged_pair given free) balanced.inRange (balanced.owns.of_find? held)
    (balanced.total.trans_lt room))).mono ?_ fun _ _ stopped => stopped.2
  rintro _ ⟨emptied, received, ledger⟩ ⟨⟨rfl, rfl⟩, charged, _, _, owns, peaked⟩
  obtain ⟨foundSource, foundTarget, others⟩ :=
    find?_withExchange store apart ⟨giver.emptied, receiver.receiving giver, ledger⟩
  refine ⟨rfl, others, ?_, _, _, foundSource, foundTarget, Column.handedOver giver receiver⟩
  have moved : ledger.allocated =
      ((store.withoutColumn source).withoutColumn target).charge +
        Pi.single receiver.account giver.memory := by
    rw [charged, Column.charge_emptied, add_zero, owns.charge_eq]
    rfl
  exact Ledger.handedOver (balanced.owns.of_find? given) (balanced.owns.of_find? held)
    (balanced.charged_pair given free) moved (peaked (steady receiver.account))

/-- A run that makes a column of eight slots and one without memory, charged to different accounts. -/
def giving (first second : Fin n) : List (Command n) :=
  [.create "x" .uint16 "x" none first {}, .create "y" .uint16 "y" none second {},
    .edit "x" .uint16 (.allocate 8)]

theorem transfer_runAll_giving :
    let store := (ofLimits #v[40, 8]).runAll (giving 0 1)
    Ends (Command.transfer "x" "y").run store
      (fun _ after => after.ledger.allocated 0 = 0 ∧ after.ledger.allocated 1 = 32 ∧
        after.ledger.peaks 1 = 32 ∧ ∃ received : Column 2 .uint16,
          after.columns.find? "y" = some ⟨.uint16, received⟩ ∧ received.capacity = 8)
      (fun _ _ => False) := by
  intro store
  let giver : Column 2 .uint16 := (Column.empty "x" 0 {}).renewed 8
  let receiver : Column 2 .uint16 := .empty "y" 1 {}
  have given : ((ofLimits #v[40, 8]).runAll (giving 0 1)).columns.find? "x" =
      some ⟨.uint16, (Column.empty "x" 0 {}).renewed 8⟩ := by
    cbv
  have held : ((ofLimits #v[40, 8]).runAll (giving 0 1)).columns.find? "y" =
      some ⟨.uint16, .empty "y" 1 {}⟩ := by
    cbv
  refine (transfer_runAll #v[40, 8] (giving 0 1) (by decide +kernel) (by decide +kernel) "x" "y"
    (by decide) .uint16 giver receiver given held).mono_post ?_
  rintro _ after ⟨_, _, charges, _, received, _, found, handed⟩
  have before : store.ledger.allocated 0 = 32 ∧ store.ledger.allocated 1 = 0 ∧
      store.ledger.peaks 1 = 0 := by decide +kernel
  have slots : giver.memory = 32 ∧ giver.capacity = 8 := by decide +kernel
  have gave : after.ledger.allocated 0 + giver.memory = store.ledger.allocated 0 :=
    charges.given (by decide)
  have took : after.ledger.allocated 1 + 0 = store.ledger.allocated 1 + giver.memory :=
    charges.received (by decide)
  have peak : after.ledger.peaks 1 = max (store.ledger.peaks 1) (after.ledger.allocated 1) :=
    charges.peak
  exact ⟨by omega, by omega, by omega, received, found, handed.capacity.trans slots.2⟩

end Store

end Columnar
