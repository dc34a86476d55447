import Columnar.Column.Transfer
import Columnar.Proofs.Column.Memory

namespace Columnar

open Columnar.Action

variable {n : Nat} {kind : Kind}

namespace Column

def bare (column : Column n kind) : Column n kind :=
  { column with values := .empty column.account, validity := .empty column.account }

/-- The column with the blocks of another, charged where they were. -/
def holding (column giver : Column n kind) : Column n kind :=
  { column with values := giver.values, validity := giver.validity }

end Column

def Column.settled (column : Column n kind) : Column n kind :=
  { column with
    values := ⟨column.values.bytes, column.account⟩
    validity := ⟨column.validity.bytes, column.account⟩ }

/-- The later column is the column but for the accounts that its blocks are charged to. -/
structure Column.Recharged (column later : Column n kind) : Prop where
  config : later.config = column.config
  count : later.count = column.count
  remembered : later.remembered = column.remembered
  values : later.values.size = column.values.size
  validity : later.validity.size = column.validity.size

namespace Edit

variable {session : Session n kind} {stop : Failure → Session n kind → Prop}

theorem ends_moveBuffer {which : Buffer} {post : Bool → Session n kind → Prop} :
    Ends (moveBuffer which) session post stop ↔
      Ends ((session.column.buffer which).moveTo session.column.account) session.ledger
        (fun moved ledger => post moved.2 ⟨session.column.withBuffer which moved.1, ledger⟩)
        (fun failure ledger => stop failure { session with ledger }) := by
  cases ran : (session.column.buffer which).moveTo session.column.account session.ledger <;>
    simp [Ends, moveBuffer, ran]

/-- The values are moved before the validity bitmap; a notice that follows changes no charge. -/
theorem ends_chargeBlocks {post : Session n kind → Prop}
    (noted : ∀ session notice, post session →
      post { session with ledger := session.ledger.note notice })
    (moved : Ends (session.column.values.moveTo session.column.account) session.ledger
      (fun values between =>
        Ends (session.column.validity.moveTo session.column.account) between
          (fun validity last =>
            post ⟨{ session.column with values := values.1, validity := validity.1 }, last⟩)
          (fun failure last =>
            stop failure ⟨{ session.column with values := values.1 }, last⟩))
      (fun failure last => stop failure { session with ledger := last })) :
    Ends chargeBlocks session (fun _ after => post after) stop := by
  rw [chargeBlocks, ends_bind, ends_moveBuffer]
  refine moved.mono_post ?_
  intro values between given
  rw [ends_bind, ends_moveBuffer]
  refine given.mono_post ?_
  intro validity last held
  by_cases fits : (values.2 && validity.2) = true
  · rw [if_pos fits]
    exact held
  · rw [if_neg fits]
    exact noted _ _ held

theorem chargeBlocks_ends (session : Session n kind) :
    Ends chargeBlocks session (fun _ after => after.column = session.column.settled)
      (fun failure _ => failure = .overdrawn) := by
  refine ends_chargeBlocks (fun _ _ same => same) ?_
  refine (Block.moveTo_stops _ _ _).mono_post ?_
  intro values between movedValues
  refine (Block.moveTo_stops _ _ _).mono_post ?_
  intro validity last movedValidity
  rw [movedValues, movedValidity]
  rfl

/-- Where charging stops, it has charged the values at most. -/
theorem chargeBlocks_recharges (session : Session n kind) : Ends chargeBlocks session
    (fun _ after => session.column.Recharged after.column)
    (fun _ after => session.column.Recharged after.column) := by
  refine ends_chargeBlocks (fun _ _ same => same) ?_
  refine (Block.moveTo_stops _ _ _).mono ?_ fun _ _ _ => ⟨rfl, rfl, rfl, rfl, rfl⟩
  intro values between movedValues
  refine (Block.moveTo_stops _ _ _).mono ?_ fun _ _ _ => ?_
  · intro validity last movedValidity
    rw [movedValues, movedValidity]
    exact ⟨rfl, rfl, rfl, rfl, rfl⟩
  · rw [movedValues]
    exact ⟨rfl, rfl, rfl, rfl, rfl⟩

end Edit

namespace Column

/-- The column with the blocks of another, charged to its own account. -/
def receiving (column giver : Column n kind) : Column n kind :=
  { column with
    values := ⟨giver.values.bytes, column.account⟩
    validity := ⟨giver.validity.bytes, column.account⟩
    count := giver.count
    remembered := giver.capacity }

theorem receiving_shows {column giver : Column n kind} {slots : Slots kind}
    (shows : giver.Shows slots) : (column.receiving giver).Shows slots :=
  ⟨⟨shows.sound.count_le, shows.sound.clear⟩, shows.reads⟩

end Column

namespace Exchange

variable {exchange : Exchange n kind} {post : Unit → Exchange n kind → Prop}
variable {stop : Failure → Exchange n kind → Prop}

theorem ends_onTarget {edit : Edit n kind Unit} : Ends (onTarget edit) exchange post stop ↔
    Ends edit ⟨exchange.target, exchange.ledger⟩
      (fun _ after => post () ⟨exchange.source, after.column, after.ledger⟩)
      (fun failure after => stop failure ⟨exchange.source, after.column, after.ledger⟩) := by
  cases ran : edit ⟨exchange.target, exchange.ledger⟩ <;> simp [Ends, onTarget, ran]

theorem ends_onSource {edit : Edit n kind Unit} : Ends (onSource edit) exchange post stop ↔
    Ends edit ⟨exchange.source, exchange.ledger⟩
      (fun _ after => post () ⟨after.column, exchange.target, after.ledger⟩)
      (fun failure after => stop failure ⟨after.column, exchange.target, after.ledger⟩) := by
  cases ran : edit ⟨exchange.source, exchange.ledger⟩ <;> simp [Ends, onSource, ran]

@[simp] theorem ends_handOver : Ends handOver exchange post stop ↔
    post () ⟨exchange.source.bare, exchange.target.holding exchange.source, exchange.ledger⟩ := Iff.rfl

/-- The receiving column is cleared, takes over the blocks and is charged for them, before the giving
one is cleared. -/
theorem ends_transfer
    (moved : ∀ notice, Ends Edit.clear ⟨exchange.target, exchange.ledger.note notice⟩
      (fun _ cleared => Ends Edit.chargeBlocks
        ⟨cleared.column.holding exchange.source, cleared.ledger⟩
        (fun _ charged =>
          let received := { charged.column with
            count := exchange.source.count, remembered := charged.column.capacity }
          Ends Edit.clear ⟨exchange.source.bare, charged.ledger⟩
            (fun _ last => post () ⟨last.column, received, last.ledger⟩)
            (fun failure last => stop failure ⟨last.column, received, last.ledger⟩))
        (fun failure charged => stop failure ⟨exchange.source.bare, charged.column, charged.ledger⟩))
      (fun failure cleared => stop failure ⟨exchange.source, cleared.column, cleared.ledger⟩)) :
    Ends transfer exchange post stop := by
  rw [transfer, ends_bind, ends_get, ends_bind, ends_onTarget, ends_bind, Edit.ends_note]
  refine (moved _).mono_post ?_
  intro _ cleared handed
  rw [ends_bind, ends_handOver, ends_bind, ends_onTarget, ends_bind]
  refine handed.mono_post ?_
  intro _ charged gone
  rw [ends_bind, Edit.ends_setCount, Edit.ends_rememberCapacity, ends_onSource]
  exact gone

theorem transfer_ends (exchange : Exchange n kind) :
    Ends transfer exchange
      (fun _ after => after.source = exchange.source.emptied ∧
        after.target = exchange.target.receiving exchange.source)
      (fun failure _ => failure = .overdrawn) := by
  refine ends_transfer fun _ => (Edit.clear_ends _).mono_post ?_
  intro _ cleared emptied
  refine (Edit.chargeBlocks_ends _).mono_post ?_
  intro _ charged settled
  refine (Edit.clear_ends _).mono_post ?_
  intro _ last gone
  refine ⟨gone, ?_⟩
  rw [settled, emptied]
  rfl

/-- After a transfer the receiving column shows what the giving one showed, which shows nothing. -/
theorem transfer_shows {slots : Slots kind} (exchange : Exchange n kind)
    (shows : exchange.source.Shows slots) :
    Ends transfer exchange
      (fun _ after => after.source.Shows Slots.blank ∧ after.target.Shows slots)
      (fun failure _ => failure = .overdrawn) := by
  refine (transfer_ends exchange).mono_post ?_
  intro _ after reached
  obtain ⟨given, received⟩ := reached
  rw [given, received]
  exact ⟨exchange.source.emptied_shows, Column.receiving_shows shows⟩

end Exchange

end Columnar
