import Columnar.Proofs.Store.Steps

namespace Columnar

open Columnar.Action

variable {n : Nat}

/-- Why a command stops in a store, if it does. -/
def Command.fault? (command : Command n) (store : Store n) : Option Fault :=
  match command.run store with
  | .ok _ _ => none
  | .error fault _ => some fault

namespace Store

variable {store : Store n} {command : Command n} {commands : List (Command n)}

/-- Every command of the run is allowed in the store that it meets. -/
def Along (allowed : Store n → Command n → Prop) : Store n → List (Command n) → Prop
  | _, [] => True
  | store, command :: rest => allowed store command ∧ Along allowed (store.after command) rest

instance Along.decidable {allowed : Store n → Command n → Prop}
    [∀ store command, Decidable (allowed store command)] :
    (store : Store n) → (commands : List (Command n)) → Decidable (store.Along allowed commands)
  | _, [] => isTrue trivial
  | store, command :: rest =>
    have : Decidable (Along allowed (store.after command) rest) := Along.decidable _ rest
    inferInstanceAs (Decidable (allowed store command ∧ Along allowed (store.after command) rest))

theorem along_true : Along (fun _ _ => True) store commands := by
  induction commands generalizing store with
  | nil => trivial
  | cons command rest ih => exact ⟨trivial, ih⟩

theorem runAll_append (further : List (Command n)) :
    store.runAll (commands ++ further) = (store.runAll commands).runAll further :=
  List.foldl_append

theorem along_append {allowed : Store n → Command n → Prop} {further : List (Command n)}
    (first : store.Along allowed commands) (second : (store.runAll commands).Along allowed further) :
    store.Along allowed (commands ++ further) := by
  induction commands generalizing store with
  | nil => exact second
  | cons command rest ih => exact ⟨first.1, ih first.2 second⟩

theorem Along.of_append {allowed : Store n → Command n → Prop} {further : List (Command n)}
    (along : store.Along allowed (commands ++ further)) : store.Along allowed commands := by
  induction commands generalizing store with
  | nil => trivial
  | cons command rest ih => exact ⟨along.1, ih along.2⟩

/-- A command ends well or with a fault, and what the contract says of either holds afterwards. -/
theorem after_of_ends {good : Store n → Prop} {bad : Fault → Store n → Prop}
    (ends : Ends command.run store (fun _ after => good after) bad) :
    command.fault? store = none ∧ good (store.after command) ∨
      ∃ fault, command.fault? store = some fault ∧ bad fault (store.after command) := by
  unfold Command.fault? Store.after
  cases ran : command.run store with
  | ok reply after => exact .inl ⟨rfl, ends.of_ok ran⟩
  | error fault after => exact .inr ⟨fault, rfl, ends.of_error ran⟩

theorem after_of_well {good : Store n → Prop} {bad : Fault → Store n → Prop}
    (ends : Ends command.run store (fun _ after => good after) bad)
    (well : command.fault? store = none) : good (store.after command) := by
  rcases after_of_ends ends with ⟨_, holds⟩ | ⟨_, stopped, _⟩
  · exact holds
  · cases well.symm.trans stopped

theorem after_of_fault {good : Store n → Prop} {bad : Fault → Store n → Prop}
    (ends : Ends command.run store (fun _ after => good after) bad) {fault : Fault}
    (stopped : command.fault? store = some fault) : bad fault (store.after command) := by
  rcases after_of_ends ends with ⟨well, _⟩ | ⟨_, same, holds⟩
  · cases well.symm.trans stopped
  · cases same.symm.trans stopped
    exact holds

theorem after_of_total {good : Store n → Prop}
    (ends : Ends command.run store (fun _ after => good after) fun _ _ => False) :
    command.fault? store = none ∧ good (store.after command) := by
  rcases after_of_ends ends with done | ⟨_, _, never⟩
  · exact done
  · exact never.elim

theorem holds_after {inv : Store n → Prop} (ends : Ends command.run store (fun _ => inv) (fun _ => inv)) :
    inv (store.after command) := by
  rcases after_of_ends ends with ⟨_, kept⟩ | ⟨_, _, kept⟩
  · exact kept
  · exact kept

/-- What every allowed command keeps, a run of allowed commands keeps. -/
theorem runAll_keeps {inv : Store n → Prop} {allowed : Store n → Command n → Prop}
    (step : ∀ store command, inv store → allowed store command → inv (store.after command))
    (start : inv store) (along : store.Along allowed commands) : inv (store.runAll commands) := by
  induction commands generalizing store with
  | nil => exact start
  | cons command rest ih => exact ih (step store command start along.1) along.2

/-- Where an invariant shows that every command of a run is admitted as well, they all are. -/
theorem along_of_keeps {inv : Store n → Prop} {allowed admitted : Store n → Command n → Prop}
    (step : ∀ store command, inv store → allowed store command →
      inv (store.after command) ∧ admitted store command)
    (start : inv store) (along : store.Along allowed commands) : store.Along admitted commands := by
  induction commands generalizing store with
  | nil => trivial
  | cons command rest ih =>
    obtain ⟨kept, fits⟩ := step store command start along.1
    exact ⟨fits, ih kept along.2⟩

/-- A run that makes one column of bytes. -/
def making (account : Fin n) (slots : Nat) : List (Command n) :=
  [.create "x" .uint8 "x" none account { initialCapacity := slots }]

/-! ### Commands on blocks -/

/-- Charging accounts, and taking out and putting in the block of one name, leave this alone. -/
structure BlockFrame (name : String) (inv : Store n → Prop) : Prop where
  ledger : ∀ {store : Store n} {ledger : Ledger n}, inv store → inv { store with ledger }
  without : ∀ {store : Store n}, inv store → inv (store.withoutBlock name)
  put : ∀ {store : Store n} (block : Block n), inv store → inv (store.withBlock name block)

namespace BlockFrame

variable {name : String} {inv : Store n → Prop} {α : Type} (frame : BlockFrame name inv)

include frame

theorem onLedger (action : Accounting n α) : Keeps (Store.onLedger action) inv fun _ => inv :=
  fun _ holds => ends_onLedger.mpr
    (ends_of (fun _ _ _ => frame.ledger holds) fun _ _ _ => frame.ledger holds)

theorem takeBlock : Keeps (Store.takeBlock name) inv fun _ => inv :=
  fun _ holds => ends_takeBlock (fun _ => holds) fun _ _ => frame.without holds

theorem putBlock (block : Block n) : Keeps (Store.putBlock name block) inv fun _ => inv := by
  intro store holds
  have placed := frame.put block (frame.without holds)
  refine ends_putBlock (fun _ => frame.put block holds) fun _ _ => ?_
  exact ends_of (fun _ _ _ => frame.ledger placed) fun _ _ _ => frame.ledger placed

theorem putBack (block : Block n) (fault : Fault) :
    Keeps (do Store.putBlock name block; throw fault : StoreM n α) inv fun _ => inv :=
  (frame.putBlock block).bind fun _ => keeps_throw fault

theorem growBlock (size : Nat) : Keeps (Store.growBlock name size) inv fun _ => inv := by
  refine frame.takeBlock.bind fun block => ?_
  split
  · exact frame.putBlock block
  · refine Keeps.bind (.tryCatch (frame.onLedger _) (frame.putBack block)) ?_
    intro larger
    exact (frame.putBlock larger).bind fun _ => frame.onLedger _

theorem editBlock (action : Block n → Accounting n (Block n × α)) :
    Keeps (Store.editBlock name action) inv fun _ => inv := by
  refine frame.takeBlock.bind fun block => ?_
  refine Keeps.bind (.tryCatch (frame.onLedger _) (frame.putBack block)) ?_
  intro replaced
  obtain ⟨changed, result⟩ := replaced
  exact (frame.putBlock changed).bind fun _ => keeps_pure result

end BlockFrame

end Store

/-- The block that a command may change. -/
def Command.block? : Command n → Option String
  | allocateBlock name .. | emptyBlock name .. | dropBlock name | growBlock name ..
  | writeBlock name .. | zeroBlock name | moveBlock name .. => some name
  | _ => none

/-- A command on a block leaves everything else alone, however it ends. -/
theorem Command.keeps_of_block? {command : Command n} {name : String} {inv : Store n → Prop}
    (named : command.block? = some name) (frame : Store.BlockFrame name inv) :
    Keeps command.run inv fun _ => inv := by
  cases command <;> cases named
  case allocateBlock account size =>
    refine (frame.onLedger _).bind fun block => ?_
    exact (frame.putBlock block).bind fun _ => keeps_pure _
  case emptyBlock account => exact (frame.putBlock _).bind fun _ => keeps_pure _
  case dropBlock =>
    refine Keeps.bind ?_ fun _ => keeps_pure _
    exact frame.takeBlock.bind fun _ => frame.onLedger _
  case growBlock size => exact (frame.growBlock size).bind fun _ => keeps_pure _
  case writeBlock | zeroBlock | moveBlock => exact frame.editBlock _

def Command.OnBlocks : Command n → Prop
  | allocateBlock .. | emptyBlock .. | dropBlock .. | growBlock .. | writeBlock .. | zeroBlock ..
  | moveBlock .. => True
  | _ => False

theorem Command.OnBlocks.keepsColumns {command : Command n} (blocks : command.OnBlocks)
    (store : Store n) :
    Ends command.run store (fun _ after => after.columns = store.columns)
      (fun _ after => after.columns = store.columns) := by
  have frame (name : String) : Store.BlockFrame name fun other => other.columns = store.columns :=
    ⟨id, id, fun _ => id⟩
  have named : ∃ name, command.block? = some name := by
    cases command <;> cases blocks <;> exact ⟨_, rfl⟩
  obtain ⟨name, named⟩ := named
  exact command.keeps_of_block? named (frame name) store rfl

end Columnar
