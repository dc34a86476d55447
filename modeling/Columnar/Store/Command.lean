import Columnar.Store.Basic

/-!
Commands: everything that can be done to a store, as data. A run of commands goes on after a
command that failed.
-/

namespace Columnar

inductive Command (n : Nat) where
  | create (name : String) (kind : Kind) (field : String) (type : Option FieldType)
      (account : Fin n) (config : Config)
  | drop (name : String)
  | rename (name new : String)
  | edit (name : String) (kind : Kind) (call : Call kind)
  | copy (target source : String) (safe : Bool) (sourceIndex targetIndex : Nat)
  | sibling (source name field : String) (account : Fin n)
  | transfer (source target : String)
  | split (source target : String) (start length : Nat)
  | allocateBlock (name : String) (account : Fin n) (size : Nat)
  | emptyBlock (name : String) (account : Fin n)
  | dropBlock (name : String)
  | growBlock (name : String) (size : Nat)
  | writeBlock (name : String) (start : Nat) (run : List UInt8)
  | zeroBlock (name : String)
  | moveBlock (name : String) (target : Fin n)

inductive Reply where
  | done
  | fits (within : Bool)
  deriving DecidableEq

namespace Command

variable {n : Nat}

/-- Makes a column without memory, of the given field type or of a nullable one. -/
def newColumn (name : String) (kind : Kind) (field : String) (type : Option FieldType)
    (account : Fin n) (config : Config) : StoreM n Unit :=
  match type with
  | none => Store.putColumn name ⟨kind, .empty field account config⟩
  | some type =>
    match Column.ofType? field type account config with
    | .ok column => Store.putColumn name ⟨kind, column⟩
    | .error cause => throw (.failed (.error cause))

def run : Command n → StoreM n Reply
  | create name kind field type account config => do
    newColumn name kind field type account config
    return .done
  | drop name => do
    Store.dropColumn name
    return .done
  | rename name new => do
    Store.renameColumn name new
    return .done
  | edit name kind call => do
    Store.editColumn name kind call.edit
    return .done
  | copy target source safe sourceIndex targetIndex => do
    Store.editBeside target source fun _ other =>
      if safe then Edit.copyFromSafe other sourceIndex targetIndex
      else Edit.copyFrom other sourceIndex targetIndex
    return .done
  | sibling source name field account => do
    let entry ← Store.findColumn source
    Store.putColumn name ⟨entry.kind, entry.column.sibling field account⟩
    return .done
  | transfer source target => do
    Store.transferColumn source target
    return .done
  | split source target start length => do
    Store.editBeside target source fun _ other => Edit.split other start length
    return .done
  | allocateBlock name account size => do
    let block ← Store.onLedger (Block.allocate account size)
    Store.putBlock name block
    return .done
  | emptyBlock name account => do
    Store.putBlock name (.empty account)
    return .done
  | dropBlock name => do
    Store.dropBlock name
    return .done
  | growBlock name size => do
    Store.growBlock name size
    return .done
  | writeBlock name start run =>
    Store.editBlock name fun block =>
      match block.bytes.overwrite? start run with
      | some bytes => return ({ block with bytes }, .done)
      | none => throw .outOfRange
  | zeroBlock name =>
    Store.editBlock name fun block => return (block.zeroed, .done)
  | moveBlock name target =>
    Store.editBlock name fun block => do
      let (block, within) ← block.moveTo target
      return (block, .fits within)

end Command

namespace Store

variable {n : Nat}

/-- The store after a command, whether it succeeded or not. -/
def after (store : Store n) (command : Command n) : Store n :=
  match command.run store with
  | .ok _ store => store
  | .error _ store => store

def runAll (store : Store n) (commands : List (Command n)) : Store n := commands.foldl after store

end Store

end Columnar
