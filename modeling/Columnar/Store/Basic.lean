import Columnar.Column.Call
import Columnar.Column.Copy
import Columnar.Column.Transfer
import Columnar.Store.Table

/-!
Stores: named columns of any kinds and named blocks that share one ledger. Every change is an
action on the store, and what it did before it failed stays done.
-/

namespace Columnar

structure Entry (n : Nat) where
  kind : Kind
  column : Column n kind

structure Store (n : Nat) where
  ledger : Ledger n
  columns : Table (Entry n) := {}
  blocks : Table (Block n) := {}

/-- Why an action on a store stopped: the column or block failed, or it is not there at all, or
the columns that were named do not fit together. -/
inductive Fault where
  | failed (cause : Failure)
  | unknownName (name : String)
  | kindMismatch
  deriving DecidableEq

abbrev StoreM (n : Nat) := EStateM Fault (Store n)

namespace Store

variable {n : Nat} {α : Type}

def ofLimits (limits : Vector Nat n) : Store n := { ledger := Ledger.ofLimits limits }

/-- The notices given since they were last collected, in order. -/
def notices (store : Store n) : List Notice := store.ledger.journal.reverse

def collected (store : Store n) : Store n :=
  { store with ledger := { store.ledger with journal := [] } }

def onLedger (action : Accounting n α) : StoreM n α := fun store =>
  let ⟨ledger, columns, blocks⟩ := store
  match action ledger with
  | .ok result ledger => .ok result ⟨ledger, columns, blocks⟩
  | .error failure ledger => .error (.failed failure) ⟨ledger, columns, blocks⟩

/-! ### Columns -/

def takeColumn (name : String) : StoreM n (Entry n) := fun store =>
  let ⟨ledger, columns, blocks⟩ := store
  match columns.take name with
  | (some entry, columns) => .ok entry ⟨ledger, columns, blocks⟩
  | (none, columns) => .error (.unknownName name) ⟨ledger, columns, blocks⟩

/-- Puts a column into the store. One that had the name before is dropped. -/
def putColumn (name : String) (entry : Entry n) : StoreM n Unit := fun store =>
  let ⟨ledger, columns, blocks⟩ := store
  let (old, columns) := columns.take name
  let store := ⟨ledger, columns.put name entry, blocks⟩
  match old with
  | some old => onLedger old.column.release store
  | none => .ok () store

def findColumn (name : String) : StoreM n (Entry n) := fun store =>
  match store.columns.find? name with
  | some entry => .ok entry store
  | none => .error (.unknownName name) store

def dropColumn (name : String) : StoreM n Unit := do
  let entry ← takeColumn name
  onLedger entry.column.release

/-- Gives a column another name, under which another column is dropped. -/
def renameColumn (name new : String) : StoreM n Unit := do
  let entry ← takeColumn name
  putColumn new entry

/-- Runs an edit on a column that has been taken out, and puts it back whatever happens. -/
def runEdit {kind : Kind} (name : String) (column : Column n kind) (edit : Edit n kind Unit) :
    StoreM n Unit := fun store =>
  let ⟨ledger, columns, blocks⟩ := store
  match edit ⟨column, ledger⟩ with
  | .ok _ session => .ok () ⟨session.ledger, columns.put name ⟨kind, session.column⟩, blocks⟩
  | .error failure session =>
    .error (.failed failure) ⟨session.ledger, columns.put name ⟨kind, session.column⟩, blocks⟩

def editColumn (name : String) (kind : Kind) (edit : Edit n kind Unit) : StoreM n Unit := do
  let entry ← takeColumn name
  if same : entry.kind = kind then
    runEdit name (same ▸ entry.column) edit
  else
    putColumn name entry
    throw .kindMismatch

/-- Runs an edit on one column that reads another one of the same kind. -/
def editBeside (target source : String)
    (edit : (kind : Kind) → Column n kind → Edit n kind Unit) : StoreM n Unit := do
  let other ← findColumn source
  if target = source then
    throw (.unknownName source)
  let entry ← takeColumn target
  if same : other.kind = entry.kind then
    runEdit target entry.column (edit entry.kind (same ▸ other.column))
  else
    putColumn target entry
    throw .kindMismatch

/-- Runs an exchange of two columns that have been taken out, and puts them back whatever
happens. -/
def runExchange {kind : Kind} (source target : String) (giver receiver : Column n kind)
    (action : Exchanging n kind Unit) : StoreM n Unit := fun store =>
  let ⟨ledger, columns, blocks⟩ := store
  let putBack (exchange : Exchange n kind) : Store n :=
    let columns := columns.put source ⟨kind, exchange.source⟩
    ⟨exchange.ledger, columns.put target ⟨kind, exchange.target⟩, blocks⟩
  match action ⟨giver, receiver, ledger⟩ with
  | .ok _ exchange => .ok () (putBack exchange)
  | .error failure exchange => .error (.failed failure) (putBack exchange)

/-- Moves the blocks of one column to another of the same kind. -/
def transferColumn (source target : String) : StoreM n Unit := do
  let giver ← takeColumn source
  let receiver ← tryCatch (takeColumn target) fun fault => do
    putColumn source giver
    throw fault
  if same : giver.kind = receiver.kind then
    runExchange source target (same ▸ giver.column) receiver.column Exchange.transfer
  else
    putColumn source giver
    putColumn target receiver
    throw .kindMismatch

/-! ### Blocks -/

/-- Puts a block into the store. One that had the name before is dropped. -/
def putBlock (name : String) (block : Block n) : StoreM n Unit := fun store =>
  let ⟨ledger, columns, blocks⟩ := store
  let (old, blocks) := blocks.take name
  let store := ⟨ledger, columns, blocks.put name block⟩
  match old with
  | some old => onLedger old.release store
  | none => .ok () store

def takeBlock (name : String) : StoreM n (Block n) := fun store =>
  let ⟨ledger, columns, blocks⟩ := store
  match blocks.take name with
  | (some block, blocks) => .ok block ⟨ledger, columns, blocks⟩
  | (none, blocks) => .error (.unknownName name) ⟨ledger, columns, blocks⟩

def dropBlock (name : String) : StoreM n Unit := do
  let block ← takeBlock name
  onLedger block.release

/-- Makes room in a block. The larger one has its name before the smaller one is given back. -/
def growBlock (name : String) (size : Nat) : StoreM n Unit := do
  let block ← takeBlock name
  if size ≤ block.size then
    putBlock name block
  else
    let larger ← tryCatch (onLedger (block.enlarge size)) fun fault => do
      putBlock name block
      throw fault
    putBlock name larger
    onLedger block.release

/-- Replaces a block by what an action makes of it; a block that the action fails on stays. -/
def editBlock (name : String) (action : Block n → Accounting n (Block n × α)) : StoreM n α := do
  let block ← takeBlock name
  let (changed, result) ← tryCatch (onLedger (action block)) fun fault => do
    putBlock name block
    throw fault
  putBlock name changed
  return result

end Store

end Columnar
