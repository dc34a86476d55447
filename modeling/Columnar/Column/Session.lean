import Columnar.Column.Basic

/-!
Sessions: a column together with the ledger that its blocks are charged to. Everything that
changes a column is an edit, an action on a session. What an edit did before it failed stays
done.
-/

namespace Columnar

structure Session (n : Nat) (kind : Kind) where
  column : Column n kind
  ledger : Ledger n

abbrev Edit (n : Nat) (kind : Kind) := EStateM Failure (Session n kind)

namespace Session

variable {n : Nat} {kind : Kind}

@[inline] def mapValues (session : Session n kind) (change : Bytes → Bytes) : Session n kind :=
  { session with
    column := { session.column with values := session.column.values.mapBytes change } }

@[inline] def mapValidity (session : Session n kind) (change : Bytes → Bytes) : Session n kind :=
  { session with
    column := { session.column with validity := session.column.validity.mapBytes change } }

end Session

namespace Edit

variable {n : Nat} {kind : Kind} {α : Type}

def onLedger (action : Accounting n α) : Edit n kind α := fun session =>
  match action session.ledger with
  | .ok result ledger => .ok result { session with ledger }
  | .error failure ledger => .error failure { session with ledger }

theorem ok_of_onLedger {action : Accounting n α} {result : α} {before after : Session n kind}
    (ran : onLedger action before = .ok result after) :
    ∃ ledger, action before.ledger = .ok result ledger ∧ after = { before with ledger } := by
  unfold onLedger at ran
  split at ran
  · rename_i found
    cases ran
    exact ⟨_, found, rfl⟩
  · cases ran

def note (notice : Notice) : Edit n kind Unit := fun session =>
  .ok () { session with ledger := session.ledger.note notice }

theorem note_bind {β : Type} (notice : Notice) (next : Unit → Edit n kind β)
    (session : Session n kind) :
    (note notice >>= next) session =
      next () { session with ledger := session.ledger.note notice } := rfl

def column : Edit n kind (Column n kind) := fun session => .ok session.column session

theorem column_bind {β : Type} (next : Column n kind → Edit n kind β) (session : Session n kind) :
    (column >>= next) session = next session.column session := rfl

def setCount (count : Nat) : Edit n kind Unit := fun session =>
  .ok () { session with column := { session.column with count } }

def remember (slots : Nat) : Edit n kind Unit := fun session =>
  .ok () { session with column := { session.column with remembered := slots } }

def rememberCapacity : Edit n kind Unit := fun session =>
  remember session.column.capacity session

/-- Puts a block in place of one of the column's two and gives the old one back. -/
def replaceBuffer (which : Buffer) (block : Block n) : Edit n kind Unit := fun session =>
  onLedger (session.column.buffer which).release
    { session with column := session.column.withBuffer which block }

/-- Makes room for at least the given number of bytes in one of the blocks. -/
def growBuffer (which : Buffer) (size : Nat) : Edit n kind Unit := do
  let block := (← column).buffer which
  unless size ≤ block.size do
    replaceBuffer which (← onLedger (block.enlarge size))

/-- Charges one of the blocks to the column's account and tells whether it admits it. -/
def moveBuffer (which : Buffer) : Edit n kind Bool := fun session =>
  match (session.column.buffer which).moveTo session.column.account session.ledger with
  | .ok (block, fits) ledger =>
    .ok fits { column := session.column.withBuffer which block, ledger }
  | .error failure ledger => .error failure { session with ledger }

/-- Writes a slot's value; the slot must lie inside the value block. -/
def putValue (index : Nat) (value : Element kind) : Edit n kind Unit := fun session =>
  if Slot.Within kind session.column.values.bytes index then
    .ok () (session.mapValues (Slot.write kind · index value))
  else
    .error .outOfRange session

/-- Writes a slot's validity; its bit must lie inside the validity block. -/
def putValid (index : Nat) (valid : Bool) : Edit n kind Unit := fun session =>
  if Bitmap.Covers session.column.validity.bytes index then
    .ok () (session.mapValidity (Bitmap.put · index valid))
  else
    .error .outOfRange session

end Edit

end Columnar
