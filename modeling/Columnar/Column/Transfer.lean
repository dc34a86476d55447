import Columnar.Column.Write

/-!
Moving the blocks of a column to another one of the same kind. No byte is copied. The blocks are
charged to the receiving column's account, even beyond its limit, and the giving column is left
without memory.
-/

namespace Columnar

/-- Two columns of one kind, of which one gives to the other, and the ledger they share. -/
structure Exchange (n : Nat) (kind : Kind) where
  source : Column n kind
  target : Column n kind
  ledger : Ledger n

/-- An action on an exchange. What it did before it failed stays done. -/
abbrev Exchanging (n : Nat) (kind : Kind) := EStateM Failure (Exchange n kind)

namespace Edit

variable {n : Nat} {kind : Kind}

/-- Charges both blocks to the column's account, with a notice when it does not admit them. -/
def chargeBlocks : Edit n kind Unit := do
  let fitsValues ← moveBuffer .values
  let fitsValidity ← moveBuffer .validity
  unless fitsValues && fitsValidity do
    let column ← column
    let account ← onLedger (return (← get).account column.account)
    note (.beyondLimit column.field.name account.allocated account.limit)

end Edit

namespace Exchange

variable {n : Nat} {kind : Kind} {α : Type}

def onTarget (edit : Edit n kind α) : Exchanging n kind α := fun exchange =>
  match edit ⟨exchange.target, exchange.ledger⟩ with
  | .ok result session => .ok result ⟨exchange.source, session.column, session.ledger⟩
  | .error failure session => .error failure ⟨exchange.source, session.column, session.ledger⟩

def onSource (edit : Edit n kind α) : Exchanging n kind α := fun exchange =>
  match edit ⟨exchange.source, exchange.ledger⟩ with
  | .ok result session => .ok result ⟨session.column, exchange.target, session.ledger⟩
  | .error failure session => .error failure ⟨session.column, exchange.target, session.ledger⟩

/-- Hands the blocks over as they are, to a column that has none. They stay charged where they
are. -/
def handOver : Exchanging n kind Unit := modify fun exchange =>
  let source := exchange.source
  { exchange with
    source := { source with values := .empty source.account, validity := .empty source.account }
    target := { exchange.target with values := source.values, validity := source.validity } }

/-- Moves the blocks and the count of one column to the other, which gives back its own blocks
first and remembers the capacity that it receives. -/
def transfer : Exchanging n kind Unit := do
  let { source, target, .. } ← get
  onTarget do
    Edit.note (.moving source.count source.field.name target.field.name)
    Edit.clear
  handOver
  onTarget do
    Edit.chargeBlocks
    Edit.setCount source.count
    Edit.rememberCapacity
  onSource Edit.clear

end Exchange

end Columnar
