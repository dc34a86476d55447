import Columnar.Column.Read

/-!
Readers: a column read by a position that moves. Taking items ends at the column's count, while
reading at the position does not.
-/

namespace Columnar

structure Reader (n : Nat) (kind : Kind) where
  column : Column n kind
  position : Nat := 0

namespace Reader

variable {n : Nat} {kind : Kind}

def ofColumn (column : Column n kind) : Reader n kind := { column }

def moveTo (reader : Reader n kind) (position : Nat) : Reader n kind := { reader with position }

def isSet (reader : Reader n kind) : Bool := reader.column.validBit reader.position != 0

def cell (reader : Reader n kind) : Cell kind := reader.column.cell reader.position

def get? (reader : Reader n kind) : Option (Element kind) := reader.column.get? reader.position

def remaining (reader : Reader n kind) : Nat := reader.column.count - reader.position

/-- The item at the position and the reader behind it, or nothing at the end. -/
def next? (reader : Reader n kind) : Option (Option (Element kind) × Reader n kind) :=
  if reader.column.count ≤ reader.position then
    none
  else
    some (reader.get?, reader.moveTo (reader.position + 1))

def rest (reader : Reader n kind) : List (Option (Element kind)) × Reader n kind :=
  if reader.column.count ≤ reader.position then
    ([], reader)
  else
    let (items, last) := rest (reader.moveTo (reader.position + 1))
    (reader.get? :: items, last)
termination_by reader.remaining
decreasing_by
  simp only [remaining, moveTo]
  omega

end Reader

end Columnar
