import Columnar.Cell
import Columnar.Column.Reserve
import Columnar.Element.Integer

/-!
Writing slots. The plain writers ask for a slot within capacity; naming another is a breach. The
safe ones grow the column first. A value is written before its validity, and making a slot null
leaves its value bytes as they are.
-/

namespace Columnar.Edit

variable {n : Nat} {kind : Kind}

def set (index : Nat) (value : Element kind) : Edit n kind Unit := do
  putValue index value
  putValid index true

def setSafe (index : Nat) (value : Element kind) : Edit n kind Unit := do
  reserve (index + 1)
  set index value

/-- Writes the value where the flag is positive, and else makes the slot null. -/
def setIf (index : Nat) (flag : Int) (value : Element kind) : Edit n kind Unit :=
  if 0 < flag then set index value else putValid index false

def setIfSafe (index : Nat) (flag : Int) (value : Element kind) : Edit n kind Unit := do
  reserve (index + 1)
  setIf index flag value

def setNull (index : Nat) : Edit n kind Unit := do
  reserve (index + 1)
  putValid index false

def setHolder (index : Nat) (holder : Holder kind) : Edit n kind Unit :=
  set index holder.value

def setHolderSafe (index : Nat) (holder : Holder kind) : Edit n kind Unit := do
  reserve (index + 1)
  setHolder index holder

/-- Writes what the cell says; a negative flag is refused before anything is touched. -/
def setCell (index : Nat) (cell : Cell kind) : Edit n kind Unit :=
  if cell.flag < 0 then
    throw (.error (.negativeFlag cell.flag))
  else
    setIf index cell.flag cell.value

/-- Writes what the cell says, growing the column first; a negative flag is refused before. -/
def setCellSafe (index : Nat) (cell : Cell kind) : Edit n kind Unit :=
  if cell.flag < 0 then
    throw (.error (.negativeFlag cell.flag))
  else do
    reserve (index + 1)
    setIf index cell.flag cell.value

def setTruncated (index : Nat) (number : Int) : Edit n kind Unit :=
  set index (Element.truncate kind number)

def setTruncatedSafe (index : Nat) (number : Int) : Edit n kind Unit :=
  setSafe index (Element.truncate kind number)

/-- Writes a code of a dictionary, growing the column first. -/
def setEncoded (index : Nat) (code : Int) : Edit n kind Unit :=
  setSafe index (Element.truncate kind code)

def clear : Edit n kind Unit := do
  let account := (← column).account
  replaceBuffer .values (.empty account)
  replaceBuffer .validity (.empty account)
  setCount 0

/-- Zeroes both blocks and keeps them, so that every slot is null. -/
def reset : Edit n kind Unit := fun session =>
  let session := session.mapValues fun bytes => Bytes.zeros bytes.size
  let session := session.mapValidity fun bytes => Bytes.zeros bytes.size
  setCount 0 session

end Columnar.Edit
