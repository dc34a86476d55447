import Columnar.Cell
import Columnar.Column.Basic
import Columnar.Element.Integer
import Columnar.Element.Wide

/-!
Reading slots. Beyond its capacity a column reads as null, except by `get`, which reports it.
Without null checking `get` returns whatever bytes a null slot holds.
-/

namespace Columnar.Column

variable {n : Nat} {kind : Kind}

/-- One where the slot is valid, else zero. -/
def validBit (column : Column n kind) (index : Nat) : UInt8 :=
  if index < column.capacity then (Bitmap.bit? column.validity.bytes index).getD 0 else 0

def isNull (column : Column n kind) (index : Nat) : Bool := column.validBit index == 0

/-- The bits of a slot within capacity, valid or not. -/
def bitsAt (column : Column n kind) (index : Nat) : Element kind :=
  (Slot.read? kind column.values.bytes index).getD 0

protected def get (column : Column n kind) (index : Nat) : Except Error (Element kind) :=
  if column.capacity ≤ index then
    .error (.outOfBound index column.capacity)
  else if column.config.nullChecking && column.isNull index then
    .error (.nullRead index)
  else
    .ok (column.bitsAt index)

def get? (column : Column n kind) (index : Nat) : Option (Element kind) :=
  if column.isNull index then none else some (column.bitsAt index)

def cell (column : Column n kind) (index : Nat) : Cell kind :=
  if column.isNull index then .null else .valid (column.bitsAt index)

def getLong (column : Column n kind) (index : Nat) : Except Error Int :=
  (column.get index).map Element.toLong

/-- The value of a slot at twice its width, or nothing where it is null. -/
def getWide? (column : Column n kind) (index : Nat) : Option (WideElement kind) :=
  if column.isNull index then none else Slot.readWide? kind column.values.bytes index

end Columnar.Column
