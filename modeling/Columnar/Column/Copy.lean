import Columnar.Bitmap.Copy
import Columnar.Column.Reserve

namespace Columnar.Edit

variable {n : Nat} {kind : Kind}

def putBytes (index : Nat) (run : List UInt8) : Edit n kind Unit := fun session =>
  let start := index * kind.width
  if start + run.length ≤ session.column.values.bytes.size then
    .ok () (session.mapValues (·.overwrite start run))
  else
    .error .outOfRange session

/-- Copies slot `source` of another column to slot `target` of this one; both must be within
capacity. -/
def copyFrom (other : Column n kind) (source target : Nat) : Edit n kind Unit := do
  let some bit := Bitmap.bit? other.validity.bytes source | throw .outOfRange
  let some run := Slot.bytes? kind other.values.bytes source | throw .outOfRange
  putBytes target run
  putValid target (bit != 0)

def copyFromSafe (other : Column n kind) (source target : Nat) : Edit n kind Unit := do
  reserve (target + 1)
  copyFrom other source target

/-- Writes the bits of `[start, stop)` of another bitmap to the start of this column's. -/
def putBits (bitmap : Bytes) (start stop : Nat) : Edit n kind Unit := fun session =>
  match Bitmap.copyRange? session.column.validity.bytes bitmap start stop with
  | some bytes => .ok () (session.mapValidity fun _ => bytes)
  | none => .error .outOfRange session

/-- Replaces this column's slots by `length` slots of another from `start` on. The range must lie
within the capacity of the other column. -/
def split (other : Column n kind) (start length : Nat) : Edit n kind Unit := do
  let stop := start + length
  if Word.size ≤ stop ∨ other.capacity < stop then
    throw (.error (.splitRange start length other.capacity))
  note (.splitting start stop other.field.name (← column).field.name)
  allocate length
  let some run := other.values.bytes.slice? (start * kind.width) (stop * kind.width)
    | throw .outOfRange
  putBytes 0 run
  putBits other.validity.bytes start stop
  setCount length

end Columnar.Edit
