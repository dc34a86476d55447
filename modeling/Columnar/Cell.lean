import Columnar.Element.Equality

/-!
Values on their way in and out of a column. A holder always has a value. A cell carries a flag
beside the value: a positive flag makes the value valid, zero makes it null, and negative flags
are reserved. The value of a null cell means nothing, but is compared all the same.
-/

namespace Columnar

variable {kind : Kind}

structure Holder (kind : Kind) where
  value : Element kind
  deriving DecidableEq

/-- The holder of zero. -/
instance : Inhabited (Holder kind) := ⟨⟨0⟩⟩

structure Cell (kind : Kind) where
  flag : Int
  value : Element kind
  deriving DecidableEq

namespace Cell

def null : Cell kind := ⟨0, 0⟩

def valid (value : Element kind) : Cell kind := ⟨1, value⟩

instance : Inhabited (Cell kind) := ⟨null⟩

def ofOption : Option (Element kind) → Cell kind
  | some value => valid value
  | none => null

def ofHolder (holder : Holder kind) : Cell kind := valid holder.value

def isNull (cell : Cell kind) : Bool := cell.flag ≤ 0

def toOption (cell : Cell kind) : Option (Element kind) :=
  if 0 < cell.flag then some cell.value else none

/-- Both the flags and the values agree, the values as numbers. -/
def equal (left right : Cell kind) : Bool :=
  left.flag == right.flag && left.value.equal right.value

end Cell

end Columnar
