import Columnar.Element.Basic

/-!
Equality of elements as numbers. Integers are equal when their bits are. For floating point
numbers the rules of IEEE 754 hold: a NaN equals nothing, and the two zeros are equal.
-/

namespace Columnar

/-- The pattern of positive infinity of a floating point kind. -/
def Kind.infinity : Kind → Nat
  | .float32 => 0x7f800000
  | _ => 0x7ff0000000000000

namespace Element

variable {kind : Kind}

/-- The bits below the sign: exponent and significand. -/
def magnitude (element : Element kind) : Nat := (element.setWidth (8 * kind.width - 1)).toNat

/-- The exponent is all ones and the significand is not zero. -/
def isNaN (element : Element kind) : Bool := kind.infinity < element.magnitude

def floatEqual (left right : Element kind) : Bool :=
  !left.isNaN && !right.isNaN &&
    (left == right || (left.magnitude == 0 && right.magnitude == 0))

def equal (left right : Element kind) : Bool :=
  if kind.isFloat then floatEqual left right else left == right

end Element

end Columnar
