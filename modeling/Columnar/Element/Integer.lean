import Columnar.Element.Basic
import Columnar.Word

namespace Columnar.Element

variable {kind : Kind}

/-- The element with the low bits of a number. -/
def truncate (kind : Kind) (number : Int) : Element kind := BitVec.ofInt _ number

/-- The number that an element of an integer kind stands for. -/
def toInt (element : Element kind) : Int :=
  if kind.isUnsigned then element.toNat else BitVec.toInt element

/-- The number that an element stands for, brought into the signed 64-bit range. -/
def toLong (element : Element kind) : Int := Int.bmod element.toInt Word.size

end Columnar.Element
