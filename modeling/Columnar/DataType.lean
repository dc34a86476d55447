namespace Columnar

inductive DataType where
  | int (bytes : Nat) (isUnsigned : Bool)
  | float (bytes : Nat)
  deriving DecidableEq

namespace DataType

def width : DataType → Nat
  | int bytes _ => bytes
  | float bytes => bytes

def isUnsigned : DataType → Bool
  | int _ unsigned => unsigned
  | float _ => false

def isFloat : DataType → Bool
  | int _ _ => false
  | float _ => true

def render : DataType → String
  | int bytes true => s!"uint({bytes})"
  | int bytes false => s!"int({bytes})"
  | float bytes => s!"float({bytes})"

protected def compare : DataType → DataType → Ordering
  | int left leftUnsigned, int right rightUnsigned =>
    (Ord.compare left right).then (Ord.compare leftUnsigned rightUnsigned)
  | int _ _, float _ => .lt
  | float _, int _ _ => .gt
  | float left, float right => Ord.compare left right

instance : Ord DataType := ⟨DataType.compare⟩

end DataType

end Columnar
