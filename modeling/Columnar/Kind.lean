import Columnar.DataType

namespace Columnar

inductive Kind where
  | int8 | int16 | int32 | int64
  | uint8 | uint16 | uint32 | uint64
  | float32 | float64
  deriving DecidableEq

namespace Kind

/-- The number of bytes of one slot. -/
def width : Kind → Nat
  | int8 | uint8 => 1
  | int16 | uint16 => 2
  | int32 | uint32 | float32 => 4
  | int64 | uint64 | float64 => 8

def isFloat : Kind → Bool
  | float32 | float64 => true
  | _ => false

def isUnsigned : Kind → Bool
  | uint8 | uint16 | uint32 | uint64 => true
  | _ => false

def dataType (kind : Kind) : DataType :=
  if kind.isFloat then .float kind.width else .int kind.width kind.isUnsigned

theorem width_pos (kind : Kind) : 0 < kind.width := by cases kind <;> decide

theorem width_le (kind : Kind) : kind.width ≤ 8 := by cases kind <;> decide

theorem width_dvd (kind : Kind) : kind.width ∣ 16 := by cases kind <;> decide

end Kind

end Columnar
