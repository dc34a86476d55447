namespace Columnar

abbrev Bytes := Array UInt8

namespace Bytes

def zeros (length : Nat) : Bytes := Array.replicate length 0

/-- The bytes of `[start, stop)`, which must lie inside the buffer. -/
def slice? (bytes : Bytes) (start stop : Nat) : Option (List UInt8) :=
  if start ≤ stop ∧ stop ≤ bytes.size then some (bytes.extract start stop).toList else none

/-- Writes a run of bytes from `start` on; what would fall beyond the end is dropped. -/
def overwrite (bytes : Bytes) (start : Nat) : List UInt8 → Bytes
  | [] => bytes
  | byte :: rest => overwrite (bytes.setIfInBounds start byte) (start + 1) rest

/-- Writes a run of bytes from `start` on, which must fit. -/
def overwrite? (bytes : Bytes) (start : Nat) (run : List UInt8) : Option Bytes :=
  if start + run.length ≤ bytes.size then some (bytes.overwrite start run) else none

/-- A longer buffer that starts with the given bytes and goes on with zeros. -/
def extendTo (bytes : Bytes) (length : Nat) : Bytes := bytes ++ zeros (length - bytes.size)

@[simp] theorem size_zeros (length : Nat) : (zeros length).size = length :=
  Array.size_replicate

@[simp] theorem size_overwrite (bytes : Bytes) (start : Nat) (run : List UInt8) :
    (overwrite bytes start run).size = bytes.size := by
  induction run generalizing bytes start with
  | nil => rfl
  | cons byte rest ih => simp [overwrite, ih]

theorem size_extendTo (bytes : Bytes) (longer : bytes.size ≤ length) :
    (bytes.extendTo length).size = length := by
  simp [extendTo]
  omega

end Bytes

end Columnar
