import Columnar.Bytes

/-!
Bitmaps in byte buffers. Bit `i` lives in byte `i / 8` at place `i % 8`, the least significant
place first. Every operation that names a bit needs the byte that holds it.
-/

namespace Columnar.Bitmap

/-- The number of bytes that hold the given number of bits. -/
def bytesFor (bits : Nat) : Nat := bits / 8 + if bits % 8 = 0 then 0 else 1

/-- The byte with only the place of the given bit set. -/
def mask (index : Nat) : UInt8 := 1 <<< UInt8.ofNat (index % 8)

/-- The byte that holds bit `index` is part of the buffer. -/
abbrev Covers (bitmap : Bytes) (index : Nat) : Prop := index / 8 < bitmap.size

def get? (bitmap : Bytes) (index : Nat) : Option Bool :=
  bitmap[index / 8]?.map fun byte => byte &&& mask index != 0

/-- Reads a bit as a number, shifted down to the lowest place. -/
def bit? (bitmap : Bytes) (index : Nat) : Option UInt8 :=
  bitmap[index / 8]?.map fun byte => (byte >>> UInt8.ofNat (index % 8)) &&& 1

def set (bitmap : Bytes) (index : Nat) : Bytes :=
  bitmap.modify (index / 8) (· ||| mask index)

def clear (bitmap : Bytes) (index : Nat) : Bytes :=
  bitmap.modify (index / 8) (· &&& ~~~mask index)

def put (bitmap : Bytes) (index : Nat) (value : Bool) : Bytes :=
  if value then set bitmap index else clear bitmap index

def set? (bitmap : Bytes) (index : Nat) : Option Bytes :=
  if Covers bitmap index then some (set bitmap index) else none

def put? (bitmap : Bytes) (index : Nat) (value : Bool) : Option Bytes :=
  if Covers bitmap index then some (put bitmap index value) else none

/-- Writes a bit from a number: zero clears it and any other value sets it. -/
def putFlag? (bitmap : Bytes) (index : Nat) (flag : UInt8) : Option Bytes :=
  put? bitmap index (flag != 0)

theorem le_bytesFor (bits : Nat) : bits ≤ 8 * bytesFor bits := by
  unfold bytesFor
  split <;> omega

@[simp] theorem size_set (bitmap : Bytes) (index : Nat) :
    (set bitmap index).size = bitmap.size := by simp [set]

@[simp] theorem size_clear (bitmap : Bytes) (index : Nat) :
    (clear bitmap index).size = bitmap.size := by simp [clear]

@[simp] theorem size_put (bitmap : Bytes) (index : Nat) (value : Bool) :
    (put bitmap index value).size = bitmap.size := by
  cases value <;> simp [put]

end Columnar.Bitmap
