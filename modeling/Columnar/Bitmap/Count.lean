import Columnar.Bitmap.Basic
import Columnar.LittleEndian

/-!
Counting the set bits at the start of a bitmap. Whole bytes are cut into a head of single bytes,
a body of 64-bit words and a tail of single bytes; the bits of a last, partial byte are masked.
Where the cut falls makes no difference to the count.
-/

namespace Columnar.Bitmap

/-- The number of set bits of a word of any width. -/
def ones (word : BitVec width) : Nat :=
  (List.range width).countP (word.getLsbD ·)

def onesOfBytes (bytes : List UInt8) : Nat :=
  bytes.foldr (fun byte count => ones byte.toBitVec + count) 0

/-- The word whose bytes are given, the least significant first. -/
def word (bytes : List UInt8) : BitVec 64 := BitVec.ofNat 64 (LittleEndian.decode bytes)

def onesOfWords : Nat → List UInt8 → Nat
  | 0, _ => 0
  | words + 1, bytes => ones (word (bytes.take 8)) + onesOfWords words (bytes.drop 8)

/-- Where a run of whole bytes is cut: the length of its head and the number of words after it. -/
structure Cut where
  head : Nat
  words : Nat

/-- The cut that has no head and as many words as fit. -/
def Cut.packed (length : Nat) : Cut := ⟨0, length / 8⟩

/-- The set bits of a run of bytes, counted along a cut. -/
def onesAlong (cut : Cut) (bytes : List UInt8) : Nat :=
  let rest := bytes.drop cut.head
  onesOfBytes (bytes.take cut.head) + onesOfWords cut.words rest +
    onesOfBytes (rest.drop (8 * cut.words))

/-- The lowest `bits` places of a byte, for fewer than eight of them. -/
def lowMask (bits : Nat) : UInt8 := (1 <<< UInt8.ofNat bits) - 1

/-- The set bits among the first `length`, with whole bytes counted along the given cut;
`none` where the buffer holds fewer bits. -/
def trueCountAlong? (cut : Cut) (bitmap : Bytes) (length : Nat) : Option Nat := do
  let whole ← bitmap.slice? 0 (length / 8)
  let sum := onesAlong cut whole
  if length % 8 = 0 then return sum
  let last ← bitmap[length / 8]?
  return sum + ones (last &&& lowMask (length % 8)).toBitVec

def trueCount? (bitmap : Bytes) (length : Nat) : Option Nat :=
  trueCountAlong? (Cut.packed (length / 8)) bitmap length

def falseCount? (bitmap : Bytes) (length : Nat) : Option Nat :=
  (trueCount? bitmap length).map (length - ·)

end Columnar.Bitmap
