import Columnar.Bitmap.Count

namespace Columnar.Bitmap

/-- The byte `shift` bits above the start of source byte `index`. Its high part comes from the
next byte, which counts only below `limit`. -/
def joined? (source : Bytes) (shift limit index : Nat) : Option UInt8 := do
  let low := (← source[index]?) >>> UInt8.ofNat shift
  if index + 1 < limit then
    return low ||| (← source[index + 1]?) <<< UInt8.ofNat (8 - shift)
  else
    return low

/-- The whole bytes that hold the bits of `[start, stop)` from their first place on. -/
def shifted? (source : Bytes) (start stop : Nat) : Option (List UInt8) :=
  let first := start / 8
  let length := bytesFor (stop - start)
  if start % 8 = 0 then
    source.slice? first (first + length)
  else
    (List.range length).mapM fun offset =>
      joined? source (start % 8) (bytesFor stop) (first + offset)

/-- Clears the places of a byte that `bits` bits, cut into whole bytes, leave unused there. -/
def trim (target : Bytes) (bits : Nat) : Bytes :=
  if bits % 8 = 0 then target else target.modify (bits / 8) (· &&& lowMask (bits % 8))

/-- Copies the bits of `[start, stop)` to the start of `target` and clears the rest of the last byte
written. `none` where the range runs backwards or either buffer is too short. -/
def copyRange? (target source : Bytes) (start stop : Nat) : Option Bytes :=
  if stop < start then none
  else if start = stop then some target
  else if target.size < bytesFor (stop - start) then none
  else do
    let run ← shifted? source start stop
    return trim (target.overwrite 0 run) (stop - start)

end Columnar.Bitmap
