import Columnar.Bytes
import Columnar.Kind
import Columnar.LittleEndian

/-!
Elements are bit patterns as wide as their kind. In memory they are little-endian, and slot `i`
of a value buffer is the run of bytes `[i * width, (i + 1) * width)`.
-/

namespace Columnar

abbrev Element (kind : Kind) := BitVec (8 * kind.width)

namespace Element

variable {kind : Kind}

def toBytes (element : Element kind) : List UInt8 :=
  LittleEndian.encode kind.width element.toNat

def ofBytes (bytes : List UInt8) : Element kind :=
  BitVec.ofNat _ (LittleEndian.decode bytes)

/-- Reads an element from exactly as many bytes as it has. -/
def ofBytes? (kind : Kind) (bytes : List UInt8) : Option (Element kind) :=
  if bytes.length = kind.width then some (ofBytes bytes) else none

/-- Replaces a run of bytes by those of an element, which must be as many. -/
def replace? (element : Element kind) (run : List UInt8) : Option (List UInt8) :=
  if run.length = kind.width then some element.toBytes else none

@[simp] theorem length_toBytes (element : Element kind) : element.toBytes.length = kind.width :=
  LittleEndian.length_encode ..

end Element

namespace Slot

/-- The slot lies inside the buffer. -/
abbrev Within (kind : Kind) (values : Bytes) (index : Nat) : Prop :=
  (index + 1) * kind.width ≤ values.size

/-- The bytes of a slot, which must lie inside the buffer. -/
def bytes? (kind : Kind) (values : Bytes) (index : Nat) : Option (List UInt8) :=
  values.slice? (index * kind.width) ((index + 1) * kind.width)

def read? (kind : Kind) (values : Bytes) (index : Nat) : Option (Element kind) :=
  (bytes? kind values index).bind (Element.ofBytes? kind)

/-- Writes the slot's bytes; the slot has to lie inside the buffer. -/
def write (kind : Kind) (values : Bytes) (index : Nat) (element : Element kind) : Bytes :=
  values.overwrite (index * kind.width) element.toBytes

@[simp] theorem size_write (kind : Kind) (values : Bytes) (index : Nat) (element : Element kind) :
    (write kind values index element).size = values.size :=
  Bytes.size_overwrite ..

end Slot

end Columnar
