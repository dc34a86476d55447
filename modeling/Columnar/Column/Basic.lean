import Columnar.Bitmap.Count
import Columnar.Block
import Columnar.Config
import Columnar.Element.Basic
import Columnar.Field

/-!
Columns of nullable elements of one kind. Values live in one block and a validity bitmap in
another; a set bit marks a valid slot. A column can address as many slots as both blocks hold,
and keeps besides a count of the slots in use.
-/

namespace Columnar

/-- The two blocks of a column. -/
inductive Buffer where
  | values
  | validity
  deriving DecidableEq

structure Column (n : Nat) (kind : Kind) where
  field : Field
  config : Config
  account : Fin n
  values : Block n
  validity : Block n
  /-- The number of slots in use. -/
  count : Nat
  /-- The number of slots from which an empty column grows. -/
  remembered : Nat

namespace Column

variable {n : Nat} {kind : Kind}

/-- A column without memory, for a field type that is not checked against its kind. -/
def ofType (name : String) (type : FieldType) (account : Fin n) (config : Config) :
    Column n kind where
  field := ⟨name, type⟩
  config
  account
  values := .empty account
  validity := .empty account
  count := 0
  remembered := config.initialCapacity

/-- A column without memory that admits nulls. -/
def empty (name : String) (account : Fin n) (config : Config) : Column n kind :=
  ofType name ⟨true, kind.dataType⟩ account config

/-- A column without memory for a field type, whose data type must be that of the kind. -/
def ofType? (name : String) (type : FieldType) (account : Fin n) (config : Config) :
    Except Error (Column n kind) :=
  if type.dataType = kind.dataType then
    .ok (ofType name type account config)
  else
    .error (.typeMismatch type.dataType kind.dataType)

/-- A column without memory that takes over type and configuration. -/
def sibling (column : Column n kind) (name : String) (account : Fin n) : Column n kind :=
  ofType name column.field.type account column.config

def buffer (column : Column n kind) : Buffer → Block n
  | .values => column.values
  | .validity => column.validity

/-- The column with another block in place of one of its two. -/
def withBuffer (column : Column n kind) (which : Buffer) (block : Block n) : Column n kind :=
  match which with
  | .values => { column with values := block }
  | .validity => { column with validity := block }

def capacity (column : Column n kind) : Nat :=
  Nat.min (column.values.size / kind.width) (column.validity.size * 8)

/-- The bytes that the slots in use take in both blocks. -/
def bufferSize (column : Column n kind) : Nat :=
  column.count * kind.width + Bitmap.bytesFor column.count

def nullCount? (column : Column n kind) : Option Nat :=
  Bitmap.falseCount? column.validity.bytes column.count

/-- The bytes of the slots in use: validity, then values. -/
def buffers? (column : Column n kind) : Option (List UInt8 × List UInt8) := do
  let validity ← column.validity.bytes.slice? 0 (Bitmap.bytesFor column.count)
  let values ← column.values.bytes.slice? 0 (column.count * kind.width)
  return (validity, values)

/-- Gives back both blocks of a column that is no longer used, the second also where the first
falls short. -/
def release (column : Column n kind) : Accounting n Unit := do
  tryCatch column.values.release fun failure => do
    column.validity.release
    throw failure
  column.validity.release

end Column

end Columnar
