import Columnar.DataType

namespace Columnar

structure FieldType where
  nullable : Bool
  dataType : DataType
  deriving DecidableEq

structure Field where
  name : String
  type : FieldType
  deriving DecidableEq

namespace Field

/-- A field that admits nulls. -/
def optional (name : String) (dataType : DataType) : Field := ⟨name, true, dataType⟩

def render (field : Field) : String :=
  let base := s!"{field.name}: {field.type.dataType.render}"
  if field.type.nullable then base else base ++ " not null"

end Field

end Columnar
