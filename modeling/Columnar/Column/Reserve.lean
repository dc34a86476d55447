import Columnar.Column.Growth

namespace Columnar.Edit

variable {n : Nat} {kind : Kind}

/-- Grows until the column holds the given number of slots. -/
def reserve (slots : Nat) : Edit n kind Unit := fun session =>
  if slots ≤ session.column.capacity then
    .ok () session
  else
    match _ : grow session with
    | .ok _ larger => reserve slots larger
    | .error failure stopped => .error failure stopped
termination_by session => slots - session.column.capacity
decreasing_by
  have larger := capacity_lt_of_grow (by assumption)
  omega

def setValueCount (count : Nat) : Edit n kind Unit := do
  reserve count
  setCount count

end Columnar.Edit
