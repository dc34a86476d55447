namespace Columnar

structure Table (α : Type) where
  entries : List (String × α) := []

namespace Table

variable {α : Type}

def find? (table : Table α) (name : String) : Option α := table.entries.lookup name

def names (table : Table α) : List String := table.entries.map Prod.fst

def extract (name : String) : List (String × α) → Option α × List (String × α)
  | [] => (none, [])
  | (key, value) :: rest =>
    if key = name then
      (some value, rest)
    else
      let (found, others) := extract name rest
      (found, (key, value) :: others)

/-- Takes a value out of the table, which is left without it. -/
def take (table : Table α) (name : String) : Option α × Table α :=
  let (found, entries) := extract name table.entries
  (found, ⟨entries⟩)

def put (table : Table α) (name : String) (value : α) : Table α :=
  ⟨(name, value) :: table.entries⟩

end Table

end Columnar
