import Columnar.Reader
import Columnar.Proofs.Store.Soundness

namespace Columnar

variable {n : Nat} {kind : Kind}

theorem Reader.rest_eq (reader : Reader n kind) :
    reader.rest.1 = (List.range' reader.position reader.remaining).map reader.column.get? := by
  induction reader using Reader.rest.induct with
  | case1 reader ended =>
    have none : reader.remaining = 0 := Nat.sub_eq_zero_of_le ended
    rw [rest, if_pos ended, none]
    rfl
  | case2 reader more items last split ih =>
    have further : reader.remaining = (reader.moveTo (reader.position + 1)).remaining + 1 := by
      simp only [remaining, moveTo]
      omega
    rw [split] at ih
    rw [rest, if_neg more, split, further, List.range'_succ, List.map_cons]
    exact congrArg (reader.get? :: ·) ih

namespace Column

variable {column other : Column n kind} {start length : Nat}

/-- What a reader gives of the whole column. -/
def items (column : Column n kind) : List (Option (Element kind)) := (Reader.ofColumn column).rest.1

theorem items_eq (column : Column n kind) :
    column.items = (List.range' 0 column.count).map column.get? :=
  (Reader.ofColumn column).rest_eq

theorem length_items (column : Column n kind) : column.items.length = column.count := by
  rw [items_eq, List.length_map, List.length_range']

/-- The nulls that are counted in the bitmap are those that a reader meets. -/
theorem Sound.nullCount?_eq_items (sound : column.Sound) :
    column.nullCount? = some (column.items.countP Option.isNone) := by
  rw [sound.nullCount?_eq, items_eq, List.countP_map, List.range_eq_range']
  rfl

theorem Holds.items_eq (holds : column.Holds other start length)
    (inside : start + length ≤ other.capacity) :
    column.items = (List.range' start length).map other.get? := by
  rw [Column.items_eq, (holds.shows inside).reads, holds.count, List.range'_eq_map_range,
    List.range'_eq_map_range, List.map_map, List.map_map]
  apply List.map_congr_left
  intro index member
  simp [Slots.range, List.mem_range.mp member]

end Column

end Columnar
