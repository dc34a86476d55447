import Columnar.Proofs.Column.Buffers
import Columnar.Proofs.Reader.Calls

namespace Columnar

variable {n : Nat} {kind : Kind}

theorem Reader.rest_eq_drop (reader : Reader n kind) :
    reader.rest.1 = ((List.range reader.column.count).map reader.column.get?).drop reader.position := by
  rw [rest_eq, ← List.map_drop, List.range_eq_range', List.drop_range', Nat.mul_one, Nat.zero_add]
  rfl

namespace Store

/-- A reader gives the slots in use one after another, whatever is asked of it in between. Without an
overdraft the buffers stand alone for the same slots. -/
theorem views_runAll (limits : Vector Nat n) (commands : List (Command n)) {name : String}
    {column : Column n kind}
    (found : ((ofLimits limits).runAll commands).columns.find? name = some ⟨kind, column⟩) :
    let slots := (List.range column.count).map column.get?
    column.items = slots ∧
      (∀ (position : Nat) (calls : List Reader.Call),
        let reader : Reader n kind := { column, position }
        let (answers, last) := Slots.answers column.get? column.count position calls
        reader.tryAnswers calls = some (reader.answers calls) ∧
          reader.answers calls = (answers, reader.moveTo last) ∧
          (reader.moveTo last).rest.1 = slots.drop last ∧
          (reader.moveTo last).remaining = (slots.drop last).length) ∧
      ((ofLimits limits).Along Solvent commands →
        ∃ validity values, column.buffers? = some (validity, values) ∧
          Slots.decode kind validity values = slots ∧
          validity.length + values.length = column.bufferSize ∧
          column.nullCount? = some (slots.countP Option.isNone)) := by
  intro slots
  have bounded : column.Bounded := (boundedColumns.runAll limits commands).of_find? found
  have items : column.items = slots := (Reader.ofColumn column).rest_eq_drop
  refine ⟨items, ?_, ?_⟩
  · intro position calls reader
    have remains (last : Nat) : (reader.moveTo last).rest.1 = slots.drop last :=
      (reader.moveTo last).rest_eq_drop
    refine ⟨reader.tryAnswers_eq bounded calls, reader.answers_eq calls, remains _, ?_⟩
    rw [← remains, Reader.length_rest]
  · intro solvent
    have depicts := (depicts_ofLimits limits).runAll (all_ofLimits limits) solvent
    have sound : column.Sound := depicts.sound found
    obtain ⟨⟨validity, values⟩, buffers⟩ := Option.isSome_iff_exists.mp sound.buffers?_isSome
    obtain ⟨bits, bytes⟩ := Column.length_buffers? buffers
    refine ⟨validity, values, buffers, sound.decode_buffers? buffers, ?_, ?_⟩
    · rw [bits, bytes, Column.bufferSize, Nat.add_comm]
    · rw [← items]
      exact sound.nullCount?_eq_items

/-- A run that makes a column of eight slots, of which five are in use and one is valid. -/
def counting (account : Fin n) : List (Command n) :=
  [.create "x" .uint16 "x" none account {}, .edit "x" .uint16 (.allocate 8), .edit "x" .uint16 (.set 3 7),
    .edit "x" .uint16 (.setValueCount 5)]

def counted (account : Fin n) : Column n .uint16 :=
  let written : Column n .uint16 :=
    (((Column.empty "x" account {}).renewed 8).withBytes 3 [7, 0]).withValid 3 true
  { written with count := 5 }

theorem find?_counting : ((ofLimits #v[100]).runAll (counting 0)).columns.find? "x" =
    some ⟨.uint16, counted 0⟩ := by
  cbv

theorem views_runAll_counting :
    (ofLimits #v[100]).Along Solvent (counting 0) ∧
      let column : Column 1 .uint16 := counted 0
      column.items = [none, none, none, some 7, none] ∧ column.nullCount? = some 4 ∧
      let reader : Reader 1 .uint16 := { column, position := 4 }
      reader.tryAnswers [.next, .next, .moveTo 9, .cell, .moveTo 3, .remaining] =
        some ([.item (some none), .item none, .moved, .cell .null, .moved, .number 2], reader.moveTo 3) := by
  have solvent : (ofLimits #v[100]).Along Solvent (counting 0) := by decide +kernel
  obtain ⟨items, answers, buffers⟩ := views_runAll #v[100] (counting 0) find?_counting
  obtain ⟨_, _, _, _, _, nulls⟩ := buffers solvent
  obtain ⟨fine, same, _⟩ := answers 4 [.next, .next, .moveTo 9, .cell, .moveTo 3, .remaining]
  refine ⟨solvent, items.trans ?_, nulls.trans ?_, fine.trans (congrArg some (same.trans ?_))⟩ <;> rfl

/-- After an overdraft slots are in use that have no bytes, and of the two of them, both null, one is
counted. -/
theorem views_runAll_overdraft :
    ¬ ∀ (limits : Vector Nat 2) (commands : List (Command 2)),
      ∀ pair ∈ ((ofLimits limits).runAll commands).columns.entries,
        let slots := (List.range pair.2.column.count).map pair.2.column.get?
        pair.2.column.buffers?.isSome ∧
          pair.2.column.nullCount? = some (slots.countP Option.isNone) := by
  intro always
  have views := always #v[Word.max, Word.max] overdraft
  revert views
  decide +kernel

end Store

end Columnar
