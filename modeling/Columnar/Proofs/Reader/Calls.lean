import Columnar.Proofs.Column.Reads
import Columnar.Proofs.Reader

namespace Columnar

variable {n : Nat} {kind : Kind}

namespace Reader

inductive Call where
  | moveTo (position : Nat)
  | isSet
  | cell
  | value
  | next
  | remaining
  deriving DecidableEq

inductive Answer (kind : Kind) where
  | moved
  | flag (set : Bool)
  | cell (cell : Cell kind)
  | value (value? : Option (Element kind))
  | item (item? : Option (Option (Element kind)))
  | number (items : Nat)
  deriving DecidableEq

/-- The answer to a call, and the reader behind it. -/
def answer (reader : Reader n kind) : Call → Answer kind × Reader n kind
  | .moveTo position => (.moved, reader.moveTo position)
  | .isSet => (.flag reader.isSet, reader)
  | .cell => (.cell reader.cell, reader)
  | .value => (.value reader.get?, reader)
  | .next =>
    match reader.next? with
    | some (item, behind) => (.item (some item), behind)
    | none => (.item none, reader)
  | .remaining => (.number reader.remaining, reader)

/-- The answer to a call, where each of its reads may go wrong and a position may leave the words. -/
def tryAnswer (reader : Reader n kind) : Call → Option (Answer kind × Reader n kind)
  | .moveTo position => some (.moved, reader.moveTo position)
  | .isSet => do return (.flag ((← reader.column.readBit? reader.position) != 0), reader)
  | .cell => do return (.cell (← reader.column.readCell? reader.position), reader)
  | .value => do return (.value (← reader.column.readObject? reader.position), reader)
  | .next =>
    if reader.column.count ≤ reader.position then
      some (.item none, reader)
    else do
      let item ← reader.column.readObject? reader.position
      if reader.position + 1 < Word.size then
        return (.item (some item), reader.moveTo (reader.position + 1))
      else
        none
  | .remaining => some (.number reader.remaining, reader)

/-- The answers to a run of calls, and the reader behind them. -/
def answers : Reader n kind → List Call → List (Answer kind) × Reader n kind
  | reader, [] => ([], reader)
  | reader, call :: rest =>
    let (answer, behind) := reader.answer call
    let (others, last) := behind.answers rest
    (answer :: others, last)

/-- The answers to a run of calls; nothing where one of them goes wrong. -/
def tryAnswers : Reader n kind → List Call → Option (List (Answer kind) × Reader n kind)
  | reader, [] => some ([], reader)
  | reader, call :: rest => do
    let (answer, behind) ← reader.tryAnswer call
    let (others, last) ← behind.tryAnswers rest
    return (answer :: others, last)

end Reader

namespace Slots

/-- What a position over slots answers, of which the first `count` are items. -/
def answer (slots : Slots kind) (count position : Nat) : Reader.Call → Reader.Answer kind × Nat
  | .moveTo position => (.moved, position)
  | .isSet => (.flag (slots position).isSome, position)
  | .cell => (.cell (.ofOption (slots position)), position)
  | .value => (.value (slots position), position)
  | .next =>
    if position < count then (.item (some (slots position)), position + 1) else (.item none, position)
  | .remaining => (.number (count - position), position)

def answers (slots : Slots kind) (count : Nat) : Nat → List Reader.Call → List (Reader.Answer kind) × Nat
  | position, [] => ([], position)
  | position, call :: rest =>
    let (answer, behind) := slots.answer count position call
    let (others, last) := slots.answers count behind rest
    (answer :: others, last)

end Slots

namespace Reader

theorem isSet_eq (reader : Reader n kind) : reader.isSet = reader.get?.isSome := by
  rw [isSet, get?, Column.get?_eq, Column.validBit_eq]
  split <;> rfl

theorem cell_eq (reader : Reader n kind) : reader.cell = .ofOption reader.get? := by
  rw [cell, get?, Column.cell, Column.get?]
  split <;> rfl

/-- A reader answers as its position does, and keeps its column. -/
theorem answer_eq (reader : Reader n kind) (call : Call) :
    let (answer, last) := Slots.answer reader.column.get? reader.column.count reader.position call
    reader.answer call = (answer, reader.moveTo last) := by
  cases call with
  | moveTo position => rfl
  | isSet => exact congrArg (fun set => (Answer.flag set, reader)) reader.isSet_eq
  | cell => exact congrArg (fun cell => (Answer.cell cell, reader)) reader.cell_eq
  | value => rfl
  | next =>
    by_cases ended : reader.column.count ≤ reader.position
    · simp only [answer, next?, Slots.answer, if_pos ended, if_neg (Nat.not_lt_of_le ended)]
      rfl
    · simp only [answer, next?, Slots.answer, if_neg ended, if_pos (Nat.lt_of_not_le ended)]
      rfl
  | remaining => rfl

/-- Along a run of calls the position moves, and nothing else does. -/
theorem answers_eq (reader : Reader n kind) (calls : List Call) :
    let (answers, last) := Slots.answers reader.column.get? reader.column.count reader.position calls
    reader.answers calls = (answers, reader.moveTo last) := by
  induction calls generalizing reader with
  | nil => rfl
  | cons call rest ih =>
    have first := reader.answer_eq call
    have others := ih (reader.answer call).2
    simp only [answers, Slots.answers]
    rw [first] at others ⊢
    exact congrArg (fun result => (_ :: result.1, result.2)) others

theorem tryAnswer_eq (reader : Reader n kind) (bounded : reader.column.Bounded) (call : Call) :
    reader.tryAnswer call = some (reader.answer call) := by
  have answers := bounded.answers reader.position
  cases call with
  | moveTo | remaining => rfl
  | isSet =>
    rw [tryAnswer, answers.bit]
    rfl
  | cell =>
    rw [tryAnswer, answers.cell]
    rfl
  | value =>
    rw [tryAnswer, answers.object]
    rfl
  | next =>
    by_cases ended : reader.column.count ≤ reader.position
    · simp only [tryAnswer, answer, next?, if_pos ended]
    · have word : reader.position + 1 < Word.size :=
        Nat.lt_of_le_of_lt (Nat.lt_of_not_le ended) bounded.count
      simp only [tryAnswer, answer, next?, if_neg ended, answers.object, Option.bind_eq_bind,
        Option.bind_some, if_pos word]
      rfl

theorem tryAnswers_eq (reader : Reader n kind) (bounded : reader.column.Bounded) (calls : List Call) :
    reader.tryAnswers calls = some (reader.answers calls) := by
  induction calls generalizing reader with
  | nil => rfl
  | cons call rest ih =>
    have still : (reader.answer call).2.column = reader.column := by
      rw [reader.answer_eq call]
      rfl
    have others := ih (reader.answer call).2 (still ▸ bounded)
    simp only [tryAnswers, reader.tryAnswer_eq bounded call, Option.bind_eq_bind, Option.bind_some,
      others]
    rfl

theorem length_rest (reader : Reader n kind) : reader.rest.1.length = reader.remaining := by
  rw [rest_eq, List.length_map, List.length_range']

end Reader

end Columnar
