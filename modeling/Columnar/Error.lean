import Columnar.DataType

/-!
Errors of columns, by their cause. Besides the errors that are reported there is the breach of a
rule, such as naming a slot that does not exist; it has no message.
-/

namespace Columnar

inductive Error where
  | nullRead (index : Nat)
  | typeMismatch (given expected : DataType)
  | negativeFlag (flag : Int)
  | splitRange (start length capacity : Nat)
  | capacityExhausted (requested limit : Nat)
  | outOfBound (index capacity : Nat)
  deriving DecidableEq

namespace Error

inductive Category where
  | nullValueRead
  | invalidArgument
  | capacityExhausted
  | indexOutOfBound
  deriving DecidableEq

def category : Error → Category
  | nullRead _ => .nullValueRead
  | typeMismatch _ _ | negativeFlag _ | splitRange _ _ _ => .invalidArgument
  | capacityExhausted _ _ => .capacityExhausted
  | outOfBound _ _ => .indexOutOfBound

def message : Error → String
  | nullRead index => s!"value at index {index} is null"
  | typeMismatch given expected =>
    s!"invalid argument: field type {given.render} mismatches vector type {expected.render}"
  | negativeFlag flag => s!"invalid argument: negative is_set {flag} of holder"
  | splitRange start length capacity =>
    s!"invalid argument: split range {start}+{length} exceeds vector capacity {capacity}"
  | capacityExhausted requested limit =>
    s!"capacity exhausted: requested {requested} bytes, limit {limit} bytes"
  | outOfBound index capacity => s!"index out of bound: {index} >= vector capacity {capacity}"

end Error

/-- The rules whose breach stops an action. -/
inductive Rule where
  /-- The slots, bits and bytes that are named exist. -/
  | range
  /-- No accepted request is larger than memory can be. -/
  | memory
  /-- No account gives back more than is charged to it. -/
  | balance
  deriving DecidableEq

/-- Why an action stopped: an error that it reports, or the breach of a rule. -/
inductive Failure where
  | error (cause : Error)
  | breach {rule : Rule}
  deriving DecidableEq

namespace Failure

/-- A slot, bit or byte was named that does not exist. -/
abbrev outOfRange : Failure := @breach .range

/-- A request was accepted that is larger than memory can be. -/
abbrev tooLarge : Failure := @breach .memory

/-- An account was to give back more than is charged to it. -/
abbrev overdrawn : Failure := @breach .balance

end Failure

end Columnar
