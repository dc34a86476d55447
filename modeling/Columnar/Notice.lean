import Columnar.Text.Quoted

namespace Columnar

inductive Level where
  | debug
  | warning
  deriving DecidableEq

inductive Notice where
  | growing (column : String) (current target : Nat)
  | moving (count : Nat) (source target : String)
  | splitting (start stop : Nat) (source target : String)
  | requestRefused (requested held limit : Nat)
  | slotsRefused (column : String) (slots width limit : Nat)
  | beyondLimit (column : String) (held limit : Nat)
  | settingIgnored (setting value : String) (nullChecking : Bool)
  deriving DecidableEq

namespace Notice

def level : Notice → Level
  | growing .. | moving .. | splitting .. => .debug
  | requestRefused .. | slotsRefused .. | beyondLimit .. | settingIgnored .. => .warning

def text : Notice → String
  | growing column current target =>
    s!"reallocate vector {column} from {current} to {target} slots"
  | moving count source target => s!"transfer {count} slots from vector {source} to {target}"
  | splitting start stop source target =>
    s!"split slots {start}..{stop} of vector {source} to {target}"
  | requestRefused requested held limit =>
    s!"allocation of {requested} bytes refused, {held} of {limit} bytes in use"
  | slotsRefused column slots width limit =>
    s!"vector {column} refuses {slots} slots of {width} bytes, limit {limit} bytes"
  | beyondLimit column held limit =>
    s!"vector {column} holds {held} bytes beyond allocator limit {limit}"
  | settingIgnored setting value nullChecking =>
    let quoted := Text.quote value
    s!"ignore invalid value {quoted} of {setting}, null checking stays {nullChecking}"

end Notice

end Columnar
