import Columnar.Text.Extending
import Columnar.Text.Hidden

/-!
Text between double quotes, with everything in it made visible. The quote, the backslash and
the common controls have short escapes; other characters that a reader could not tell apart or
see are written by code point.
-/

namespace Columnar.Text

/-- A code point in hexadecimal, between braces. -/
def escapeCode (c : Char) : List Char :=
  ['\\', 'u', '\x7b'] ++ Nat.toDigits 16 c.toNat ++ ['\x7d']

def escape : Char → List Char
  | '\x00' => ['\\', '0']
  | '\t' => ['\\', 't']
  | '\n' => ['\\', 'n']
  | '\r' => ['\\', 'r']
  | '\\' => ['\\', '\\']
  | '"' => ['\\', '"']
  | c => if isExtending c || isHidden c then escapeCode c else [c]

def quote (text : String) : String :=
  String.ofList ('"' :: text.toList.flatMap escape ++ ['"'])

end Columnar.Text
