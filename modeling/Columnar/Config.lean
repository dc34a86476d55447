import Columnar.Notice
import Columnar.Text.Blank
import Columnar.Word

/-!
Configuration of columns. It is fixed when a column is made and passed on to the columns split
or moved out of it. Null checking can be switched by a setting of the surroundings.
-/

namespace Columnar

structure Config where
  /-- Reading a null slot by `get` is an error. -/
  nullChecking : Bool := true
  /-- The number of slots from which a column first grows. -/
  initialCapacity : Nat := 3970
  /-- The most bytes that the value buffer may ask for. -/
  maxAllocationBytes : Nat := Word.largestRequest
  deriving DecidableEq

namespace Config

instance : Inhabited Config := ⟨{}⟩

/-- The number of slots from which a column grows that remembers none. -/
def defaultInitialCapacity : Nat := (default : Config).initialCapacity

/-- The name of the setting that switches null checking. -/
def nullCheckSetting : String := "XNGIN_NULL_CHECK_FOR_GET"

/-- Letters are compared without case, and only the 26 Latin letters have one. White space
around the word does not count. -/
def flag? (text : String) : Option Bool :=
  match String.ofList ((Text.trimBlanks text.toList).map Char.toLower) with
  | "true" | "1" | "on" => some true
  | "false" | "0" | "off" => some false
  | _ => none

/-- The configuration under a setting, which may be absent. A value that is no flag is ignored
with a notice. -/
def ofSetting : Option String → Config × List Notice
  | none => (default, [])
  | some value =>
    match flag? value with
    | some nullChecking => ({ nullChecking }, [])
    | none => (default, [.settingIgnored nullCheckSetting value (default : Config).nullChecking])

end Config

end Columnar
