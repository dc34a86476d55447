import Columnar.Config
import Columnar.Proofs.Text

namespace Columnar.Config

open Columnar.Text

/-- The words that stand for a flag. -/
def flagWords : Bool → List String
  | true => ["true", "1", "on"]
  | false => ["false", "0", "off"]

/-- Without the white space around it the text is one of the words, in whichever case. -/
def Spells (text : String) (words : List String) : Prop :=
  ∃ core, Trims text.toList core ∧ ∃ word ∈ words, Recased core word.toList

theorem spells_iff {text : String} {words : List String} : Spells text words ↔
    ∃ word ∈ words, (trimBlanks text.toList).map Char.toLower = word.toList.map Char.toLower := by
  simp only [Spells, trims_iff, exists_eq_left, recased_iff]

private theorem flag?_eq_some_iff_mem {text : String} {flag : Bool} : flag? text = some flag ↔
    String.ofList ((trimBlanks text.toList).map Char.toLower) ∈ flagWords flag := by
  unfold flag?
  cases flag <;> split <;> simp_all [flagWords]

private theorem map_toLower_flagWords (flag : Bool) :
    ∀ word ∈ flagWords flag, word.toList.map Char.toLower = word.toList := by
  cases flag <;> decide

/-- A text is read as a flag exactly where it spells one of its words. -/
theorem flag?_eq_some_iff {text : String} {flag : Bool} :
    flag? text = some flag ↔ Spells text (flagWords flag) := by
  rw [flag?_eq_some_iff_mem, spells_iff]
  constructor
  · intro member
    refine ⟨_, member, ?_⟩
    rw [map_toLower_flagWords flag _ member, String.toList_ofList]
  · intro spelled
    obtain ⟨word, member, same⟩ := spelled
    rw [map_toLower_flagWords flag word member] at same
    rwa [same, String.ofList_toList]

example : flag? "\u3000oFF\n" = some false := by cbv

theorem flag?_eq_none_iff {text : String} :
    flag? text = none ↔ ¬ Spells text (flagWords false) ∧ ¬ Spells text (flagWords true) := by
  rw [← flag?_eq_some_iff, ← flag?_eq_some_iff]
  cases flag? text with
  | none => simp
  | some flag => cases flag <;> simp

/-- White space around a text and the case of its letters do not change how it is read. -/
theorem flag?_around {text : String} {front other back : List Char} (before : Blank front)
    (behind : Blank back) (recased : Recased other text.toList) :
    flag? (String.ofList (front ++ other ++ back)) = flag? text := by
  have same : (trimBlanks other).map Char.toLower = (trimBlanks text.toList).map Char.toLower := by
    rw [← trimBlanks_map_toLower, recased_iff.mp recased, trimBlanks_map_toLower]
  rw [flag?, String.toList_ofList, trimBlanks_around before behind, same, ← flag?]

theorem ofSetting_of_flag {value : String} {flag : Bool} (read : flag? value = some flag) :
    ofSetting (some value) = ({ nullChecking := flag }, []) := by
  simp only [ofSetting, read]

theorem ofSetting_of_none {value : String} (read : flag? value = none) :
    ofSetting (some value) = (default, [.settingIgnored nullCheckSetting value true]) := by
  simp only [ofSetting, read]
  rfl

theorem ofSetting_congr {value other : String} (same : flag? other = flag? value) :
    (ofSetting (some other)).1 = (ofSetting (some value)).1 ∧
      ((ofSetting (some other)).2 = [] ↔ (ofSetting (some value)).2 = []) := by
  cases read : flag? value with
  | none =>
    rw [ofSetting_of_none read, ofSetting_of_none (same.trans read)]
    simp
  | some flag =>
    rw [ofSetting_of_flag read, ofSetting_of_flag (same.trans read)]
    simp

/-- Null checking is switched off exactly by the words for it, and a text that is no flag leaves the default
and a warning. Neither white space around a text nor the case of its letters makes a difference. -/
theorem ofSetting_exactly (value : String) :
    ((ofSetting (some value)).1.nullChecking = false ↔ Spells value ["false", "0", "off"]) ∧
      let outcome := ofSetting (some value)
      (outcome.2 ≠ [] ↔ ¬ Spells value ["false", "0", "off"] ∧ ¬ Spells value ["true", "1", "on"]) ∧
        (outcome.2 ≠ [] → outcome.1.nullChecking = true ∧
          outcome.2 = [.settingIgnored nullCheckSetting value true] ∧
          ∀ notice ∈ outcome.2, notice.level = .warning) ∧
        outcome.1.initialCapacity = (default : Config).initialCapacity ∧
        outcome.1.maxAllocationBytes = (default : Config).maxAllocationBytes ∧
        ∀ front other back, Blank front → Blank back → Recased other value.toList →
          let varied := ofSetting (some (String.ofList (front ++ other ++ back)))
          varied.1 = outcome.1 ∧ (varied.2 = [] ↔ outcome.2 = []) := by
  have off : flag? value = some false ↔ Spells value ["false", "0", "off"] := flag?_eq_some_iff
  have ignored : flag? value = none ↔
      ¬ Spells value ["false", "0", "off"] ∧ ¬ Spells value ["true", "1", "on"] := flag?_eq_none_iff
  have varies (front other back : List Char) (before : Blank front) (behind : Blank back)
      (recased : Recased other value.toList) :=
    ofSetting_congr (flag?_around before behind recased)
  rw [← ignored, ← off]
  cases read : flag? value with
  | none =>
    have left : ofSetting (some value) = (default, [.settingIgnored nullCheckSetting value true]) :=
      ofSetting_of_none read
    refine ⟨?_, ?_, ?_, ?_, ?_, varies⟩ <;> simp [left, Notice.level]
    rfl
  | some flag =>
    have left : ofSetting (some value) = ({ nullChecking := flag }, []) := ofSetting_of_flag read
    refine ⟨?_, ?_, ?_, ?_, ?_, varies⟩ <;> simp [left]
    · rfl
    · rfl

end Columnar.Config
