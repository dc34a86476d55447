import Columnar.Bytes
import Mathlib

namespace Columnar.Bytes

theorem slice?_eq_some_iff {bytes : Bytes} {start stop : Nat} {run : List UInt8} :
    bytes.slice? start stop = some run ↔
      start ≤ stop ∧ stop ≤ bytes.size ∧ (bytes.extract start stop).toList = run := by
  unfold slice?
  split
  · rename_i inside
    simp [inside]
  · rename_i outside
    constructor
    · intro none
      cases none
    · intro ⟨ordered, bounded, _⟩
      exact absurd ⟨ordered, bounded⟩ outside

theorem length_of_slice? {bytes : Bytes} {start stop : Nat} {run : List UInt8}
    (sliced : bytes.slice? start stop = some run) : run.length = stop - start := by
  obtain ⟨_, bounded, rfl⟩ := slice?_eq_some_iff.mp sliced
  rw [Array.length_toList, Array.size_extract, Nat.min_eq_left bounded]

theorem getElem?_of_slice? {bytes : Bytes} {start stop : Nat} {run : List UInt8}
    (sliced : bytes.slice? start stop = some run) (index : Nat) (inside : index < stop - start) :
    run[index]? = bytes[start + index]? := by
  obtain ⟨_, bounded, rfl⟩ := slice?_eq_some_iff.mp sliced
  rw [Array.getElem?_toList, Array.getElem?_extract, Nat.min_eq_left bounded, if_pos inside]

theorem slice?_congr {left right : Bytes} {start stop : Nat}
    (bounds : stop ≤ left.size ↔ stop ≤ right.size)
    (same : ∀ index, start ≤ index → index < stop → left[index]? = right[index]?) :
    left.slice? start stop = right.slice? start stop := by
  unfold slice?
  by_cases inside : start ≤ stop ∧ stop ≤ left.size
  · have other : start ≤ stop ∧ stop ≤ right.size := ⟨inside.1, bounds.mp inside.2⟩
    rw [if_pos inside, if_pos other]
    congr 2
    apply Array.ext_getElem?
    intro offset
    rw [Array.getElem?_extract, Array.getElem?_extract, Nat.min_eq_left inside.2,
      Nat.min_eq_left other.2]
    split
    · exact same _ (by omega) (by omega)
    · rfl
  · have other : ¬ (start ≤ stop ∧ stop ≤ right.size) := fun held =>
      inside ⟨held.1, bounds.mpr held.2⟩
    rw [if_neg inside, if_neg other]

/-- Writing a run changes the bytes of its range, as far as they exist, and no others. -/
theorem getElem?_overwrite (bytes : Bytes) (start : Nat) (run : List UInt8) (index : Nat) :
    (overwrite bytes start run)[index]? =
      if start ≤ index ∧ index < start + run.length ∧ index < bytes.size then run[index - start]?
      else bytes[index]? := by
  induction run generalizing bytes start with
  | nil =>
    rw [overwrite, if_neg]
    rw [List.length_nil]
    omega
  | cons byte rest ih =>
    rw [overwrite, ih, Array.size_setIfInBounds, Array.getElem?_setIfInBounds, List.length_cons]
    by_cases here : index = start
    · subst here
      by_cases inside : index < bytes.size
      · rw [if_neg (by omega), if_pos rfl, if_pos inside, if_pos (by omega), Nat.sub_self,
          List.getElem?_cons_zero]
      · rw [if_neg (by omega), if_pos rfl, if_neg inside, if_neg (by omega),
          Array.getElem?_eq_none (Nat.le_of_not_lt inside)]
    · rw [if_neg (Ne.symm here)]
      by_cases written : start + 1 ≤ index ∧ index < start + 1 + rest.length ∧ index < bytes.size
      · have next : index - start = index - (start + 1) + 1 := by omega
        rw [if_pos written, if_pos (by omega), next, List.getElem?_cons_succ]
      · rw [if_neg written, if_neg (by omega)]

theorem slice?_overwrite_self (bytes : Bytes) (start : Nat) (run : List UInt8)
    (fits : start + run.length ≤ bytes.size) :
    (bytes.overwrite start run).slice? start (start + run.length) = some run := by
  refine slice?_eq_some_iff.mpr ⟨Nat.le_add_right _ _, by rwa [size_overwrite], ?_⟩
  apply List.ext_getElem?
  intro offset
  rw [Array.getElem?_toList, Array.getElem?_extract, size_overwrite, Nat.min_eq_left fits,
    Nat.add_sub_cancel_left, getElem?_overwrite]
  by_cases inside : offset < run.length
  · rw [if_pos inside, if_pos (by omega), Nat.add_sub_cancel_left]
  · rw [if_neg inside, List.getElem?_eq_none (Nat.le_of_not_lt inside)]

theorem slice?_overwrite_apart (bytes : Bytes) (start : Nat) (run : List UInt8) {first last : Nat}
    (apart : last ≤ start ∨ start + run.length ≤ first) :
    (bytes.overwrite start run).slice? first last = bytes.slice? first last := by
  apply slice?_congr
  · rw [size_overwrite]
  · intro index lower upper
    rw [getElem?_overwrite, if_neg (by omega)]

theorem slice?_overwrite_zero {target source : Bytes} {first last : Nat} {run : List UInt8}
    (sliced : source.slice? first last = some run) (fits : run.length ≤ target.size)
    {start stop : Nat} (ordered : start ≤ stop) (inside : stop ≤ run.length) :
    (target.overwrite 0 run).slice? start stop = source.slice? (first + start) (first + stop) := by
  have length := length_of_slice? sliced
  obtain ⟨range, bounded, _⟩ := slice?_eq_some_iff.mp sliced
  have room : stop ≤ (target.overwrite 0 run).size := by
    rw [size_overwrite]
    omega
  have held : first + stop ≤ source.size := by omega
  rw [slice?, if_pos ⟨ordered, room⟩, slice?, if_pos ⟨by omega, held⟩]
  congr 2
  apply Array.ext_getElem?
  intro offset
  rw [Array.getElem?_extract, Array.getElem?_extract, Nat.min_eq_left room, Nat.min_eq_left held,
    Nat.add_sub_add_left]
  by_cases within : offset < stop - start
  · have written : start + offset < last - first := by omega
    rw [if_pos within, if_pos within, getElem?_overwrite, if_pos (by omega), Nat.sub_zero,
      getElem?_of_slice? sliced _ written, Nat.add_assoc]
  · rw [if_neg within, if_neg within]

theorem size_of_overwrite? {bytes written : Bytes} {start : Nat} {run : List UInt8}
    (fits : bytes.overwrite? start run = some written) : written.size = bytes.size := by
  unfold overwrite? at fits
  split at fits
  · cases fits
    exact size_overwrite bytes start run
  · cases fits

theorem getElem?_extendTo (bytes : Bytes) (length : Nat) {index : Nat} (inside : index < bytes.size) :
    (bytes.extendTo length)[index]? = bytes[index]? := by
  rw [extendTo, Array.getElem?_append_left inside]

theorem le_size_extendTo (bytes : Bytes) (length : Nat) : bytes.size ≤ (bytes.extendTo length).size := by
  rw [extendTo, Array.size_append]
  exact Nat.le_add_right _ _

theorem extendTo_extendTo (bytes : Bytes) (length further : Nat) :
    (bytes.extendTo length).extendTo further = bytes.extendTo (max length further) := by
  rw [extendTo, extendTo, extendTo, Array.append_assoc, Array.size_append, size_zeros, zeros, zeros,
    zeros, Array.replicate_append_replicate]
  congr 2
  omega

theorem slice?_extendTo (bytes : Bytes) (length : Nat) {start stop : Nat} (inside : stop ≤ bytes.size) :
    (bytes.extendTo length).slice? start stop = bytes.slice? start stop := by
  apply slice?_congr
  · have longer := bytes.le_size_extendTo length
    omega
  · intro index _ upper
    exact bytes.getElem?_extendTo length (by omega)

theorem overwrite_comm (bytes : Bytes) {first second : Nat} {run other : List UInt8}
    (apart : first + run.length ≤ second ∨ second + other.length ≤ first) :
    (bytes.overwrite first run).overwrite second other =
      (bytes.overwrite second other).overwrite first run := by
  apply Array.ext_getElem?
  intro index
  simp only [getElem?_overwrite, size_overwrite]
  by_cases written : first ≤ index ∧ index < first + run.length ∧ index < bytes.size
  · have missed : ¬ (second ≤ index ∧ index < second + other.length ∧ index < bytes.size) := by omega
    simp only [if_pos written, if_neg missed]
  · simp only [if_neg written]

theorem size_extendTo_eq (bytes : Bytes) (length : Nat) :
    (bytes.extendTo length).size = bytes.size + (length - bytes.size) := by
  simp [extendTo]

/-! ### Changes in place -/

/-- The change keeps the length of the buffer, and does not notice what follows behind its end. -/
structure InPlace (change : Bytes → Bytes) (bytes : Bytes) : Prop where
  size : (change bytes).size = bytes.size
  extendTo : ∀ length, change (bytes.extendTo length) = (change bytes).extendTo length

theorem InPlace.longer {change : Bytes → Bytes} {bytes : Bytes} (inPlace : InPlace change bytes)
    (length : Nat) : InPlace change (bytes.extendTo length) := by
  constructor
  · rw [inPlace.extendTo, size_extendTo_eq, size_extendTo_eq, inPlace.size]
  · intro further
    calc change ((bytes.extendTo length).extendTo further)
      _ = change (bytes.extendTo (max length further)) := by rw [extendTo_extendTo]
      _ = (change bytes).extendTo (max length further) := inPlace.extendTo _
      _ = ((change bytes).extendTo length).extendTo further := by rw [extendTo_extendTo]
      _ = (change (bytes.extendTo length)).extendTo further := by rw [inPlace.extendTo]

theorem inPlace_id (bytes : Bytes) : InPlace id bytes := ⟨rfl, fun _ => rfl⟩

theorem inPlace_overwrite {bytes : Bytes} {start : Nat} {run : List UInt8}
    (fits : start + run.length ≤ bytes.size) : InPlace (overwrite · start run) bytes := by
  constructor
  · exact size_overwrite bytes start run
  · intro length
    apply Array.ext_getElem?
    intro index
    have longer := bytes.le_size_extendTo length
    rcases Nat.lt_or_ge index bytes.size with inside | beyond
    · have kept : index < (bytes.overwrite start run).size := by rwa [size_overwrite]
      rw [getElem?_extendTo _ _ kept, getElem?_overwrite, getElem?_overwrite,
        getElem?_extendTo _ _ inside]
      by_cases written : start ≤ index ∧ index < start + run.length
      · rw [if_pos ⟨written.1, written.2, by omega⟩, if_pos ⟨written.1, written.2, inside⟩]
      · rw [if_neg (by omega), if_neg (by omega)]
    · rw [getElem?_overwrite, if_neg (by omega), extendTo, extendTo, size_overwrite,
        Array.getElem?_append_right beyond, Array.getElem?_append_right (by rwa [size_overwrite]),
        size_overwrite]

end Columnar.Bytes
