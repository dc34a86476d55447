import Columnar.Bitmap.Copy
import Columnar.Proofs.Bitmap.Count
import Columnar.Proofs.Bytes

namespace Columnar.Bitmap

theorem bit_overwrite_zero (bitmap : Bytes) (run : List UInt8) (fits : run.length ≤ bitmap.size)
    (index : Nat) :
    bit (bitmap.overwrite 0 run) index =
      if index < 8 * run.length then bit run.toArray index else bit bitmap index := by
  by_cases inside : index < 8 * run.length
  · have written : index / 8 < run.length := by omega
    rw [if_pos inside, bit, bit, Bytes.getElem?_overwrite, if_pos (by omega), Nat.sub_zero,
      List.getElem?_toArray]
  · rw [if_neg inside, bit, bit, Bytes.getElem?_overwrite, if_neg (by omega)]

@[simp] theorem size_trim (target : Bytes) (bits : Nat) : (trim target bits).size = target.size := by
  unfold trim
  split <;> simp

theorem bit_trim (target : Bytes) (bits index : Nat) :
    bit (trim target bits) index =
      if bits ≤ index ∧ index < 8 * bytesFor bits then false else bit target index := by
  have place : index % 8 < 8 := Nat.mod_lt _ (by decide)
  unfold trim
  split
  · rename_i whole
    have needed : bytesFor bits = bits / 8 := by simp [bytesFor, whole]
    rw [if_neg]
    omega
  · rename_i some
    have few : bits % 8 < 8 := Nat.mod_lt _ (by decide)
    have needed : bytesFor bits = bits / 8 + 1 := by simp [bytesFor, some]
    rw [bit, bit, Array.getElem?_modify]
    by_cases last : bits / 8 = index / 8
    · rw [if_pos last, needed]
      cases held : target[index / 8]? with
      | none => simp
      | some byte =>
        have masked : (byte &&& lowMask (bits % 8)).toBitVec.getLsbD (index % 8) =
            (byte.toBitVec.getLsbD (index % 8) && decide (index % 8 < bits % 8)) := by
          rw [UInt8.toBitVec_and, BitVec.getLsbD_and, getLsbD_lowMask _ _ few place]
        simp only [Option.map_some, Option.getD_some, masked]
        by_cases beyond : bits ≤ index
        · rw [if_pos (by omega), decide_eq_false (by omega), Bool.and_false]
        · rw [if_neg (by omega), decide_eq_true (by omega), Bool.and_true]
    · rw [if_neg last, if_neg]
      omega

private theorem mapM_eq_some {α β : Type} (action : α → Option β) (fallback : β) (items : List α)
    (ready : ∀ item ∈ items, (action item).isSome) :
    items.mapM action = some (items.map fun item => (action item).getD fallback) := by
  induction items with
  | nil => rfl
  | cons item rest ih =>
    obtain ⟨value, found⟩ := Option.isSome_iff_exists.mp (ready item (by simp))
    rw [List.mapM_cons, ih fun other member => ready other (by simp [member])]
    simp [found]

private theorem mapM_eq_none {α β : Type} {action : α → Option β} {items : List α} {item : α}
    (member : item ∈ items) (failed : action item = none) : items.mapM action = none := by
  induction items with
  | nil => cases member
  | cons first rest ih =>
    rw [List.mapM_cons]
    rcases List.mem_cons.mp member with rfl | later
    · simp [failed]
    · cases found : action first <;> simp [ih later]

private theorem toBitVec_shiftRight (byte : UInt8) {shift : Nat} (small : shift < 8) :
    (byte >>> UInt8.ofNat shift).toBitVec = byte.toBitVec >>> shift := by
  simp [Nat.mod_eq_of_lt (show shift < 256 by omega), Nat.mod_eq_of_lt small]

private theorem toBitVec_shiftLeft (byte : UInt8) {shift : Nat} (small : shift < 8) :
    (byte <<< UInt8.ofNat shift).toBitVec = byte.toBitVec <<< shift := by
  simp [Nat.mod_eq_of_lt (show shift < 256 by omega), Nat.mod_eq_of_lt small]

/-- A byte put together from two neighbours holds eight bits of the source from `shift` on, as far
as they lie below the limit. -/
private theorem joined?_spec (source : Bytes) {shift : Nat} (limit index : Nat)
    (inner : 0 < shift ∧ shift < 8) (held : index < source.size)
    (next : index + 1 < limit → index + 1 < source.size) :
    ∃ byte, joined? source shift limit index = some byte ∧
      ∀ place, place < 8 → (index + 1 < limit ∨ shift + place < 8) →
        byte.toBitVec.getLsbD place = bit source (8 * index + shift + place) := by
  have low (place : Nat) (inside : shift + place < 8) :
      (source[index] >>> UInt8.ofNat shift).toBitVec.getLsbD place =
        bit source (8 * index + shift + place) := by
    have byte : (8 * index + shift + place) / 8 = index := by omega
    have offset : (8 * index + shift + place) % 8 = shift + place := by omega
    rw [toBitVec_shiftRight _ inner.2, BitVec.getLsbD_ushiftRight, bit, byte, offset,
      Array.getElem?_eq_getElem held, Option.getD_some]
  unfold joined?
  rw [Array.getElem?_eq_getElem held]
  simp only [Option.bind_eq_bind, Option.bind_some]
  by_cases follows : index + 1 < limit
  · rw [if_pos follows, Array.getElem?_eq_getElem (next follows)]
    refine ⟨_, rfl, ?_⟩
    intro place bound _
    rw [UInt8.toBitVec_or, BitVec.getLsbD_or, toBitVec_shiftLeft _ (show 8 - shift < 8 by omega),
      BitVec.getLsbD_shiftLeft]
    by_cases inside : shift + place < 8
    · rw [low place inside, decide_eq_true (show place < 8 - shift by omega)]
      simp
    · have byte : (8 * index + shift + place) / 8 = index + 1 := by omega
      have offset : (8 * index + shift + place) % 8 = place - (8 - shift) := by omega
      have empty : (source[index] >>> UInt8.ofNat shift).toBitVec.getLsbD place = false := by
        rw [toBitVec_shiftRight _ inner.2, BitVec.getLsbD_ushiftRight]
        exact BitVec.getLsbD_of_ge _ _ (by omega)
      rw [empty, decide_eq_false (show ¬ place < 8 - shift by omega), bit, byte, offset,
        Array.getElem?_eq_getElem (next follows), Option.getD_some]
      simp [bound]
  · rw [if_neg follows]
    refine ⟨_, rfl, ?_⟩
    intro place _ reached
    exact low place (by omega)

private theorem joined?_eq_none {source : Bytes} {limit index : Nat} (shift : Nat)
    (short : source.size ≤ index ∨ index + 1 < limit ∧ source.size ≤ index + 1) :
    joined? source shift limit index = none := by
  unfold joined?
  rcases short with beyond | ⟨wanted, beyond⟩
  · rw [Array.getElem?_eq_none beyond]
    rfl
  · cases source[index]? with
    | none => rfl
    | some byte =>
      simp only [Option.bind_eq_bind, Option.bind_some, if_pos wanted, Array.getElem?_eq_none beyond]
      rfl

private theorem div_add_bytesFor {start stop : Nat} (aligned : start % 8 = 0) (range : start < stop) :
    start / 8 + bytesFor (stop - start) = bytesFor stop := by
  unfold bytesFor
  split <;> split <;> omega

/-- The bytes to be written exist where the source holds the range, and their bits are those of
the range. -/
private theorem shifted?_spec (source : Bytes) {start stop : Nat} (range : start < stop)
    (held : bytesFor stop ≤ source.size) :
    ∃ run, shifted? source start stop = some run ∧ run.length = bytesFor (stop - start) ∧
      ∀ index, index < stop - start → bit run.toArray index = bit source (start + index) := by
  have total : stop ≤ 8 * source.size := (bytesFor_le_iff _ _).mp held
  by_cases aligned : start % 8 = 0
  · have ends := div_add_bytesFor aligned range
    have sliced : source.slice? (start / 8) (start / 8 + bytesFor (stop - start)) =
        some (source.extract (start / 8) (start / 8 + bytesFor (stop - start))).toList :=
      Bytes.slice?_eq_some_iff.mpr ⟨Nat.le_add_right _ _, ends ▸ held, rfl⟩
    refine ⟨_, by rw [shifted?, if_pos aligned, sliced], ?_, ?_⟩
    · rw [Bytes.length_of_slice? sliced, Nat.add_sub_cancel_left]
    · intro index inside
      have near : index / 8 < bytesFor (stop - start) := by
        have bits := le_bytesFor (stop - start)
        omega
      have byte : (start + index) / 8 = start / 8 + index / 8 := by omega
      have offset : (start + index) % 8 = index % 8 := by omega
      rw [bit, bit, List.getElem?_toArray, byte, offset,
        Bytes.getElem?_of_slice? sliced _ (by rwa [Nat.add_sub_cancel_left])]
  · have inner : 0 < start % 8 ∧ start % 8 < 8 := ⟨Nat.pos_of_ne_zero aligned, Nat.mod_lt _ (by decide)⟩
    have bits := le_bytesFor stop
    have last (offset : Nat) (member : offset < bytesFor (stop - start)) : 8 * offset < stop - start := by
      unfold bytesFor at member
      split at member <;> omega
    have joined (offset : Nat) (member : offset < bytesFor (stop - start)) :
        ∃ byte, joined? source (start % 8) (bytesFor stop) (start / 8 + offset) = some byte ∧
          ∀ place, place < 8 → 8 * offset + place < stop - start →
            byte.toBitVec.getLsbD place = bit source (start + (8 * offset + place)) := by
      have begins := last offset member
      obtain ⟨byte, found, same⟩ := joined?_spec source (bytesFor stop) (start / 8 + offset) inner
        (by omega) (by omega)
      refine ⟨byte, found, ?_⟩
      intro place bound inside
      have position : start + (8 * offset + place) = 8 * (start / 8 + offset) + start % 8 + place := by
        omega
      rw [position]
      exact same place bound (by omega)
    have ready : ∀ offset ∈ List.range (bytesFor (stop - start)),
        (joined? source (start % 8) (bytesFor stop) (start / 8 + offset)).isSome := by
      intro offset member
      obtain ⟨byte, found, _⟩ := joined offset (List.mem_range.mp member)
      rw [found, Option.isSome_some]
    refine ⟨_, by rw [shifted?, if_neg aligned, mapM_eq_some _ 0 _ ready], ?_, ?_⟩
    · rw [List.length_map, List.length_range]
    · intro index inside
      have near : index / 8 < bytesFor (stop - start) := by
        have enough := le_bytesFor (stop - start)
        omega
      have position : 8 * (index / 8) + index % 8 = index := Nat.div_add_mod index 8
      obtain ⟨byte, found, same⟩ := joined (index / 8) near
      have copied := same (index % 8) (Nat.mod_lt _ (by decide)) (by rwa [position])
      rw [position] at copied
      rw [← copied, bit, List.getElem?_toArray, List.getElem?_map, List.getElem?_range near,
        Option.map_some, found, Option.getD_some, Option.getD_some]

/-- They do not exist where the source is shorter than the range: the last of them reads the last byte
of the range, as its own or as its neighbour. -/
private theorem shifted?_eq_none {source : Bytes} {start stop : Nat} (range : start < stop)
    (short : source.size < bytesFor stop) : shifted? source start stop = none := by
  unfold shifted?
  by_cases aligned : start % 8 = 0
  · rw [if_pos aligned, Bytes.slice?, if_neg]
    rintro ⟨_, fits⟩
    exact absurd (div_add_bytesFor aligned range ▸ fits) (Nat.not_le_of_lt short)
  · rw [if_neg aligned]
    have some : 0 < bytesFor (stop - start) := by
      have bits := le_bytesFor (stop - start)
      omega
    refine mapM_eq_none (List.mem_range.mpr (Nat.sub_one_lt some.ne')) (joined?_eq_none _ ?_)
    simp only [bytesFor_eq] at short some ⊢
    omega

theorem size_of_copyRange? {target source bytes : Bytes} {start stop : Nat}
    (copied : copyRange? target source start stop = some bytes) : bytes.size = target.size := by
  unfold copyRange? at copied
  split at copied
  · cases copied
  · split at copied
    · cases copied
      rfl
    · split at copied
      · cases copied
      · obtain ⟨run, _, written⟩ := Option.bind_eq_some_iff.mp copied
        cases written
        rw [size_trim, Bytes.size_overwrite]

/-- Where both buffers are long enough for a range, its bits are copied to the front, the rest of
the last byte is cleared and the bytes behind it stay as they are. -/
theorem copyRange?_spec (target source : Bytes) {start stop : Nat} (ordered : start ≤ stop)
    (room : bytesFor (stop - start) ≤ target.size) (held : bytesFor stop ≤ source.size) :
    ∃ result, copyRange? target source start stop = some result ∧ result.size = target.size ∧
      ∀ index, bit result index =
        if index < stop - start then bit source (start + index)
        else if index < 8 * bytesFor (stop - start) then false
        else bit target index := by
  rcases Nat.eq_or_lt_of_le ordered with rfl | range
  · refine ⟨target, by rw [copyRange?, if_neg (Nat.lt_irrefl _), if_pos rfl], rfl, ?_⟩
    intro index
    simp [bytesFor]
  · obtain ⟨run, found, length, same⟩ := shifted?_spec source range held
    refine ⟨trim (target.overwrite 0 run) (stop - start), ?_, by rw [size_trim, Bytes.size_overwrite], ?_⟩
    · rw [copyRange?, if_neg (by omega), if_neg (by omega), if_neg (by omega), found]
      rfl
    · intro index
      have bits := le_bytesFor (stop - start)
      rw [bit_trim, bit_overwrite_zero _ _ (length ▸ room), length]
      by_cases inside : index < stop - start
      · rw [if_neg (by omega), if_pos (by omega), if_pos inside, same index inside]
      · by_cases trimmed : index < 8 * bytesFor (stop - start)
        · rw [if_pos (by omega), if_neg inside, if_pos trimmed]
        · rw [if_neg (by omega), if_neg trimmed, if_neg inside, if_neg trimmed]

/-- A copy fails on a range that runs backwards, and on one that is not empty where the target is
shorter than the bits copied or the source ends before the range does. -/
theorem copyRange?_eq_none_iff (target source : Bytes) (start stop : Nat) :
    copyRange? target source start stop = none ↔ stop < start ∨
      start < stop ∧ (target.size < bytesFor (stop - start) ∨ source.size < bytesFor stop) := by
  rcases Nat.lt_trichotomy start stop with range | rfl | backwards
  · by_cases room : bytesFor (stop - start) ≤ target.size
    · by_cases held : bytesFor stop ≤ source.size
      · obtain ⟨result, copied, _⟩ := copyRange?_spec target source range.le room held
        simp only [copied, reduceCtorEq, false_iff]
        omega
      · have short := shifted?_eq_none range (Nat.lt_of_not_le held)
        simp only [copyRange?, short, Option.bind_eq_bind, Option.bind_none, ite_self]
        simp only [if_neg range.not_gt, if_neg range.ne, true_iff]
        exact .inr ⟨range, .inr (Nat.lt_of_not_le held)⟩
    · have few := Nat.lt_of_not_le room
      simp only [copyRange?, if_neg range.not_gt, if_neg range.ne, if_pos few, true_iff]
      exact .inr ⟨range, .inl few⟩
  · simp [copyRange?]
  · simp [copyRange?, backwards]

theorem bit_of_copyRange? {target source result : Bytes} {start stop : Nat}
    (copied : copyRange? target source start stop = some result) (index : Nat) :
    bit result index =
      if index < stop - start then bit source (start + index)
      else if index < 8 * bytesFor (stop - start) then false
      else bit target index := by
  have possible : ¬ (stop < start ∨ start < stop ∧
      (target.size < bytesFor (stop - start) ∨ source.size < bytesFor stop)) := by
    rw [← copyRange?_eq_none_iff, copied]
    exact Option.some_ne_none result
  rcases Nat.lt_or_ge start stop with range | backwards
  · obtain ⟨_, again, _, bits⟩ := copyRange?_spec target source range.le (by omega) (by omega)
    obtain rfl := Option.some.inj (again.symm.trans copied)
    exact bits index
  · have empty : start = stop := by omega
    subst empty
    rw [copyRange?, if_neg (Nat.lt_irrefl _), if_pos rfl] at copied
    obtain rfl := Option.some.inj copied
    simp [bytesFor]

/-- Copying fails on ranges that run backwards or reach beyond either buffer, unless they are empty. Else it
shifts the bits to the front, clears what is left of the last byte, and leaves the bytes behind. -/
theorem copyRange?_shifts (target source : Bytes) (start stop : Nat) :
    let written := (stop - start + 7) / 8
    (copyRange? target source start stop = none ↔ stop < start ∨
      start < stop ∧ (target.size < written ∨ source.size < (stop + 7) / 8)) ∧
    ∀ result, copyRange? target source start stop = some result →
      result.size = target.size ∧
      (∀ index < stop - start, ∃ valid,
        get? result index = some valid ∧ get? source (start + index) = some valid) ∧
      (∀ index, stop - start ≤ index → index < 8 * written → get? result index = some false) ∧
      (∀ place, written ≤ place → result[place]? = target[place]?) ∧
      (start = stop → result = target) := by
  intro written
  have needed : bytesFor (stop - start) = written := bytesFor_eq _
  have fails := copyRange?_eq_none_iff target source start stop
  rw [needed, bytesFor_eq stop] at fails
  refine ⟨fails, fun result copied => ?_⟩
  have size := size_of_copyRange? copied
  have bits := bit_of_copyRange? copied
  rw [needed] at bits
  have possible : ¬ (stop < start ∨
      start < stop ∧ (target.size < written ∨ source.size < (stop + 7) / 8)) := by
    rw [← fails, copied]
    exact Option.some_ne_none result
  refine ⟨size, fun index inside => ⟨bit source (start + index), ?_, ?_⟩, fun index beyond last => ?_,
    fun place behind => ?_, fun empty => ?_⟩
  · rw [get?_eq, if_pos (show index / 8 < result.size by omega), bits, if_pos inside]
  · rw [get?_eq, if_pos (show (start + index) / 8 < source.size by omega)]
  · rw [get?_eq, if_pos (show index / 8 < result.size by omega), bits, if_neg (by omega), if_pos last]
  · refine getElem?_eq_of_bit size fun offset inside => ?_
    rw [bits, if_neg (by omega), if_neg (by omega)]
  · exact eq_of_bit size fun index => by rw [bits, if_neg (by omega), if_neg (by omega)]

theorem copyRange?_shifts_inside :
    let target : Bytes := #[255, 255, 255]
    let source : Bytes := #[180, 109]
    ∃ result, copyRange? target source 3 13 = some result ∧ result[2]? = some 255 ∧
      get? result 10 = some false ∧ get? result 9 = get? source 12 := by
  intro target source
  have shifts := copyRange?_shifts target source 3 13
  obtain ⟨result, copied⟩ := Option.ne_none_iff_exists'.mp fun none =>
    absurd (shifts.1.mp none) (by decide)
  obtain ⟨_, moved, clear, behind, _⟩ := shifts.2 result copied
  obtain ⟨valid, here, there⟩ := moved 9 (by decide)
  exact ⟨result, copied, behind 2 (by decide), clear 10 (by decide) (by decide), here.trans there.symm⟩

end Columnar.Bitmap
