import Columnar.Bitmap.Count
import Columnar.Proofs.Bitmap.Bits

namespace Columnar.Bitmap

/-- The number of set bits among the first `length`. -/
def countBits (bitmap : Bytes) (length : Nat) : Nat := (List.range length).countP (bit bitmap)

private theorem bit_cons_low (byte : UInt8) (rest : List UInt8) (place : Nat) (low : place < 8) :
    bit (byte :: rest).toArray place = byte.toBitVec.getLsbD place := by
  simp [bit, Nat.div_eq_of_lt low, Nat.mod_eq_of_lt low]

private theorem bit_cons_high (byte : UInt8) (rest : List UInt8) (place : Nat) :
    bit (byte :: rest).toArray (8 + place) = bit rest.toArray place := by
  have next : (8 + place) / 8 = place / 8 + 1 := by omega
  simp [bit, next]

private theorem countBits_cons (byte : UInt8) (rest : List UInt8) (length : Nat) :
    countBits (byte :: rest).toArray (8 + length) =
      ones byte.toBitVec + countBits rest.toArray length := by
  rw [countBits, List.range_add, List.countP_append, List.countP_map, ones, countBits]
  refine congrArg₂ (· + ·) ?_ ?_
  · apply List.countP_congr
    intro place member
    rw [bit_cons_low byte rest place (List.mem_range.mp member)]
  · apply List.countP_congr
    intro place _
    simp only [Function.comp_apply, bit_cons_high]

theorem onesOfBytes_eq (bytes : List UInt8) :
    onesOfBytes bytes = countBits bytes.toArray (8 * bytes.length) := by
  induction bytes with
  | nil => rfl
  | cons byte rest ih =>
    have longer : 8 * (byte :: rest).length = 8 + 8 * rest.length := by
      rw [List.length_cons]
      omega
    rw [longer, countBits_cons, ← ih]
    rfl

theorem onesOfBytes_append (first second : List UInt8) :
    onesOfBytes (first ++ second) = onesOfBytes first + onesOfBytes second := by
  induction first with
  | nil => simp [onesOfBytes]
  | cons byte rest ih =>
    have unfold (bytes : List UInt8) :
        onesOfBytes (byte :: bytes) = ones byte.toBitVec + onesOfBytes bytes := rfl
    rw [List.cons_append, unfold, unfold, ih, Nat.add_assoc]

theorem testBit_decode (bytes : List UInt8) (place : Nat) :
    (LittleEndian.decode bytes).testBit place = bit bytes.toArray place := by
  induction bytes generalizing place with
  | nil => simp [LittleEndian.decode, bit]
  | cons byte rest ih =>
    have low : byte.toNat < 2 ^ 8 := byte.toNat_lt
    have shape : LittleEndian.decode (byte :: rest) = 2 ^ 8 * LittleEndian.decode rest + byte.toNat := by
      rw [LittleEndian.decode, Nat.add_comm]
      norm_num
    rw [shape, Nat.testBit_two_pow_mul_add _ low]
    split
    · rename_i near
      rw [bit_cons_low byte rest place near, BitVec.getLsbD, UInt8.toNat_toBitVec]
    · rename_i far
      obtain ⟨beyond, rfl⟩ := Nat.exists_eq_add_of_le (Nat.le_of_not_lt far)
      rw [Nat.add_sub_cancel_left, ih, bit_cons_high]

theorem ones_word (bytes : List UInt8) (whole : bytes.length = 8) :
    ones (word bytes) = onesOfBytes bytes := by
  rw [onesOfBytes_eq, whole, ones, countBits]
  apply List.countP_congr
  intro place member
  have inside : place < 64 := List.mem_range.mp member
  rw [word, BitVec.getLsbD_ofNat, testBit_decode]
  simp [inside]

theorem onesOfWords_eq (words : Nat) (bytes : List UInt8) (enough : 8 * words ≤ bytes.length) :
    onesOfWords words bytes = onesOfBytes (bytes.take (8 * words)) := by
  induction words generalizing bytes with
  | zero => rfl
  | succ words ih =>
    have first : (bytes.take 8).length = 8 := by
      rw [List.length_take]
      omega
    have rest : 8 * words ≤ (bytes.drop 8).length := by
      rw [List.length_drop]
      omega
    have joined : bytes.take (8 * (words + 1)) = bytes.take 8 ++ (bytes.drop 8).take (8 * words) := by
      rw [Nat.mul_succ, Nat.add_comm, List.take_add]
    rw [onesOfWords, ones_word _ first, ih _ rest, joined, onesOfBytes_append]

/-- A cut of at most the given number of bytes. -/
def Cut.Fits (cut : Cut) (length : Nat) : Prop := cut.head + 8 * cut.words ≤ length

instance (cut : Cut) (length : Nat) : Decidable (cut.Fits length) :=
  inferInstanceAs (Decidable (_ ≤ _))

theorem Cut.fits_packed (length : Nat) : (Cut.packed length).Fits length := by
  simp only [Cut.Fits, Cut.packed]
  omega

/-- Where whole bytes are cut makes no difference to the count. -/
theorem onesAlong_eq (cut : Cut) (bytes : List UInt8) (fits : cut.Fits bytes.length) :
    onesAlong cut bytes = onesOfBytes bytes := by
  have enough : 8 * cut.words ≤ (bytes.drop cut.head).length := by
    rw [List.length_drop]
    simp only [Cut.Fits] at fits
    omega
  rw [onesAlong, onesOfWords_eq _ _ enough, Nat.add_assoc, ← onesOfBytes_append,
    List.take_append_drop, ← onesOfBytes_append, List.take_append_drop]

theorem getLsbD_lowMask (bits place : Nat) (few : bits < 8) (inside : place < 8) :
    (lowMask bits).toBitVec.getLsbD place = decide (place < bits) := by
  have places : ∀ bits place : Fin 8,
      (lowMask bits).toBitVec.getLsbD place = decide (place.val < bits.val) := by
    decide
  exact places ⟨bits, few⟩ ⟨place, inside⟩

private theorem ones_and_lowMask (byte : UInt8) (bits : Nat) (few : bits < 8) :
    ones (byte &&& lowMask bits).toBitVec = (List.range bits).countP byte.toBitVec.getLsbD := by
  have split : List.range 8 = List.range bits ++ (List.range (8 - bits)).map (bits + ·) := by
    rw [← List.range_add, Nat.add_sub_of_le (Nat.le_of_lt few)]
  have masked (place : Nat) (inside : place < 8) :
      (byte &&& lowMask bits).toBitVec.getLsbD place =
        (byte.toBitVec.getLsbD place && decide (place < bits)) := by
    rw [UInt8.toBitVec_and, BitVec.getLsbD_and, getLsbD_lowMask bits place few inside]
  have high : ((List.range (8 - bits)).map (bits + ·)).countP
      (byte &&& lowMask bits).toBitVec.getLsbD = 0 := by
    apply List.countP_eq_zero.mpr
    intro place member
    obtain ⟨offset, inside, rfl⟩ := List.mem_map.mp member
    have bound := List.mem_range.mp inside
    rw [masked _ (by omega)]
    simp
  rw [ones, split, List.countP_append, high, Nat.add_zero]
  apply List.countP_congr
  intro place member
  have bound := List.mem_range.mp member
  rw [masked _ (by omega)]
  simp [bound]

theorem countBits_add (bitmap : Bytes) (length more : Nat) :
    countBits bitmap (length + more) =
      countBits bitmap length + (List.range more).countP fun place => bit bitmap (length + place) := by
  rw [countBits, List.range_add, List.countP_append, List.countP_map]
  rfl

private theorem countBits_extract (bitmap : Bytes) (whole : Nat) (enough : whole ≤ bitmap.size) :
    countBits (bitmap.extract 0 whole).toList.toArray (8 * whole) = countBits bitmap (8 * whole) := by
  apply List.countP_congr
  intro place member
  have inside : place / 8 < whole := by
    have bound := List.mem_range.mp member
    omega
  have size : (bitmap.extract 0 whole).size = whole := by
    rw [Array.size_extract, Nat.sub_zero, Nat.min_eq_left enough]
  rw [Array.toArray_toList, bit, bit, Array.getElem?_extract, if_pos (by omega), Nat.zero_add]

private theorem countBits_tail {bitmap : Bytes} {length : Nat} (last : length / 8 < bitmap.size) :
    countBits bitmap length = countBits bitmap (8 * (length / 8)) +
      ones (bitmap[length / 8] &&& lowMask (length % 8)).toBitVec := by
  have tail : (List.range (length % 8)).countP (fun place => bit bitmap (8 * (length / 8) + place)) =
      (List.range (length % 8)).countP bitmap[length / 8].toBitVec.getLsbD := by
    apply List.countP_congr
    intro place member
    have bound := List.mem_range.mp member
    have byte : (8 * (length / 8) + place) / 8 = length / 8 := by omega
    have offset : (8 * (length / 8) + place) % 8 = place := by omega
    simp only [bit, byte, offset, Array.getElem?_eq_getElem last, Option.getD_some]
  have parts : length = 8 * (length / 8) + length % 8 := (Nat.div_add_mod length 8).symm
  rw [ones_and_lowMask _ _ (Nat.mod_lt _ (by decide)), ← tail, ← countBits_add, ← parts]

/-- The count is that of the bits, one by one, whichever cut is taken; there is none exactly where
the buffer holds fewer bits. -/
theorem trueCountAlong?_eq (cut : Cut) (bitmap : Bytes) (length : Nat) (fits : cut.Fits (length / 8)) :
    trueCountAlong? cut bitmap length =
      if bytesFor length ≤ bitmap.size then some (countBits bitmap length) else none := by
  by_cases enough : length / 8 ≤ bitmap.size
  · have sliced : bitmap.slice? 0 (length / 8) = some (bitmap.extract 0 (length / 8)).toList := by
      rw [Bytes.slice?, if_pos ⟨Nat.zero_le _, enough⟩]
    have size : (bitmap.extract 0 (length / 8)).toList.length = length / 8 := by
      rw [Array.length_toList, Array.size_extract, Nat.sub_zero, Nat.min_eq_left enough]
    have whole : onesAlong cut (bitmap.extract 0 (length / 8)).toList =
        countBits bitmap (8 * (length / 8)) := by
      rw [onesAlong_eq cut _ (by rwa [size]), onesOfBytes_eq, size, countBits_extract bitmap _ enough]
    simp only [trueCountAlong?, sliced, Option.bind_eq_bind, Option.bind_some, whole]
    by_cases even : length % 8 = 0
    · have needed : bytesFor length = length / 8 := by simp [bytesFor, even]
      have aligned : 8 * (length / 8) = length := by omega
      simp [even, needed, enough, aligned]
    · have needed : bytesFor length = length / 8 + 1 := by simp [bytesFor, even]
      simp only [even, if_false, needed]
      by_cases last : length / 8 < bitmap.size
      · rw [Array.getElem?_eq_getElem last, if_pos (Nat.succ_le_of_lt last), countBits_tail last]
        rfl
      · have short : ¬ length / 8 + 1 ≤ bitmap.size := last
        rw [Array.getElem?_eq_none (Nat.le_of_not_lt last), if_neg short]
        rfl
  · have short : ¬ bytesFor length ≤ bitmap.size := by
      simp only [bytesFor]
      omega
    have sliced : bitmap.slice? 0 (length / 8) = none := by
      rw [Bytes.slice?, if_neg (fun held => enough held.2)]
    rw [trueCountAlong?, sliced, if_neg short]
    rfl

theorem trueCount?_eq (bitmap : Bytes) (length : Nat) :
    trueCount? bitmap length =
      if bytesFor length ≤ bitmap.size then some (countBits bitmap length) else none :=
  trueCountAlong?_eq _ _ _ (Cut.fits_packed _)

theorem falseCount?_eq (bitmap : Bytes) (length : Nat) (enough : bytesFor length ≤ bitmap.size) :
    falseCount? bitmap length = some ((List.range length).countP fun index => !bit bitmap index) := by
  have total := List.length_eq_countP_add_countP (bit bitmap) (l := List.range length)
  rw [List.length_range] at total
  have clear : (List.range length).countP (fun index => !bit bitmap index) =
      length - countBits bitmap length := by
    simp only [countBits]
    simp only [Bool.not_eq_true] at total
    have same : (List.range length).countP (fun index => decide (bit bitmap index = false)) =
        (List.range length).countP (fun index => !bit bitmap index) := by
      apply List.countP_congr
      intro index _
      simp
    omega
  rw [falseCount?, trueCount?_eq, if_pos enough, Option.map_some, clear]

theorem countBits_le (bitmap : Bytes) (length : Nat) : countBits bitmap length ≤ length := by
  have bound := List.countP_le_length (p := bit bitmap) (l := List.range length)
  rwa [List.length_range] at bound

theorem countBits_eq_get? {bitmap : Bytes} {length : Nat} (enough : bytesFor length ≤ bitmap.size) :
    countBits bitmap length =
      (List.range length).countP fun index => get? bitmap index = some true := by
  apply List.countP_congr
  intro index member
  have inside : index < length := List.mem_range.mp member
  have covered : Covers bitmap index := by
    have room := le_bytesFor length
    simp only [Covers]
    omega
  rw [get?_eq, if_pos covered]
  simp

/-- Counting fails exactly where the buffer is too short. Else it gives the bits that read as set, however
the whole bytes are cut. -/
theorem counts_exactly (cut : Cut) (bitmap : Bytes) (length : Nat) (fits : cut.Fits (length / 8)) :
    let count := (List.range length).countP fun index => get? bitmap index = some true
    (trueCountAlong? cut bitmap length = none ↔ bitmap.size < (length + 7) / 8) ∧
      (falseCount? bitmap length = none ↔ bitmap.size < (length + 7) / 8) ∧
      trueCount? bitmap length = trueCountAlong? cut bitmap length ∧
      ((length + 7) / 8 ≤ bitmap.size →
        trueCountAlong? cut bitmap length = some count ∧ count ≤ length ∧
        falseCount? bitmap length = some (length - count)) := by
  intro count
  have along := trueCountAlong?_eq cut bitmap length fits
  have packed := trueCount?_eq bitmap length
  rw [← bytesFor_eq]
  by_cases enough : bytesFor length ≤ bitmap.size
  · have same : countBits bitmap length = count := countBits_eq_get? enough
    rw [if_pos enough, same] at along packed
    have cleared : falseCount? bitmap length = some (length - count) := by
      rw [falseCount?, packed, Option.map_some]
    have held : ¬ bitmap.size < bytesFor length := Nat.not_lt_of_le enough
    refine ⟨?_, ?_, packed.trans along.symm, fun _ => ⟨along, ?_, cleared⟩⟩
    · simp [along, held]
    · simp [cleared, held]
    · rw [← same]
      exact countBits_le bitmap length
  · have short : bitmap.size < bytesFor length := Nat.lt_of_not_le enough
    rw [if_neg enough] at along packed
    have failed : falseCount? bitmap length = none := by
      rw [falseCount?, packed, Option.map_none]
    refine ⟨?_, ?_, packed.trans along.symm, fun held => absurd held enough⟩
    · simp [along, short]
    · simp [failed, short]

/-- A cut with a head, one word and a tail, before a last byte that has more bits set than are counted. -/
theorem counts_exactly_uneven :
    let bitmap : Bytes := #[255, 1, 128, 85, 0, 170, 255, 16, 0, 15, 240, 1, 255]
    (Cut.mk 3 1).Fits (101 / 8) ∧ trueCountAlong? ⟨3, 1⟩ bitmap 101 = some 41 ∧
      falseCount? bitmap 101 = some 60 := by
  intro bitmap
  have fits : (Cut.mk 3 1).Fits (101 / 8) := by decide
  have count : (List.range 101).countP (fun index => get? bitmap index = some true) = 41 := by
    decide +kernel
  obtain ⟨_, _, _, counted⟩ := counts_exactly ⟨3, 1⟩ bitmap 101 fits
  obtain ⟨set, _, cleared⟩ := counted (by decide)
  rw [count] at set cleared
  exact ⟨fits, set, cleared⟩

end Columnar.Bitmap
