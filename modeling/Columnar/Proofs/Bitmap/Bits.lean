import Columnar.Bitmap.Basic
import Columnar.Proofs.Bytes

/-! The bits of a buffer as a function of their place, and what the operations of bitmaps make of
it. A bit beyond the end of the buffer counts as clear. -/

namespace Columnar.Bitmap

theorem bytesFor_le_iff (bits size : Nat) : bytesFor bits ≤ size ↔ bits ≤ 8 * size := by
  unfold bytesFor
  split <;> omega

theorem bytesFor_eq (bits : Nat) : bytesFor bits = (bits + 7) / 8 := by
  unfold bytesFor
  split <;> omega

/-- Bit `index` of a buffer. -/
def bit (bitmap : Bytes) (index : Nat) : Bool :=
  (bitmap[index / 8]?.getD 0).toBitVec.getLsbD (index % 8)

theorem toBitVec_mask (index : Nat) : (mask index).toBitVec = BitVec.twoPow 8 (index % 8) := by
  have places : ∀ place : Fin 8, (1 <<< UInt8.ofNat place : UInt8).toBitVec = BitVec.twoPow 8 place := by
    decide
  exact places ⟨index % 8, Nat.mod_lt _ (by decide)⟩

theorem bit_eq_false_of_size_le (beyond : bitmap.size ≤ index / 8) : bit bitmap index = false := by
  rw [bit, Array.getElem?_eq_none beyond]
  simp

theorem bit_eq_getLsbD (covered : Covers bitmap index) :
    bit bitmap index = bitmap[index / 8].toBitVec.getLsbD (index % 8) := by
  rw [bit, Array.getElem?_eq_getElem covered, Option.getD_some]

private theorem and_mask (byte : UInt8) (index : Nat) :
    (byte &&& mask index != 0) = byte.toBitVec.getLsbD (index % 8) := by
  have place : index % 8 < 8 := Nat.mod_lt _ (by decide)
  have masked : (byte &&& mask index).toBitVec =
      if byte.toBitVec.getLsbD (index % 8) then BitVec.twoPow 8 (index % 8) else 0#8 := by
    rw [UInt8.toBitVec_and, toBitVec_mask, BitVec.and_twoPow]
  have nonzero : BitVec.twoPow 8 (index % 8) ≠ 0#8 := by
    intro zero
    have bits := congrArg (BitVec.getLsbD · (index % 8)) zero
    simp [place] at bits
  rw [Bool.eq_iff_iff, bne_iff_ne, ne_eq, UInt8.eq_iff_toBitVec_eq, masked]
  by_cases valid : byte.toBitVec.getLsbD (index % 8) = true
  · simpa [valid] using nonzero
  · simp [valid]

private theorem shift_and_one (byte : UInt8) (index : Nat) :
    (byte >>> UInt8.ofNat (index % 8)) &&& 1 =
      if byte.toBitVec.getLsbD (index % 8) then 1 else 0 := by
  have places : ∀ (byte : Fin 256) (place : Fin 8),
      (UInt8.ofFin byte >>> UInt8.ofNat place) &&& 1 =
        if (UInt8.ofFin byte).toBitVec.getLsbD place then 1 else 0 := by
    decide +kernel
  simpa using places byte.toFin ⟨index % 8, Nat.mod_lt _ (by decide)⟩

theorem get?_eq (bitmap : Bytes) (index : Nat) :
    get? bitmap index = if Covers bitmap index then some (bit bitmap index) else none := by
  by_cases covered : Covers bitmap index
  · rw [get?, if_pos covered, Array.getElem?_eq_getElem covered, bit_eq_getLsbD covered,
      Option.map_some, and_mask]
  · rw [get?, if_neg covered, Array.getElem?_eq_none (Nat.le_of_not_lt covered), Option.map_none]

theorem bit?_eq (bitmap : Bytes) (index : Nat) :
    bit? bitmap index =
      if Covers bitmap index then some (if bit bitmap index then 1 else 0) else none := by
  by_cases covered : Covers bitmap index
  · rw [bit?, if_pos covered, Array.getElem?_eq_getElem covered, bit_eq_getLsbD covered,
      Option.map_some, shift_and_one]
  · rw [bit?, if_neg covered, Array.getElem?_eq_none (Nat.le_of_not_lt covered), Option.map_none]

/-- A write changes the bit that it names and no other. -/
theorem bit_put (covered : Covers bitmap index) (value : Bool) (other : Nat) :
    bit (put bitmap index value) other = if other = index then value else bit bitmap other := by
  have place : other % 8 < 8 := Nat.mod_lt _ (by decide)
  by_cases near : other / 8 = index / 8
  · have same : other = index ↔ index % 8 = other % 8 := by omega
    have held : Covers bitmap other := by simpa only [Covers, near] using covered
    have changed : Covers (put bitmap index value) other := by simpa only [Covers, size_put] using held
    rw [bit_eq_getLsbD changed, bit_eq_getLsbD held]
    cases value
    · simp only [put, Bool.false_eq_true, if_false, clear, Array.getElem_modify, near, if_true,
        UInt8.toBitVec_and, UInt8.toBitVec_not, toBitVec_mask, BitVec.getLsbD_and,
        BitVec.getLsbD_not, BitVec.getLsbD_twoPow, same]
      by_cases hit : index % 8 = other % 8 <;> simp [hit, place]
    · simp only [put, if_true, set, Array.getElem_modify, near, UInt8.toBitVec_or, toBitVec_mask,
        BitVec.getLsbD_or, BitVec.getLsbD_twoPow, same]
      by_cases hit : index % 8 = other % 8 <;> simp [hit, place]
  · have apart : other ≠ index := fun equal => near (by rw [equal])
    have far : index / 8 ≠ other / 8 := Ne.symm near
    rw [if_neg apart]
    cases value <;> simp [bit, put, set, clear, Array.getElem?_modify, far]

theorem bit_zeros (length index : Nat) : bit (Bytes.zeros length) index = false := by
  unfold bit Bytes.zeros
  rw [Array.getElem?_replicate]
  split <;> simp

theorem bit_extendTo (bitmap : Bytes) (length index : Nat) :
    bit (bitmap.extendTo length) index = bit bitmap index := by
  by_cases covered : Covers bitmap index
  · rw [bit, bit, Bytes.extendTo, Array.getElem?_append_left covered]
  · rw [bit_eq_false_of_size_le (Nat.le_of_not_lt covered), bit, Bytes.extendTo,
      Array.getElem?_append_right (Nat.le_of_not_lt covered), Bytes.zeros,
      Array.getElem?_replicate]
    split <;> simp

/-- Buffers of one length have the same byte in a place where they have the same bits. -/
theorem getElem?_eq_of_bit {left right : Bytes} (size : left.size = right.size) {place : Nat}
    (bits : ∀ offset < 8, bit left (8 * place + offset) = bit right (8 * place + offset)) :
    left[place]? = right[place]? := by
  rcases Nat.lt_or_ge place left.size with here | beyond
  · have there : place < right.size := size ▸ here
    rw [Array.getElem?_eq_getElem here, Array.getElem?_eq_getElem there, Option.some_inj]
    apply UInt8.eq_of_toBitVec_eq
    apply BitVec.eq_of_getLsbD_eq
    intro offset inside
    have byte : (8 * place + offset) / 8 = place := by omega
    have position : (8 * place + offset) % 8 = offset := by omega
    have same := bits offset inside
    rw [bit, bit, byte, position, Array.getElem?_eq_getElem here, Array.getElem?_eq_getElem there,
      Option.getD_some, Option.getD_some] at same
    exact same
  · rw [Array.getElem?_eq_none beyond, Array.getElem?_eq_none (size ▸ beyond)]

theorem eq_of_bit {left right : Bytes} (size : left.size = right.size)
    (bits : ∀ index, bit left index = bit right index) : left = right := by
  apply Array.ext_getElem?
  intro place
  exact getElem?_eq_of_bit size fun offset _ => bits (8 * place + offset)

theorem put_comm {index other : Nat} (first : Covers bitmap index) (second : Covers bitmap other)
    (different : index ≠ other) (value flag : Bool) :
    put (put bitmap index value) other flag = put (put bitmap other flag) index value := by
  have covers (place : Nat) (flag : Bool) {bit : Nat} (covered : Covers bitmap bit) :
      Covers (put bitmap place flag) bit := by
    rwa [Covers, size_put]
  apply eq_of_bit
  · simp
  · intro place
    rw [bit_put (covers index value second), bit_put first, bit_put (covers other flag first),
      bit_put second]
    by_cases here : place = index
    · subst here
      rw [if_neg different, if_pos rfl, if_pos rfl]
    · rw [if_neg here, if_neg here]

theorem inPlace_put (covered : Covers bitmap index) (value : Bool) :
    Bytes.InPlace (put · index value) bitmap := by
  constructor
  · exact size_put bitmap index value
  · intro length
    have longer := bitmap.le_size_extendTo length
    have still : Covers (bitmap.extendTo length) index := Nat.lt_of_lt_of_le covered longer
    apply eq_of_bit
    · rw [size_put, Bytes.size_extendTo_eq, Bytes.size_extendTo_eq, size_put]
    · intro place
      rw [bit_put still, bit_extendTo, bit_extendTo, bit_put covered]

end Columnar.Bitmap
