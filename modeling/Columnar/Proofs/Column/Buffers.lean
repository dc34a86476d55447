import Columnar.Proofs.Reader
import Columnar.Proofs.Store.Soundness

namespace Columnar

variable {n : Nat} {kind : Kind}

theorem Bytes.slice?_of_front {bytes : Bytes} {start stop length : Nat} {front : List UInt8}
    (sliced : bytes.slice? 0 length = some front) (ordered : start ≤ stop) (inside : stop ≤ length) :
    bytes.slice? start stop = some ((front.drop start).take (stop - start)) := by
  obtain ⟨_, bounded, rfl⟩ := slice?_eq_some_iff.mp sliced
  refine slice?_eq_some_iff.mpr ⟨ordered, inside.trans bounded, ?_⟩
  simp only [Array.toList_extract, List.extract_eq_take_drop, List.drop_zero, Nat.sub_zero, List.drop_take,
    List.take_take]
  congr 1
  omega

namespace Slots

/-- The slots that two runs of bytes stand for. A slot is valid where its bit is set, the lowest place of
a byte first, and its value is the next run of as many bytes as an element has. -/
def decode (kind : Kind) (validity values : List UInt8) : List (Option (Element kind)) :=
  (List.range (values.length / kind.width)).map fun index =>
    if (validity.getD (index / 8) 0).toNat.testBit (index % 8) then
      some (Element.ofBytes ((values.drop (index * kind.width)).take kind.width))
    else
      none

end Slots

namespace Column

variable {column : Column n kind} {index : Nat} {validity values : List UInt8}

theorem slices_of_buffers? (found : column.buffers? = some (validity, values)) :
    column.validity.bytes.slice? 0 (Bitmap.bytesFor column.count) = some validity ∧
      column.values.bytes.slice? 0 (column.count * kind.width) = some values := by
  obtain ⟨first, sliced, found⟩ := Option.bind_eq_some_iff.mp found
  obtain ⟨second, further, same⟩ := Option.bind_eq_some_iff.mp found
  cases same
  exact ⟨sliced, further⟩

/-- The buffers are as long as the size of the slots in use says. -/
theorem length_buffers? (found : column.buffers? = some (validity, values)) :
    validity.length = Bitmap.bytesFor column.count ∧ values.length = column.count * kind.width := by
  obtain ⟨bits, bytes⟩ := slices_of_buffers? found
  exact ⟨Bytes.length_of_slice? bits, Bytes.length_of_slice? bytes⟩

theorem testBit_buffers? (found : column.buffers? = some (validity, values))
    (used : index < column.count) :
    (validity.getD (index / 8) 0).toNat.testBit (index % 8) = column.bit index := by
  have held : index / 8 < Bitmap.bytesFor column.count := by
    have bits := Bitmap.le_bytesFor column.count
    omega
  have byte := Bytes.getElem?_of_slice? (slices_of_buffers? found).1 (index / 8) held
  rw [Nat.zero_add] at byte
  rw [List.getD_eq_getElem?_getD, byte]
  rfl

theorem bytes?_buffers? (found : column.buffers? = some (validity, values))
    (used : index < column.count) :
    column.bytes? index = some ((values.drop (index * kind.width)).take kind.width) := by
  have ordered : index * kind.width ≤ (index + 1) * kind.width := Nat.mul_le_mul_right _ (Nat.le_succ _)
  have inside : (index + 1) * kind.width ≤ column.count * kind.width := Nat.mul_le_mul_right _ used
  have width : (index + 1) * kind.width - index * kind.width = kind.width := by
    rw [Nat.succ_mul, Nat.add_sub_cancel_left]
  have bytes := Bytes.slice?_of_front (slices_of_buffers? found).2 ordered inside
  rwa [width] at bytes

/-- The buffers stand for the slots in use. -/
theorem Sound.decode_buffers? (sound : column.Sound)
    (found : column.buffers? = some (validity, values)) :
    Slots.decode kind validity values = (List.range column.count).map column.get? := by
  have slots : values.length / kind.width = column.count := by
    rw [(length_buffers? found).2, Nat.mul_div_cancel _ kind.width_pos]
  rw [Slots.decode, slots]
  apply List.map_congr_left
  intro index member
  have used := List.mem_range.mp member
  have inside := Nat.lt_of_lt_of_le used sound.count_le
  rw [testBit_buffers? found used]
  cases valid : column.bit index
  · exact (get?_of_null valid).symm
  · exact (get?_of_valid inside valid (bytes?_buffers? found used)).symm

end Column

end Columnar
