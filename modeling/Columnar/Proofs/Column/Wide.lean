import Columnar.Proofs.Column.View

/-! Slots read at twice their width. Sign extension and the mask together are zero extension: the mask
takes off what the extension put in front, whatever the top bit was. So the number that is read is the
little-endian number of the slot's bytes, and a column that reads a slot so reads its value. -/

namespace Columnar

/-- Runs of bytes stand for numbers with the base 256, the lowest digit first. -/
theorem LittleEndian.decode_eq_ofDigits (bytes : List UInt8) :
    decode bytes = Nat.ofDigits 256 (bytes.map UInt8.toNat) := by
  induction bytes with
  | nil => rfl
  | cons byte rest ih =>
    rw [decode, List.map_cons, Nat.ofDigits_cons, ih]

namespace Element

variable {kind : Kind}

theorem getLsbD_lowHalf (kind : Kind) (place : Nat) :
    (lowHalf kind).getLsbD place = decide (place < 8 * kind.width) := by
  have half : place < 8 * kind.width → place < 2 * (8 * kind.width) := by omega
  rw [lowHalf, BitVec.getLsbD_setWidth, BitVec.getLsbD_allOnes]
  by_cases low : place < 8 * kind.width
  · simp [low, half low]
  · simp [low]

/-- Beyond the element's own bits the mask leaves nothing of the sign. -/
theorem widen_eq (element : Element kind) :
    element.widen = element.zeroExtend (2 * (8 * kind.width)) := by
  apply BitVec.eq_of_getLsbD_eq
  intro place inside
  rw [widen, BitVec.getLsbD_and, getLsbD_lowHalf, BitVec.getLsbD_signExtend, BitVec.getLsbD_setWidth]
  by_cases low : place < 8 * kind.width
  · simp [low, inside]
  · simp [low, BitVec.getLsbD_of_ge element place (Nat.le_of_not_lt low)]

theorem toNat_widen (element : Element kind) : element.widen.toNat = element.toNat := by
  have room : element.toNat < 2 ^ (2 * (8 * kind.width)) :=
    element.isLt.trans_le (Nat.pow_le_pow_right Nat.two_pos (by omega))
  rw [widen_eq, BitVec.toNat_setWidth, Nat.mod_eq_of_lt room]

theorem toNat_ofBytes {bytes : List UInt8} (whole : bytes.length = kind.width) :
    (ofBytes bytes : Element kind).toNat = Nat.ofDigits 256 (bytes.map UInt8.toNat) := by
  have small : LittleEndian.decode bytes < 2 ^ (8 * kind.width) := by
    have bound := LittleEndian.decode_lt bytes
    rwa [whole, show 256 = 2 ^ 8 from rfl, ← Nat.pow_mul] at bound
  rw [ofBytes, BitVec.toNat_ofNat, Nat.mod_eq_of_lt small, LittleEndian.decode_eq_ofDigits]

end Element

namespace Slot

variable {kind : Kind} {values : Bytes} {index : Nat}

theorem readWide?_of_bytes? {run : List UInt8} (found : bytes? kind values index = some run) :
    readWide? kind values index = some (Element.ofBytes run : Element kind).widen := by
  rw [readWide?, read?_of_bytes? found, Option.map_some]

theorem readWide?_eq_none_iff :
    readWide? kind values index = none ↔ values.size < (index + 1) * kind.width := by
  rw [← Nat.not_le]
  cases found : bytes? kind values index with
  | none =>
    have outside : ¬ Within kind values index := by
      rw [← bytes?_isSome_iff, found]
      simp
    rw [readWide?, read?, found]
    exact iff_of_true rfl outside
  | some run =>
    have inside : Within kind values index := bytes?_isSome_iff.mp (found ▸ rfl)
    rw [readWide?_of_bytes? found]
    exact iff_of_false (Option.some_ne_none _) (not_not_intro inside)

theorem toNat_of_readWide? {wide : WideElement kind} (read : readWide? kind values index = some wide) :
    wide.toNat = Nat.ofDigits 256
        ((values.extract (index * kind.width) ((index + 1) * kind.width)).toList.map UInt8.toNat) ∧
      wide.toNat < 2 ^ (8 * kind.width) := by
  cases found : bytes? kind values index with
  | none =>
    rw [readWide?, read?, found] at read
    cases read
  | some run =>
    rw [readWide?_of_bytes? found] at read
    cases read
    obtain ⟨_, _, same⟩ := Bytes.slice?_eq_some_iff.mp found
    rw [Element.toNat_widen]
    refine ⟨?_, BitVec.isLt _⟩
    rw [Element.toNat_ofBytes (length_of_bytes? found), same]

end Slot

namespace Column

variable {n : Nat} {kind : Kind}

/-- A slot that is not null is there to be read at twice its width, and gives its value. -/
theorem getWide?_eq (column : Column n kind) (index : Nat) :
    column.getWide? index = (column.get? index).map Element.widen ∧
      (column.isNull index = false → (Slot.readWide? kind column.values.bytes index).isSome) := by
  unfold getWide? get?
  cases null : column.isNull index with
  | true => exact ⟨rfl, nofun⟩
  | false =>
    have inside : index < column.capacity := by
      by_contra beyond
      rw [isNull, validBit, if_neg beyond] at null
      cases null
    obtain ⟨run, found⟩ := Option.isSome_iff_exists.mp (bytes?_isSome inside)
    rw [Slot.readWide?_of_bytes? found, bitsAt, Slot.read?_of_bytes? found]
    exact ⟨rfl, fun _ => rfl⟩

/-- A slot reads at twice its width, as its value with zeros in front, exactly where it ends within the
buffer. No read of a column goes wrong. -/
theorem wide_exactly (kind : Kind) :
    (∀ (values : Bytes) (index : Nat),
      (Slot.readWide? kind values index = none ↔ values.size < (index + 1) * kind.width) ∧
      ∀ wide, Slot.readWide? kind values index = some wide →
        wide.toNat = Nat.ofDigits 256
          ((values.extract (index * kind.width) ((index + 1) * kind.width)).toList.map UInt8.toNat) ∧
        wide.toNat < 2 ^ (8 * kind.width)) ∧
    ∀ {n : Nat} (column : Column n kind) (index : Nat),
      (column.isNull index = false → (Slot.readWide? kind column.values.bytes index).isSome) ∧
      (column.getWide? index = none ↔ column.get? index = none) ∧
      column.getWide? index = (column.get? index).map (BitVec.zeroExtend (2 * (8 * kind.width))) ∧
      (column.getWide? index).map BitVec.toNat = (column.get? index).map BitVec.toNat := by
  refine ⟨fun values index => ⟨Slot.readWide?_eq_none_iff, fun _ => Slot.toNat_of_readWide?⟩, ?_⟩
  intro n column index
  obtain ⟨same, read⟩ := column.getWide?_eq index
  refine ⟨read, ?_, ?_, ?_⟩
  · rw [same, Option.map_eq_none_iff]
  · rw [same]
    exact Option.map_congr fun value _ => value.widen_eq
  · rw [same, Option.map_map]
    exact Option.map_congr fun value _ => value.toNat_widen

/-- The top bit of a slot is no sign. -/
theorem wide_exactly_topmost :
    Slot.readWide? .uint16 #[0, 0, 0xfe, 0xff] 2 = none ∧
      ∃ wide, Slot.readWide? .uint16 #[0, 0, 0xfe, 0xff] 1 = some wide ∧ wide.toNat = 0xfffe := by
  have reads := (wide_exactly .uint16).1 #[0, 0, 0xfe, 0xff]
  have there : Slot.readWide? .uint16 #[0, 0, 0xfe, 0xff] 1 ≠ none :=
    (reads 1).1.not.mpr (by decide)
  obtain ⟨wide, read⟩ := Option.ne_none_iff_exists'.mp there
  exact ⟨(reads 2).1.mpr (by decide), wide, read, ((reads 1).2 wide read).1.trans (by decide)⟩

end Column

end Columnar
