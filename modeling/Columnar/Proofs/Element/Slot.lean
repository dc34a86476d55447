import Columnar.Element.Basic
import Columnar.LittleEndian.Lemmas
import Columnar.Proofs.Bytes

namespace Columnar

namespace Element

variable {kind : Kind}

theorem ofBytes_toBytes (element : Element kind) : ofBytes element.toBytes = element := by
  have small : element.toNat < 256 ^ kind.width := by
    have bound := element.isLt
    rwa [Nat.pow_mul] at bound
  rw [ofBytes, toBytes, LittleEndian.decode_encode, Nat.mod_eq_of_lt small, BitVec.ofNat_toNat,
    BitVec.setWidth_eq]

theorem ofBytes?_eq {bytes : List UInt8} (whole : bytes.length = kind.width) :
    ofBytes? kind bytes = some (ofBytes bytes) := if_pos whole

end Element

namespace Slot

variable {kind : Kind} {values : Bytes} {index : Nat}

theorem bytes?_isSome_iff : (bytes? kind values index).isSome ↔ Within kind values index := by
  have ordered : index * kind.width ≤ (index + 1) * kind.width := Nat.mul_le_mul_right _ (Nat.le_succ _)
  unfold bytes? Bytes.slice?
  split
  · rename_i inside
    simpa using inside.2
  · rename_i outside
    simpa using fun within => outside ⟨ordered, within⟩

theorem length_of_bytes? {run : List UInt8} (found : bytes? kind values index = some run) :
    run.length = kind.width := by
  rw [Bytes.length_of_slice? found, Nat.succ_mul, Nat.add_sub_cancel_left]

theorem read?_of_bytes? {run : List UInt8} (found : bytes? kind values index = some run) :
    read? kind values index = some (Element.ofBytes run) := by
  rw [read?, found, Option.bind_some, Element.ofBytes?_eq (length_of_bytes? found)]

theorem apart (width : Nat) (different : index ≠ other) :
    (other + 1) * width ≤ index * width ∨ index * width + width ≤ other * width := by
  rcases Nat.lt_or_gt_of_ne different with before | behind
  · right
    rw [← Nat.succ_mul]
    exact Nat.mul_le_mul_right _ before
  · left
    exact Nat.mul_le_mul_right _ behind

theorem bytes?_overwrite_self (values : Bytes) (index : Nat) {run : List UInt8}
    (whole : run.length = kind.width) (within : Within kind values index) :
    bytes? kind (values.overwrite (index * kind.width) run) index = some run := by
  have stop : (index + 1) * kind.width = index * kind.width + run.length := by
    rw [Nat.succ_mul, whole]
  rw [bytes?, stop]
  exact Bytes.slice?_overwrite_self values _ run (by rwa [← stop])

theorem bytes?_overwrite_of_ne (values : Bytes) (index : Nat) {run : List UInt8}
    (whole : run.length = kind.width) {other : Nat} (different : index ≠ other) :
    bytes? kind (values.overwrite (index * kind.width) run) other = bytes? kind values other := by
  apply Bytes.slice?_overwrite_apart
  rw [whole]
  exact apart kind.width different

theorem bytes?_write_self (element : Element kind) (within : Within kind values index) :
    bytes? kind (write kind values index element) index = some element.toBytes :=
  bytes?_overwrite_self values index element.length_toBytes within

theorem bytes?_write_of_ne (element : Element kind) {other : Nat} (different : index ≠ other) :
    bytes? kind (write kind values index element) other = bytes? kind values other :=
  bytes?_overwrite_of_ne values index element.length_toBytes different

/-- A slot reads what was last written to it. -/
theorem read?_write_self (element : Element kind) (within : Within kind values index) :
    read? kind (write kind values index element) index = some element := by
  rw [read?_of_bytes? (bytes?_write_self element within), Element.ofBytes_toBytes]

theorem bytes?_extendTo (length : Nat) (within : Within kind values index) :
    bytes? kind (values.extendTo length) index = bytes? kind values index :=
  values.slice?_extendTo length within

end Slot

end Columnar
