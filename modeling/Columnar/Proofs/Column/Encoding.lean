import Columnar.Column.Session
import Columnar.Proofs.Column.Wide
import Columnar.Proofs.Contract

namespace Columnar

open Columnar.Action

namespace Element

variable {kind : Kind} {bytes run : List UInt8} {element : Element kind}

theorem toBytes_ofBytes (whole : bytes.length = kind.width) :
    (ofBytes bytes : Element kind).toBytes = bytes := by
  calc (ofBytes bytes : Element kind).toBytes
    _ = LittleEndian.encode kind.width (LittleEndian.decode bytes) := by
      rw [toBytes, toNat_ofBytes whole, ← LittleEndian.decode_eq_ofDigits]
    _ = LittleEndian.encode bytes.length (LittleEndian.decode bytes) := by rw [whole]
    _ = bytes := LittleEndian.encode_decode bytes

theorem ofBytes?_eq_none_iff : ofBytes? kind bytes = none ↔ bytes.length ≠ kind.width := by
  simp [ofBytes?]

theorem replace?_eq_none_iff : element.replace? run = none ↔ run.length ≠ kind.width := by
  simp [replace?]

theorem replace?_eq (element : Element kind) (whole : run.length = kind.width) :
    element.replace? run = some element.toBytes := if_pos whole

theorem ofBytes?_eq_some_iff : ofBytes? kind bytes = some element ↔ bytes = element.toBytes := by
  constructor
  · intro read
    have whole : bytes.length = kind.width := by
      by_contra other
      rw [ofBytes?_eq_none_iff.mpr other] at read
      cases read
    rw [ofBytes?_eq whole, Option.some_inj] at read
    rw [← read, toBytes_ofBytes whole]
  · intro same
    rw [same, ofBytes?_eq element.length_toBytes, ofBytes_toBytes]

/-- Elements of one byte are read without decoding: the only byte is the number. -/
theorem ofBytes?_single (single : kind.width = 1) (bytes : List UInt8) :
    (ofBytes? kind bytes).map BitVec.toNat =
      if bytes.length = 1 then bytes.head?.map UInt8.toNat else none := by
  split
  · rename_i alone
    obtain ⟨byte, rfl⟩ := List.length_eq_one_iff.mp alone
    have whole : [byte].length = kind.width := single.symm
    rw [ofBytes?_eq whole, Option.map_some, toNat_ofBytes whole, List.map_singleton,
      Nat.ofDigits_singleton]
    rfl
  · rename_i other
    rw [ofBytes?_eq_none_iff.mpr (single ▸ other)]
    rfl

theorem replace?_single (single : kind.width = 1) (element : Element kind) (run : List UInt8) :
    element.replace? run = if run.length = 1 then some [UInt8.ofNat element.toNat] else none := by
  unfold replace? toBytes
  -- The type of the element names the width too, so only its number can be rewritten.
  generalize element.toNat = number
  rw [single]
  rfl

end Element

/-- Elements of the kind and runs of bytes of its width stand for each other, and other runs for nothing. -/
structure Kind.Encodes (kind : Kind) : Prop where
  unread : ∀ bytes, Element.ofBytes? kind bytes = none ↔ bytes.length ≠ kind.width
  unwritten : ∀ (element : Element kind) run, element.replace? run = none ↔ run.length ≠ kind.width
  /-- What is read from a run is written as that run. -/
  written : ∀ bytes run, bytes.length = kind.width → run.length = kind.width →
    ∃ element, Element.ofBytes? kind bytes = some element ∧ element.replace? run = some bytes
  /-- What is written to a run is read from it. -/
  read : ∀ (element : Element kind) run, run.length = kind.width →
    ∃ bytes, element.replace? run = some bytes ∧ Element.ofBytes? kind bytes = some element
  /-- The lowest byte of the pattern comes first. -/
  number : ∀ bytes element, Element.ofBytes? kind bytes = some element →
    element.toNat = Nat.ofDigits 256 (bytes.map UInt8.toNat)
  /-- Elements of one byte, of whichever sign, are taken from the byte and put there as they are. -/
  taken : kind.width = 1 → ∀ bytes, (Element.ofBytes? kind bytes).map BitVec.toNat =
    if bytes.length = 1 then bytes.head?.map UInt8.toNat else none
  put : kind.width = 1 → ∀ (element : Element kind) run, element.replace? run =
    if run.length = 1 then some [UInt8.ofNat element.toNat] else none

theorem Kind.encodes (kind : Kind) : kind.Encodes where
  unread _ := Element.ofBytes?_eq_none_iff
  unwritten _ _ := Element.replace?_eq_none_iff
  written bytes run whole room := by
    refine ⟨_, Element.ofBytes?_eq whole, ?_⟩
    rw [Element.replace?_eq _ room, Element.toBytes_ofBytes whole]
  read element run room :=
    ⟨_, Element.replace?_eq element room, Element.ofBytes?_eq_some_iff.mpr rfl⟩
  number bytes element found := by
    rw [Element.ofBytes?_eq_some_iff] at found
    subst found
    rw [← Element.toNat_ofBytes element.length_toBytes, Element.ofBytes_toBytes]
  taken := Element.ofBytes?_single
  put := Element.replace?_single

-- The sign lies in how a pattern is read, not in its bytes.
example : (Element.ofBytes? .uint8 [200]).map Element.toInt = some 200 ∧
    (Element.ofBytes? .int8 [200]).map Element.toInt = some (-56) := by decide

namespace Slot

variable {kind : Kind} {values : Bytes} {index : Nat}

/-- The slot is there and was given the value; nothing else in the buffer is different. -/
structure Stored (before : Bytes) (index : Nat) (value : Element kind) (after : Bytes) : Prop where
  within : (index + 1) * kind.width ≤ before.size
  size : after.size = before.size
  reads : read? kind after index = some value
  replaced : bytes? kind after index = (bytes? kind before index).bind value.replace?
  others : ∀ other, other ≠ index → bytes? kind after other = bytes? kind before other
  outside : ∀ place, place < index * kind.width ∨ (index + 1) * kind.width ≤ place →
    after[place]? = before[place]?

theorem stored_write (value : Element kind) (within : Within kind values index) :
    Stored values index value (write kind values index value) where
  within := within
  size := size_write kind values index value
  reads := read?_write_self value within
  replaced := by
    obtain ⟨run, found⟩ := Option.isSome_iff_exists.mp (bytes?_isSome_iff.mpr within)
    rw [bytes?_write_self value within, found, Option.bind_some,
      value.replace?_eq (length_of_bytes? found)]
  others other apart := bytes?_write_of_ne value apart.symm
  outside place beside := by
    rw [Nat.succ_mul] at beside
    rw [write, Bytes.getElem?_overwrite, if_neg]
    rw [value.length_toBytes]
    omega

end Slot

namespace Kind

/-- Elements and runs of bytes of their width stand for each other as whole patterns, NaN payloads and signs
of zero included. A slot within the value buffer reads as what was written, and nothing else changes. -/
theorem encoding_exactly (kind : Kind) :
    kind.Encodes ∧
      ∀ {n : Nat} (session : Session n kind) (index : Nat) (value : Element kind),
        Ends (Edit.putValue index value) session
          (fun _ after =>
            Slot.Stored session.column.values.bytes index value after.column.values.bytes ∧
              after = session.mapValues fun _ => after.column.values.bytes)
          (fun failure after => failure = .outOfRange ∧
            session.column.values.bytes.size < (index + 1) * kind.width ∧ after = session) := by
  refine ⟨kind.encodes, fun session index value => ?_⟩
  by_cases within : Slot.Within kind session.column.values.bytes index
  · have placed : Edit.putValue index value session =
        .ok () (session.mapValues (Slot.write kind · index value)) := if_pos within
    rw [Ends, placed]
    exact ⟨Slot.stored_write value within, rfl⟩
  · have refused : Edit.putValue index value session = .error .outOfRange session := if_neg within
    rw [Ends, refused]
    exact ⟨rfl, Nat.lt_of_not_le within, rfl⟩

/-- A negative NaN with a payload passes through bytes and through a slot between others. -/
theorem encoding_exactly_payload :
    let session : Session 1 .float32 :=
      ⟨{ (Column.empty "x" 0 default : Column 1 .float32) with
          values := ⟨#[1, 2, 3, 4, 5, 6, 7, 8, 9, 10], 0⟩ }, .ofLimits #v[100]⟩
    ∃ value : Element .float32, value.isNaN ∧
      Element.ofBytes? .float32 [1, 0, 0xa0, 0xff] = some value ∧
      value.replace? [5, 6, 7, 8] = some [1, 0, 0xa0, 0xff] ∧
      ∃ after, Edit.putValue 1 value session = .ok () after ∧
        Slot.read? .float32 after.column.values.bytes 1 = some value ∧
        Slot.bytes? .float32 after.column.values.bytes 0 = some [1, 2, 3, 4] ∧
        after.column.values.bytes[9]? = some 10 := by
  intro session
  obtain ⟨encodes, ends⟩ := encoding_exactly .float32
  obtain ⟨value, read, written⟩ := encodes.written [1, 0, 0xa0, 0xff] [5, 6, 7, 8] rfl rfl
  have signaling : value.isNaN := by
    cases read
    decide
  refine ⟨value, signaling, read, written, ?_⟩
  cases ran : Edit.putValue 1 value session with
  | ok _ after =>
    obtain ⟨stored, _⟩ := (ends session 1 value).of_ok ran
    exact ⟨after, rfl, stored.reads, (stored.others 0 (by decide)).trans (by decide),
      (stored.outside 9 (by decide)).trans (by decide)⟩
  | error failure after =>
    obtain ⟨_, short, _⟩ := (ends session 1 value).of_error ran
    exact absurd short (by decide)

end Kind

end Columnar
