import Columnar.Column.Read
import Columnar.Proofs.Bitmap.Bits
import Columnar.Proofs.Block
import Columnar.Proofs.Element.Slot

/-! What a column shows: for every slot its value or nothing. Growing leaves it as it is, a write
changes the slot that it names. It rests on two facts that no operation checks: the slots in use
lie within the capacity, and no bit beyond the capacity is set. -/

namespace Columnar

/-- The values of all slots, where there are any. -/
abbrev Slots (kind : Kind) := Nat → Option (Element kind)

namespace Slots

def blank {kind : Kind} : Slots kind := fun _ => none

end Slots

namespace Column

variable {n : Nat} {kind : Kind} {column later : Column n kind} {slots : Slots kind} {index : Nat}

theorem lt_capacity_iff : index < column.capacity ↔
    Slot.Within kind column.values.bytes index ∧ Bitmap.Covers column.validity.bytes index := by
  have values : index < column.values.size / kind.width ↔ Slot.Within kind column.values.bytes index :=
    Nat.le_div_iff_mul_le kind.width_pos
  have validity : index < column.validity.size * 8 ↔ Bitmap.Covers column.validity.bytes index := by
    simp only [Bitmap.Covers, Block.size]
    omega
  rw [capacity, Nat.lt_min, values, validity]

theorem capacity_of_sizes (values : later.values.size = column.values.size)
    (validity : later.validity.size = column.validity.size) : later.capacity = column.capacity := by
  rw [capacity, capacity, values, validity]

theorem mul_width_le_size {count : Nat} (fits : count ≤ column.capacity) :
    count * kind.width ≤ column.values.size :=
  (Nat.le_div_iff_mul_le kind.width_pos).mp (fits.trans (Nat.min_le_left _ _))

theorem capacity_le_size (column : Column n kind) : column.capacity ≤ column.values.size :=
  (Nat.min_le_left _ _).trans (Nat.div_le_self _ _)

/-- Whether a slot is marked valid, within the capacity or beyond. -/
def bit (column : Column n kind) (index : Nat) : Bool := Bitmap.bit column.validity.bytes index

/-- The bytes of a slot, which must lie inside the value block. -/
def bytes? (column : Column n kind) (index : Nat) : Option (List UInt8) :=
  Slot.bytes? kind column.values.bytes index

theorem bytes?_isSome (inside : index < column.capacity) : (column.bytes? index).isSome :=
  Slot.bytes?_isSome_iff.mpr (lt_capacity_iff.mp inside).1

theorem validBit_eq : column.validBit index =
    if index < column.capacity ∧ column.bit index = true then 1 else 0 := by
  unfold validBit
  by_cases inside : index < column.capacity
  · rw [if_pos inside, Bitmap.bit?_eq, if_pos (lt_capacity_iff.mp inside).2, Option.getD_some]
    simp [inside, bit]
  · rw [if_neg inside, if_neg fun held => inside held.1]

theorem get?_eq : column.get? index =
    if index < column.capacity ∧ column.bit index = true then some (column.bitsAt index) else none := by
  rw [get?, isNull, validBit_eq]
  by_cases valid : index < column.capacity ∧ column.bit index = true
  · rw [if_pos valid, if_pos valid, if_neg (by decide)]
  · rw [if_neg valid, if_neg valid, if_pos (by decide)]

theorem bitsAt_eq : column.bitsAt index =
    ((column.bytes? index).bind (Element.ofBytes? kind)).getD 0 := rfl

/-- What a slot shows depends on its bit and its bytes alone. -/
theorem get?_congr (capacity : index < later.capacity ↔ index < column.capacity)
    (bit : index < column.capacity → later.bit index = column.bit index)
    (bytes : index < column.capacity → later.bytes? index = column.bytes? index) :
    later.get? index = column.get? index := by
  rw [get?_eq, get?_eq]
  by_cases inside : index < column.capacity
  · rw [bitsAt_eq, bitsAt_eq, bit inside, bytes inside]
    simp [inside, capacity.mpr inside]
  · have outside : ¬ index < later.capacity := fun held => inside (capacity.mp held)
    simp [inside, outside]

theorem get?_of_valid {run : List UInt8} (inside : index < column.capacity)
    (valid : column.bit index = true) (found : column.bytes? index = some run) :
    column.get? index = some (Element.ofBytes run) := by
  rw [get?_eq, if_pos ⟨inside, valid⟩, bitsAt_eq, found, Option.bind_some,
    Element.ofBytes?_eq (Slot.length_of_bytes? found), Option.getD_some]

theorem get?_of_null (null : column.bit index = false) : column.get? index = none := by
  rw [get?_eq, if_neg]
  simp [null]

theorem get?_beyond (beyond : column.capacity ≤ index) : column.get? index = none := by
  rw [get?_eq, if_neg]
  omega

/-- What every operation relies on and none checks. -/
structure Sound (column : Column n kind) : Prop where
  count_le : column.count ≤ column.capacity
  clear : ∀ index, column.capacity ≤ index → column.bit index = false

theorem Sound.get?_isSome (sound : column.Sound) :
    (column.get? index).isSome = column.bit index := by
  rw [get?_eq]
  by_cases inside : index < column.capacity
  · cases valid : column.bit index <;> simp [inside]
  · rw [sound.clear index (Nat.le_of_not_lt inside)]
    simp

/-- The column is sound and shows the given slots. -/
structure Shows (column : Column n kind) (slots : Slots kind) : Prop where
  sound : column.Sound
  reads : column.get? = slots

theorem Sound.shows (sound : column.Sound) : column.Shows column.get? := ⟨sound, rfl⟩

theorem shows_blank (null : ∀ index, column.bit index = false) (used : column.count ≤ column.capacity) :
    column.Shows Slots.blank := by
  refine ⟨⟨used, fun index _ => null index⟩, ?_⟩
  funext index
  exact get?_of_null (null index)

theorem ofType_shows (name : String) (type : FieldType) (account : Fin n) (config : Config) :
    (ofType name type account config : Column n kind).Shows Slots.blank :=
  shows_blank (fun index => Bitmap.bit_zeros 0 index) (Nat.zero_le _)

theorem withBuffer_self (column : Column n kind) (which : Buffer) :
    column.withBuffer which (column.buffer which) = column := by
  cases which <;> rfl

/-! ### Growing -/

/-- The blocks became longer by zeros, each for itself, and all else but the remembered capacity
stayed as it was. -/
structure Grown (column later : Column n kind) : Prop where
  field : later.field = column.field
  config : later.config = column.config
  account : later.account = column.account
  count : later.count = column.count
  values : column.values.Extends later.values
  validity : column.validity.Extends later.validity

namespace Grown

theorem refl (column : Column n kind) : column.Grown column :=
  ⟨rfl, rfl, rfl, rfl, .refl _, .refl _⟩

theorem trans {last : Column n kind} (first : column.Grown later) (second : later.Grown last) :
    column.Grown last where
  field := second.field.trans first.field
  config := second.config.trans first.config
  account := second.account.trans first.account
  count := second.count.trans first.count
  values := first.values.trans second.values
  validity := first.validity.trans second.validity

theorem withBuffer (grown : column.Grown later) (which : Buffer) {larger : Block n}
    (longer : (later.buffer which).Extends larger) : column.Grown (later.withBuffer which larger) := by
  cases which with
  | values =>
    exact ⟨grown.field, grown.config, grown.account, grown.count, grown.values.trans longer, grown.validity⟩
  | validity =>
    exact ⟨grown.field, grown.config, grown.account, grown.count, grown.values, grown.validity.trans longer⟩

theorem capacity_le (grown : column.Grown later) : column.capacity ≤ later.capacity := by
  have values := Nat.div_le_div_right (c := kind.width) grown.values.size_le
  have validity := Nat.mul_le_mul_right 8 grown.validity.size_le
  exact Nat.le_min.mpr ⟨(Nat.min_le_left _ _).trans values, (Nat.min_le_right _ _).trans validity⟩

theorem bit (grown : column.Grown later) (index : Nat) : later.bit index = column.bit index := by
  obtain ⟨length, longer⟩ := grown.validity.bytes
  rw [Column.bit, Column.bit, longer, Bitmap.bit_extendTo]

theorem bytes? (grown : column.Grown later) (inside : index < column.capacity) :
    later.bytes? index = column.bytes? index := by
  obtain ⟨length, longer⟩ := grown.values.bytes
  rw [Column.bytes?, Column.bytes?, longer]
  exact Slot.bytes?_extendTo length (lt_capacity_iff.mp inside).1

theorem sound (grown : column.Grown later) (sound : column.Sound) : later.Sound where
  count_le := by
    rw [grown.count]
    exact sound.count_le.trans grown.capacity_le
  clear index beyond := by
    rw [grown.bit]
    exact sound.clear index (grown.capacity_le.trans beyond)

theorem get?_new (grown : column.Grown later) (sound : column.Sound)
    (beyond : column.capacity ≤ index) : later.get? index = none :=
  get?_of_null ((grown.bit index).trans (sound.clear index beyond))

theorem get? (grown : column.Grown later) (sound : column.Sound) : later.get? = column.get? := by
  funext index
  rcases Nat.lt_or_ge index column.capacity with inside | beyond
  · have still : index < later.capacity := Nat.lt_of_lt_of_le inside grown.capacity_le
    exact get?_congr (iff_of_true still inside) (fun _ => grown.bit index) fun _ => grown.bytes? inside
  · rw [grown.get?_new sound beyond, get?_beyond beyond]

theorem shows (grown : column.Grown later) (shows : column.Shows slots) : later.Shows slots :=
  ⟨grown.sound shows.sound, (grown.get? shows.sound).trans shows.reads⟩

end Grown

/-! ### Writing -/

def withBytes (column : Column n kind) (index : Nat) (run : List UInt8) : Column n kind :=
  { column with values := column.values.mapBytes (·.overwrite (index * kind.width) run) }

def withValid (column : Column n kind) (index : Nat) (valid : Bool) : Column n kind :=
  { column with validity := column.validity.mapBytes (Bitmap.put · index valid) }

@[simp] theorem validity_withBytes (column : Column n kind) (index : Nat) (run : List UInt8) :
    (column.withBytes index run).validity = column.validity := rfl

@[simp] theorem capacity_withBytes (column : Column n kind) (index : Nat) (run : List UInt8) :
    (column.withBytes index run).capacity = column.capacity := by
  simp [capacity, withBytes, Block.mapBytes, Block.size]

@[simp] theorem capacity_withValid (column : Column n kind) (index : Nat) (valid : Bool) :
    (column.withValid index valid).capacity = column.capacity := by
  simp [capacity, withValid, Block.mapBytes, Block.size]

theorem bit_withValid (covered : Bitmap.Covers column.validity.bytes index) (valid : Bool)
    (other : Nat) :
    (column.withValid index valid).bit other = if other = index then valid else column.bit other :=
  Bitmap.bit_put covered valid other

theorem bytes?_withBytes_self {run : List UInt8} (whole : run.length = kind.width)
    (within : Slot.Within kind column.values.bytes index) :
    (column.withBytes index run).bytes? index = some run :=
  Slot.bytes?_overwrite_self _ index whole within

theorem bytes?_withBytes_of_ne {run : List UInt8} (whole : run.length = kind.width) {other : Nat}
    (different : index ≠ other) : (column.withBytes index run).bytes? other = column.bytes? other :=
  Slot.bytes?_overwrite_of_ne _ index whole different

/-- A slot within the capacity shows what was written to it, and no other changes. -/
theorem Shows.put {run : List UInt8} (shows : column.Shows slots) (inside : index < column.capacity)
    (whole : run.length = kind.width) (valid : Bool) :
    ((column.withBytes index run).withValid index valid).Shows
      (Function.update slots index (if valid then some (Element.ofBytes run) else none)) := by
  obtain ⟨within, covered⟩ := lt_capacity_iff.mp inside
  have bits (other : Nat) : ((column.withBytes index run).withValid index valid).bit other =
      if other = index then valid else column.bit other :=
    bit_withValid covered valid other
  refine ⟨⟨?_, ?_⟩, ?_⟩
  · rw [capacity_withValid, capacity_withBytes]
    exact shows.sound.count_le
  · intro other beyond
    rw [capacity_withValid, capacity_withBytes] at beyond
    rw [bits, if_neg (by omega)]
    exact shows.sound.clear other beyond
  · funext other
    by_cases same : other = index
    · subst same
      have written := bytes?_withBytes_self whole within
      cases valid
      · rw [Function.update_self, get?_of_null (by rw [bits, if_pos rfl])]
        rfl
      · rw [Function.update_self]
        exact get?_of_valid (by simpa using inside) (by rw [bits, if_pos rfl]) written
    · rw [Function.update_of_ne same, ← shows.reads]
      apply get?_congr
      · rw [capacity_withValid, capacity_withBytes]
      · intro _
        rw [bits, if_neg same]
      · intro _
        exact bytes?_withBytes_of_ne whole (Ne.symm same)

/-- Bytes written beyond the capacity are not seen. -/
theorem Shows.withBytes_beyond {run : List UInt8} (shows : column.Shows slots)
    (beyond : column.capacity ≤ index) (whole : run.length = kind.width) :
    (column.withBytes index run).Shows slots := by
  refine ⟨⟨?_, ?_⟩, ?_⟩
  · rw [capacity_withBytes]
    exact shows.sound.count_le
  · intro other outside
    rw [capacity_withBytes] at outside
    exact shows.sound.clear other outside
  · funext other
    rw [← shows.reads]
    apply get?_congr
    · rw [capacity_withBytes]
    · intro _
      rfl
    · intro inside
      exact bytes?_withBytes_of_ne whole (by omega)

/-- A slot can be made null wherever it has a bit, also beyond the capacity. -/
theorem Shows.withValid_false (shows : column.Shows slots)
    (covered : Bitmap.Covers column.validity.bytes index) :
    (column.withValid index false).Shows (Function.update slots index none) := by
  have bits (other : Nat) : (column.withValid index false).bit other =
      if other = index then false else column.bit other :=
    bit_withValid covered false other
  refine ⟨⟨?_, ?_⟩, ?_⟩
  · rw [capacity_withValid]
    exact shows.sound.count_le
  · intro other beyond
    rw [capacity_withValid] at beyond
    rw [bits, shows.sound.clear other beyond, ite_self]
  · funext other
    by_cases same : other = index
    · subst same
      rw [Function.update_self, get?_of_null (by rw [bits, if_pos rfl])]
    · rw [Function.update_of_ne same, ← shows.reads]
      apply get?_congr
      · rw [capacity_withValid]
      · intro _
        rw [bits, if_neg same]
      · intro _
        rfl

end Column

end Columnar
