import Columnar.Column.Session

/-!
Memory of columns: taking it anew, and doubling it. A column grows by doubling the slots that it
has, or that it remembers when it has none; a doubling that succeeds raises the capacity.
-/

namespace Columnar.Edit

variable {n : Nat} {kind : Kind}

/-- The bytes that both blocks need for a number of slots. The values have to stay within what
the configuration allows. -/
def bufferSizes (slots : Nat) : Edit n kind (Nat × Nat) := do
  let column ← column
  let limit := column.config.maxAllocationBytes
  let size := slots * kind.width
  if size < Word.size ∧ size ≤ limit then
    return (size, Bitmap.bytesFor slots)
  note (.slotsRefused column.field.name slots kind.width limit)
  throw (.error (.capacityExhausted (Nat.min size Word.max) limit))

/-- Sets the number of slots that the column takes when it next starts from nothing. -/
def setInitialCapacity (slots : Nat) : Edit n kind Unit := do
  let _ ← bufferSizes slots
  remember slots

/-- Takes new, null slots in place of the ones held. A refusal changes nothing. -/
def allocate (slots : Nat) : Edit n kind Unit := do
  let (valueBytes, validityBytes) ← bufferSizes slots
  let (values, validity) ← onLedger
    (Block.allocateBoth (← column).account valueBytes validityBytes)
  tryCatch (replaceBuffer .values values) fun failure => do
    onLedger validity.release
    throw failure
  replaceBuffer .validity validity
  setCount 0
  rememberCapacity

def allocateRemembered : Edit n kind Unit := do
  allocate (← column).remembered

end Columnar.Edit

namespace Columnar

variable {n : Nat} {kind : Kind}

/-- The number of slots that growing doubles: those held, else those remembered, else the
default. It is never zero. -/
def Column.growthBase (column : Column n kind) : Nat :=
  if 0 < column.capacity then column.capacity
  else if 0 < column.remembered then column.remembered
  else Config.defaultInitialCapacity

namespace Edit

/-- Doubles the slots, values first. When the validity block is refused, a value block that has
grown already stays so. -/
def grow : Edit n kind Unit := do
  let column ← column
  let target := 2 * column.growthBase
  if Word.size ≤ target then
    throw (.error (.capacityExhausted Word.max column.config.maxAllocationBytes))
  let (valueBytes, validityBytes) ← bufferSizes target
  note (.growing column.field.name column.capacity target)
  growBuffer .values valueBytes
  growBuffer .validity validityBytes
  rememberCapacity

theorem eq_of_bufferSizes {slots : Nat} {sizes : Nat × Nat} {before after : Session n kind}
    (fits : bufferSizes slots before = .ok sizes after) :
    sizes = (slots * kind.width, Bitmap.bytesFor slots) ∧ after = before := by
  simp only [bufferSizes, column_bind] at fits
  split at fits
  · cases fits
    exact ⟨rfl, rfl⟩
  · cases fits

theorem le_size_of_growBuffer {which : Buffer} {size : Nat} {before after : Session n kind}
    (grown : growBuffer which size before = .ok () after) :
    ∃ block, size ≤ block.size ∧ after.column = before.column.withBuffer which block := by
  simp only [growBuffer, column_bind] at grown
  split at grown
  · rename_i enough
    cases grown
    refine ⟨_, enough, ?_⟩
    cases which <;> rfl
  · rename_i short
    obtain ⟨larger, between, taken, placed⟩ := Action.bind_ok.mp grown
    obtain ⟨ledger, enlarged, rfl⟩ := ok_of_onLedger taken
    obtain ⟨_, _, rfl⟩ := ok_of_onLedger placed
    have reached := Block.size_of_enlarge (Nat.le_of_not_le short) enlarged
    exact ⟨larger, reached ▸ Block.le_roundUp size, rfl⟩

theorem le_capacity_of_grow {before after : Session n kind} (grown : grow before = .ok () after) :
    2 * before.column.growthBase ≤ after.column.capacity := by
  simp only [grow, column_bind] at grown
  split at grown
  · cases grown
  · obtain ⟨sizes, between, fits, grown⟩ := Action.bind_ok.mp grown
    obtain ⟨shape, same⟩ := eq_of_bufferSizes fits
    simp only [shape, same, note_bind] at grown
    obtain ⟨_, middle, values, grown⟩ := Action.bind_ok.mp grown
    obtain ⟨_, last, validity, grown⟩ := Action.bind_ok.mp grown
    obtain ⟨larger, bytes, replaced⟩ := le_size_of_growBuffer values
    obtain ⟨longer, bits, renewed⟩ := le_size_of_growBuffer validity
    cases grown
    have covered := Bitmap.le_bytesFor (2 * before.column.growthBase)
    have enough : 2 * before.column.growthBase ≤
        Nat.min (larger.size / kind.width) (longer.size * 8) :=
      Nat.le_min.mpr ⟨(Nat.le_div_iff_mul_le kind.width_pos).mpr bytes, by omega⟩
    change 2 * before.column.growthBase ≤ last.column.capacity
    rw [renewed, replaced]
    exact enough

theorem capacity_lt_of_grow {before after : Session n kind} (grown : grow before = .ok () after) :
    before.column.capacity < after.column.capacity := by
  have reached := le_capacity_of_grow grown
  have base : 0 < before.column.growthBase ∧ before.column.capacity ≤ before.column.growthBase := by
    unfold Column.growthBase
    split
    · omega
    · split
      · omega
      · exact ⟨by decide, by omega⟩
  omega

end Edit

end Columnar
