import Columnar.Proofs.Column.Slotwise

namespace Columnar

open Columnar.Action

variable {n : Nat} {kind : Kind} {source target : Nat}

namespace Column

variable {column other later : Column n kind} {run : List UInt8}

/-- The later column has a slot of the other one as its slot `target`, and is else the column. Every
other slot has its bit and its bytes, whether it can be addressed or not. -/
structure Copied (column other : Column n kind) (source target : Nat) (later : Column n kind) : Prop where
  field : later.field = column.field
  config : later.config = column.config
  account : later.account = column.account
  count : later.count = column.count
  remembered : later.remembered = column.remembered
  capacity : later.capacity = column.capacity
  bit : ∀ index, later.bit index = if index = target then other.bit source else column.bit index
  bytes : ∀ index,
    later.bytes? index = if index = target then other.bytes? source else column.bytes? index

/-- The later column has as many slots in use, and all slots of the column as they were. -/
structure Retained (column later : Column n kind) : Prop where
  count : later.count = column.count
  capacity : column.capacity ≤ later.capacity
  bit : ∀ index, index < column.capacity → later.bit index = column.bit index
  bytes : ∀ index, index < column.capacity → later.bytes? index = column.bytes? index

theorem Grown.retained (grown : column.Grown later) : column.Retained later where
  count := grown.count
  capacity := grown.capacity_le
  bit index _ := grown.bit index
  bytes _ inside := grown.bytes? inside

theorem retained_withBytes (beyond : column.capacity ≤ target) (whole : run.length = kind.width) :
    column.Retained (column.withBytes target run) where
  count := rfl
  capacity := (capacity_withBytes column target run).ge
  bit _ _ := rfl
  bytes _ inside := bytes?_withBytes_of_ne whole (inside.trans_le beyond).ne'

theorem copied_put (inside : target < column.capacity) (found : other.bytes? source = some run) :
    column.Copied other source target
      ((column.withBytes target run).withValid target (other.bit source)) := by
  have whole : run.length = kind.width := Slot.length_of_bytes? found
  obtain ⟨within, covered⟩ := lt_capacity_iff.mp inside
  refine ⟨rfl, rfl, rfl, rfl, rfl, ?_, bit_withValid covered (other.bit source), fun index => ?_⟩
  · rw [capacity_withValid, capacity_withBytes]
  · by_cases here : index = target
    · subst here
      rw [if_pos rfl, found]
      exact bytes?_withBytes_self whole within
    · rw [if_neg here]
      exact bytes?_withBytes_of_ne whole (Ne.symm here)

end Column

namespace Edit

variable {session : Session n kind} {other : Column n kind}

/-- Without a slot to read or a slot to write a copy is a breach. It leaves the slots that there are, and
everything where the slot to write is among them. -/
theorem copyFrom_breaches (session : Session n kind)
    (outside : ¬ (source < other.capacity ∧ target < session.column.capacity)) :
    Ends (copyFrom other source target) session (fun _ _ => False)
      (fun failure after => failure = .outOfRange ∧ session.column.Retained after.column ∧
        (target < session.column.capacity → after = session)) := by
  have untouched : session.column.Retained session.column ∧
      (target < session.column.capacity → session = session) :=
    ⟨(Column.Grown.refl _).retained, fun _ => rfl⟩
  unfold copyFrom
  rw [Bitmap.bit?_eq]
  by_cases covered : Bitmap.Covers other.validity.bytes source
  · rw [if_pos covered]
    cases found : Slot.bytes? kind other.values.bytes source with
    | none => exact ⟨rfl, untouched⟩
    | some run =>
      have held : source < other.capacity :=
        Column.lt_capacity_iff.mpr ⟨Slot.bytes?_isSome_iff.mp (found ▸ rfl), covered⟩
      -- The source has the slot, so it is the target that lacks it, and the bytes go behind its slots.
      have beyond : session.column.capacity ≤ target := by omega
      have whole : run.length = kind.width := Slot.length_of_bytes? found
      dsimp only
      rw [ends_bind, ends_putBytes]
      split
      · rename_i room
        rw [ends_putValid, Column.validity_withBytes, if_neg]
        · exact ⟨rfl, Column.retained_withBytes beyond whole, fun inside => absurd inside beyond.not_gt⟩
        · intro free
          rw [whole, ← Nat.succ_mul] at room
          exact absurd (Column.lt_capacity_iff.mpr ⟨room, free⟩) beyond.not_gt
      · exact ⟨rfl, untouched⟩
  · rw [if_neg covered]
    exact ⟨rfl, untouched⟩

theorem copyFrom_copies (session : Session n kind) (held : source < other.capacity)
    (inside : target < session.column.capacity) :
    ∃ later, copyFrom other source target session = .ok () ⟨later, session.ledger⟩ ∧
      session.column.Copied other source target later := by
  obtain ⟨run, found⟩ := Option.isSome_iff_exists.mp (Column.bytes?_isSome held)
  exact ⟨_, copyFrom_eq held inside found, Column.copied_put inside found⟩

/-- A copy stops in a breach alone, and then no slot is lost. -/
theorem copyFrom_stops (other : Column n kind) (source target : Nat) (session : Session n kind) :
    Ends (copyFrom other source target) session (fun _ _ => True)
      (fun failure after => failure = .outOfRange ∧ session.column.Retained after.column ∧
        (target < session.column.capacity → after = session)) := by
  by_cases both : source < other.capacity ∧ target < session.column.capacity
  · obtain ⟨later, copied, _⟩ := copyFrom_copies session both.1 both.2
    rw [Ends, copied]
    trivial
  · exact (copyFrom_breaches session both).mono_post fun _ _ never => never.elim

theorem copyFromSafe_stops (other : Column n kind) (source target : Nat) (session : Session n kind) :
    Ends (copyFromSafe other source target) session (fun _ _ => True)
      (fun _ after => session.column.Grown after.column) := by
  refine ends_bind.mpr ((reserve_grows (target + 1) session).mono_post ?_)
  rintro _ between ⟨grown, inside⟩
  refine (copyFrom_stops other source target between).mono_stop ?_
  rintro _ after ⟨_, _, same⟩
  rw [same inside]
  exact grown

end Edit

end Columnar
