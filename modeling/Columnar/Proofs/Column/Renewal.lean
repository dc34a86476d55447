import Columnar.Proofs.Column.Accounts
import Columnar.Proofs.Column.Requests

namespace Columnar

open Columnar.Action

variable {n : Nat} {kind : Kind} {rest : Fin n → Nat}

theorem Block.isLeast_roundUp (size : Nat) :
    IsLeast {bytes | grain ∣ bytes ∧ size ≤ bytes} (roundUp size) :=
  ⟨⟨grain_dvd_roundUp size, le_roundUp size⟩, fun _ ⟨whole, enough⟩ => roundUp_le enough whole⟩

namespace Column

/-- The configuration allows the slots, and the account accepts both new blocks on top of all that is
charged to it, the blocks that they replace among it. -/
structure Affords (column : Column n kind) (ledger : Ledger n) (slots : Nat) : Prop where
  allowed : slots * kind.width ≤ column.config.maxAllocationBytes
  accepts : (ledger.account column.account).Accepts
    (Block.roundUp (slots * kind.width) + Block.roundUp (Bitmap.bytesFor slots))

instance (column : Column n kind) (ledger : Ledger n) (slots : Nat) :
    Decidable (column.Affords ledger slots) :=
  decidable_of_iff (_ ∧ _) ⟨fun ⟨allowed, accepts⟩ => ⟨allowed, accepts⟩,
    fun affords => ⟨affords.allowed, affords.accepts⟩⟩

theorem Affords.word {column : Column n kind} {ledger : Ledger n} {slots : Nat}
    (affords : column.Affords ledger slots) : slots * kind.width < Word.size := by
  have fits := affords.accepts.1
  have rounded := Block.le_roundUp (slots * kind.width)
  omega

/-- The bitmap is rounded up as well, and has bits for all slots that the values have bytes for. -/
theorem capacity_renewed (column : Column n kind) (slots : Nat) :
    (column.renewed slots).capacity = Block.roundUp (slots * kind.width) / kind.width := by
  have bits : slots ≤ Block.roundUp (Bitmap.bytesFor slots) * 8 := by
    have bytes := Bitmap.le_bytesFor slots
    have rounded := Block.le_roundUp (Bitmap.bytesFor slots)
    omega
  have whole : Block.grain ∣ Block.roundUp (Bitmap.bytesFor slots) * 8 * kind.width :=
    ((Block.grain_dvd_roundUp _).mul_right 8).mul_right kind.width
  have enough : Block.roundUp (slots * kind.width) ≤
      Block.roundUp (Bitmap.bytesFor slots) * 8 * kind.width :=
    Block.roundUp_le (Nat.mul_le_mul_right _ bits) whole
  rw [capacity, size_values_renewed, size_validity_renewed]
  exact Nat.min_eq_left (Nat.div_le_of_le_mul (enough.trans_eq (Nat.mul_comm _ _)))

/-- The later column is the column with new, zeroed blocks for so many slots, none of them in use. -/
structure Refreshed (column : Column n kind) (slots : Nat) (later : Column n kind) : Prop where
  field : later.field = column.field
  config : later.config = column.config
  account : later.account = column.account
  values : later.values = ⟨Bytes.zeros (Block.roundUp (slots * kind.width)), column.account⟩
  validity : later.validity = ⟨Bytes.zeros (Block.roundUp (Bitmap.bytesFor slots)), column.account⟩
  count : later.count = 0
  capacity : later.capacity = Block.roundUp (slots * kind.width) / kind.width
  enough : slots ≤ later.capacity
  remembered : later.remembered = later.capacity

theorem refreshed_renewed (column : Column n kind) (slots : Nat) :
    column.Refreshed slots (column.renewed slots) where
  field := rfl
  config := rfl
  account := rfl
  values := rfl
  validity := rfl
  count := rfl
  capacity := column.capacity_renewed slots
  enough := column.le_capacity_renewed slots
  remembered := rfl

end Column

namespace Edit

variable {session : Session n kind}

/-- Memory is taken anew only where the column can afford it, and refused only where it cannot. -/
theorem allocate_affords (session : Session n kind) (slots : Nat) :
    Ends (allocate slots) session (fun _ _ => session.column.Affords session.ledger slots)
      (fun failure _ => failure.Exhausted → ¬ session.column.Affords session.ledger slots) := by
  have cut {failure : Failure} (overdrawn : failure = .overdrawn) :
      failure.Exhausted → ¬ session.column.Affords session.ledger slots := by
    subst overdrawn
    exact fun exhausted => absurd exhausted (by decide)
  refine ends_allocate ?_ fun _ allowed => ?_
  · intro _ _ _ beyond _ affords
    exact beyond ⟨affords.word, affords.allowed⟩
  · refine (Block.allocateBoth_accepts _ _ _ _).mono ?_ ?_
    · intro blocks between accepts
      refine (Block.release_stops _ between).mono ?_ ?_
      · intro _ middle _
        exact (Block.release_stops _ middle).mono (fun _ _ _ => ⟨allowed, accepts⟩) fun _ _ => cut
      · intro failure middle overdrawn
        exact (Block.release_stops _ middle).mono (fun _ _ _ => cut overdrawn) fun _ _ => cut
    · exact fun _ _ refused exhausted affords => refused exhausted affords.accepts

theorem allocate_spares (session : Session n kind) (slots : Nat) :
    Ends (allocate slots) session (fun _ _ => True)
      (fun failure _ => failure = .tooLarge → ¬ Block.Small (slots * kind.width)) := by
  by_cases small : Block.Small (slots * kind.width)
  · exact (allocate_modest fun _ => small).mono (fun _ _ _ => trivial)
      fun _ _ fine large => absurd large fine
  · exact ends_of (fun _ _ _ => trivial) fun _ _ _ _ => small

/-- With exact accounts memory is taken anew, or refused without a trace, or too large. -/
theorem allocate_exact (slots : Nat) (balanced : session.Balanced rest) :
    Ends (allocate slots) session
      (fun _ after => session.column.Affords session.ledger slots ∧
        after.column = session.column.renewed slots ∧ after.Balanced rest)
      (fun failure after =>
        failure = .tooLarge ∧ ¬ Block.Small (slots * kind.width) ∨
          failure.Exhausted ∧ ¬ session.column.Affords session.ledger slots ∧
            after.column = session.column ∧ after.ledger.allocated = session.ledger.allocated) := by
  -- Exact accounts only serve to rule out that the old blocks cannot be given back.
  refine (((allocate_affords session slots).and (allocate_leaves session slots)).and
    ((allocate_spares session slots).and (allocate_balances slots session balanced))).mono ?_ ?_
  · rintro _ after ⟨⟨affords, renewed, _⟩, _, kept⟩
    exact ⟨affords, renewed, kept⟩
  · rintro failure after ⟨⟨unaffordable, left⟩, spared, settled, _⟩
    rcases left with ⟨same, ⟨exhausted, charges⟩ | large⟩ | ⟨overdrawn, _⟩
    · exact .inr ⟨exhausted, unaffordable exhausted, same, charges⟩
    · exact .inl ⟨large, spared large⟩
    · exact absurd overdrawn settled

end Edit

end Columnar
