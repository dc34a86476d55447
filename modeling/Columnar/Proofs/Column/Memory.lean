import Columnar.Column.Write
import Columnar.Proofs.Column.Growth

namespace Columnar

open Columnar.Action

variable {n : Nat} {kind : Kind}

namespace Column

/-- The column with other blocks, of which no slot is in use. -/
def refilled (column : Column n kind) (values validity : Block n) : Column n kind :=
  let fresh : Column n kind := { column with values, validity, count := 0 }
  { fresh with remembered := fresh.capacity }

/-- The column with new, zeroed blocks for a number of slots. -/
def renewed (column : Column n kind) (slots : Nat) : Column n kind :=
  column.refilled ⟨Bytes.zeros (Block.roundUp (slots * kind.width)), column.account⟩
    ⟨Bytes.zeros (Block.roundUp (Bitmap.bytesFor slots)), column.account⟩

def emptied (column : Column n kind) : Column n kind :=
  { column with values := .empty column.account, validity := .empty column.account, count := 0 }

/-- The configuration allows the slots, and memory for them can be had. -/
structure Granted (column : Column n kind) (slots : Nat) : Prop where
  allowed : slots * kind.width ≤ column.config.maxAllocationBytes
  values : (column.renewed slots).values.size ≤ Word.largestRequest
  validity : (column.renewed slots).validity.size ≤ Word.largestRequest

/-- The column has the values of a fresh one, and its own validity block or that of the fresh one. -/
def Midway (column fresh later : Column n kind) : Prop :=
  later = { column with values := fresh.values } ∨
    later = { column with values := fresh.values, validity := fresh.validity }

theorem Midway.config {column fresh later : Column n kind} (midway : column.Midway fresh later) :
    later.config = column.config := by
  rcases midway with rfl | rfl <;> rfl

theorem size_values_renewed (column : Column n kind) (slots : Nat) :
    (column.renewed slots).values.size = Block.roundUp (slots * kind.width) := Bytes.size_zeros _

theorem size_validity_renewed (column : Column n kind) (slots : Nat) :
    (column.renewed slots).validity.size = Block.roundUp (Bitmap.bytesFor slots) := Bytes.size_zeros _

theorem bit_renewed (column : Column n kind) (slots index : Nat) :
    (column.renewed slots).bit index = false :=
  Bitmap.bit_zeros _ index

theorem renewed_shows (column : Column n kind) (slots : Nat) :
    (column.renewed slots).Shows Slots.blank :=
  shows_blank (column.bit_renewed slots) (Nat.zero_le _)

theorem le_capacity_renewed (column : Column n kind) (slots : Nat) :
    slots ≤ (column.renewed slots).capacity := by
  apply Nat.le_min.mpr
  constructor
  · apply (Nat.le_div_iff_mul_le kind.width_pos).mpr
    exact (Block.le_roundUp _).trans_eq (column.size_values_renewed slots).symm
  · have bits := Bitmap.le_bytesFor slots
    have bytes := Block.le_roundUp (Bitmap.bytesFor slots)
    have size := column.size_validity_renewed slots
    omega

theorem release_stops (column : Column n kind) (ledger : Ledger n) :
    Ends column.release ledger (fun _ _ => True) (fun failure _ => failure = .overdrawn) := by
  rw [release, ends_bind, ends_tryCatch]
  refine (Block.release_stops _ _).mono ?_ ?_
  · intro _ between _
    exact Block.release_stops _ _
  · intro failure between overdrawn
    rw [ends_bind]
    exact (Block.release_stops _ _).mono (fun _ _ _ => overdrawn) fun _ _ overdrawn => overdrawn

theorem emptied_shows (column : Column n kind) : column.emptied.Shows Slots.blank :=
  shows_blank (fun index => Bitmap.bit_zeros 0 index) (Nat.zero_le _)

end Column

namespace Edit

variable {session : Session n kind} {slots : Nat}
variable {post : Unit → Session n kind → Prop} {stop : Failure → Session n kind → Prop}

/-- Both new blocks are taken before the old ones are given back, the values first. -/
theorem ends_allocate
    (refused : ∀ notice failure, failure.Exhausted →
      ¬ (slots * kind.width < Word.size ∧ slots * kind.width ≤ session.column.config.maxAllocationBytes) →
      stop failure { session with ledger := session.ledger.note notice })
    (taken : slots * kind.width < Word.size →
      slots * kind.width ≤ session.column.config.maxAllocationBytes →
      Ends (Block.allocateBoth session.column.account (slots * kind.width) (Bitmap.bytesFor slots))
        session.ledger
        (fun blocks between => Ends session.column.values.release between
          (fun _ middle => Ends session.column.validity.release middle
            (fun _ last => post () ⟨session.column.refilled blocks.1 blocks.2, last⟩)
            (fun failure last =>
              stop failure ⟨{ session.column with values := blocks.1, validity := blocks.2 }, last⟩))
          (fun failure middle => Ends blocks.2.release middle
            (fun _ last => stop failure ⟨{ session.column with values := blocks.1 }, last⟩)
            (fun failure last => stop failure ⟨{ session.column with values := blocks.1 }, last⟩)))
        (fun failure last => stop failure { session with ledger := last })) :
    Ends (allocate slots) session post stop := by
  rw [allocate, ends_bind]
  refine ends_bufferSizes (fun small allowed => ?_) refused
  rw [ends_column_bind, ends_bind, ends_onLedger]
  refine (taken small allowed).mono_post ?_
  rintro ⟨values, validity⟩ between replaced
  rw [ends_bind, ends_tryCatch, ends_replaceBuffer]
  refine replaced.mono ?_ ?_
  · intro _ middle given
    rw [ends_bind, ends_replaceBuffer]
    exact given.mono (fun _ _ done => done) fun _ _ stopped => stopped
  · intro failure middle given
    rw [ends_bind, ends_onLedger]
    exact given.mono (fun _ _ stopped => stopped) fun _ _ stopped => stopped

/-- New memory is all zero; a refusal changes neither the column nor any charge, and an overdraft leaves
the column on the way to its new blocks. -/
theorem allocate_leaves (session : Session n kind) (slots : Nat) :
    Ends (allocate slots) session
      (fun _ after => after.column = session.column.renewed slots ∧ session.column.Granted slots)
      (fun failure after =>
        after.column = session.column ∧ Block.Refused session.ledger failure after.ledger ∨
          failure = .overdrawn ∧ session.column.Granted slots ∧
            session.column.Midway (session.column.renewed slots) after.column) := by
  refine ends_allocate (fun _ _ exhausted _ => .inl ⟨rfl, .inl ⟨exhausted, rfl⟩⟩) fun _ allowed => ?_
  refine (Block.allocateBoth_ends _ _ _ _).mono ?_ fun _ _ refused => .inl ⟨rfl, refused⟩
  rintro blocks between ⟨rfl, small, fits, _⟩
  have granted : session.column.Granted slots :=
    ⟨allowed, (Bytes.size_zeros _).trans_le small, (Bytes.size_zeros _).trans_le fits⟩
  refine (Block.release_stops _ between).mono ?_ ?_
  · intro _ middle _
    exact (Block.release_stops _ middle).mono (fun _ _ _ => ⟨rfl, granted⟩)
      fun _ _ overdrawn => .inr ⟨overdrawn, granted, .inr rfl⟩
  · intro failure middle overdrawn
    exact (Block.release_stops _ middle).mono (fun _ _ _ => .inr ⟨overdrawn, granted, .inl rfl⟩)
      fun _ _ overdrawn => .inr ⟨overdrawn, granted, .inl rfl⟩

theorem allocate_ends (session : Session n kind) (slots : Nat) :
    Ends (allocate slots) session
      (fun _ after => after.column = session.column.renewed slots)
      (fun failure after => failure = .overdrawn ∨ after.column = session.column ∧
        Block.Refused session.ledger failure after.ledger) := by
  refine (allocate_leaves session slots).mono (fun _ _ => And.left) ?_
  rintro _ after (refused | ⟨overdrawn, _⟩)
  · exact .inr refused
  · exact .inl overdrawn

/-- Clearing leaves no memory; an overdraft leaves the column on the way there. -/
theorem clear_leaves (session : Session n kind) :
    Ends clear session (fun _ after => after.column = session.column.emptied)
      (fun failure after => failure = .overdrawn ∧
        session.column.Midway session.column.emptied after.column) := by
  rw [clear, ends_column_bind, ends_bind, ends_replaceBuffer]
  refine (Block.release_stops _ _).mono ?_ fun _ _ overdrawn => ⟨overdrawn, .inl rfl⟩
  intro _ between _
  rw [ends_bind, ends_replaceBuffer]
  exact (Block.release_stops _ _).mono (fun _ _ _ => rfl) fun _ _ overdrawn => ⟨overdrawn, .inr rfl⟩

theorem clear_ends (session : Session n kind) :
    Ends clear session (fun _ after => after.column = session.column.emptied)
      (fun failure _ => failure = .overdrawn) :=
  (clear_leaves session).mono_stop fun _ _ => And.left

theorem allocate_keepsColumn {holds : Column n kind → Prop}
    (renewed : ∀ (column : Column n kind) slots, holds (column.renewed slots)) (slots : Nat) :
    Keeps (allocate slots) (fun session => holds session.column)
      (fun failure session => failure = .overdrawn ∨ holds session.column) := by
  intro session before
  refine (allocate_ends session slots).mono ?_ ?_
  · intro _ after taken
    exact (congrArg holds taken).mpr (renewed session.column slots)
  · intro failure after stopped
    rcases stopped with overdrawn | ⟨same, _⟩
    · exact .inl overdrawn
    · exact .inr (same ▸ before)

theorem clear_keepsColumn {holds : Column n kind → Prop}
    (emptied : ∀ column : Column n kind, holds column.emptied) :
    Keeps clear (fun session => holds session.column)
      (fun failure session => failure = .overdrawn ∨ holds session.column) := by
  intro session _
  refine (clear_ends session).mono ?_ fun _ _ overdrawn => .inl overdrawn
  intro _ after given
  exact (congrArg holds given).mpr (emptied session.column)

theorem allocate_shows {shown : Slots kind} (session : Session n kind) (slots : Nat)
    (shows : session.column.Shows shown) :
    Ends (allocate slots) session (fun _ after => after.column.Shows Slots.blank)
      (fun failure after => failure = .overdrawn ∨ after.column.Shows shown) := by
  refine (allocate_ends session slots).mono ?_ ?_
  · intro _ after renewed
    rw [renewed]
    exact session.column.renewed_shows slots
  · intro failure after stopped
    rcases stopped with overdrawn | ⟨same, _⟩
    · exact .inl overdrawn
    · exact .inr (same ▸ shows)

theorem clear_shows (session : Session n kind) :
    Ends clear session (fun _ after => after.column.Shows Slots.blank)
      (fun failure _ => failure = .overdrawn) := by
  refine (clear_ends session).mono_post ?_
  intro _ after emptied
  rw [emptied]
  exact session.column.emptied_shows

theorem reset_shows (session : Session n kind) :
    Ends reset session (fun _ after => after.column.Shows Slots.blank) (fun _ _ => False) :=
  Column.shows_blank (fun index => Bitmap.bit_zeros _ index) (Nat.zero_le _)

end Edit

end Columnar
