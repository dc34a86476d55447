import Columnar.Proofs.Column.Shape

namespace Columnar

open Columnar.Action

variable {n : Nat} {kind : Kind}

/-- Whatever the configuration allows can be had, also after rounding up. -/
def Config.Modest (config : Config) : Prop :=
  config.maxAllocationBytes + (Block.grain - 1) ≤ Word.largestRequest

instance (config : Config) : Decidable config.Modest := inferInstanceAs (Decidable (_ ≤ _))

theorem Failure.Exhausted.ne_tooLarge {failure : Failure} (exhausted : failure.Exhausted) :
    failure ≠ .tooLarge := by
  obtain ⟨_, _, rfl⟩ := exhausted
  simp

namespace Block

variable {size : Nat}

/-- The size can be had after rounding up. -/
def Small (size : Nat) : Prop := roundUp size ≤ Word.largestRequest

theorem Small.of_modest {config : Config} (modest : config.Modest)
    (allowed : size ≤ config.maxAllocationBytes) : Small size := by
  have largest : grain ∣ Word.largestRequest - (grain - 1) := by decide
  have within : size ≤ Word.largestRequest - (grain - 1) := by
    rw [Config.Modest] at modest
    omega
  exact (roundUp_le within largest).trans (Nat.sub_le _ _)

theorem Small.mono {fewer : Nat} (small : Small size) (less : fewer ≤ size) : Small fewer :=
  (roundUp_mono less).trans small

theorem Declined.ne_tooLarge {ledger after : Ledger n} {account : Fin n} {failure : Failure}
    (declined : Declined ledger account size failure after) (small : Small size) :
    failure ≠ .tooLarge := by
  rcases declined with ⟨refused, _⟩ | ⟨_, large, _⟩
  · exact Failure.Exhausted.ne_tooLarge ⟨_, _, refused⟩
  · exact absurd small (Nat.not_le_of_lt large)

theorem release_not_tooLarge (block : Block n) (ledger : Ledger n) :
    Ends block.release ledger (fun _ _ => True) (fun failure _ => failure ≠ .tooLarge) :=
  (release_stops block ledger).mono_stop fun _ _ overdrawn => by simp [overdrawn]

theorem enlarge_not_tooLarge (small : Small size) (block : Block n) (ledger : Ledger n) :
    Ends (block.enlarge size) ledger (fun _ _ => True) (fun failure _ => failure ≠ .tooLarge) :=
  ends_bind.mpr ((allocate_exact ledger block.account size).mono (fun _ _ _ => trivial)
    fun _ _ declined => declined.ne_tooLarge small)

theorem allocateBoth_not_tooLarge {first second : Nat} (smallFirst : Small first)
    (smallSecond : Small second) (account : Fin n) (ledger : Ledger n) :
    Ends (allocateBoth account first second) ledger (fun _ _ => True)
      (fun failure _ => failure ≠ .tooLarge) := by
  refine ends_bind.mpr ((allocate_exact ledger account first).mono ?_
    fun _ _ declined => declined.ne_tooLarge smallFirst)
  intro left middle _
  refine ends_bind.mpr (ends_tryCatch.mpr ((allocate_exact middle account second).mono ?_ ?_))
  · exact fun _ _ _ => trivial
  · intro failure after declined
    have fine := declined.ne_tooLarge smallSecond
    exact ends_bind.mpr ((release_not_tooLarge left after).mono_post fun _ _ _ => fine)

end Block

namespace Edit

variable {session : Session n kind} {size : Nat}

theorem growBuffer_modest (which : Buffer) (small : Block.Small size) :
    Ends (growBuffer which size) session
      (fun _ after => after.column.config = session.column.config) (fun failure _ => failure ≠ .tooLarge) := by
  have kept (larger : Block n) : (session.column.withBuffer which larger).config = session.column.config := by
    cases which <;> rfl
  refine ends_growBuffer (fun _ => rfl) fun _ => ?_
  refine (Block.enlarge_not_tooLarge small _ _).mono_post ?_
  intro larger between _
  exact (Block.release_not_tooLarge _ between).mono_post fun _ _ _ => kept larger

/-- Nor are blocks too large for slots whose values are small, where the configuration allows them. -/
theorem allocate_modest {slots : Nat} (small : slots * kind.width ≤ session.column.config.maxAllocationBytes →
      Block.Small (slots * kind.width)) :
    Ends (allocate slots) session (fun _ after => after.column.config = session.column.config)
      (fun failure _ => failure ≠ .tooLarge) := by
  refine ends_allocate (fun _ _ exhausted _ => exhausted.ne_tooLarge) fun _ allowed => ?_
  have values := small allowed
  refine (Block.allocateBoth_not_tooLarge values (values.mono (bytesFor_le kind slots)) _ _).mono_post ?_
  intro blocks between _
  refine (Block.release_not_tooLarge _ between).mono ?_ ?_
  · intro _ middle _
    exact (Block.release_not_tooLarge _ middle).mono_post fun _ _ _ => rfl
  · intro failure middle fine
    exact (Block.release_not_tooLarge _ middle).mono (fun _ _ _ => fine) fun _ _ fine => fine

/-- No edit of a column with a modest configuration asks for more memory than there can be. -/
theorem modestInvariant :
    EditInvariant (fun session : Session n kind => session.column.config.Modest)
      (fun failure _ => failure ≠ .tooLarge) where
  noted _ modest := modest
  remembered _ modest := modest
  outOfRange _ := by decide
  reported _ _ := by simp
  counted _ _ modest := modest
  written _ _ modest := modest
  marked _ _ modest := modest
  grow session modest := by
    refine ends_grow (fun _ _ exhausted _ => exhausted.ne_tooLarge) fun notice allowed => ?_
    have smallValues := Block.Small.of_modest modest allowed
    have smallValidity := Block.Small.of_modest modest ((bytesFor_le kind _).trans allowed)
    refine (growBuffer_modest .values smallValues).mono_post ?_
    intro _ between same
    refine (growBuffer_modest .validity smallValidity).mono_post ?_
    intro _ after still
    exact (congrArg Config.Modest (still.trans same)).mpr modest
  allocate slots session modest :=
    (allocate_modest (Block.Small.of_modest modest)).mono_post fun _ _ same =>
      (congrArg Config.Modest same).mpr modest
  clear session modest := by
    refine (clear_ends session).mono ?_ ?_
    · exact fun _ _ gone => (congrArg (·.config.Modest) gone).mpr modest
    · rintro _ after rfl
      decide

end Edit

/-- A request is granted exactly where the account accepts it and memory can be so large. What is accepted
though too large stays charged without a block. -/
theorem requests_answered (ledger : Ledger n) (id : Fin n) (size : Nat) :
    let amount := Block.roundUp size
    (Block.grain ∣ amount ∧ size ≤ amount ∧ amount < size + Block.grain) ∧
      Ends (Block.allocate id size) ledger
        (fun block after => (ledger.account id).Accepts amount ∧ amount ≤ Word.largestRequest ∧
          block = ⟨Bytes.zeros amount, id⟩ ∧ after.allocated = ledger.allocated + Pi.single id amount ∧
          ∀ other ≠ id, after.account other = ledger.account other)
        (fun failure after =>
          failure.Exhausted ∧ ¬ (ledger.account id).Accepts amount ∧ after.accounts = ledger.accounts ∨
          failure = .tooLarge ∧ (ledger.account id).Accepts amount ∧ Word.largestRequest < amount ∧
            after.allocated = ledger.allocated + Pi.single id amount) ∧
      ∀ (kind : Kind) (session : Session n kind), session.column.config.Modest →
        ∀ edit : Edit n kind Unit,
          ((∃ call : Call kind, edit = call.edit) ∨
            (∃ other source target, edit = Edit.copyFromSafe other source target) ∨
            ∃ other start length, edit = Edit.split other start length) →
          Ends edit session (fun _ _ => True) (fun failure _ => failure ≠ .tooLarge) := by
  intro amount
  refine ⟨⟨Block.grain_dvd_roundUp size, Block.le_roundUp size, Block.roundUp_lt size⟩, ?_, ?_⟩
  · refine (Block.allocate_exact ledger id size).mono ?_ ?_
    · rintro block after ⟨rfl, small, accepts, rfl⟩
      refine ⟨accepts, small, rfl, Ledger.allocated_charged ledger id amount, ?_⟩
      intro other apart
      exact Ledger.account_put_of_ne ledger apart.symm _
    · rintro failure after (⟨refused, rejects, same⟩ | ⟨rfl, large, accepts, rfl⟩)
      · exact .inl ⟨⟨_, _, refused⟩, rejects, same⟩
      · exact .inr ⟨rfl, accepts, large, Ledger.allocated_charged ledger id amount⟩
  · intro kind session modest edit growing
    have edits : Edit.EditInvariant (fun session : Session n kind => session.column.config.Modest)
        (fun failure _ => failure ≠ .tooLarge) := Edit.modestInvariant
    have keeps : Keeps edit (fun session => session.column.config.Modest)
        (fun failure _ => failure ≠ .tooLarge) := by
      rcases growing with ⟨call, rfl⟩ | ⟨other, source, target, rfl⟩ | ⟨other, start, length, rfl⟩
      · exact edits.call call
      · exact edits.copyFromSafe other source target
      · exact edits.split other start length
    exact (keeps session modest).mono_post fun _ _ _ => trivial

/-- A column of bytes without memory that grows from so many slots, and an unlimited account. -/
private def unlimited (account : Fin 1) (config : Config) (slots : Nat) : Session 1 .uint8 :=
  ⟨{ (Column.empty "x" account config : Column 1 .uint8) with remembered := slots },
    .ofLimits #v[Word.max]⟩

theorem requests_answered_modest :
    ({ maxAllocationBytes := 64 } : Config).Modest ∧
      Ends Edit.grow (unlimited 0 { maxAllocationBytes := 64 } 0x3fffffffffffffff) (fun _ _ => True)
        (fun failure _ => failure ≠ .tooLarge) := by
  have modest : ({ maxAllocationBytes := 64 } : Config).Modest := by decide
  exact ⟨modest, (requests_answered (.ofLimits #v[Word.max]) 0 0).2.2 .uint8
    (unlimited 0 { maxAllocationBytes := 64 } 0x3fffffffffffffff) modest _ (.inl ⟨.grow, rfl⟩)⟩

/-- The largest request there can be is accepted though it is too large once it is rounded up, and
under the default configuration a column grows as far. -/
theorem requests_answered_overlarge :
    (¬ ∀ (ledger : Ledger 1) (size : Nat), Ends (Block.allocate 0 size) ledger (fun _ _ => True)
      (fun failure after => failure.Exhausted ∧ after.accounts = ledger.accounts)) ∧
    ¬ ∀ slots, Ends Edit.grow (unlimited 0 default slots) (fun _ _ => True)
        (fun failure _ => failure ≠ .tooLarge) := by
  constructor
  · refine not_forall.mpr ⟨.ofLimits #v[Word.max], not_forall.mpr ⟨Word.largestRequest, ?_⟩⟩
    decide +kernel
  · refine not_forall.mpr ⟨0x3fffffffffffffff, ?_⟩
    decide +kernel

end Columnar
