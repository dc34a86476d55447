import Columnar.Proofs.Column.Bounds

/-! Exact accounts: what is charged is what the column's blocks and the rest of the store hold, and
both blocks are charged to the column's own account. Every edit and every transfer keeps this, and
none gives back more than is charged. Only a request that is too large loses its charge. -/

namespace Columnar

open Columnar.Action

variable {n : Nat} {kind : Kind} {rest : Fin n → Nat}

namespace Column

/-- What both blocks cost each account. -/
def charge (column : Column n kind) : Fin n → Nat := column.values.charge + column.validity.charge

/-- Both blocks are charged to the column's own account. -/
structure Owns (column : Column n kind) : Prop where
  values : column.values.account = column.account
  validity : column.validity.account = column.account

theorem add_charge (rest : Fin n → Nat) (column : Column n kind) :
    rest + column.charge = rest + column.validity.charge + column.values.charge := by
  rw [charge, add_assoc, add_comm column.validity.charge]

/-- Whichever of the blocks is replaced, what else is charged stays. -/
theorem split_charge (rest : Fin n → Nat) (column : Column n kind) (which : Buffer) :
    ∃ others, ∀ block, rest + (column.withBuffer which block).charge = others + block.charge := by
  cases which with
  | values =>
    exact ⟨rest + column.validity.charge, fun block => add_charge rest (column.withBuffer .values block)⟩
  | validity => exact ⟨rest + column.values.charge, fun block => (add_assoc _ _ _).symm⟩

theorem Owns.withBuffer {column : Column n kind} (owns : column.Owns) {which : Buffer} {block : Block n}
    (home : block.account = (column.buffer which).account) : (column.withBuffer which block).Owns := by
  cases which with
  | values => exact ⟨home.trans owns.values, owns.validity⟩
  | validity => exact ⟨owns.values, home.trans owns.validity⟩

theorem charge_ofType (name : String) (type : FieldType) (account : Fin n) (config : Config) :
    (ofType name type account config : Column n kind).charge = 0 := by
  rw [charge, ofType, Block.charge_empty, add_zero]

theorem owns_ofType (name : String) (type : FieldType) (account : Fin n) (config : Config) :
    (ofType name type account config : Column n kind).Owns := ⟨rfl, rfl⟩

theorem charge_renewed (column : Column n kind) (slots : Nat) : (column.renewed slots).charge =
    Pi.single column.account (Block.roundUp (slots * kind.width)) +
      Pi.single column.account (Block.roundUp (Bitmap.bytesFor slots)) := by
  rw [charge, renewed, refilled, Block.charge_zeros, Block.charge_zeros]

theorem charge_emptied (column : Column n kind) : column.emptied.charge = 0 := by
  rw [charge, emptied, Block.charge_empty, add_zero]

theorem charge_bare (column : Column n kind) : column.bare.charge = 0 := by
  rw [charge, bare, Block.charge_empty, add_zero]

theorem release_leaves {ledger : Ledger n} {column : Column n kind}
    (charged : ledger.allocated = rest + column.charge) (inRange : ledger.InRange) :
    Ends column.release ledger (fun _ after => after.allocated = rest ∧ after.InRange)
      (fun _ _ => False) := by
  have values := charged.trans (add_charge rest column)
  rw [release, ends_bind, ends_tryCatch]
  refine (Block.release_leaves values inRange).mono_total ?_
  intro _ between reached
  obtain ⟨left, words⟩ := reached
  exact Block.release_leaves left words

end Column

/-- The column's blocks and the rest are what is charged. -/
structure Session.Balanced (rest : Fin n → Nat) (session : Session n kind) : Prop where
  charged : session.ledger.allocated = rest + session.column.charge
  inRange : session.ledger.InRange
  owns : session.column.Owns

namespace Edit

/-- How an edit may stop with exact accounts: not by an overdraft, and with exact accounts unless
a request was too large. -/
def Settled (rest : Fin n → Nat) (failure : Failure) (session : Session n kind) : Prop :=
  failure ≠ .overdrawn ∧ (failure = .tooLarge ∨ session.Balanced rest)

theorem settled_of_refused {session : Session n kind} {failure : Failure} {ledger : Ledger n}
    (balanced : session.Balanced rest) (refused : Block.Refused session.ledger failure ledger) :
    Settled rest failure { session with ledger } := by
  refine ⟨refused.ne_overdrawn, ?_⟩
  rcases refused with ⟨_, same⟩ | large
  · exact .inr ⟨same.trans balanced.charged, balanced.inRange.congr same, balanced.owns⟩
  · exact .inl large

theorem clear_balances :
    Keeps clear (fun session : Session n kind => session.Balanced rest) (fun _ _ => False) := by
  intro session balanced
  have values := balanced.charged.trans (Column.add_charge rest session.column)
  rw [clear, ends_column_bind, ends_bind, ends_replaceBuffer]
  refine (Block.release_leaves values balanced.inRange).mono_total ?_
  intro _ between reached
  obtain ⟨left, words⟩ := reached
  rw [ends_bind, ends_replaceBuffer]
  refine (Block.release_leaves left words).mono_total ?_
  intro _ after reached
  obtain ⟨nothing, inRange⟩ := reached
  refine ⟨?_, inRange, ⟨rfl, rfl⟩⟩
  change after.allocated = rest + session.column.emptied.charge
  rw [nothing, Column.charge_emptied, add_zero]

theorem allocate_balances (slots : Nat) : Keeps (allocate slots)
    (fun session : Session n kind => session.Balanced rest) (Settled rest) := by
  intro session balanced
  refine ends_allocate ?_ fun _ _ => ?_
  · intro notice failure exhausted _
    exact settled_of_refused balanced (.inl ⟨exhausted, rfl⟩)
  · refine (Block.allocateBoth_ends _ _ _ _).mono ?_ fun _ _ => settled_of_refused balanced
    intro blocks between reached
    obtain ⟨rfl, _, _, charged, bounded⟩ := reached
    have added : between.allocated =
        session.ledger.allocated + (session.column.renewed slots).charge := by
      rw [charged, Column.charge_renewed]
    have inRange : between.InRange := by
      rw [← Pi.single_add] at charged
      exact balanced.inRange.of_charge charged bounded
    have values : between.allocated = rest + (session.column.renewed slots).charge +
        session.column.validity.charge + session.column.values.charge := by
      rw [added, balanced.charged, add_right_comm, Column.add_charge]
    refine (Block.release_leaves values inRange).mono_total ?_
    intro _ middle reached
    obtain ⟨left, words⟩ := reached
    refine (Block.release_leaves left words).mono_total ?_
    intro _ last reached
    obtain ⟨nothing, within⟩ := reached
    exact ⟨nothing, within, ⟨rfl, rfl⟩⟩

theorem balancedInvariant :
    ShapeInvariant (fun session : Session n kind => session.Balanced rest) (Settled rest) where
  noted _ balanced := ⟨balanced.charged, balanced.inRange, balanced.owns⟩
  remembered _ balanced :=
    ⟨balanced.charged, balanced.inRange, ⟨balanced.owns.values, balanced.owns.validity⟩⟩
  refused exhausted balanced := settled_of_refused balanced (.inl ⟨exhausted, rfl⟩)
  outOfRange balanced := ⟨by decide, .inr balanced⟩
  reported _ balanced := ⟨by simp, .inr balanced⟩
  counted _ _ balanced :=
    ⟨balanced.charged, balanced.inRange, ⟨balanced.owns.values, balanced.owns.validity⟩⟩
  written {session} bytes same balanced := by
    refine ⟨?_, balanced.inRange, ⟨balanced.owns.values, balanced.owns.validity⟩⟩
    have values : (session.mapValues fun _ => bytes).column.values.charge =
        session.column.values.charge := Block.charge_congr rfl same
    rw [Column.charge, values]
    exact balanced.charged
  marked {session} bytes same balanced := by
    refine ⟨?_, balanced.inRange, ⟨balanced.owns.values, balanced.owns.validity⟩⟩
    have validity : (session.mapValidity fun _ => bytes).column.validity.charge =
        session.column.validity.charge := Block.charge_congr rfl same
    rw [Column.charge, validity]
    exact balanced.charged
  growBuffer which size session balanced := by
    refine ends_growBuffer (fun _ => balanced) fun short => ?_
    obtain ⟨others, split⟩ := Column.split_charge rest session.column which
    have charged : session.ledger.allocated = others + (session.column.buffer which).charge := by
      rw [balanced.charged, ← split, Column.withBuffer_self]
    refine (Block.enlarge_replaces short charged balanced.inRange).mono ?_ ?_
    · intro larger between reached
      obtain ⟨home, released⟩ := reached
      refine released.mono_total ?_
      intro _ after reached
      obtain ⟨total, words⟩ := reached
      exact ⟨total.trans (split larger).symm, words, balanced.owns.withBuffer home⟩
    · exact fun _ _ refused => settled_of_refused balanced refused
  allocate := allocate_balances
  clear session balanced := (clear_balances session balanced).mono_stop fun _ _ => False.elim

theorem clear_peaks (session : Session n kind) :
    Ends clear session (fun _ after => after.ledger.peaks = session.ledger.peaks)
      (fun failure _ => failure = .overdrawn) := by
  rw [clear, ends_column_bind, ends_bind, ends_replaceBuffer]
  refine (Ledger.release_peaks _ _ _).mono_post ?_
  intro _ between first
  rw [ends_bind, ends_replaceBuffer]
  exact (Ledger.release_peaks _ _ _).mono_post fun _ _ second => second.trans first

/-- Charging blocks that come from other accounts, where all charges together are a word. The peak of
the account rises with the charge. -/
theorem chargeBlocks_balances (session : Session n kind)
    (charged : session.ledger.allocated = rest + session.column.charge)
    (inRange : session.ledger.InRange) (room : ∑ id, session.ledger.allocated id < Word.size) :
    Ends chargeBlocks session
      (fun _ after => after.Balanced rest ∧ ∀ former,
        session.ledger.Peaked session.column.account former →
        after.ledger.Peaked session.column.account former)
      (fun _ _ => False) := by
  refine ends_chargeBlocks ?_ ?_
  · rintro _ _ ⟨balanced, raised⟩
    exact ⟨⟨balanced.charged, balanced.inRange, balanced.owns⟩, raised⟩
  · have values := charged.trans (Column.add_charge rest session.column)
    refine ((Block.moveTo_ends _ _ values inRange room).and
      (Block.moveTo_peaked _ _ (Block.room_elsewhere values room))).mono ?_ fun _ _ held => held.1
    rintro values between ⟨⟨moved, added, words, still⟩, first⟩
    have validity : between.allocated =
        rest + values.1.charge + session.column.validity.charge := by
      rw [added, add_right_comm]
    refine ((Block.moveTo_ends _ _ validity words still).and
      (Block.moveTo_peaked _ _ (Block.room_elsewhere validity still))).mono ?_ fun _ _ held => held.1
    rintro validity last ⟨⟨settled, total, within, _⟩, second⟩
    refine ⟨⟨?_, within, ⟨congrArg Block.account moved, congrArg Block.account settled⟩⟩, ?_⟩
    · rw [total, Column.charge, add_assoc]
    · exact fun former peaked => second former (first former peaked)

end Edit

namespace Exchange

/-- Once the receiving column has given its blocks back, what is charged is the giving column and the
rest. -/
theorem clear_leaves (exchange : Exchange n kind)
    (charged : exchange.ledger.allocated = rest + exchange.source.charge + exchange.target.charge)
    (inRange : exchange.ledger.InRange) (owns : exchange.target.Owns)
    (room : ∑ id, exchange.ledger.allocated id < Word.size) (notice : Notice) :
    Ends Edit.clear ⟨exchange.target, exchange.ledger.note notice⟩
      (fun _ cleared => cleared.column = exchange.target.emptied ∧
        cleared.ledger.allocated = rest + exchange.source.charge ∧ cleared.ledger.InRange ∧
        ∑ id, cleared.ledger.allocated id < Word.size ∧ cleared.ledger.peaks = exchange.ledger.peaks)
      (fun _ _ => False) := by
  have start : Session.Balanced (rest + exchange.source.charge)
      ⟨exchange.target, exchange.ledger.note notice⟩ := ⟨charged, inRange, owns⟩
  refine ((Edit.clear_ends _).and ((Edit.clear_balances _ start).and (Edit.clear_peaks _))).mono ?_
    fun _ _ held => held.2.1
  rintro _ cleared ⟨emptied, balanced, peaks⟩
  have held : cleared.ledger.allocated = rest + exchange.source.charge := by
    rw [balanced.charged, emptied, Column.charge_emptied, add_zero]
  have less : cleared.ledger.allocated ≤ exchange.ledger.allocated := by
    rw [held, charged]
    exact le_self_add
  exact ⟨emptied, held, balanced.inRange, (Finset.sum_le_sum fun other _ => less other).trans_lt room,
    peaks⟩

/-- A transfer never stops where the accounts are exact and all charges together are a word. The peak rises
no further than to what is charged in the end, as the old blocks are given back first. -/
theorem transfer_balances (exchange : Exchange n kind)
    (charged : exchange.ledger.allocated = rest + exchange.source.charge + exchange.target.charge)
    (inRange : exchange.ledger.InRange) (owns : exchange.target.Owns)
    (room : ∑ id, exchange.ledger.allocated id < Word.size) :
    let id := exchange.target.account
    Ends transfer exchange
      (fun _ after =>
        after.ledger.allocated = rest + after.source.charge + after.target.charge ∧
        after.ledger.InRange ∧ after.source.Owns ∧ after.target.Owns ∧
        (exchange.ledger.allocated id ≤ exchange.ledger.peaks id →
          after.ledger.Peaked id (exchange.ledger.peaks id)))
      (fun _ _ => False) := by
  intro id
  refine ends_transfer fun notice => (clear_leaves exchange charged inRange owns room notice).mono_total ?_
  rintro _ cleared ⟨emptied, held, words, still, peaks⟩
  have home : (cleared.column.holding exchange.source).account = id := by
    rw [emptied]
    rfl
  refine (Edit.chargeBlocks_balances ⟨cleared.column.holding exchange.source, cleared.ledger⟩ held
    words still).mono_total ?_
  rintro _ last ⟨settled, raised⟩
  have bare : Session.Balanced (rest + last.column.charge) ⟨exchange.source.bare, last.ledger⟩ := by
    refine ⟨?_, settled.inRange, ⟨rfl, rfl⟩⟩
    rw [settled.charged, Column.charge_bare, add_zero]
  refine ((Edit.clear_ends _).and ((Edit.clear_balances _ bare).and (Edit.clear_peaks _))).mono ?_
    fun _ _ held => held.2.1
  rintro _ after ⟨gone, final, unraised⟩
  refine ⟨?_, final.inRange, final.owns, ⟨settled.owns.values, settled.owns.validity⟩, ?_⟩
  · rw [final.charged, add_right_comm]
    rfl
  · intro steady
    have less : cleared.ledger.allocated id ≤ exchange.ledger.allocated id := by
      rw [held, charged]
      exact Nat.le_add_right _ _
    have first : cleared.ledger.Peaked id (exchange.ledger.peaks id) := by
      rw [Ledger.Peaked, max_eq_left (less.trans steady)]
      exact congrFun peaks id
    have second : last.ledger.Peaked id (exchange.ledger.peaks id) :=
      home ▸ raised _ (home.symm ▸ first)
    have same : after.ledger.allocated = last.ledger.allocated := by
      rw [final.charged, gone, Column.charge_emptied, add_zero, settled.charged]
    rw [Ledger.Peaked, unraised, same]
    exact second

end Exchange

end Columnar
