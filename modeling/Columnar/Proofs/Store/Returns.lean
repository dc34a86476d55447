import Columnar.Proofs.Store.Accounts

namespace Columnar

open Columnar.Action

variable {n : Nat}

/-- The command gives memory back and takes none. -/
def Command.GivesBack : Command n → Prop
  | drop _ | dropBlock _ | edit _ _ .clear => True
  | _ => False

namespace Store

variable {store : Store n} {command : Command n} {ending rest : List (Command n)}

/-- Among the commands is one to drop or clear each column, and one to drop each block, that has memory. -/
structure CoveredBy (ending : List (Command n)) (store : Store n) : Prop where
  columns : ∀ {name entry}, store.columns.find? name = some entry →
    entry.column.values.size = 0 ∧ entry.column.validity.size = 0 ∨
      .drop name ∈ ending ∨ .edit name entry.kind .clear ∈ ending
  blocks : ∀ {name block}, store.blocks.find? name = some block →
    block.size = 0 ∨ .dropBlock name ∈ ending

/-- What the first command does not name is left to the others. -/
theorem CoveredBy.tail (covered : store.CoveredBy (command :: rest)) {after : Store n}
    (columns : ∀ {name entry}, after.columns.find? name = some entry →
      entry.column.values.size = 0 ∧ entry.column.validity.size = 0 ∨
        store.columns.find? name = some entry ∧ .drop name ≠ command ∧
          .edit name entry.kind .clear ≠ command)
    (blocks : ∀ {name block}, after.blocks.find? name = some block →
      store.blocks.find? name = some block ∧ .dropBlock name ≠ command) : after.CoveredBy rest where
  columns {name entry} found := by
    rcases columns found with none | ⟨before, kept, uncleared⟩
    · exact .inl none
    · refine (covered.columns before).imp_right fun named => named.imp ?_ ?_
      · exact fun member => (List.mem_cons.mp member).resolve_left kept
      · exact fun member => (List.mem_cons.mp member).resolve_left uncleared
  blocks {name block} found := by
    obtain ⟨before, kept⟩ := blocks found
    exact (covered.blocks before).imp_right fun member => (List.mem_cons.mp member).resolve_left kept

/-- The accounts are exact, and what has memory is still to be given back. -/
structure Emptying (ending : List (Command n)) (store : Store n) : Prop where
  balanced : store.Balanced 0
  distinct : store.columns.Distinct
  covered : store.CoveredBy ending

namespace Emptying

variable {name : String}

theorem drop (emptying : store.Emptying (.drop name :: rest)) :
    Ends (Command.drop name).run store (fun _ after => after.Emptying rest)
      (fun fault after => fault ≠ .failed .overdrawn ∧ after.Emptying rest) := by
  refine ends_bind.mpr (ends_dropColumn (fun missing => ⟨by simp, ?_⟩) fun entry found => ?_)
  · refine ⟨emptying.balanced, emptying.distinct, emptying.covered.tail (fun {other entry} held => ?_) ?_⟩
    · refine .inr ⟨held, ?_, by simp⟩
      rintro ⟨⟩
      cases missing.symm.trans held
    · exact fun held => ⟨held, by simp⟩
  · refine (emptying.balanced.dropped found).mono_total ?_
    intro _ ledger balanced
    refine ⟨balanced, emptying.distinct.without name,
      emptying.covered.tail (fun {other entry} held => ?_) fun held => ⟨held, by simp⟩⟩
    obtain ⟨apart, before⟩ := emptying.distinct.find?_of_without held
    exact .inr ⟨before, fun same => apart (Command.drop.inj same), by simp⟩

theorem dropBlock (emptying : store.Emptying (.dropBlock name :: rest)) :
    Ends (Command.dropBlock name).run store (fun _ after => after.Emptying rest)
      (fun fault after => fault ≠ .failed .overdrawn ∧ after.Emptying rest) := by
  refine ends_bind.mpr (ends_dropBlock (fun missing => ⟨by simp, ?_⟩) fun block found => ?_)
  · refine ⟨emptying.balanced, emptying.distinct,
      emptying.covered.tail (fun held => .inr ⟨held, by simp, by simp⟩) fun held => ⟨held, ?_⟩⟩
    rintro ⟨⟩
    cases missing.symm.trans held
  · refine (emptying.balanced.droppedBlock found).mono_total ?_
    intro _ ledger balanced
    refine ⟨balanced, emptying.distinct,
      emptying.covered.tail (fun held => .inr ⟨held, by simp, by simp⟩) fun held => ?_⟩
    obtain ⟨apart, before⟩ := emptying.balanced.distinct.find?_of_without held
    exact ⟨before, fun same => apart (Command.dropBlock.inj same)⟩

/-- A column that is put back either has no memory left or is not what the clearing names. -/
theorem putBack {kind : Kind} (emptying : store.Emptying (.edit name kind .clear :: rest)) {after : Store n}
    {entry : Entry n} (balanced : after.Balanced 0)
    (columns : after.columns = (store.columns.without name).put name entry)
    (blocks : after.blocks = store.blocks)
    (settled : entry.column.values.size = 0 ∧ entry.column.validity.size = 0 ∨
      store.columns.find? name = some entry ∧ entry.kind ≠ kind) : after.Emptying rest := by
  refine ⟨balanced, ?_, emptying.covered.tail (fun {other held} found => ?_) fun held => ?_⟩
  · rw [columns]
    exact (emptying.distinct.without name).put (emptying.distinct.find?_self name) entry
  · rw [columns, Table.find?_put] at found
    split at found
    · rename_i same
      cases found
      refine settled.imp_right fun ⟨before, different⟩ => ⟨same ▸ before, by simp, ?_⟩
      rintro ⟨⟩
      exact different rfl
    · obtain ⟨apart, before⟩ := emptying.distinct.find?_of_without found
      refine .inr ⟨before, by simp, ?_⟩
      rintro ⟨⟩
      exact apart rfl
  · rw [blocks] at held
    exact ⟨held, by simp⟩

theorem clear {kind : Kind} (emptying : store.Emptying (.edit name kind .clear :: rest)) :
    Ends (Command.edit name kind .clear).run store (fun _ after => after.Emptying rest)
      (fun fault after => fault ≠ .failed .overdrawn ∧ after.Emptying rest) := by
  refine ends_bind.mpr (ends_editColumn (fun missing => ⟨by simp, ?_⟩) (fun entry found different => ?_)
    fun column found => ?_)
  · refine ⟨emptying.balanced, emptying.distinct,
      emptying.covered.tail (fun held => .inr ⟨held, by simp, ?_⟩) fun held => ⟨held, by simp⟩⟩
    rintro ⟨⟩
    cases missing.symm.trans held
  · have owns := emptying.balanced.owns.of_find? found
    have balanced := (emptying.balanced.withoutColumn found).withColumn owns name
    exact ends_putColumn_of_free (emptying.distinct.find?_self name)
      ⟨by simp, emptying.putBack balanced rfl rfl (.inr ⟨found, different⟩)⟩
  · have edited := emptying.balanced.edited found (Edit.balancedInvariant.edits.call .clear)
    refine (edited.and (Edit.clear_ends _)).mono ?_ ?_
    · rintro _ session ⟨balanced, emptied⟩
      exact emptying.putBack balanced rfl rfl (.inl (by rw [emptied]; exact ⟨rfl, rfl⟩))
    · rintro _ session ⟨⟨fine, _⟩, rfl⟩
      exact absurd rfl fine

theorem after (emptying : store.Emptying (command :: rest)) (gives : command.GivesBack) :
    (store.after command).Emptying rest ∧ store.Solvent command := by
  have ends : Ends command.run store (fun _ after => after.Emptying rest)
      (fun fault after => fault ≠ .failed .overdrawn ∧ after.Emptying rest) := by
    unfold Command.GivesBack at gives
    split at gives
    · exact emptying.drop
    · exact emptying.dropBlock
    · exact emptying.clear
    · exact gives.elim
  exact ⟨holds_after (ends.mono_stop fun _ _ => And.right), solvent_of_ends ends And.left⟩

theorem runAll (emptying : store.Emptying ending) (gives : ∀ command ∈ ending, command.GivesBack) :
    (store.runAll ending).Emptying [] ∧ store.Along Solvent ending := by
  induction ending generalizing store with
  | nil => exact ⟨emptying, trivial⟩
  | cons command rest ih =>
    obtain ⟨first, others⟩ := List.forall_mem_cons.mp gives
    obtain ⟨kept, solvent⟩ := emptying.after first
    obtain ⟨last, along⟩ := ih kept others
    exact ⟨last, solvent, along⟩

/-- Once nothing is left to be given back, no block has memory. -/
theorem size_eq_zero (emptying : store.Emptying []) : ∀ block ∈ store.live, block.size = 0 := by
  intro block member
  rcases List.mem_append.mp member with column | alone
  · obtain ⟨⟨name, entry⟩, held, either⟩ := List.mem_flatMap.mp column
    have none := emptying.covered.columns (emptying.distinct.find?_of_mem held)
    simp only [List.not_mem_nil, or_false] at none
    rcases List.mem_pair.mp either with rfl | rfl
    · exact none.1
    · exact none.2
  · obtain ⟨⟨name, _⟩, held, rfl⟩ := List.mem_map.mp alone
    have none := emptying.covered.blocks (emptying.balanced.distinct.find?_of_mem held)
    simpa using none

end Emptying

/-- Every account is charged exactly the live blocks that name it, and none is ever overdrawn. So nothing is
charged once every column was dropped or cleared and every block dropped. -/
theorem accounts_runAll (limits : Vector Nat n) (commands : List (Command n))
    (fits : (ofLimits limits).Along Fits commands) :
    let store := (ofLimits limits).runAll commands
    (∀ id, (store.ledger.account id).allocated = store.chargedTo id) ∧
      (∀ pair ∈ store.columns.entries,
        pair.2.column.values.account = pair.2.column.account ∧
          pair.2.column.validity.account = pair.2.column.account) ∧
      (ofLimits limits).Along Solvent commands ∧
      ((∀ block ∈ store.live, block.size = 0) → ∀ id, (store.ledger.account id).allocated = 0) ∧
      ∀ ending : List (Command n), (∀ command ∈ ending, command.GivesBack) → store.CoveredBy ending →
        store.Along Solvent ending ∧ (∀ block ∈ (store.runAll ending).live, block.size = 0) ∧
          ∀ id, ((store.runAll ending).ledger.account id).allocated = 0 := by
  intro store
  have orderly : store.Orderly := orderly_runAll fits
  refine ⟨orderly.balanced.allocated_eq, ?_, ?_, orderly.balanced.allocated_eq_zero, ?_⟩
  · intro pair member
    exact ⟨(orderly.balanced.owns pair member).values, (orderly.balanced.owns pair member).validity⟩
  · exact along_of_keeps (fun _ _ balanced fits => balanced.after fits) (balanced_ofLimits limits) fits
  · intro ending gives covered
    obtain ⟨last, solvent⟩ := Emptying.runAll ⟨orderly.balanced, orderly.distinct, covered⟩ gives
    exact ⟨solvent, last.size_eq_zero, last.balanced.allocated_eq_zero last.size_eq_zero⟩

/-- A run that makes two columns, of which one has been handed over, and a block, each with memory. -/
def settling (first second : Fin n) : List (Command n) :=
  [.create "x" .uint16 "x" none first {}, .create "y" .uint16 "y" none second {},
    .edit "x" .uint16 (.allocate 8), .transfer "x" "y", .edit "x" .uint16 (.allocate 8),
    .allocateBlock "b" first 8]

theorem accounts_runAll_settling :
    let store := (ofLimits #v[56, 8]).runAll (settling 0 1)
    let ending : List (Command 2) := [.edit "x" .uint16 .clear, .drop "y", .dropBlock "b"]
    (∀ id, (store.ledger.account id).allocated = store.chargedTo id) ∧ store.chargedTo 0 = 48 ∧
      store.chargedTo 1 = 32 ∧ store.Along (fun store command => command.fault? store = none) ending ∧
      ∀ id, ((store.runAll ending).ledger.account id).allocated = 0 := by
  intro store ending
  obtain ⟨charged, _, _, _, ends⟩ := accounts_runAll #v[56, 8] (settling 0 1) (by decide +kernel)
  have columns : store.columns.entries.map (fun pair => (pair.1, pair.2.kind)) =
      [("x", .uint16), ("y", .uint16)] := by
    decide +kernel
  have blocks : store.blocks.names = ["b"] := by decide +kernel
  have covered : store.CoveredBy ending := by
    constructor
    · intro name entry found
      have member := List.mem_map_of_mem (f := fun pair => (pair.1, pair.2.kind)) (Table.mem_of_find? found)
      rw [columns, List.mem_pair, Prod.ext_iff, Prod.ext_iff] at member
      rcases member with ⟨rfl, same⟩ | ⟨rfl, _⟩
      · refine .inr (.inr ?_)
        rw [show entry.kind = .uint16 from same]
        exact List.mem_cons_self
      · exact .inr (.inl (by simp [ending]))
    · intro name block found
      have member := List.mem_map_of_mem (f := Prod.fst) (Table.mem_of_find? found)
      rw [← Table.names, blocks, List.mem_singleton] at member
      exact .inr (by simp [ending, show name = "b" from member])
  have gives : ∀ command ∈ ending, command.GivesBack := by simp [ending, Command.GivesBack]
  exact ⟨charged, by decide +kernel, by decide +kernel, by decide +kernel, (ends ending gives covered).2.2⟩

end Store

end Columnar
