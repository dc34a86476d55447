import Columnar.Proofs.Column.Reports
import Columnar.Proofs.Store.Frame
import Columnar.Proofs.Store.Picture
import Columnar.Proofs.Store.Splitting

namespace Columnar

open Columnar.Action

variable {n : Nat} {kind : Kind} {name : String}

/-- The command grows the column of that name and then writes to it. -/
inductive Command.GrowsInto (name : String) : Command n → Prop where
  | edit (kind : Kind) (call : Call kind) (grows : call.GrowsFirst) :
    GrowsInto name (.edit name kind call)
  | copy (source : String) (sourceIndex targetIndex : Nat) :
    GrowsInto name (.copy name source true sourceIndex targetIndex)

theorem Command.GrowsInto.targets {command : Command n} (grows : command.GrowsInto name) :
    command.targets = [name] := by
  cases grows <;> rfl

namespace Store

variable {store : Store n} {command : Command n}

/-- Where the fault is an error, all blocks are as they were and the column has grown at most; where an
argument was refused not even that. -/
def Spared (store : Store n) (name : String) (column : Column n kind) (fault : Fault)
    (after : Store n) : Prop :=
  ∀ cause, fault = .failed (.error cause) →
    after.blocks = store.blocks ∧ ∃ later : Column n kind,
      after.columns.find? name = some ⟨kind, later⟩ ∧ column.Grown later ∧
      (cause.category = .invalidArgument → later = column ∧ after.ledger = store.ledger)

theorem spared_of_losesNothing {column : Column n kind} {edit : Edit n kind Unit}
    (losesNothing : Edit.LosesNothing edit) :
    Ends edit ⟨column, store.ledger⟩ (fun _ _ => True) (fun failure session =>
      store.Spared name column (.failed failure)
        ((store.withoutColumn name).withSession name session)) := by
  refine (losesNothing ⟨column, store.ledger⟩).mono_stop ?_
  intro failure session lost cause reported
  obtain ⟨grown, refused⟩ := lost cause (Fault.failed.inj reported)
  refine ⟨rfl, session.column, find?_withSession_self _ name session, grown, ?_⟩
  intro argument
  rw [refused argument]
  exact ⟨rfl, rfl⟩

theorem putColumn_stops (name : String) (entry : Entry n) (store : Store n) :
    Ends (putColumn name entry) store (fun _ _ => True) (fun fault _ => fault = .failed .overdrawn) := by
  refine ends_putColumn (fun _ => trivial) fun old _ => ?_
  refine (old.column.release_stops store.ledger).mono_stop ?_
  rintro failure _ rfl
  rfl

theorem putColumn_spared {column : Column n kind} (entry : Entry n) (between : Store n) :
    Ends (putColumn name entry) between (fun _ after => store.Spared name column .kindMismatch after)
      (store.Spared name column) := by
  refine (putColumn_stops name entry between).mono ?_ ?_
  · intro _ _ _ cause reported
    cases reported
  · rintro _ _ rfl cause reported
    cases reported

/-- A write that grows its column first spares it where it reports an error. -/
theorem run_spared {column : Column n kind} (grows : command.GrowsInto name)
    (found : store.columns.find? name = some ⟨kind, column⟩) :
    Ends command.run store (fun _ _ => True) (store.Spared name column) := by
  cases grows with
  | edit own call grows =>
    refine ends_bind.mpr (ends_editColumn ?_ ?_ ?_)
    · intro _ cause reported
      cases reported
    · exact fun entry _ _ => putColumn_spared entry _
    · intro other held
      rw [found] at held
      cases held
      exact spared_of_losesNothing (Call.losesNothing grows)
  | copy source sourceIndex targetIndex =>
    refine ends_bind.mpr (ends_editBeside ?_ ?_ ?_)
    · intro _ _ _ cause reported
      cases reported
    · exact fun _ entry _ _ _ => putColumn_spared entry _
    · intro own other column _ _ held
      rw [found] at held
      cases held
      exact spared_of_losesNothing (Edit.copyFromSafe_losesNothing other sourceIndex targetIndex)

/-- Without an overdraft a write that grows its column first and reports an error loses no slot, and adds
null slots only. All other columns and blocks are untouched. -/
theorem refused_runAll (limits : Vector Nat n) (commands : List (Command n))
    (solvent : (ofLimits limits).Along Solvent commands) {column : Column n kind}
    (found : ((ofLimits limits).runAll commands).columns.find? name = some ⟨kind, column⟩)
    (grows : command.GrowsInto name) {cause : Error}
    (refused : command.fault? ((ofLimits limits).runAll commands) = some (.failed (.error cause))) :
    let store := (ofLimits limits).runAll commands
    let after := store.after command
    (∀ other, other ≠ name → after.columns.find? other = store.columns.find? other) ∧
      after.blocks = store.blocks ∧
      ∃ later : Column n kind, after.columns.find? name = some ⟨kind, later⟩ ∧
        column.Preserved later ∧
        (cause.category = .invalidArgument → later = column ∧ after.ledger = store.ledger) := by
  intro store after
  have others (other : String) (apart : other ≠ name) :
      after.columns.find? other = store.columns.find? other := by
    apply Command.find?_after
    rw [grows.targets]
    exact fun member => apart (List.mem_singleton.mp member)
  rcases after_of_ends (run_spared grows found) with ⟨well, _⟩ | ⟨fault, stopped, spared⟩
  · rw [refused] at well
    cases well
  · rw [refused] at stopped
    obtain ⟨blocks, later, held, grown, argument⟩ := spared cause (Option.some.inj stopped).symm
    exact ⟨others, blocks, later, held, (soundColumn solvent found).preserved grown, argument⟩

/-- A run that makes a column and writes to it. -/
def cramped (account : Fin n) : List (Command n) :=
  making account 8 ++ [.edit "x" .uint8 (.setSafe 0 5)]

theorem refused_runAll_cramped :
    let store := (ofLimits #v[64]).runAll (cramped 0)
    ∃ later : Column 1 .uint8,
      (store.after (.edit "x" .uint8 (.setSafe 200 7))).columns.find? "x" = some ⟨.uint8, later⟩ ∧
        later.bytes? 0 = some [5] ∧ later.get? 20 = none := by
  have found : ((ofLimits #v[64]).runAll (cramped 0)).columns.find? "x" =
      some ⟨.uint8, (((Column.empty "x" 0 { initialCapacity := 8 } : Column 1 .uint8).doubled).withBytes
        0 [5]).withValid 0 true⟩ := by
    cbv
  have refused : (Command.edit "x" .uint8 (.setSafe 200 7)).fault? ((ofLimits #v[64]).runAll (cramped 0)) =
      some (.failed (.error (.capacityExhausted 64 64))) := by
    decide +kernel
  obtain ⟨_, _, later, held, kept, _⟩ := refused_runAll #v[64] (cramped 0) (by decide +kernel) found
    (.edit .uint8 (.setSafe 200 7) rfl) refused
  refine ⟨later, held, (kept.bytes 0 ?_).trans ?_, kept.fresh 20 ?_⟩ <;> decide +kernel

/-- After an overdraft a refused write adds slots that are not null. -/
theorem refused_runAll_overdraft :
    ¬ ∀ (limits : Vector Nat 2) (commands : List (Command 2)) (name : String) (kind : Kind)
        (call : Call kind) (cause : Error) (index : Nat),
      let store := (ofLimits limits).runAll commands
      let command := Command.edit name kind call
      call.GrowsFirst → command.fault? store = some (.failed (.error cause)) →
        ∀ before ∈ store.columns.entries, ∀ later ∈ (store.after command).columns.entries,
          later.1 = before.1 → before.2.column.capacity ≤ index →
            later.2.column.isNull index = true := by
  intro always
  have null := always #v[Word.max, Word.max]
    (overdraft ++ [.edit "x" .uint8 (.setInitialCapacity 4)]) "x" .uint8 (.setSafe 100 5)
    (.capacityExhausted 32 Word.max) 1 rfl (by decide +kernel)
  revert null
  decide +kernel

end Store

end Columnar
