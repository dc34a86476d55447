import Columnar.Proofs.Column.Slotwise
import Columnar.Proofs.Store.Splitting

namespace Columnar

open Columnar.Action

variable {n : Nat} {kind : Kind}

namespace Store

variable {store rest : Store n} {source target : String} {commands : List (Command n)}
variable {start length : Nat}

def Succeeds (store : Store n) (command : Command n) : Prop := command.fault? store = none

instance (store : Store n) (command : Command n) : Decidable (store.Succeeds command) :=
  inferInstanceAs (Decidable (_ = _))

/-- The stores differ in their notices at most. -/
structure Alike (store other : Store n) : Prop where
  columns : other.columns = store.columns
  blocks : other.blocks = store.blocks
  accounts : other.ledger.accounts = store.ledger.accounts

theorem alike_of_session {session other : Session n kind} (alike : session.Alike other) :
    (rest.withSession target session).Alike (rest.withSession target other) where
  columns := by
    rw [withSession, withSession, withColumn, withColumn, alike.same]
  blocks := rfl
  accounts := alike.ledger

/-! ### Single commands -/

theorem withSession_again (rest : Store n) (target : String) (session later : Session n kind) :
    ((rest.withSession target session).withoutColumn target).withSession target later =
      rest.withSession target later := by
  simp only [withSession, withColumn, withoutColumn, Table.without_put]

/-- The command runs the edit on the column, and puts the column back whatever happens. -/
def Edits (store : Store n) (target : String) (column : Column n kind) (edit : Edit n kind Unit)
    (command : Command n) : Prop :=
  ∀ (post : Store n → Prop) (stop : Fault → Store n → Prop),
    Ends edit ⟨column, store.ledger⟩
      (fun _ session => post ((store.withoutColumn target).withSession target session))
      (fun failure session =>
        stop (.failed failure) ((store.withoutColumn target).withSession target session)) →
    Ends command.run store (fun _ => post) stop

section

variable {column : Column n kind} {edit : Edit n kind Unit} {command : Command n}

theorem Edits.after (edits : store.Edits target column edit command) {later : Session n kind}
    (ran : edit ⟨column, store.ledger⟩ = .ok () later) :
    store.Succeeds command ∧
      store.after command = (store.withoutColumn target).withSession target later := by
  exact after_of_total (edits (fun after => after = (store.withoutColumn target).withSession target later)
    (fun _ _ => False) (by rw [Ends, ran]))

theorem Edits.after_error (edits : store.Edits target column edit command) {failure : Failure}
    {stopped : Session n kind} (ran : edit ⟨column, store.ledger⟩ = .error failure stopped) :
    command.fault? store = some (.failed failure) ∧
      store.after command = (store.withoutColumn target).withSession target stopped := by
  have ends := edits (fun _ => False)
    (fun fault after => fault = .failed failure ∧
      after = (store.withoutColumn target).withSession target stopped)
    (by
      rw [Ends, ran]
      exact ⟨rfl, rfl⟩)
  rcases after_of_ends ends with ⟨_, never⟩ | ⟨fault, stops, rfl, same⟩
  · exact never.elim
  · exact ⟨stops, same⟩

theorem edits_edit (found : store.columns.find? target = some ⟨kind, column⟩) (call : Call kind) :
    store.Edits target column call.edit (.edit target kind call) :=
  fun _ _ edited => ends_bind.mpr (ends_editColumn_of_found found edited)

variable {other : Column n kind}

theorem edits_split (apart : target ≠ source)
    (read : store.columns.find? source = some ⟨kind, other⟩)
    (held : store.columns.find? target = some ⟨kind, column⟩) (start length : Nat) :
    store.Edits target column (Edit.split other start length) (.split source target start length) :=
  fun _ _ edited => ends_bind.mpr (ends_editBeside_of_found apart read held edited)

theorem edits_copy (apart : target ≠ source)
    (read : store.columns.find? source = some ⟨kind, other⟩)
    (held : store.columns.find? target = some ⟨kind, column⟩) (sourceIndex targetIndex : Nat) :
    store.Edits target column (Edit.copyFrom other sourceIndex targetIndex)
      (.copy target source false sourceIndex targetIndex) :=
  fun _ _ edited => ends_bind.mpr (ends_editBeside_of_found apart read held edited)

theorem edits_copySafe (apart : target ≠ source)
    (read : store.columns.find? source = some ⟨kind, other⟩)
    (held : store.columns.find? target = some ⟨kind, column⟩) (sourceIndex targetIndex : Nat) :
    store.Edits target column (Edit.copyFromSafe other sourceIndex targetIndex)
      (.copy target source true sourceIndex targetIndex) :=
  fun _ _ edited => ends_bind.mpr (ends_editBeside_of_found apart read held edited)

end

/-! ### A range slot by slot -/

/-- The commands that copy the slots of a range one after another. -/
def copies (source target : String) (start length : Nat) : List (Command n) :=
  (List.range length).map fun index => .copy target source false (start + index) index

/-- The commands that copy a range slot by slot into new memory. -/
def slotwise (source target : String) (kind : Kind) (start length : Nat) : List (Command n) :=
  .edit target kind (.allocate length) ::
    (copies source target start length ++ [.edit target kind (.setValueCount length)])

theorem copies_fill {other : Column n kind} {fresh : Session n kind} (apart : target ≠ source)
    (read : rest.columns.find? source = some ⟨kind, other⟩)
    (blank : ∀ index, fresh.column.bit index = false) {count : Nat}
    (inside : start + count ≤ other.capacity) (fits : count ≤ fresh.column.capacity) :
    ∃ column : Column n kind, column.Filled fresh.column other start count ∧
      (rest.withSession target fresh).Along Succeeds (copies source target start count) ∧
      (rest.withSession target fresh).runAll (copies source target start count) =
        rest.withSession target ⟨column, fresh.ledger⟩ := by
  induction count with
  | zero => exact ⟨fresh.column, Column.filled_zero blank, trivial, rfl⟩
  | succ count ih =>
    obtain ⟨column, filled, along, reached⟩ := ih (by omega) (by omega)
    have last : copies (n := n) source target start (count + 1) =
        copies source target start count ++ [.copy target source false (start + count) count] := by
      rw [copies, List.range_succ, List.map_append]
      rfl
    have held : start + count < other.capacity := by omega
    obtain ⟨run, found⟩ := Option.isSome_iff_exists.mp (Column.bytes?_isSome held)
    have room : count < column.capacity := by
      rw [filled.capacity]
      omega
    let before := rest.withSession target ⟨column, fresh.ledger⟩
    have there : before.columns.find? source = some ⟨kind, other⟩ := by
      rw [← read]
      exact (Table.find?_put _ _ _ _).trans (if_neg apart.symm)
    obtain ⟨succeeds, after⟩ := (edits_copy apart there (find?_withSession_self rest target _) _ _).after
      (Edit.copyFrom_eq held room found)
    refine ⟨_, filled.next (by omega) found, ?_, ?_⟩
    · rw [last]
      exact along_append along ⟨reached ▸ succeeds, trivial⟩
    · rw [last, runAll_append, reached]
      exact after.trans (withSession_again rest target _ _)

/-- Where new memory is to be had, the range is copied slot by slot into it, and every step succeeds. -/
theorem slotwise_fills {other column : Column n kind} {fresh : Session n kind} (apart : target ≠ source)
    (read : store.columns.find? source = some ⟨kind, other⟩)
    (held : store.columns.find? target = some ⟨kind, column⟩)
    (inside : start + length ≤ other.capacity)
    (allocated : Edit.allocate length ⟨column, store.ledger⟩ = .ok () fresh) :
    ∃ filled : Column n kind, filled.Filled fresh.column other start length ∧
      store.Along Succeeds (slotwise source target kind start length) ∧
      store.runAll (slotwise source target kind start length) =
        (store.withoutColumn target).withSession target
          (⟨{ filled with count := length }, fresh.ledger⟩ : Session n kind) := by
  have renewed : fresh.column = column.renewed length :=
    (Edit.allocate_ends ⟨column, store.ledger⟩ length).of_ok allocated
  have fits : length ≤ fresh.column.capacity := renewed ▸ column.le_capacity_renewed length
  have others : (store.withoutColumn target).columns.find? source = some ⟨kind, other⟩ :=
    (Table.find?_without_of_ne _ apart.symm).trans read
  obtain ⟨taken, after⟩ := (edits_edit held (.allocate length)).after allocated
  obtain ⟨filled, fill, copied, reached⟩ :=
    copies_fill apart others (fun index => renewed ▸ column.bit_renewed length index) inside fits
  have counted : Edit.setValueCount length ⟨filled, fresh.ledger⟩ =
      .ok () ⟨{ filled with count := length }, fresh.ledger⟩ :=
    bind_ok.mpr ⟨(), _, Edit.reserve_of_le (fits.trans_eq fill.capacity.symm), rfl⟩
  have placed := find?_withSession_self (store.withoutColumn target) target
    (⟨filled, fresh.ledger⟩ : Session n kind)
  obtain ⟨set, last⟩ := (edits_edit placed (.setValueCount length)).after counted
  refine ⟨filled, fill, ?_, ?_⟩
  · refine ⟨taken, ?_⟩
    rw [after]
    exact along_append copied ⟨reached ▸ set, trivial⟩
  · change (store.after _).runAll _ = _
    rw [after, runAll_append, reached]
    exact last.trans (withSession_again _ _ _ _)

/-- A split of a range does what it would do to take new memory, copy the slots one by one and set the count.
Where the memory is not to be had, it stops as the request does. -/
theorem slotwise_runAll (limits : Vector Nat n) (commands : List (Command n))
    {other column : Column n kind} (apart : target ≠ source)
    (read : ((ofLimits limits).runAll commands).columns.find? source = some ⟨kind, other⟩)
    (held : ((ofLimits limits).runAll commands).columns.find? target = some ⟨kind, column⟩)
    (inside : start + length ≤ other.capacity) :
    let store := (ofLimits limits).runAll commands
    let split : Command n := .split source target start length
    let taken : Command n := .edit target kind (.allocate length)
    (taken.fault? store = none →
        split.fault? store = none ∧
          store.Along Succeeds (slotwise source target kind start length) ∧
          (store.after split).Alike (store.runAll (slotwise source target kind start length))) ∧
      ∀ fault, taken.fault? store = some fault →
        split.fault? store = some fault ∧ (store.after split).Alike (store.after taken) := by
  intro store split taken
  have bounded := ((boundedColumns.runAll limits commands).of_find? read).capacity_lt
  cases ran : Edit.allocate length ⟨column, store.ledger⟩ with
  | ok _ fresh =>
    have accepted := ((edits_edit held (.allocate length)).after ran).1
    obtain ⟨whole, ledger, bulk, filled, alike⟩ := Edit.split_eq inside bounded ran
    obtain ⟨slots, fill, along, reached⟩ := slotwise_fills apart read held inside ran
    obtain ⟨succeeds, after⟩ := (edits_split apart read held start length).after bulk
    refine ⟨fun _ => ⟨succeeds, along, ?_⟩, ?_⟩
    · rw [after, reached, filled.unique fill]
      have same : (⟨{ slots with count := length }, ledger⟩ : Session n kind).Alike
          ⟨{ slots with count := length }, fresh.ledger⟩ :=
        Session.alike_of_same rfl (Eq.symm alike)
      exact alike_of_session same
    · intro fault refused
      rw [accepted] at refused
      cases refused
  | error failure stopped =>
    obtain ⟨refused, left⟩ := (edits_edit held (.allocate length)).after_error ran
    obtain ⟨last, bulk, alike⟩ := Edit.split_stops inside bounded ran
    obtain ⟨stops, after⟩ := (edits_split apart read held start length).after_error bulk
    constructor
    · intro accepted
      rw [refused] at accepted
      cases accepted
    · intro fault same
      rw [refused] at same
      cases same
      refine ⟨stops, ?_⟩
      rw [after, left]
      exact alike_of_session (Session.Alike.symm alike)

theorem slotwise_runAll_pairing :
    let store := (ofLimits #v[100]).runAll pairing
    store.Along Succeeds (slotwise "x" "y" .uint16 2 3) ∧
      (store.after (.split "x" "y" 2 3)).Alike (store.runAll (slotwise "x" "y" .uint16 2 3)) := by
  have accepted : (Command.edit "y" .uint16 (.allocate 3)).fault? ((ofLimits #v[100]).runAll pairing) =
      none := by
    decide +kernel
  exact ((slotwise_runAll #v[100] pairing (by decide) find?_pairing_source find?_pairing_target
    (by decide +kernel)).1 accepted).2

end Store

end Columnar
