import Columnar.Proofs.Column.Volume
import Columnar.Proofs.Store.Frame
import Columnar.Proofs.Store.Handover
import Columnar.Proofs.Store.Splitting

namespace Columnar

open Columnar.Action

variable {n : Nat} {kind : Kind} {name : String} {slots volume : Nat}

/-- The command leaves the column of that name alone, or writes to it below a bound, sets its count to
no more, empties it, or transfers it to another one. -/
inductive Command.StaysBelow (name : String) (kind : Kind) (slots : Nat) : Command n → Prop where
  | free {command : Command n} (free : name ∉ command.targets) : StaysBelow name kind slots command
  | edit {call : Call kind} (below : call.StaysBelow slots) :
    StaysBelow name kind slots (.edit name kind call)
  | copy (source : String) (sourceIndex : Nat) {targetIndex : Nat} (less : targetIndex < slots) :
    StaysBelow name kind slots (.copy name source true sourceIndex targetIndex)
  | transfer {target : String} (apart : name ≠ target) :
    StaysBelow name kind slots (.transfer name target)

namespace Store

def capacityOf (store : Store n) (name : String) : Nat :=
  ((store.columns.find? name).map fun entry => entry.column.capacity).getD 0

/-- How often a run leaves a column without the slots that it had. -/
def emptyings (name : String) : Store n → List (Command n) → Nat
  | _, [] => 0
  | store, command :: rest =>
    (if 0 < store.capacityOf name ∧ (store.after command).capacityOf name = 0 then 1 else 0) +
      emptyings name (store.after command) rest

variable {store : Store n} {command : Command n} {column : Column n kind}

theorem capacityOf_of_found (found : store.columns.find? name = some ⟨kind, column⟩) :
    store.capacityOf name = column.capacity := by
  rw [capacityOf, found]
  rfl

/-- The column is still there and keeps within the volume, or within twice of it where it lost its
slots. -/
def Keeping (name : String) (column : Column n kind) (volume : Nat) (after : Store n) : Prop :=
  ∃ later : Column n kind, after.Has name (some ⟨kind, later⟩) ∧
    later.Within (if 0 < column.capacity ∧ later.capacity = 0 then 2 * volume else volume)

theorem keeping_of_within {later : Column n kind} (has : store.Has name (some ⟨kind, later⟩))
    (within : later.Within volume) : store.Keeping name column volume := by
  refine ⟨later, has, within.mono ?_⟩
  split <;> omega

theorem keeping_of_vacated (within : column.Within volume) {later : Column n kind}
    (has : store.Has name (some ⟨kind, later⟩)) (vacated : column.Vacated later) :
    store.Keeping name column volume :=
  ⟨later, has, within.vacated vacated⟩

theorem putColumn_has (name : String) (entry : Entry n) : Ends (putColumn name entry) store
    (fun _ after => after.Has name (some entry)) (fun _ after => after.Has name (some entry)) := by
  have placed (store : Store n) : (store.withColumn name entry).Has name (some entry) := by
    rw [Has, withColumn, Table.find?_put, if_pos rfl]
  refine ends_putColumn (fun _ => placed store) fun old _ => ?_
  exact ends_of (fun _ _ _ => placed (store.withoutColumn name))
    fun _ _ _ => placed (store.withoutColumn name)

theorem editBeside_has {source : String} {edit : (kind : Kind) → Column n kind → Edit n kind Unit}
    {inv : Store n → Prop} (found : store.columns.find? name = some ⟨kind, column⟩)
    (back : ∀ after : Store n, after.Has name (some ⟨kind, column⟩) → inv after)
    (edited : ∀ other : Column n kind, Ends (edit kind other) ⟨column, store.ledger⟩
      (fun _ session => inv ((store.withoutColumn name).withSession name session))
      (fun _ session => inv ((store.withoutColumn name).withSession name session))) :
    Ends (editBeside name source edit) store (fun _ => inv) (fun _ => inv) := by
  refine ends_editBeside (fun _ _ _ => back store found) ?_ ?_
  · intro _ entry _ held _
    rw [found] at held
    cases held
    exact (putColumn_has name _).mono (fun _ => back) fun _ => back
  · intro own other _ _ _ held
    rw [found] at held
    cases held
    exact edited other

/-- What a transfer makes of the column that gives, it makes of it in the store, or leaves it. -/
theorem transferColumn_gives {target : String} {holds : Column n kind → Prop} (apart : name ≠ target)
    (found : store.columns.find? name = some ⟨kind, column⟩) (same : holds column)
    (moved : ∀ receiver, Ends Exchange.transfer ⟨column, receiver, store.ledger⟩
      (fun _ after => holds after.source) (fun _ after => holds after.source)) :
    let giving (after : Store n) :=
      ∃ later : Column n kind, after.Has name (some ⟨kind, later⟩) ∧ holds later
    Ends (transferColumn name target) store (fun _ => giving) (fun _ => giving) := by
  intro giving
  have back (after : Store n) (has : after.Has name (some ⟨kind, column⟩)) : giving after :=
    ⟨column, has, same⟩
  refine ends_transferColumn ?_ ?_ ?_ ?_
  · intro missing
    rw [found] at missing
    cases missing
  · intro giver given _
    rw [found] at given
    cases given
    exact (putColumn_has name _).mono (fun _ => back) fun _ => back
  · intro giver receiver given _ _
    rw [found] at given
    cases given
    refine (putColumn_has name _).mono ?_ fun _ => back
    intro _ between has
    exact (has.putColumn apart receiver).mono (fun _ => back) fun _ => back
  · intro own giver receiver given _
    rw [found] at given
    cases given
    refine (moved receiver).mono ?_ ?_
    · exact fun _ exchange gone => ⟨_, (find?_withExchange store apart exchange).1, gone⟩
    · exact fun _ exchange gone => ⟨_, (find?_withExchange store apart exchange).1, gone⟩

/-- The column is still there, as it was or without the slots that it had. -/
def Vacating (name : String) (column : Column n kind) (after : Store n) : Prop :=
  ∃ later : Column n kind, after.Has name (some ⟨kind, later⟩) ∧ column.Vacated later

/-- A transfer empties the column that gives, or leaves it. -/
theorem transferColumn_vacates {target : String} (apart : name ≠ target)
    (found : store.columns.find? name = some ⟨kind, column⟩) :
    Ends (transferColumn name target) store (fun _ => Vacating name column)
      (fun _ => Vacating name column) :=
  transferColumn_gives apart found (.inl rfl) fun _ => Exchange.transfer_vacates _

end Store

/-- One command of such a run keeps the column within its volume, or within twice of it. -/
theorem Command.StaysBelow.keeping {store : Store n} {command : Command n} {column : Column n kind}
    (below : command.StaysBelow name kind slots) (ample : Column.Ample kind slots volume)
    (found : store.columns.find? name = some ⟨kind, column⟩) (within : column.Within volume) :
    (store.after command).Keeping name column volume := by
  have back (other : Store n) (has : other.Has name (some ⟨kind, column⟩)) :
      other.Keeping name column volume := Store.keeping_of_within has within
  have kept (session : Session n kind) (held : session.column.Within volume) :
      ((store.withoutColumn name).withSession name session).Keeping name column volume :=
    Store.keeping_of_within (Store.find?_withSession_self _ name session) held
  suffices ends : name ∈ command.targets → Ends command.run store
      (fun _ after => after.Keeping name column volume)
      (fun _ after => after.Keeping name column volume) by
    by_cases target : name ∈ command.targets
    · exact Store.holds_after (ends target)
    · exact back _ ((Command.find?_after target store).trans found)
  intro target
  cases below with
  | free free => exact absurd target free
  | @edit call below =>
    refine ends_bind.mpr (Store.ends_editColumn_of_found found ?_)
    by_cases cleared : call = .clear
    · subst cleared
      refine (Edit.clear_vacates _).mono ?_ ?_
      · exact fun _ session => Store.keeping_of_vacated within (Store.find?_withSession_self _ _ session)
      · exact fun _ session => Store.keeping_of_vacated within (Store.find?_withSession_self _ _ session)
    · exact (below.within ample cleared _ within).mono (fun _ => kept) fun _ => kept
  | copy source sourceIndex less =>
    refine ends_bind.mpr (Store.editBeside_has found back fun other => ?_)
    exact (Edit.copyFromSafe_within ample other less _ within).mono (fun _ => kept) fun _ => kept
  | transfer apart =>
    have vacates (after : Store n) (vacating : after.Vacating name column) :
        after.Keeping name column volume := by
      obtain ⟨later, has, vacated⟩ := vacating
      exact Store.keeping_of_vacated within has vacated
    refine ends_bind.mpr ((Store.transferColumn_vacates apart found).mono ?_ ?_)
    · exact fun _ => vacates
    · exact fun _ => vacates

namespace Store

variable {store : Store n} {commands : List (Command n)} {column : Column n kind}

/-- Along a run the volume doubles every time that the column loses its slots. -/
theorem runAll_within (ample : Column.Ample kind slots volume)
    (below : ∀ command ∈ commands, command.StaysBelow name kind slots)
    (found : store.columns.find? name = some ⟨kind, column⟩) (within : column.Within volume) :
    ∃ later : Column n kind, (store.runAll commands).columns.find? name = some ⟨kind, later⟩ ∧
      later.Within (2 ^ store.emptyings name commands * volume) := by
  induction commands generalizing store column volume with
  | nil =>
    refine ⟨column, found, ?_⟩
    rwa [emptyings, Nat.pow_zero, Nat.one_mul]
  | cons command rest ih =>
    obtain ⟨later, has, kept⟩ := (below command List.mem_cons_self).keeping ample found within
    have rests : ∀ command ∈ rest, command.StaysBelow name kind slots :=
      fun command member => below command (List.mem_cons_of_mem _ member)
    rw [emptyings, capacityOf_of_found found, capacityOf_of_found has]
    by_cases lost : 0 < column.capacity ∧ later.capacity = 0
    · rw [if_pos lost] at kept
      obtain ⟨last, held, final⟩ := ih ample.double rests has kept
      rw [if_pos lost, Nat.pow_add, Nat.pow_one, Nat.mul_comm 2, Nat.mul_assoc]
      exact ⟨last, held, final⟩
    · rw [if_neg lost] at kept
      rw [if_neg lost, Nat.zero_add]
      exact ih ample rests has kept

theorem within_ofType {field : String} {type : FieldType} {account : Fin n} {config : Config}
    (pos : 1 ≤ config.initialCapacity) (few : config.initialCapacity ≤ slots)
    (ample : Column.Ample kind slots volume) :
    (Column.ofType field type account config : Column n kind).Within volume := by
  have twice : 2 * config.initialCapacity * kind.width ≤ volume :=
    (Nat.mul_le_mul_right _ (Nat.mul_le_mul_left 2 few)).trans ample.room
  refine ⟨Nat.zero_le _, pos, ?_, fun _ => twice⟩
  exact (Nat.mul_le_mul_right _ (Nat.le_mul_of_pos_left _ Nat.two_pos)).trans twice

/-- A column that is only written below some number of slots never has more than twice those and sixteen,
doubled once more for every time that it lost its slots. -/
theorem capacity_runAll {field : String} {type : FieldType} {account : Fin n} {config : Config}
    (made : store.columns.find? name = some ⟨kind, .ofType field type account config⟩)
    (pos : 1 ≤ config.initialCapacity) (few : config.initialCapacity ≤ slots)
    (below : ∀ command ∈ commands, command.StaysBelow name kind slots) :
    ∃ column : Column n kind, (store.runAll commands).columns.find? name = some ⟨kind, column⟩ ∧
      column.capacity ≤ 2 ^ store.emptyings name commands * (2 * slots + 16) := by
  let volume := Block.roundUp (2 * slots * kind.width)
  have ample : Column.Ample kind slots volume :=
    ⟨Block.grain_dvd_roundUp _, Block.le_roundUp _⟩
  obtain ⟨column, found, within⟩ := runAll_within ample below made (within_ofType pos few ample)
  refine ⟨column, found, Nat.le_of_mul_le_mul_right ?_ kind.width_pos⟩
  have rounded : volume ≤ (2 * slots + 16) * kind.width := by
    have less : volume < 2 * slots * kind.width + 16 := Block.roundUp_lt _
    have width := kind.width_pos
    rw [Nat.add_mul]
    omega
  calc column.capacity * kind.width
    _ ≤ 2 ^ store.emptyings name commands * volume := within.capacity_le
    _ ≤ 2 ^ store.emptyings name commands * ((2 * slots + 16) * kind.width) :=
      Nat.mul_le_mul_left _ rounded
    _ = 2 ^ store.emptyings name commands * (2 * slots + 16) * kind.width := (Nat.mul_assoc ..).symm

/-- A run that writes to the first slot before and after the column is cleared. -/
def refilling : List (Command 1) :=
  [.edit "x" .uint8 (.setSafe 0 1), .edit "x" .uint8 .clear, .edit "x" .uint8 (.setSafe 0 2)]

private theorem made_single : ((ofLimits #v[Word.max]).runAll (making 0 1)).columns.find? "x" =
    some ⟨.uint8, .ofType "x" ⟨true, Kind.uint8.dataType⟩ 0 { initialCapacity := 1 }⟩ := by
  cbv

private theorem refilling_below : ∀ command ∈ refilling, command.StaysBelow "x" .uint8 1 := by
  have write (value : Element .uint8) :
      (Command.edit "x" .uint8 (.setSafe 0 value) : Command 1).StaysBelow "x" .uint8 1 :=
    .edit (.write rfl (by decide))
  simp only [refilling, List.forall_mem_cons]
  exact ⟨write 1, .edit .clear, write 2, by simp⟩

theorem capacity_runAll_refilling :
    let store := (ofLimits #v[Word.max]).runAll (making 0 1)
    store.emptyings "x" refilling = 1 ∧ ∃ column : Column 1 .uint8,
      (store.runAll refilling).columns.find? "x" = some ⟨.uint8, column⟩ ∧ column.capacity ≤ 36 := by
  intro store
  have emptied : store.emptyings "x" refilling = 1 := by decide +kernel
  obtain ⟨column, found, capacity⟩ := capacity_runAll made_single (by decide) (by decide) refilling_below
  rw [emptied] at capacity
  exact ⟨emptied, column, found, capacity⟩

/-- A column that is cleared grows from what it had, beyond what a first growth would give it. -/
theorem capacity_runAll_regrown :
    ¬ ∀ (store : Store 1) (name : String) (kind : Kind) (field : String) (type : FieldType)
        (account : Fin 1) (config : Config) (slots : Nat) (commands : List (Command 1)),
      store.columns.find? name = some ⟨kind, .ofType field type account config⟩ →
        1 ≤ config.initialCapacity → config.initialCapacity ≤ slots →
        (∀ command ∈ commands, command.StaysBelow name kind slots) →
        (store.runAll commands).capacityOf name ≤ 2 * slots + 16 := by
  intro always
  have capacity := always _ "x" .uint8 "x" _ 0 _ 1 refilling made_single (by decide) (by decide)
    refilling_below
  revert capacity
  decide +kernel

end Store

end Columnar
