import Columnar.Proofs.Store.Runs

/-! What a command leaves alone. However it ends, columns that it does not name as its target are as
they were, and so are all blocks but the one that it names. -/

namespace Columnar

open Columnar.Action

variable {n : Nat} {kind : Kind} {name target : String}

/-- The names of the columns that a command may change; one that is only read is not among them. -/
def Command.targets : Command n → List String
  | create name .. | drop name | edit name .. | sibling _ name .. => [name]
  | rename name new => [name, new]
  | copy target .. | split _ target .. => [target]
  | transfer source target => [source, target]
  | allocateBlock .. | emptyBlock .. | dropBlock .. | growBlock .. | writeBlock .. | zeroBlock ..
  | moveBlock .. => []

namespace Store

/-- Charging accounts, and taking out and putting in the columns of these names, leave this alone. -/
structure ColumnFrame (names : List String) (inv : Store n → Prop) : Prop where
  ledger : ∀ {store : Store n} {ledger : Ledger n}, inv store → inv { store with ledger }
  without : ∀ {store : Store n}, ∀ name ∈ names, inv store → inv (store.withoutColumn name)
  put : ∀ {store : Store n}, ∀ name ∈ names, ∀ entry, inv store → inv (store.withColumn name entry)

namespace ColumnFrame

variable {names : List String} {inv : Store n → Prop} (frame : ColumnFrame names inv)

include frame

theorem putColumn (member : name ∈ names) (entry : Entry n) :
    Keeps (Store.putColumn name entry) inv fun _ => inv := by
  intro store holds
  have placed := frame.put name member entry (frame.without name member holds)
  refine ends_putColumn (fun _ => frame.put name member entry holds) fun _ _ => ?_
  exact ends_of (fun _ _ _ => frame.ledger placed) fun _ _ _ => frame.ledger placed

theorem dropColumn (member : name ∈ names) : Keeps (Store.dropColumn name) inv fun _ => inv := by
  intro store holds
  have taken := frame.without name member holds
  refine ends_dropColumn (fun _ => holds) fun _ _ => ?_
  exact ends_of (fun _ _ _ => frame.ledger taken) fun _ _ _ => frame.ledger taken

theorem renameColumn {new : String} (member : name ∈ names) (next : new ∈ names) :
    Keeps (Store.renameColumn name new) inv fun _ => inv := by
  intro store holds
  refine ends_renameColumn (fun _ => holds) fun entry _ => ?_
  exact frame.putColumn next entry _ (frame.without name member holds)

theorem withSession (member : name ∈ names) {store : Store n} (holds : inv store)
    (session : Session n kind) : inv (store.withSession name session) :=
  frame.ledger (frame.put name member _ holds)

theorem editColumn (member : name ∈ names) (edit : Edit n kind Unit) :
    Keeps (Store.editColumn name kind edit) inv fun _ => inv := by
  intro store holds
  have taken := frame.without name member holds
  refine ends_editColumn (fun _ => holds) ?_ ?_
  · exact fun entry _ _ => frame.putColumn member entry _ taken
  · intro column _
    exact ends_of (fun _ _ _ => frame.withSession member taken _)
      fun _ _ _ => frame.withSession member taken _

theorem editBeside (member : target ∈ names) (source : String)
    (edit : (kind : Kind) → Column n kind → Edit n kind Unit) :
    Keeps (Store.editBeside target source edit) inv fun _ => inv := by
  intro store holds
  have taken := frame.without target member holds
  refine ends_editBeside (fun _ _ _ => holds) ?_ ?_
  · exact fun _ entry _ _ _ => frame.putColumn member entry _ taken
  · intro kind other column _ _ _
    exact ends_of (fun _ _ _ => frame.withSession member taken _)
      fun _ _ _ => frame.withSession member taken _

theorem transferColumn {source : String} (giving : source ∈ names) (member : target ∈ names) :
    Keeps (Store.transferColumn source target) inv fun _ => inv := by
  intro store holds
  have taken := frame.without source giving holds
  have both := frame.without target member taken
  refine ends_transferColumn (fun _ => holds) ?_ ?_ ?_
  · exact fun giver _ _ => frame.putColumn giving giver _ taken
  · intro giver receiver _ _ _
    refine (frame.putColumn giving giver _ both).mono_post ?_
    exact fun _ between back => frame.putColumn member receiver between back
  · intro kind giver receiver _ _
    have placed (exchange : Exchange n kind) : inv
        (((store.withoutColumn source).withoutColumn target).withExchange source target exchange) :=
      frame.ledger (frame.put target member _ (frame.put source giving _ both))
    exact ends_of (fun _ _ _ => placed _) fun _ _ _ => placed _

end ColumnFrame

end Store

/-- A command keeps what is left alone by charging accounts and by taking out and putting in the columns
and the block that it names, however it ends. -/
theorem Command.keeps {command : Command n} {inv : Store n → Prop}
    (columns : Store.ColumnFrame command.targets inv)
    (blocks : ∀ name, command.block? = some name → Store.BlockFrame name inv) :
    Keeps command.run inv fun _ => inv := by
  cases command with
  | create name kind field type account config =>
    intro store holds
    have put (type : FieldType) := columns.putColumn (List.mem_singleton.mpr rfl)
      ⟨kind, .ofType field type account config⟩ store holds
    exact ends_bind.mpr (Store.ends_newColumn put fun _ => holds)
  | drop name =>
    exact (columns.dropColumn (List.mem_singleton.mpr rfl)).bind fun _ => keeps_pure _
  | rename name new =>
    exact (columns.renameColumn (by simp [targets]) (by simp [targets])).bind fun _ => keeps_pure _
  | edit name kind call =>
    exact (columns.editColumn (List.mem_singleton.mpr rfl) call.edit).bind fun _ => keeps_pure _
  | copy target source safe sourceIndex targetIndex =>
    exact (columns.editBeside (List.mem_singleton.mpr rfl) source _).bind fun _ => keeps_pure _
  | sibling source name field account =>
    intro store holds
    refine ends_bind.mpr (Store.ends_findColumn (fun _ => holds) fun entry _ => ends_bind.mpr ?_)
    exact columns.putColumn (List.mem_singleton.mpr rfl) _ store holds
  | transfer source target =>
    exact (columns.transferColumn (by simp [targets]) (by simp [targets])).bind fun _ => keeps_pure _
  | split source target start length =>
    exact (columns.editBeside (List.mem_singleton.mpr rfl) source _).bind fun _ => keeps_pure _
  | allocateBlock | emptyBlock | dropBlock | growBlock | writeBlock | zeroBlock | moveBlock =>
    exact keeps_of_block? rfl (blocks _ rfl)

/-! ### Columns -/

namespace Store

variable {store : Store n} {found? : Option (Entry n)}

def Has (name : String) (found? : Option (Entry n)) (store : Store n) : Prop :=
  store.columns.find? name = found?

theorem frame_has {names : List String} (free : name ∉ names) :
    ColumnFrame names fun store : Store n => store.Has name found? := by
  have apart {other : String} (member : other ∈ names) : name ≠ other := by
    rintro rfl
    exact free member
  refine ⟨id, fun other member has => ?_, fun other member entry has => ?_⟩
  · exact (Table.find?_without_of_ne _ (apart member)).trans has
  · rw [Has, withColumn, Table.find?_put, if_neg (apart member)]
    exact has

theorem Has.putColumn (has : store.Has name found?) (apart : name ≠ target) (entry : Entry n) :
    Ends (putColumn target entry) store
      (fun _ after => after.Has name found?) (fun _ after => after.Has name found?) := by
  have frame : ColumnFrame [target] fun store : Store n => store.Has name found? :=
    frame_has (by simpa using apart)
  exact frame.putColumn (List.mem_singleton.mpr rfl) entry store has

end Store

/-- A command leaves every column that is not among its targets, however it ends. -/
theorem Command.find?_after {command : Command n} (free : name ∉ command.targets) (store : Store n) :
    (store.after command).columns.find? name = store.columns.find? name := by
  have has : store.Has name (store.columns.find? name) := rfl
  have blocks (other : String) (_ : command.block? = some other) :
      Store.BlockFrame other fun after : Store n => after.Has name (store.columns.find? name) :=
    ⟨id, id, fun _ => id⟩
  exact Store.holds_after (command.keeps (Store.frame_has free) blocks store has)

theorem Store.find?_runAll {commands : List (Command n)}
    (free : ∀ command ∈ commands, name ∉ command.targets) (store : Store n) :
    (store.runAll commands).columns.find? name = store.columns.find? name := by
  induction commands generalizing store with
  | nil => rfl
  | cons command rest ih =>
    obtain ⟨first, others⟩ := List.forall_mem_cons.mp free
    exact (ih others (store.after command)).trans (command.find?_after first store)

/-! ### Blocks -/

/-- A command leaves every block that it does not name, however it ends. -/
theorem Command.find?_block {command : Command n} (apart : command.block? ≠ some name)
    (store : Store n) :
    Ends command.run store (fun _ after => after.blocks.find? name = store.blocks.find? name)
      (fun _ after => after.blocks.find? name = store.blocks.find? name) := by
  refine command.keeps ⟨id, fun _ _ => id, fun _ _ _ => id⟩ (fun other named => ?_) store rfl
  have different : name ≠ other := by
    rintro rfl
    exact apart named
  refine ⟨id, fun held => ?_, fun block held => ?_⟩
  · rwa [Store.withoutBlock, Table.find?_without_of_ne _ different]
  · rwa [Store.withBlock, Table.find?_put, if_neg different]

end Columnar
