import Columnar.Proofs.Column.Bounds
import Columnar.Proofs.Store.Runs

/-! Invariants of every single column. What edits and transfers keep holds of every column of every
store that a run reaches, as long as no command stops with a column that has lost it. What they keep
however they end always holds, so does that blocks are bounded. -/

namespace Columnar

open Columnar.Action

variable {n : Nat} {inv : {kind : Kind} → Column n kind → Prop}
variable {stop : Failure → {kind : Kind} → Column n kind → Prop}

/-- An invariant of columns that new ones have, and that edits and transfers keep unless they stop in
`stop`. -/
structure ColumnContract (inv : {kind : Kind} → Column n kind → Prop)
    (stop : Failure → {kind : Kind} → Column n kind → Prop) : Prop where
  new : ∀ {kind} name type account config, inv (Column.ofType name type account config : Column n kind)
  edits : ∀ {kind}, Edit.EditInvariant (fun session : Session n kind => inv session.column)
    (fun failure session => stop failure session.column)
  transfer : ∀ {kind}, Keeps Exchange.transfer
    (fun exchange : Exchange n kind => inv exchange.source ∧ inv exchange.target)
    (fun failure exchange => stop failure exchange.source ∧ stop failure exchange.target)

/-- An invariant of columns that new ones have, and that edits and transfers keep however they
end. -/
structure ColumnInvariant (inv : {kind : Kind} → Column n kind → Prop) : Prop where
  new : ∀ {kind} name type account config, inv (Column.ofType name type account config : Column n kind)
  shape : ∀ {kind}, Edit.ShapeInvariant (fun session : Session n kind => inv session.column)
    (fun _ session => inv session.column)
  transfer : ∀ {kind}, Keeps Exchange.transfer
    (fun exchange : Exchange n kind => inv exchange.source ∧ inv exchange.target)
    (fun _ exchange => inv exchange.source ∧ inv exchange.target)

namespace Store

def All (inv : {kind : Kind} → Column n kind → Prop) (store : Store n) : Prop :=
  ∀ pair ∈ store.columns.entries, inv pair.2.column

/-- Every column of the store has the invariant, unless the fault left it in `stop`. -/
def Left (inv : {kind : Kind} → Column n kind → Prop)
    (stop : Failure → {kind : Kind} → Column n kind → Prop) (fault : Fault) (store : Store n) : Prop :=
  store.All fun column => inv column ∨ ∃ failure, fault = .failed failure ∧ stop failure column

variable {store : Store n} {name : String}

theorem all_ofLimits (limits : Vector Nat n) : (ofLimits limits).All inv := by
  intro pair member
  cases member

namespace All

theorem left (all : store.All inv) {fault : Fault} : store.Left inv stop fault :=
  fun pair member => .inl (all pair member)

theorem of_find? (all : store.All inv) {entry : Entry n}
    (found : store.columns.find? name = some entry) : inv entry.column :=
  all _ (Table.mem_of_find? found)

theorem without (all : store.All inv) (name : String) : (store.withoutColumn name).All inv := by
  cases found : store.columns.find? name with
  | none =>
    have same : store.withoutColumn name = store := by
      rw [withoutColumn, Table.without_eq_self found]
    rwa [same]
  | some entry =>
    intro pair member
    exact all pair ((Table.perm_without found).symm.subset (List.mem_cons_of_mem _ member))

theorem put (all : store.All inv) {entry : Entry n} (holds : inv entry.column) (name : String) :
    (store.withColumn name entry).All inv := by
  intro pair member
  rcases List.mem_cons.mp member with rfl | old
  · exact holds
  · exact all pair old

theorem putColumn {entry : Entry n} (holds : inv entry.column) (name : String) :
    Keeps (putColumn name entry) (All inv) (Left inv stop) := by
  intro store all
  refine ends_putColumn (fun _ => all.put holds name) fun old _ => ?_
  have placed := (all.without name).put holds name
  exact ends_of (fun _ _ _ => placed) fun _ _ _ => placed.left

theorem dropColumn (name : String) : Keeps (dropColumn name) (All inv) (Left inv stop) := by
  intro store all
  refine ends_dropColumn (fun _ => all.left) fun entry _ => ?_
  exact ends_of (fun _ _ _ => all.without name) fun _ _ _ => (all.without name).left

theorem edited (all : store.All inv) {kind : Kind} {column : Column n kind}
    {edit : Edit n kind Unit} (holds : inv column)
    (keeps : Keeps edit (fun session => inv session.column) (fun failure session => stop failure session.column))
    (name : String) :
    Ends edit ⟨column, store.ledger⟩ (fun _ session => (store.withSession name session).All inv)
      (fun failure session => (store.withSession name session).Left inv stop (.failed failure)) := by
  refine (keeps ⟨column, store.ledger⟩ holds).mono ?_ ?_
  · exact fun _ session held => all.put held name
  · exact fun failure session stopped => all.left.put (.inr ⟨failure, rfl, stopped⟩) name

theorem editBeside (target source : String)
    {edit : (kind : Kind) → Column n kind → Edit n kind Unit}
    (keeps : ∀ kind other, Keeps (edit kind other) (fun session => inv session.column)
      (fun failure session => stop failure session.column)) :
    Keeps (editBeside target source edit) (All inv) (Left inv stop) := by
  intro store all
  refine ends_editBeside (fun _ _ _ => all.left) ?_ ?_
  · intro _ entry _ found _
    exact (All.putColumn (all.of_find? found) target _ (all.without target)).mono_post
      fun _ _ kept => kept.left
  · intro kind other column _ _ found
    exact (all.without target).edited (all.of_find? found) (keeps kind other) target

end All

end Store

namespace ColumnContract

variable (contract : ColumnContract inv stop)

include contract

theorem newColumn (name : String) (kind : Kind) (field : String) (type : Option FieldType)
    (account : Fin n) (config : Config) : Keeps (Command.newColumn name kind field type account config)
      (Store.All inv) (Store.Left inv stop) := by
  intro store all
  refine Store.ends_newColumn (fun type => ?_) fun _ => all.left
  exact Store.All.putColumn (contract.new ..) name _ all

theorem transferColumn (source target : String) :
    Keeps (Store.transferColumn source target) (Store.All inv) (Store.Left inv stop) := by
  intro store all
  refine Store.ends_transferColumn (fun _ => all.left) ?_ ?_ ?_
  · intro giver given _
    exact (Store.All.putColumn (all.of_find? given) source _ (all.without source)).mono_post
      fun _ _ kept => kept.left
  · intro giver receiver given held _
    refine (Store.All.putColumn (all.of_find? given) source _
      ((all.without source).without target)).mono_post ?_
    intro _ between kept
    exact (Store.All.putColumn ((all.without source).of_find? held) target _ kept).mono_post
      fun _ _ kept => kept.left
  · intro kind giver receiver given held
    have rest := (all.without source).without target
    refine (contract.transfer _ ⟨all.of_find? given, (all.without source).of_find? held⟩).mono ?_ ?_
    · exact fun _ exchange both => (rest.put both.1 source).put both.2 target
    · exact fun failure exchange both =>
        (rest.left.put (.inr ⟨failure, rfl, both.1⟩) source).put (.inr ⟨failure, rfl, both.2⟩) target

theorem run (command : Command n) : Keeps command.run (Store.All inv) (Store.Left inv stop) := by
  have onBlocks (blocks : command.OnBlocks) :
      Keeps command.run (Store.All inv) (Store.Left inv stop) := by
    intro store all
    refine (blocks.keepsColumns store).mono ?_ ?_
    · intro _ after same pair member
      exact all pair (same ▸ member)
    · intro _ after same pair member
      exact .inl (all pair (same ▸ member))
  cases command with
  | create name kind field type account config =>
    exact (contract.newColumn name kind field type account config).bind fun _ => keeps_pure _
  | drop name => exact (Store.All.dropColumn name).bind fun _ => keeps_pure _
  | rename name new =>
    refine Keeps.bind ?_ fun _ => keeps_pure _
    intro store all
    refine Store.ends_renameColumn (fun _ => all.left) fun entry found => ?_
    exact Store.All.putColumn (all.of_find? found) new _ (all.without name)
  | edit name kind call =>
    refine Keeps.bind ?_ fun _ => keeps_pure _
    intro store all
    refine Store.ends_editColumn (fun _ => all.left) ?_ ?_
    · intro entry found _
      exact (Store.All.putColumn (all.of_find? found) name _ (all.without name)).mono_post
        fun _ _ kept => kept.left
    · intro column found
      exact (all.without name).edited (all.of_find? found) (contract.edits.call call) name
  | copy target source safe sourceIndex targetIndex =>
    refine (Store.All.editBeside target source fun kind other => ?_).bind fun _ => keeps_pure _
    split
    · exact contract.edits.copyFromSafe other sourceIndex targetIndex
    · exact contract.edits.copyFrom other sourceIndex targetIndex
  | sibling source name field account =>
    intro store all
    refine ends_bind.mpr (Store.ends_findColumn (fun _ => all.left) fun entry found => ?_)
    exact (Store.All.putColumn (contract.new ..) name).bind (fun _ => keeps_pure _) store all
  | transfer source target => exact (contract.transferColumn source target).bind fun _ => keeps_pure _
  | split source target start length =>
    refine (Store.All.editBeside target source fun kind other => ?_).bind fun _ => keeps_pure _
    exact contract.edits.split other start length
  | allocateBlock | emptyBlock | dropBlock | growBlock | writeBlock | zeroBlock | moveBlock =>
    exact onBlocks trivial

/-- The invariant holds of every column after every run in which no command left a column that had
lost it. -/
theorem runAll {allowed : Store n → Command n → Prop}
    (spared : ∀ store command failure, allowed store command →
      command.fault? store = some (.failed failure) →
      ∀ pair ∈ (store.after command).columns.entries, stop failure pair.2.column → inv pair.2.column)
    (limits : Vector Nat n) (commands : List (Command n))
    (along : (Store.ofLimits limits).Along allowed commands) :
    ((Store.ofLimits limits).runAll commands).All inv := by
  refine Store.runAll_keeps ?_ (Store.all_ofLimits limits) along
  intro store command all allows
  rcases Store.after_of_ends (contract.run command store all) with ⟨_, kept⟩ | ⟨fault, stopped, left⟩
  · exact kept
  · intro pair member
    rcases left pair member with holds | ⟨failure, rfl, lost⟩
    · exact holds
    · exact spared store command failure allows stopped pair member lost

end ColumnContract

namespace ColumnInvariant

variable (invariant : ColumnInvariant inv)

include invariant

theorem contract : ColumnContract inv fun _ => inv where
  new := invariant.new
  edits := invariant.shape.edits
  transfer := invariant.transfer

theorem run (command : Command n) : Keeps command.run (Store.All inv) (fun _ => Store.All inv) := by
  refine (invariant.contract.run command).mono_stop ?_
  intro fault after left pair member
  rcases left pair member with holds | ⟨_, _, holds⟩
  · exact holds
  · exact holds

theorem after (command : Command n) {store : Store n} (all : store.All inv) :
    (store.after command).All inv :=
  Store.holds_after (invariant.run command store all)

theorem runAll (limits : Vector Nat n) (commands : List (Command n)) :
    ((Store.ofLimits limits).runAll commands).All inv :=
  invariant.contract.runAll (fun _ _ _ _ _ _ _ holds => holds) limits commands Store.along_true

end ColumnInvariant

theorem boundedColumns : ColumnInvariant (n := n) Column.Bounded where
  new := Column.bounded_ofType
  shape := Edit.boundedInvariant
  transfer := Exchange.transfer_bounded

end Columnar
