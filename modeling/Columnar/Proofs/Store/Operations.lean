import Columnar.Proofs.Column.Operations
import Columnar.Proofs.Store.Accounts

namespace Columnar

open Columnar.Action

variable {n : Nat} {kind : Kind} {α : Type} {forced : Forcing n}

instance : Accountable (Store n) Fault n := ⟨Store.ledger, .failed .overdrawn⟩

namespace Store

variable {store : Store n} {name : String}

/-- The operations of putting a column in place of the one that has its name, or of dropping that. -/
def replacedColumn (store : Store n) (name : String) : List (Operation n) :=
  (store.columns.find? name).elim [] (·.column.returned)

def replacedBlock (store : Store n) (name : String) : List (Operation n) :=
  (store.blocks.find? name).elim [] Block.returned

def edited (store : Store n) (name : String) (kind : Kind)
    (operations : Session n kind → List (Operation n)) : List (Operation n) :=
  (store.columns.find? name).elim [] fun entry =>
    if same : entry.kind = kind then operations ⟨same ▸ entry.column, store.ledger⟩ else []

def editedBeside (store : Store n) (target source : String)
    (operations : (kind : Kind) → Column n kind → Session n kind → List (Operation n)) :
    List (Operation n) :=
  (store.columns.find? source).elim [] fun other =>
    if target = source then [] else store.edited target other.kind (operations other.kind other.column)

def transferred (store : Store n) (source target : String) : List (Operation n) :=
  (store.columns.find? source).elim [] fun giver =>
    ((store.withoutColumn source).columns.find? target).elim [] fun receiver =>
      if giver.kind = receiver.kind then giver.column.transferred receiver.column else []

theorem putColumn_executes (name : String) (entry : Entry n) :
    Executes forced (putColumn name entry) store (store.replacedColumn name) := by
  refine ends_putColumn (fun free => ?_) fun old found => ?_
  · rw [replacedColumn, free]
    rfl
  · rw [replacedColumn, found]
    exact (Column.release_executes old.column).mono_stop fun _ _ => Or.imp_left (congrArg Fault.failed)

theorem putBlock_executes (name : String) (block : Block n) :
    Executes forced (putBlock name block) store (store.replacedBlock name) := by
  refine ends_putBlock (fun free => ?_) fun old found => ?_
  · rw [replacedBlock, free]
    rfl
  · rw [replacedBlock, found]
    exact (Block.release_executes old).mono_stop fun _ _ => Or.imp_left (congrArg Fault.failed)

theorem newColumn_executes (name : String) (kind : Kind) (field : String) (type : Option FieldType)
    (account : Fin n) (config : Config) :
    Executes forced (Command.newColumn name kind field type account config) store
      (if type.all (·.dataType = kind.dataType) then store.replacedColumn name else []) := by
  cases type with
  | none => exact putColumn_executes name _
  | some type =>
    by_cases fits : type.dataType = kind.dataType
    · simp only [Command.newColumn, Column.ofType?, Option.all_some, fits, decide_true, if_true]
      exact putColumn_executes name _
    · simp only [Command.newColumn, Column.ofType?, Option.all_some, fits, decide_false, if_false]
      exact .nil rfl

theorem editColumn_executes (distinct : store.columns.Distinct) (name : String)
    {edit : Edit n kind Unit} {operations : Session n kind → List (Operation n)}
    (executes : ∀ session, Executes forced edit session (operations session)) :
    Executes forced (editColumn name kind edit) store (store.edited name kind operations) := by
  refine ends_editColumn (fun missing => ?_) (fun entry found different => ?_) fun column found => ?_
  · rw [edited, missing]
    exact .inr rfl
  · simp only [edited, found, Option.elim_some, dif_neg different]
    exact ends_putColumn_of_free (distinct.find?_self name) (.inr rfl)
  · simp only [edited, found, Option.elim_some, dif_pos]
    exact (executes ⟨column, store.ledger⟩).mono_stop fun _ _ => Or.imp_left (congrArg Fault.failed)

theorem editBeside_executes (distinct : store.columns.Distinct) (target source : String)
    {edit : (kind : Kind) → Column n kind → Edit n kind Unit}
    {operations : (kind : Kind) → Column n kind → Session n kind → List (Operation n)}
    (executes : ∀ kind other session,
      Executes forced (edit kind other) session (operations kind other session)) :
    Executes forced (editBeside target source edit) store
      (store.editedBeside target source operations) := by
  refine ends_editBeside (fun name named absent => ?_) (fun other entry read found different => ?_)
    fun kind other column apart read found => ?_
  · have none : store.editedBeside target source operations = [] := by
      rw [editedBeside]
      cases read : store.columns.find? source with
      | none => rfl
      | some other =>
        rcases absent with free | itself
        · rcases named with rfl | rfl
          · cases read.symm.trans free
          · simp [edited, free]
        · simp [itself]
    rw [none]
    exact .inr rfl
  · have none : store.editedBeside target source operations = [] := by
      simp [editedBeside, edited, read, found, Ne.symm different]
    rw [none]
    exact ends_putColumn_of_free (distinct.find?_self target) (.inr rfl)
  · simp only [editedBeside, read, Option.elim_some, if_neg apart, edited, found, dif_pos]
    exact (executes kind other ⟨column, store.ledger⟩).mono_stop
      fun _ _ => Or.imp_left (congrArg Fault.failed)

theorem transferColumn_executes (distinct : store.columns.Distinct) (source target : String)
    (movable : ∀ {kind} {giver receiver : Column n kind},
      store.columns.find? source = some ⟨kind, giver⟩ →
      (store.withoutColumn source).columns.find? target = some ⟨kind, receiver⟩ →
      Exchange.Movable forced ⟨giver, receiver, store.ledger⟩) :
    Executes forced (transferColumn source target) store (store.transferred source target) := by
  refine ends_transferColumn (fun missing => ?_) (fun giver given alone => ?_)
    (fun giver receiver given held different => ?_) fun kind giver receiver given held => ?_
  · simp only [transferred, missing, Option.elim_none]
    exact .inr rfl
  · simp only [transferred, given, alone, Option.elim_some, Option.elim_none]
    exact ends_putColumn_of_free (distinct.find?_self source) (.inr rfl)
  · simp only [transferred, given, held, Option.elim_some, if_neg different]
    have apart : source ≠ target := by
      rintro rfl
      cases (distinct.find?_self source).symm.trans held
    have free : ((store.withoutColumn source).withoutColumn target).columns.find? source = none :=
      (Table.find?_without_of_ne _ apart).trans (distinct.find?_self source)
    refine ends_putColumn_of_free free (ends_putColumn_of_free ?_ (.inr rfl))
    rw [withColumn, Table.find?_put, if_neg apart.symm]
    exact (distinct.without source).find?_self target
  · simp only [transferred, given, held, Option.elim_some, if_true]
    exact (Exchange.transfer_executes (movable given held)).mono_stop
      fun _ _ => Or.imp_left (congrArg Fault.failed)

theorem growBlock_executes (distinct : store.blocks.Distinct) (name : String) (size : Nat) :
    Executes forced (growBlock name size) store
      ((store.blocks.find? name).elim [] (·.grown size store.ledger)) := by
  have free := distinct.find?_self name
  refine ends_bind.mpr (ends_takeBlock (fun missing => ?_) fun block found => ?_)
  · rw [missing]
    exact .inr rfl
  rw [found]
  by_cases enough : size ≤ block.size
  · simp only [Option.elim_some, Block.grown, if_pos enough]
    exact ends_putBlock_of_free free rfl
  · simp only [Option.elim_some, Block.grown, if_neg enough]
    have taken : Executes forced (block.enlarge size) store.ledger _ := Block.enlarge_executes block size
    refine ends_bind.mpr (ends_tryCatch.mpr (ends_onLedger.mpr (ends_of ?_ ?_)))
    · intro larger between ran
      change block.enlarge size store.ledger = _ at ran
      rw [following, ran]
      refine ends_bind.mpr (ends_putBlock_of_free free (ends_onLedger.mpr ?_))
      exact ((Block.release_executes block).after (taken.of_ok ran)).mono_stop
        fun _ _ => Or.imp_left (congrArg Fault.failed)
    · intro failure between ran
      change block.enlarge size store.ledger = _ at ran
      rw [following, ran, List.append_nil]
      refine ends_bind.mpr (ends_putBlock_of_free free ?_)
      exact (taken.of_error ran).imp_left (congrArg Fault.failed)

theorem editBlock_executes (distinct : store.blocks.Distinct) (name : String)
    {action : Block n → Accounting n (Block n × α)} {operations : Block n → List (Operation n)}
    (executes : ∀ block, store.blocks.find? name = some block →
      Executes forced (action block) store.ledger (operations block)) :
    Executes forced (editBlock name action) store ((store.blocks.find? name).elim [] operations) := by
  refine ends_editBlock distinct (fun missing => ?_) fun block found => ?_
  · rw [missing]
    exact .inr rfl
  · rw [found]
    exact (executes block found).mono_stop fun _ _ => Or.imp_left (congrArg Fault.failed)

theorem editBlock_silent (distinct : store.blocks.Distinct) (name : String)
    {action : Block n → Accounting n (Block n × α)}
    (executes : ∀ block, Executes forced (action block) store.ledger []) :
    Executes forced (editBlock name action) store [] := by
  refine ends_editBlock distinct (fun _ => .inr rfl) fun block found => ?_
  exact (executes block).mono_stop fun _ _ => Or.imp_left (congrArg Fault.failed)

end Store

namespace Command

def operations (store : Store n) : Command n → List (Operation n)
  | create name kind _ type _ _ =>
    if type.all (·.dataType = kind.dataType) then store.replacedColumn name else []
  | drop name => store.replacedColumn name
  | rename name new =>
    (store.columns.find? name).elim [] fun _ => (store.withoutColumn name).replacedColumn new
  | edit name kind call => store.edited name kind fun session => call.operations session
  | copy target source safe _ targetIndex =>
    store.editedBeside target source fun _ _ session =>
      if safe then Edit.reserving (targetIndex + 1) session else []
  | sibling source name _ _ =>
    (store.columns.find? source).elim [] fun _ => store.replacedColumn name
  | transfer source target => store.transferred source target
  | split source target start length =>
    store.editedBeside target source fun _ other => Edit.splitting other start length
  | allocateBlock name account size =>
    Block.requested account size ++
      following (Block.allocate account size) store.ledger fun _ _ => store.replacedBlock name
  | emptyBlock name _ | dropBlock name => store.replacedBlock name
  | growBlock name size => (store.blocks.find? name).elim [] (·.grown size store.ledger)
  | writeBlock _ _ _ | zeroBlock _ => []
  | moveBlock name target => (store.blocks.find? name).elim [] (·.moved target)

/-- The charges that the command forces, for the blocks that it moves, may be forced. -/
def Movable (forced : Forcing n) (store : Store n) : Command n → Prop
  | transfer source target => ∀ {kind} {giver receiver : Column n kind},
    store.columns.find? source = some ⟨kind, giver⟩ →
      (store.withoutColumn source).columns.find? target = some ⟨kind, receiver⟩ →
        Exchange.Movable forced ⟨giver, receiver, store.ledger⟩
  | moveBlock name target => ∀ block, store.blocks.find? name = some block →
    block.account ≠ target → forced store.ledger.accounts target block.size
  | _ => True

theorem executes (command : Command n) {store : Store n} (columns : store.columns.Distinct)
    (blocks : store.blocks.Distinct) (movable : command.Movable forced store) :
    Executes forced command.run store (command.operations store) := by
  cases command with
  | create name kind field type account config =>
    exact (Store.newColumn_executes name kind field type account config).bind_pure
  | drop name =>
    refine Executes.bind_pure ?_
    refine Store.ends_dropColumn (fun missing => ?_) fun entry found => ?_
    · simp only [operations, Store.replacedColumn, missing, Option.elim_none]
      exact .inr rfl
    · simp only [operations, Store.replacedColumn, found, Option.elim_some]
      exact (Column.release_executes entry.column).mono_stop fun _ _ => Or.imp_left (congrArg Fault.failed)
  | rename name new =>
    refine Executes.bind_pure ?_
    refine Store.ends_renameColumn (fun missing => ?_) fun entry found => ?_
    · simp only [operations, missing, Option.elim_none]
      exact .inr rfl
    · simp only [operations, found, Option.elim_some]
      exact Store.putColumn_executes new entry
  | edit name kind call =>
    exact (Store.editColumn_executes columns name call.executes).bind_pure
  | copy target source safe sourceIndex targetIndex =>
    have copies (kind : Kind) (other : Column n kind) (session : Session n kind) :
        Executes forced (if safe then Edit.copyFromSafe other sourceIndex targetIndex
            else Edit.copyFrom other sourceIndex targetIndex) session
          (if safe then Edit.reserving (targetIndex + 1) session else []) := by
      split
      · exact Edit.copyFromSafe_executes other sourceIndex targetIndex
      · exact Edit.executes_of_keeps ((Edit.silentWrites session).copyFrom other sourceIndex targetIndex)
    exact (Store.editBeside_executes columns target source copies).bind_pure
  | sibling source name field account =>
    refine ends_bind.mpr (Store.ends_findColumn (fun missing => ?_) fun entry found => ?_)
    · simp only [operations, missing, Option.elim_none]
      exact .inr rfl
    · simp only [operations, found, Option.elim_some]
      exact (Store.putColumn_executes name _).bind_pure
  | transfer source target =>
    exact (Store.transferColumn_executes columns source target movable).bind_pure
  | split source target start length =>
    exact (Store.editBeside_executes columns target source fun kind other session =>
      Edit.split_executes other start length).bind_pure
  | allocateBlock name account size =>
    have taken : Executes forced (Block.allocate account size) store.ledger _ :=
      Block.allocate_executes account size
    refine ends_bind.mpr (Store.ends_onLedger.mpr (ends_of ?_ ?_))
    · intro block ledger ran
      rw [operations, following, ran]
      exact ((Store.putBlock_executes name block).bind_pure).after (taken.of_ok ran)
    · intro failure ledger ran
      rw [operations, following, ran, List.append_nil]
      exact (taken.of_error ran).imp_left (congrArg Fault.failed)
  | emptyBlock name account =>
    exact (Store.putBlock_executes name _).bind_pure
  | dropBlock name =>
    refine Executes.bind_pure ?_
    refine Store.ends_dropBlock (fun missing => ?_) fun block found => ?_
    · simp only [operations, Store.replacedBlock, missing, Option.elim_none]
      exact .inr rfl
    · simp only [operations, Store.replacedBlock, found, Option.elim_some]
      exact (Block.release_executes block).mono_stop fun _ _ => Or.imp_left (congrArg Fault.failed)
  | growBlock name size =>
    exact (Store.growBlock_executes blocks name size).bind_pure
  | writeBlock name start run =>
    refine Store.editBlock_silent blocks name fun block => ?_
    split
    · exact .nil rfl
    · exact .nil rfl
  | zeroBlock name => exact Store.editBlock_silent blocks name fun block => .nil rfl
  | moveBlock name target =>
    refine Store.editBlock_executes blocks name fun block found => ?_
    exact (Block.moveTo_executes (movable block found)).bind_pure

/-- Where no account is overdrawn, the operations of a command lead to its accounts, also where it stops. -/
theorem leads (command : Command n) {store : Store n} (orderly : store.Orderly)
    (movable : command.Movable forced store) (solvent : store.Solvent command) :
    Operation.Leads forced (command.operations store) store.ledger.accounts
      (store.after command).ledger.accounts := by
  have executes := command.executes orderly.distinct orderly.balanced.distinct movable
  rcases Store.after_of_ends executes with ⟨_, leads⟩ | ⟨_, stopped, rfl | leads⟩
  · exact leads
  · exact absurd stopped solvent
  · exact leads

end Command

namespace Store

def operations : Store n → List (Command n) → List (Operation n)
  | _, [] => []
  | store, command :: rest => command.operations store ++ operations (store.after command) rest

theorem operations_append (store : Store n) (commands further : List (Command n)) :
    store.operations (commands ++ further) =
      store.operations commands ++ (store.runAll commands).operations further := by
  induction commands generalizing store with
  | nil => rfl
  | cons command rest ih =>
    rw [List.cons_append, operations, ih, operations, List.append_assoc]
    rfl

end Store

end Columnar
