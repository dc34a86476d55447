import Columnar.Proofs.Contract
import Columnar.Proofs.Store.Table
import Columnar.Store.Command

/-! The actions on a store, step by step: what is taken out, edited and put back. Whatever is to be
shown of a command is shown of these steps. -/

namespace Columnar.Store

open Columnar.Action

variable {n : Nat} {α : Type} {store : Store n} {name : String}
variable {stop : Fault → Store n → Prop}

def withoutColumn (store : Store n) (name : String) : Store n :=
  { store with columns := store.columns.without name }

def withColumn (store : Store n) (name : String) (entry : Entry n) : Store n :=
  { store with columns := store.columns.put name entry }

def withoutBlock (store : Store n) (name : String) : Store n :=
  { store with blocks := store.blocks.without name }

def withBlock (store : Store n) (name : String) (block : Block n) : Store n :=
  { store with blocks := store.blocks.put name block }

/-- The store with a column and the ledger that an edit left. -/
def withSession {kind : Kind} (store : Store n) (name : String) (session : Session n kind) : Store n :=
  { store.withColumn name ⟨kind, session.column⟩ with ledger := session.ledger }

/-- The store with both columns and the ledger that an exchange left. -/
def withExchange {kind : Kind} (store : Store n) (source target : String)
    (exchange : Exchange n kind) : Store n :=
  { (store.withColumn source ⟨kind, exchange.source⟩).withColumn target ⟨kind, exchange.target⟩ with
    ledger := exchange.ledger }

theorem ends_onLedger {action : Accounting n α} {post : α → Store n → Prop} :
    Ends (onLedger action) store post stop ↔
      Ends action store.ledger (fun result ledger => post result { store with ledger })
        (fun failure ledger => stop (.failed failure) { store with ledger }) := by
  cases ran : action store.ledger <;> simp [Ends, onLedger, ran]

/-! ### Columns -/

theorem ends_takeColumn {post : Entry n → Store n → Prop}
    (missing : store.columns.find? name = none → stop (.unknownName name) store)
    (found : ∀ entry, store.columns.find? name = some entry → post entry (store.withoutColumn name)) :
    Ends (takeColumn name) store post stop := by
  cases held : store.columns.find? name with
  | none =>
    have same := Table.without_eq_self held
    simp only [Ends, takeColumn, Table.take_eq, held, same]
    exact missing held
  | some entry =>
    simp only [Ends, takeColumn, Table.take_eq, held]
    exact found entry held

theorem ends_findColumn {post : Entry n → Store n → Prop}
    (missing : store.columns.find? name = none → stop (.unknownName name) store)
    (found : ∀ entry, store.columns.find? name = some entry → post entry store) :
    Ends (findColumn name) store post stop := by
  unfold Ends findColumn
  cases held : store.columns.find? name with
  | none => exact missing held
  | some entry => exact found entry held

section

variable {post : Unit → Store n → Prop}

/-- The new column is in place before an old one of its name is given back. -/
theorem ends_putColumn {entry : Entry n}
    (fresh : store.columns.find? name = none → post () (store.withColumn name entry))
    (replaced : ∀ old, store.columns.find? name = some old →
      Ends old.column.release store.ledger
        (fun _ ledger => post () { (store.withoutColumn name).withColumn name entry with ledger })
        (fun failure ledger =>
          stop (.failed failure) { (store.withoutColumn name).withColumn name entry with ledger })) :
    Ends (putColumn name entry) store post stop := by
  cases held : store.columns.find? name with
  | none =>
    have same := Table.without_eq_self held
    simp only [Ends, putColumn, Table.take_eq, held, same]
    exact fresh held
  | some old =>
    have given : Ends (onLedger old.column.release)
        ((store.withoutColumn name).withColumn name entry) post stop :=
      ends_onLedger.mpr (replaced old held)
    simp only [Ends, putColumn, Table.take_eq, held]
    exact given

theorem ends_putColumn_of_free {post : Unit → Store n → Prop} {entry : Entry n}
    (free : store.columns.find? name = none) (placed : post () (store.withColumn name entry)) :
    Ends (putColumn name entry) store post stop := by
  refine ends_putColumn (fun _ => placed) fun old found => ?_
  rw [free] at found
  cases found

theorem ends_runEdit {kind : Kind} {column : Column n kind} {edit : Edit n kind Unit} :
    Ends (runEdit name column edit) store post stop ↔
      Ends edit ⟨column, store.ledger⟩ (fun _ session => post () (store.withSession name session))
        (fun failure session => stop (.failed failure) (store.withSession name session)) := by
  cases ran : edit ⟨column, store.ledger⟩ <;>
    simp [Ends, runEdit, ran, withSession, withColumn]

theorem ends_runExchange {kind : Kind} {source target : String} {giver receiver : Column n kind}
    {action : Exchanging n kind Unit} :
    Ends (runExchange source target giver receiver action) store post stop ↔
      Ends action ⟨giver, receiver, store.ledger⟩
        (fun _ exchange => post () (store.withExchange source target exchange))
        (fun failure exchange =>
          stop (.failed failure) (store.withExchange source target exchange)) := by
  cases ran : action ⟨giver, receiver, store.ledger⟩ <;>
    simp [Ends, runExchange, ran, withExchange, withColumn]

theorem ends_newColumn {kind : Kind} {field : String} {type : Option FieldType} {account : Fin n}
    {config : Config}
    (made : ∀ type, Ends (putColumn name ⟨kind, .ofType field type account config⟩) store post stop)
    (mismatch : ∀ cause, stop (.failed (.error cause)) store) :
    Ends (Command.newColumn name kind field type account config) store post stop := by
  cases type with
  | none => exact made _
  | some type =>
    by_cases fits : type.dataType = kind.dataType
    · simp only [Command.newColumn, Column.ofType?, if_pos fits]
      exact made type
    · simp only [Command.newColumn, Column.ofType?, if_neg fits]
      exact mismatch _

theorem ends_dropColumn
    (missing : store.columns.find? name = none → stop (.unknownName name) store)
    (dropped : ∀ entry, store.columns.find? name = some entry →
      Ends entry.column.release store.ledger
        (fun _ ledger => post () { store.withoutColumn name with ledger })
        (fun failure ledger => stop (.failed failure) { store.withoutColumn name with ledger })) :
    Ends (dropColumn name) store post stop := by
  refine ends_bind.mpr (ends_takeColumn missing ?_)
  intro entry held
  exact ends_onLedger.mpr (dropped entry held)

theorem ends_renameColumn {new : String}
    (missing : store.columns.find? name = none → stop (.unknownName name) store)
    (moved : ∀ entry, store.columns.find? name = some entry →
      Ends (putColumn new entry) (store.withoutColumn name) post stop) :
    Ends (renameColumn name new) store post stop :=
  ends_bind.mpr (ends_takeColumn missing moved)

/-- A column of another kind is put back. -/
theorem ends_editColumn {kind : Kind} {edit : Edit n kind Unit}
    (missing : store.columns.find? name = none → stop (.unknownName name) store)
    (mismatch : ∀ entry, store.columns.find? name = some entry → entry.kind ≠ kind →
      Ends (putColumn name entry) (store.withoutColumn name) (fun _ after => stop .kindMismatch after)
        stop)
    (edited : ∀ column, store.columns.find? name = some ⟨kind, column⟩ →
      Ends edit ⟨column, store.ledger⟩
        (fun _ session => post () ((store.withoutColumn name).withSession name session))
        (fun failure session =>
          stop (.failed failure) ((store.withoutColumn name).withSession name session))) :
    Ends (editColumn name kind edit) store post stop := by
  refine ends_bind.mpr (ends_takeColumn missing ?_)
  intro entry held
  obtain ⟨own, column⟩ := entry
  by_cases same : own = kind
  · subst same
    simp only [dif_pos]
    exact ends_runEdit.mpr (edited column held)
  · simp only [dif_neg same]
    exact ends_bind.mpr (mismatch _ held same)

theorem ends_editColumn_of_found {kind : Kind} {column : Column n kind} {edit : Edit n kind Unit}
    (found : store.columns.find? name = some ⟨kind, column⟩)
    (edited : Ends edit ⟨column, store.ledger⟩
      (fun _ session => post () ((store.withoutColumn name).withSession name session))
      (fun failure session =>
        stop (.failed failure) ((store.withoutColumn name).withSession name session))) :
    Ends (editColumn name kind edit) store post stop := by
  refine ends_editColumn ?_ ?_ ?_
  · intro missing
    rw [found] at missing
    cases missing
  · intro entry held different
    rw [found] at held
    cases held
    exact absurd rfl different
  · intro other held
    rw [found] at held
    cases held
    exact edited

theorem ends_editBeside {target source : String} {edit : (kind : Kind) → Column n kind → Edit n kind Unit}
    (missing : ∀ name, name = source ∨ name = target →
      store.columns.find? name = none ∨ target = source → stop (.unknownName name) store)
    (mismatch : ∀ other entry, store.columns.find? source = some other →
      store.columns.find? target = some entry → other.kind ≠ entry.kind →
      Ends (putColumn target entry) (store.withoutColumn target)
        (fun _ after => stop .kindMismatch after) stop)
    (edited : ∀ kind other column, target ≠ source →
      store.columns.find? source = some ⟨kind, other⟩ →
      store.columns.find? target = some ⟨kind, column⟩ →
      Ends (edit kind other) ⟨column, store.ledger⟩
        (fun _ session => post () ((store.withoutColumn target).withSession target session))
        (fun failure session =>
          stop (.failed failure) ((store.withoutColumn target).withSession target session))) :
    Ends (editBeside target source edit) store post stop := by
  refine ends_bind.mpr (ends_findColumn (fun free => missing source (.inl rfl) (.inl free)) ?_)
  intro entry read
  obtain ⟨kind, other⟩ := entry
  by_cases itself : target = source
  · rw [if_pos itself]
    exact missing source (.inl rfl) (.inr itself)
  · rw [if_neg itself]
    refine ends_bind.mpr (ends_takeColumn (fun free => missing target (.inr rfl) (.inl free)) ?_)
    intro entry held
    obtain ⟨own, column⟩ := entry
    by_cases same : kind = own
    · subst same
      simp only [dif_pos]
      exact ends_runEdit.mpr (edited kind other column itself read held)
    · simp only [dif_neg same]
      exact ends_bind.mpr (mismatch _ _ read held same)

theorem ends_transferColumn {source target : String}
    (missing : store.columns.find? source = none → stop (.unknownName source) store)
    (alone : ∀ giver, store.columns.find? source = some giver →
      (store.withoutColumn source).columns.find? target = none →
      Ends (putColumn source giver) (store.withoutColumn source)
        (fun _ after => stop (.unknownName target) after) stop)
    (mismatch : ∀ giver receiver, store.columns.find? source = some giver →
      (store.withoutColumn source).columns.find? target = some receiver → giver.kind ≠ receiver.kind →
      Ends (putColumn source giver) ((store.withoutColumn source).withoutColumn target)
        (fun _ between => Ends (putColumn target receiver) between
          (fun _ after => stop .kindMismatch after) stop) stop)
    (moved : ∀ kind giver receiver, store.columns.find? source = some ⟨kind, giver⟩ →
      (store.withoutColumn source).columns.find? target = some ⟨kind, receiver⟩ →
      Ends Exchange.transfer ⟨giver, receiver, store.ledger⟩
        (fun _ exchange => post ()
          (((store.withoutColumn source).withoutColumn target).withExchange source target exchange))
        (fun failure exchange => stop (.failed failure)
          (((store.withoutColumn source).withoutColumn target).withExchange source target exchange))) :
    Ends (transferColumn source target) store post stop := by
  refine ends_bind.mpr (ends_takeColumn missing ?_)
  intro entry given
  obtain ⟨kind, giver⟩ := entry
  refine ends_bind.mpr (ends_tryCatch.mpr (ends_takeColumn ?_ ?_))
  · intro free
    exact ends_bind.mpr (alone _ given free)
  · intro entry held
    obtain ⟨own, receiver⟩ := entry
    by_cases same : kind = own
    · subst same
      simp only [dif_pos]
      exact ends_runExchange.mpr (moved kind giver receiver given held)
    · simp only [dif_neg same]
      refine ends_bind.mpr ((mismatch _ _ given held same).mono_post ?_)
      intro _ between back
      exact ends_bind.mpr back

end

/-! ### Blocks -/

theorem find?_withBlock_self (store : Store n) (name : String) (block : Block n) :
    (store.withBlock name block).blocks.find? name = some block := by
  rw [withBlock, Table.find?_put, if_pos rfl]

theorem find?_withBlock_withoutBlock (store : Store n) (block : Block n) {other : String}
    (apart : other ≠ name) :
    ((store.withoutBlock name).withBlock name block).blocks.find? other =
      store.blocks.find? other := by
  rw [withBlock, Table.find?_put, if_neg apart, withoutBlock, Table.find?_without_of_ne _ apart]

/-- A block that was taken out and put back is where it was. -/
theorem find?_returned (found : store.blocks.find? name = some block) (other : String) :
    ((store.withoutBlock name).withBlock name block).blocks.find? other =
      store.blocks.find? other := by
  by_cases same : other = name
  · rw [same, find?_withBlock_self, found]
  · exact store.find?_withBlock_withoutBlock block same

theorem ends_takeBlock {post : Block n → Store n → Prop}
    (missing : store.blocks.find? name = none → stop (.unknownName name) store)
    (found : ∀ block, store.blocks.find? name = some block → post block (store.withoutBlock name)) :
    Ends (takeBlock name) store post stop := by
  cases held : store.blocks.find? name with
  | none =>
    have same := Table.without_eq_self held
    simp only [Ends, takeBlock, Table.take_eq, held, same]
    exact missing held
  | some block =>
    simp only [Ends, takeBlock, Table.take_eq, held]
    exact found block held

theorem ends_dropBlock {post : Unit → Store n → Prop}
    (missing : store.blocks.find? name = none → stop (.unknownName name) store)
    (dropped : ∀ block, store.blocks.find? name = some block →
      Ends block.release store.ledger
        (fun _ ledger => post () { store.withoutBlock name with ledger })
        (fun failure ledger => stop (.failed failure) { store.withoutBlock name with ledger })) :
    Ends (dropBlock name) store post stop := by
  refine ends_bind.mpr (ends_takeBlock missing ?_)
  intro block held
  exact ends_onLedger.mpr (dropped block held)

theorem ends_putBlock {post : Unit → Store n → Prop} {block : Block n}
    (fresh : store.blocks.find? name = none → post () (store.withBlock name block))
    (replaced : ∀ old, store.blocks.find? name = some old →
      Ends old.release store.ledger
        (fun _ ledger => post () { (store.withoutBlock name).withBlock name block with ledger })
        (fun failure ledger =>
          stop (.failed failure) { (store.withoutBlock name).withBlock name block with ledger })) :
    Ends (putBlock name block) store post stop := by
  cases held : store.blocks.find? name with
  | none =>
    have same := Table.without_eq_self held
    simp only [Ends, putBlock, Table.take_eq, held, same]
    exact fresh held
  | some old =>
    have given : Ends (onLedger old.release)
        ((store.withoutBlock name).withBlock name block) post stop :=
      ends_onLedger.mpr (replaced old held)
    simp only [Ends, putBlock, Table.take_eq, held]
    exact given

theorem ends_putBlock_of_free {post : Unit → Store n → Prop} {block : Block n}
    (free : store.blocks.find? name = none) (placed : post () (store.withBlock name block)) :
    Ends (putBlock name block) store post stop := by
  refine ends_putBlock (fun _ => placed) fun old found => ?_
  rw [free] at found
  cases found

/-- A block that an action fails on is put back where it was. -/
theorem ends_editBlock {action : Block n → Accounting n (Block n × α)} {post : α → Store n → Prop}
    (distinct : store.blocks.Distinct)
    (missing : store.blocks.find? name = none → stop (.unknownName name) store)
    (edited : ∀ block, store.blocks.find? name = some block →
      Ends (action block) store.ledger
        (fun changed ledger =>
          post changed.2 (({ store with ledger }.withoutBlock name).withBlock name changed.1))
        (fun failure ledger =>
          stop (.failed failure) (({ store with ledger }.withoutBlock name).withBlock name block))) :
    Ends (editBlock name action) store post stop := by
  refine ends_bind.mpr (ends_takeBlock missing fun block found => ?_)
  have free := distinct.find?_self name
  refine ends_bind.mpr (ends_tryCatch.mpr (ends_onLedger.mpr ((edited block found).mono ?_ ?_)))
  · intro changed ledger done
    exact ends_bind.mpr (ends_putBlock_of_free free done)
  · intro failure ledger stopped
    exact ends_bind.mpr (ends_putBlock_of_free free stopped)

end Columnar.Store
