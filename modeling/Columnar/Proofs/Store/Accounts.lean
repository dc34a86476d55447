import Columnar.Proofs.Column.Accounts
import Columnar.Proofs.Store.Picture

/-! Exact accounts over whole runs. In every store that a run reaches, what is charged to an account
is the memory of the live blocks that are charged to it, as long as no request was accepted that
is larger than memory can be and the live bytes are a word. -/

namespace Columnar

open Columnar.Action

variable {n : Nat} {rest : Fin n → Nat}

/-- What a list of blocks costs each account. -/
def Block.charges (blocks : List (Block n)) : Fin n → Nat := (blocks.map Block.charge).sum

namespace Block

theorem charges_apply (blocks : List (Block n)) (id : Fin n) :
    charges blocks id = ((blocks.filter (·.account = id)).map Block.size).sum := by
  induction blocks with
  | nil => rfl
  | cons block others ih =>
    rw [charges, List.map_cons, List.sum_cons, Pi.add_apply, ← charges, ih, charge]
    by_cases same : block.account = id
    · subst same
      simp
    · simp [same]

theorem sum_charges (blocks : List (Block n)) :
    ∑ id, charges blocks id = (blocks.map Block.size).sum := by
  induction blocks with
  | nil => simp [charges]
  | cons block others ih =>
    rw [List.map_cons, List.sum_cons, ← ih, ← sum_charge block, ← Finset.sum_add_distrib]
    rfl

end Block

namespace Store

variable {store : Store n} {name : String}

/-- The blocks of all columns and the blocks on their own. -/
def live (store : Store n) : List (Block n) :=
  store.columns.entries.flatMap (fun pair => [pair.2.column.values, pair.2.column.validity]) ++
    store.blocks.entries.map Prod.snd

def liveBytes (store : Store n) : Nat := (store.live.map Block.size).sum

/-- The memory of the live blocks that are charged to an account. -/
def chargedTo (store : Store n) (id : Fin n) : Nat :=
  ((store.live.filter (·.account = id)).map Block.size).sum

def charge (store : Store n) : Fin n → Nat :=
  (store.columns.entries.map fun pair => pair.2.column.charge).sum +
    (store.blocks.entries.map fun pair => pair.2.charge).sum

theorem charge_eq (store : Store n) : store.charge = Block.charges store.live := by
  have columns (entries : List (String × Entry n)) :
      (entries.map fun pair => pair.2.column.charge).sum =
        Block.charges (entries.flatMap fun pair => [pair.2.column.values, pair.2.column.validity]) := by
    induction entries with
    | nil => rfl
    | cons entry others ih =>
      rw [List.map_cons, List.sum_cons, ih]
      simp [Block.charges, Column.charge, add_assoc]
  rw [charge, columns, live, Block.charges, Block.charges, List.map_append, List.sum_append,
    List.map_map]
  rfl

theorem charge_withoutColumn {entry : Entry n} (found : store.columns.find? name = some entry) :
    store.charge = (store.withoutColumn name).charge + entry.column.charge := by
  have same := ((Table.perm_without found).map fun pair => pair.2.column.charge).sum_eq
  rw [charge, same, List.map_cons, List.sum_cons, charge, withoutColumn]
  abel

theorem charge_withColumn (store : Store n) (name : String) (entry : Entry n) :
    (store.withColumn name entry).charge = store.charge + entry.column.charge := by
  rw [charge, withColumn, Table.put, List.map_cons, List.sum_cons, charge]
  abel

theorem charge_withoutBlock {block : Block n} (found : store.blocks.find? name = some block) :
    store.charge = (store.withoutBlock name).charge + block.charge := by
  have same := ((Table.perm_without found).map fun pair => pair.2.charge).sum_eq
  rw [charge, same, List.map_cons, List.sum_cons, charge, withoutBlock]
  abel

theorem charge_withBlock (store : Store n) (name : String) (block : Block n) :
    (store.withBlock name block).charge = store.charge + block.charge := by
  rw [charge, withBlock, Table.put, List.map_cons, List.sum_cons, charge]
  abel

/-- What is charged is the live blocks and the rest, and every column owns its blocks. -/
structure Balanced (rest : Fin n → Nat) (store : Store n) : Prop where
  charged : store.ledger.allocated = rest + store.charge
  inRange : store.ledger.InRange
  owns : store.All Column.Owns
  distinct : store.blocks.Distinct

theorem balanced_ofLimits (limits : Vector Nat n) : (ofLimits limits).Balanced 0 where
  charged := Ledger.allocated_ofLimits limits
  inRange id := by
    rw [ofLimits, Ledger.allocated_ofLimits]
    exact Nat.zero_lt_succ _
  owns := all_ofLimits limits
  distinct := List.nodup_nil

namespace Balanced

theorem withoutColumn (balanced : store.Balanced rest) {entry : Entry n}
    (found : store.columns.find? name = some entry) :
    (store.withoutColumn name).Balanced (rest + entry.column.charge) where
  charged := by
    rw [show (store.withoutColumn name).ledger = store.ledger from rfl, balanced.charged,
      charge_withoutColumn found]
    abel
  inRange := balanced.inRange
  owns := balanced.owns.without name
  distinct := balanced.distinct

theorem withColumn {entry : Entry n} (balanced : store.Balanced (rest + entry.column.charge))
    (owns : entry.column.Owns) (name : String) : (store.withColumn name entry).Balanced rest where
  charged := by
    rw [show (store.withColumn name entry).ledger = store.ledger from rfl, balanced.charged,
      charge_withColumn]
    abel
  inRange := balanced.inRange
  owns := balanced.owns.put owns name
  distinct := balanced.distinct

theorem withoutBlock (balanced : store.Balanced rest) {block : Block n}
    (found : store.blocks.find? name = some block) :
    (store.withoutBlock name).Balanced (rest + block.charge) where
  charged := by
    rw [show (store.withoutBlock name).ledger = store.ledger from rfl, balanced.charged,
      charge_withoutBlock found]
    abel
  inRange := balanced.inRange
  owns := balanced.owns
  distinct := balanced.distinct.without name

theorem withBlock {block : Block n} (balanced : store.Balanced (rest + block.charge))
    (free : store.blocks.find? name = none) : (store.withBlock name block).Balanced rest where
  charged := by
    rw [show (store.withBlock name block).ledger = store.ledger from rfl, balanced.charged,
      charge_withBlock]
    abel
  inRange := balanced.inRange
  owns := balanced.owns
  distinct := balanced.distinct.put free block

theorem withLedger {other : Fin n → Nat} (balanced : store.Balanced rest) {ledger : Ledger n}
    (charged : ledger.allocated = other + store.charge) (inRange : ledger.InRange) :
    Balanced other { store with ledger } :=
  ⟨charged, inRange, balanced.owns, balanced.distinct⟩

theorem putColumn {entry : Entry n} (balanced : store.Balanced (rest + entry.column.charge))
    (owns : entry.column.Owns) (name : String) :
    Ends (putColumn name entry) store (fun _ after => after.Balanced rest) (fun _ _ => False) := by
  refine ends_putColumn (fun _ => balanced.withColumn owns name) fun old found => ?_
  have placed : ((store.withoutColumn name).withColumn name entry).Balanced
      (rest + old.column.charge) := by
    have taken := balanced.withoutColumn found
    rw [add_right_comm] at taken
    exact taken.withColumn owns name
  have charged : store.ledger.allocated =
      rest + ((store.withoutColumn name).withColumn name entry).charge + old.column.charge := by
    rw [add_right_comm]
    exact placed.charged
  refine (Column.release_leaves charged balanced.inRange).mono_total ?_
  intro _ ledger reached
  obtain ⟨left, inRange⟩ := reached
  exact placed.withLedger left inRange

theorem putNew (balanced : store.Balanced rest) (name : String) (kind : Kind) (field : String)
    (type : FieldType) (account : Fin n) (config : Config) {stop : Fault → Store n → Prop} :
    Ends (Store.putColumn name ⟨kind, Column.ofType field type account config⟩) store
      (fun _ after => after.Balanced rest) stop := by
  have start : store.Balanced
      (rest + (Column.ofType field type account config : Column n kind).charge) := by
    rwa [Column.charge_ofType, add_zero]
  exact (start.putColumn (Column.owns_ofType ..) name).mono_stop fun _ _ => False.elim

theorem putBlock {block : Block n} (balanced : store.Balanced (rest + block.charge)) (name : String) :
    Ends (putBlock name block) store (fun _ after => after.Balanced rest) (fun _ _ => False) := by
  refine ends_putBlock (fun free => balanced.withBlock free) fun old found => ?_
  have placed : ((store.withoutBlock name).withBlock name block).Balanced (rest + old.charge) := by
    have taken := balanced.withoutBlock found
    rw [add_right_comm] at taken
    exact taken.withBlock (balanced.distinct.find?_self name)
  have charged : store.ledger.allocated =
      rest + ((store.withoutBlock name).withBlock name block).charge + old.charge := by
    rw [add_right_comm]
    exact placed.charged
  refine (Block.release_leaves charged balanced.inRange).mono_total ?_
  intro _ ledger reached
  obtain ⟨left, inRange⟩ := reached
  exact placed.withLedger left inRange

theorem session (balanced : store.Balanced rest) {kind : Kind} {column : Column n kind}
    (found : store.columns.find? name = some ⟨kind, column⟩) :
    Session.Balanced (rest + (store.withoutColumn name).charge) ⟨column, store.ledger⟩ where
  charged := by
    rw [balanced.charged, charge_withoutColumn found, add_assoc]
  inRange := balanced.inRange
  owns := balanced.owns.of_find? found

theorem withSession (owns : store.All Column.Owns) (distinct : store.blocks.Distinct) {kind : Kind}
    {session : Session n kind} (balanced : session.Balanced (rest + store.charge)) (name : String) :
    (store.withSession name session).Balanced rest where
  charged := by
    rw [show (store.withSession name session).charge =
      (store.withColumn name ⟨kind, session.column⟩).charge from rfl, charge_withColumn, ← add_assoc]
    exact balanced.charged
  inRange := balanced.inRange
  owns := All.put owns balanced.owns name
  distinct := distinct

end Balanced

/-- How a command may stop with exact accounts: not by an overdraft, and with exact accounts unless
a request was too large. -/
def Settled (fault : Fault) (store : Store n) : Prop :=
  fault ≠ .failed .overdrawn ∧ (fault = .failed .tooLarge ∨ store.Balanced 0)

namespace Balanced

theorem settled (balanced : store.Balanced 0) {fault : Fault} (fine : fault ≠ .failed .overdrawn) :
    Settled fault store := ⟨fine, .inr balanced⟩

theorem returned (balanced : store.Balanced 0) {entry : Entry n}
    (found : store.columns.find? name = some entry) {fault : Fault}
    (fine : fault ≠ .failed .overdrawn) :
    Ends (Store.putColumn name entry) (store.withoutColumn name) (fun _ after => Settled fault after)
      Settled := by
  refine ((balanced.withoutColumn found).putColumn (balanced.owns.of_find? found) name).mono_total ?_
  exact fun _ after back => back.settled fine

theorem edited (balanced : store.Balanced 0) {kind : Kind} {column : Column n kind}
    {edit : Edit n kind Unit} (found : store.columns.find? name = some ⟨kind, column⟩)
    (keeps : Keeps edit (fun session => session.Balanced (0 + (store.withoutColumn name).charge))
      (Edit.Settled (0 + (store.withoutColumn name).charge))) :
    Ends edit ⟨column, store.ledger⟩
      (fun _ session => ((store.withoutColumn name).withSession name session).Balanced 0)
      (fun failure session =>
        Settled (.failed failure) ((store.withoutColumn name).withSession name session)) := by
  have owns := balanced.owns.without name
  refine (keeps _ (balanced.session found)).mono ?_ ?_
  · intro _ session held
    exact withSession owns balanced.distinct held name
  · intro failure session stopped
    obtain ⟨fine, settled⟩ := stopped
    refine ⟨fun same => fine (Fault.failed.inj same), ?_⟩
    rcases settled with rfl | held
    · exact .inl rfl
    · exact .inr (withSession owns balanced.distinct held name)

/-- All charges together are the live bytes. -/
theorem total (balanced : store.Balanced 0) :
    ∑ id, store.ledger.allocated id = store.liveBytes := by
  rw [balanced.charged, zero_add, charge_eq, Block.sum_charges]
  rfl

theorem withExchange (owns : store.All Column.Owns) (distinct : store.blocks.Distinct) {kind : Kind}
    {exchange : Exchange n kind}
    (charged : exchange.ledger.allocated =
      store.charge + exchange.source.charge + exchange.target.charge)
    (inRange : exchange.ledger.InRange) (source : exchange.source.Owns)
    (target : exchange.target.Owns) (first second : String) :
    (store.withExchange first second exchange).Balanced 0 where
  charged := by
    rw [show (store.withExchange first second exchange).charge =
      ((store.withColumn first ⟨kind, exchange.source⟩).withColumn second
        ⟨kind, exchange.target⟩).charge from rfl, charge_withColumn, charge_withColumn, zero_add]
    exact charged
  inRange := inRange
  owns := All.put (All.put owns source first) target second
  distinct := distinct

theorem editBeside (balanced : store.Balanced 0) (target source : String)
    {edit : (kind : Kind) → Column n kind → Edit n kind Unit}
    (keeps : ∀ kind other (rest : Fin n → Nat), Keeps (edit kind other)
      (fun session => session.Balanced rest) (Edit.Settled rest)) :
    Ends (Store.editBeside target source edit) store (fun _ after => after.Balanced 0) Settled := by
  refine ends_editBeside (fun _ _ _ => balanced.settled (by simp)) ?_ ?_
  · intro _ entry _ found _
    exact balanced.returned found (by simp)
  · intro kind other column _ _ found
    exact balanced.edited found (keeps kind other _)

/-- What is charged is two columns that are taken out one after the other, and what is left. -/
theorem charged_pair (balanced : store.Balanced 0) {source target : String} {giver receiver : Entry n}
    (given : store.columns.find? source = some giver)
    (held : (store.withoutColumn source).columns.find? target = some receiver) :
    store.ledger.allocated = ((store.withoutColumn source).withoutColumn target).charge +
      giver.column.charge + receiver.column.charge := by
  have both := (balanced.withoutColumn given).withoutColumn held
  rw [show store.ledger = ((store.withoutColumn source).withoutColumn target).ledger from rfl,
    both.charged]
  abel

theorem transferColumn (balanced : store.Balanced 0) (room : store.liveBytes < Word.size)
    (source target : String) :
    Ends (Store.transferColumn source target) store (fun _ after => after.Balanced 0) Settled := by
  refine ends_transferColumn (fun _ => balanced.settled (by simp)) ?_ ?_ ?_
  · intro giver given _
    exact balanced.returned given (by simp)
  · intro giver receiver given held _
    have taken := balanced.withoutColumn given
    have both := taken.withoutColumn held
    rw [add_right_comm] at both
    refine (both.putColumn (balanced.owns.of_find? given) source).mono_total ?_
    intro _ between placed
    refine (placed.putColumn (taken.owns.of_find? held) target).mono_total ?_
    exact fun _ after back => back.settled (by simp)
  · intro kind giver receiver given held
    have taken := balanced.withoutColumn given
    have both := taken.withoutColumn held
    refine (Exchange.transfer_balances ⟨giver, receiver, store.ledger⟩
      (balanced.charged_pair given held) balanced.inRange (taken.owns.of_find? held)
      (balanced.total.trans_lt room)).mono_total ?_
    intro _ exchange reached
    obtain ⟨after, inRange, gave, received, _⟩ := reached
    exact withExchange both.owns both.distinct after inRange gave received source target

theorem charged_block (balanced : store.Balanced 0) {block : Block n}
    (found : store.blocks.find? name = some block) :
    store.ledger.allocated = (store.withoutBlock name).charge + block.charge := by
  rw [balanced.charged, charge_withoutBlock found, zero_add]

theorem dropped (balanced : store.Balanced 0) {entry : Entry n}
    (found : store.columns.find? name = some entry) :
    Ends entry.column.release store.ledger
      (fun _ ledger => Balanced 0 { store.withoutColumn name with ledger }) (fun _ _ => False) := by
  have charged : store.ledger.allocated = (store.withoutColumn name).charge + entry.column.charge := by
    rw [balanced.charged, charge_withoutColumn found, zero_add]
  refine (Column.release_leaves charged balanced.inRange).mono_total ?_
  rintro _ ledger ⟨left, inRange⟩
  exact (balanced.withoutColumn found).withLedger (left.trans (zero_add _).symm) inRange

theorem droppedBlock (balanced : store.Balanced 0) {block : Block n}
    (found : store.blocks.find? name = some block) :
    Ends block.release store.ledger
      (fun _ ledger => Balanced 0 { store.withoutBlock name with ledger }) (fun _ _ => False) := by
  refine (Block.release_leaves (balanced.charged_block found) balanced.inRange).mono_total ?_
  rintro _ ledger ⟨left, inRange⟩
  exact (balanced.withoutBlock found).withLedger (left.trans (zero_add _).symm) inRange

theorem growBlock (balanced : store.Balanced 0) (name : String) (size : Nat) :
    Ends (Store.growBlock name size) store (fun _ after => after.Balanced 0) Settled := by
  refine ends_bind.mpr (ends_takeBlock (fun _ => balanced.settled (by simp)) fun block found => ?_)
  have taken := balanced.withoutBlock found
  have free := balanced.distinct.find?_self name
  by_cases enough : size ≤ block.size
  · rw [if_pos enough]
    exact (taken.putBlock name).mono_stop fun _ _ => False.elim
  · rw [if_neg enough]
    refine ends_bind.mpr (ends_tryCatch.mpr (ends_onLedger.mpr ((Block.enlarge_replaces
      (Nat.lt_of_not_le enough) (balanced.charged_block found) balanced.inRange).mono ?_ ?_)))
    · intro larger between reached
      obtain ⟨_, released⟩ := reached
      refine ends_bind.mpr (ends_putBlock_of_free free (ends_onLedger.mpr ?_))
      refine released.mono_total ?_
      intro _ last reached
      obtain ⟨total, inRange⟩ := reached
      have swapped : Balanced larger.charge { store.withoutBlock name with ledger := last } :=
        taken.withLedger (by rw [total, add_comm]) inRange
      rw [← zero_add larger.charge] at swapped
      exact swapped.withBlock free
    · intro failure last refused
      refine ends_bind.mpr (ends_putBlock_of_free free ?_)
      refine ⟨fun same => refused.ne_overdrawn (Fault.failed.inj same), ?_⟩
      rcases refused with ⟨_, same⟩ | rfl
      · have kept := taken.withLedger (same.trans taken.charged) (balanced.inRange.congr same)
        exact .inr (kept.withBlock free)
      · exact .inl rfl

theorem editBlock {α : Type} (balanced : store.Balanced 0) (name : String)
    {action : Block n → Accounting n (Block n × α)}
    (replaces : ∀ block, store.blocks.find? name = some block →
      Ends (action block) store.ledger
        (fun changed after =>
          after.allocated = (store.withoutBlock name).charge + changed.1.charge ∧ after.InRange)
        (fun failure after => failure = .outOfRange ∧ after = store.ledger)) :
    Ends (Store.editBlock name action) store (fun _ after => after.Balanced 0) Settled := by
  refine ends_editBlock balanced.distinct (fun _ => balanced.settled (by simp)) fun block found => ?_
  have taken := balanced.withoutBlock found
  have free := balanced.distinct.find?_self name
  refine (replaces block found).mono ?_ ?_
  · rintro ⟨changed, result⟩ last ⟨total, inRange⟩
    have swapped : Balanced changed.charge { store.withoutBlock name with ledger := last } :=
      taken.withLedger (by rw [total, add_comm]) inRange
    rw [← zero_add changed.charge] at swapped
    exact swapped.withBlock free
  · rintro failure last ⟨rfl, rfl⟩
    exact (taken.withBlock free).settled (by simp)

end Balanced

end Store

/-- Every command keeps the accounts exact and overdraws none. -/
theorem Command.balances (command : Command n) {store : Store n} (balanced : store.Balanced 0)
    (room : store.liveBytes < Word.size) :
    Ends command.run store (fun _ after => after.Balanced 0) Store.Settled := by
  have missing (name : String) : Store.Settled (.unknownName name) store :=
    balanced.settled (by simp)
  cases command with
  | create name kind field type account config =>
    refine ends_bind.mpr (Store.ends_newColumn (fun type => ?_) fun _ => balanced.settled (by simp))
    exact balanced.putNew name kind field type account config
  | drop name =>
    refine ends_bind.mpr (Store.ends_dropColumn (fun _ => missing name) fun entry found => ?_)
    exact (balanced.dropped found).mono_stop fun _ _ => False.elim
  | rename name new =>
    refine ends_bind.mpr (Store.ends_renameColumn (fun _ => missing name) fun entry found => ?_)
    exact ((balanced.withoutColumn found).putColumn (balanced.owns.of_find? found) new).mono
      (fun _ _ held => held) fun _ _ => False.elim
  | edit name kind call =>
    refine ends_bind.mpr (Store.ends_editColumn (fun _ => missing name) ?_ ?_)
    · intro entry found _
      exact balanced.returned found (by simp)
    · intro column found
      exact balanced.edited found (Edit.balancedInvariant.edits.call call)
  | copy target source safe sourceIndex targetIndex =>
    refine ends_bind.mpr (balanced.editBeside target source fun kind other rest => ?_)
    split
    · exact Edit.balancedInvariant.edits.copyFromSafe other sourceIndex targetIndex
    · exact Edit.balancedInvariant.edits.copyFrom other sourceIndex targetIndex
  | sibling source name field account =>
    refine ends_bind.mpr (Store.ends_findColumn (fun _ => missing source) fun entry _ => ?_)
    exact ends_bind.mpr (balanced.putNew name entry.kind field entry.column.field.type account _)
  | transfer source target => exact ends_bind.mpr (balanced.transferColumn room source target)
  | split source target start length =>
    exact ends_bind.mpr (balanced.editBeside target source fun kind other rest =>
      Edit.balancedInvariant.edits.split other start length)
  | allocateBlock name account size =>
    refine ends_bind.mpr (Store.ends_onLedger.mpr ((Block.allocate_ends _ account size).mono ?_ ?_))
    · intro block ledger reached
      obtain ⟨rfl, _, charged, bounded⟩ := reached
      have start : Store.Balanced (0 + Pi.single account (Block.roundUp size)) { store with ledger } := by
        refine balanced.withLedger ?_ (balanced.inRange.of_charge charged bounded)
        rw [charged, balanced.charged, add_right_comm]
      rw [← Block.charge_zeros] at start
      exact ends_bind.mpr ((start.putBlock name).mono_stop fun _ _ => False.elim)
    · intro failure ledger denied
      refine ⟨fun same => denied.refused.ne_overdrawn (Fault.failed.inj same), ?_⟩
      rcases denied with ⟨_, same⟩ | ⟨rfl, _⟩
      · exact .inr (balanced.withLedger (same.trans balanced.charged) (balanced.inRange.congr same))
      · exact .inl rfl
  | emptyBlock name account =>
    have start : store.Balanced (0 + (Block.empty account).charge) := by
      rwa [Block.charge_empty, add_zero]
    exact ends_bind.mpr ((start.putBlock name).mono_stop fun _ _ => False.elim)
  | dropBlock name =>
    refine ends_bind.mpr (Store.ends_dropBlock (fun _ => missing name) fun block found => ?_)
    exact (balanced.droppedBlock found).mono_stop fun _ _ => False.elim
  | growBlock name size => exact ends_bind.mpr (balanced.growBlock name size)
  | writeBlock name start run =>
    refine balanced.editBlock name fun block found => ?_
    cases fits : block.bytes.overwrite? start run with
    | none => exact ⟨rfl, rfl⟩
    | some bytes =>
      have same : (⟨bytes, block.account⟩ : Block n).charge = block.charge :=
        Block.charge_congr rfl (Bytes.size_of_overwrite? fits)
      exact ⟨(balanced.charged_block found).trans (by rw [same]), balanced.inRange⟩
  | zeroBlock name =>
    refine balanced.editBlock name fun block found => ?_
    have same : block.zeroed.charge = block.charge := Block.charge_congr rfl (Bytes.size_zeros _)
    exact ⟨(balanced.charged_block found).trans (by rw [same]), balanced.inRange⟩
  | moveBlock name target =>
    refine balanced.editBlock name fun block found => ?_
    refine ends_bind.mpr ((block.moveTo_ends target (balanced.charged_block found) balanced.inRange
      (balanced.total.trans_lt room)).mono_total ?_)
    intro moved ledger reached
    obtain ⟨_, charged, inRange, _⟩ := reached
    exact ⟨charged, inRange⟩

namespace Store

/-- The command has no request accepted that is larger than memory can be, and the live bytes that
it meets are a word. -/
def Fits (store : Store n) (command : Command n) : Prop :=
  command.fault? store ≠ some (.failed .tooLarge) ∧ store.liveBytes < Word.size

instance (store : Store n) (command : Command n) : Decidable (store.Fits command) :=
  inferInstanceAs
    (Decidable (command.fault? store ≠ some (.failed .tooLarge) ∧ store.liveBytes < Word.size))

theorem solvent_of_ends {store : Store n} {command : Command n} {good : Store n → Prop}
    {bad : Fault → Store n → Prop} (ends : Ends command.run store (fun _ => good) bad)
    (fine : ∀ {fault after}, bad fault after → fault ≠ .failed .overdrawn) : store.Solvent command := by
  rcases after_of_ends ends with ⟨well, _⟩ | ⟨fault, stopped, how⟩
  · rw [Solvent, well]
    simp
  · rw [Solvent, stopped]
    exact fun same => fine how (Option.some.inj same)

theorem Balanced.after {store : Store n} {command : Command n} (balanced : store.Balanced 0)
    (fits : store.Fits command) : (store.after command).Balanced 0 ∧ store.Solvent command := by
  have ends := command.balances balanced fits.2
  refine ⟨?_, solvent_of_ends ends And.left⟩
  rcases after_of_ends ends with ⟨_, kept⟩ | ⟨fault, stopped, _, kept⟩
  · exact kept
  · have small : fault ≠ .failed .tooLarge := by
      rintro rfl
      exact fits.1 stopped
    exact kept.resolve_left small

theorem Balanced.allocated_eq {store : Store n} (balanced : store.Balanced 0) (id : Fin n) :
    (store.ledger.account id).allocated = store.chargedTo id := by
  have charged := congrFun balanced.charged id
  rwa [zero_add, charge_eq, Block.charges_apply] at charged

theorem Balanced.allocated_eq_zero {store : Store n} (balanced : store.Balanced 0)
    (gone : ∀ block ∈ store.live, block.size = 0) (id : Fin n) :
    (store.ledger.account id).allocated = 0 := by
  rw [balanced.allocated_eq, chargedTo]
  apply List.sum_eq_zero
  intro size member
  obtain ⟨block, held, rfl⟩ := List.mem_map.mp member
  exact gone block (List.mem_filter.mp held).1

theorem balanced_runAll {limits : Vector Nat n} {commands : List (Command n)}
    (fits : (ofLimits limits).Along Fits commands) : ((ofLimits limits).runAll commands).Balanced 0 :=
  runAll_keeps (fun _ _ balanced fits => (balanced.after fits).1) (balanced_ofLimits limits) fits

/-- What every run keeps that fits: the accounts are exact, no two columns have one name, and every column
is bounded and sound. -/
structure Orderly (store : Store n) : Prop where
  balanced : store.Balanced 0
  bounded : store.All Column.Bounded
  depicts : ∃ picture, store.Depicts picture

namespace Orderly

theorem ofLimits (limits : Vector Nat n) : (ofLimits limits).Orderly :=
  ⟨balanced_ofLimits limits, all_ofLimits limits, _, depicts_ofLimits limits⟩

theorem distinct {store : Store n} (orderly : store.Orderly) : store.columns.Distinct :=
  have ⟨_, depicts⟩ := orderly.depicts
  depicts.distinct

theorem after {store : Store n} {command : Command n} (orderly : store.Orderly)
    (fits : store.Fits command) : (store.after command).Orderly ∧ store.Solvent command := by
  obtain ⟨picture, depicts⟩ := orderly.depicts
  obtain ⟨balanced, solvent⟩ := orderly.balanced.after fits
  have alone : store.Along Solvent [command] := ⟨solvent, trivial⟩
  exact ⟨⟨balanced, boundedColumns.after command orderly.bounded, _,
    depicts.runAll orderly.bounded alone⟩, solvent⟩

end Orderly

theorem orderly_runAll {limits : Vector Nat n} {commands : List (Command n)}
    (fits : (Store.ofLimits limits).Along Fits commands) :
    ((Store.ofLimits limits).runAll commands).Orderly :=
  runAll_keeps (fun _ _ orderly fits => (orderly.after fits).1) (.ofLimits limits) fits

end Store

end Columnar
