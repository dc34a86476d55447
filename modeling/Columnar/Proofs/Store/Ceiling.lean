import Columnar.Proofs.Column.Ceiling
import Columnar.Proofs.Store.Frame
import Columnar.Proofs.Store.Volume

namespace Columnar

open Columnar.Action

variable {n : Nat} {name : String}

theorem slimColumns : ColumnContract (n := n) Column.Slim
    (fun failure {_} column => failure = .overdrawn ∨ column.Slim) where
  new := Column.slim_ofType
  edits := Edit.slimInvariant
  transfer exchange both := by
    refine (Exchange.transfer_ends exchange).mono ?_ fun _ _ overdrawn => ⟨.inl overdrawn, .inl overdrawn⟩
    rintro _ after ⟨gave, received⟩
    exact ⟨gave ▸ exchange.source.slim_emptied, received ▸ both.1.receiving exchange.target⟩

namespace Store

def memoryOf (store : Store n) (name : String) : Nat :=
  match store.columns.find? name with
  | some entry => entry.column.values.size + entry.column.validity.size
  | none => 0

/-- The column of that name had memory, and has given it away. -/
def Gave (source : String) (store after : Store n) : Prop :=
  0 < store.memoryOf source ∧ after.memoryOf source = 0

instance (source : String) (store after : Store n) : Decidable (store.Gave source after) :=
  inferInstanceAs (Decidable (_ ∧ _))

end Store

namespace Command

/-- The name that a column has after a command. -/
def renames (name : String) : Command n → String
  | rename old new => if old = name then new else name
  | _ => name

/-- The command leaves the column of that name where it is, or puts it elsewhere, and gives it no blocks of
another column. -/
inductive Spares (name : String) (store : Store n) : Command n → Prop where
  | kept {command : Command n} (still : command.renames name = name)
    (same : (store.after command).columns.find? name = store.columns.find? name) :
    Spares name store command
  | edit (kind : Kind) (call : Call kind) : Spares name store (.edit name kind call)
  | copy (source : String) (safe : Bool) (sourceIndex targetIndex : Nat) :
    Spares name store (.copy name source safe sourceIndex targetIndex)
  | split (source : String) (start length : Nat) : Spares name store (.split source name start length)
  | rename (new : String) : Spares name store (.rename name new)
  | give {target : String} (apart : name ≠ target) : Spares name store (.transfer name target)
  | receive {source : String} {kind : Kind} {giver receiver : Column n kind} (apart : source ≠ name)
    (given : store.columns.find? source = some ⟨kind, giver⟩)
    (held : store.columns.find? name = some ⟨kind, receiver⟩)
    (nothing : ¬ store.Gave source (store.after (.transfer source name))) :
    Spares name store (.transfer source name)

end Command

namespace Store

def lastName (name : String) (commands : List (Command n)) : String :=
  commands.foldl (fun name command => command.renames name) name

/-- Every command of the run spares the column, under the name that it has by then. -/
def SparedAlong (name : String) : Store n → List (Command n) → Prop
  | _, [] => True
  | store, command :: rest =>
    command.Spares name store ∧ SparedAlong (command.renames name) (store.after command) rest

/-- The name stands for a column that has the property. -/
def Holding (name : String) (inv : {kind : Kind} → Column n kind → Prop) (store : Store n) : Prop :=
  ∃ entry, store.columns.find? name = some entry ∧ inv entry.column

namespace Holding

variable {store : Store n} {inv : {kind : Kind} → Column n kind → Prop} {config : Config}

theorem putColumn {entry : Entry n} (holds : inv entry.column) (name : String) :
    Ends (putColumn name entry) store (fun _ => Holding name inv) (fun _ => Holding name inv) :=
  (putColumn_has name entry).mono (fun _ _ has => ⟨entry, has, holds⟩)
    fun _ _ has => ⟨entry, has, holds⟩

theorem editColumn {kind : Kind} {edit : Edit n kind Unit}
    (keeps : Keeps edit (fun session => inv session.column) (fun _ session => inv session.column)) :
    Keeps (editColumn name kind edit) (Holding name inv) (fun _ => Holding name inv) := by
  intro store holding
  obtain ⟨entry, found, holds⟩ := holding
  refine ends_editColumn (fun _ => ⟨entry, found, holds⟩) ?_ ?_
  · intro other held _
    rw [found] at held
    cases held
    exact Holding.putColumn holds name
  · intro column held
    rw [found] at held
    cases held
    refine (keeps ⟨column, store.ledger⟩ holds).mono ?_ ?_
    · exact fun _ session kept => ⟨_, find?_withSession_self _ name session, kept⟩
    · exact fun _ session kept => ⟨_, find?_withSession_self _ name session, kept⟩

theorem editBeside {source : String} {edit : (kind : Kind) → Column n kind → Edit n kind Unit}
    (keeps : ∀ kind other, Keeps (edit kind other) (fun session => inv session.column)
      (fun _ session => inv session.column)) :
    Keeps (editBeside name source edit) (Holding name inv) (fun _ => Holding name inv) := by
  intro store holding
  obtain ⟨⟨kind, column⟩, found, holds⟩ := holding
  refine editBeside_has found (fun _ has => ⟨_, has, holds⟩) fun other => ?_
  refine (keeps kind other ⟨column, store.ledger⟩ holds).mono ?_ ?_
  · exact fun _ session kept => ⟨_, find?_withSession_self _ name session, kept⟩
  · exact fun _ session kept => ⟨_, find?_withSession_self _ name session, kept⟩

theorem renameColumn (holding : store.Holding name inv) (new : String) :
    Ends (renameColumn name new) store (fun _ => Holding new inv) (fun _ => Holding new inv) := by
  obtain ⟨entry, found, holds⟩ := holding
  refine ends_renameColumn ?_ ?_
  · intro missing
    rw [found] at missing
    cases missing
  · intro other held
    rw [found] at held
    cases held
    exact Holding.putColumn holds new

/-- A column that gives its blocks away has none, or has all that it had. -/
theorem give {target : String} (holding : store.Holding name (Column.Capped config)) (apart : name ≠ target) :
    Ends (transferColumn name target) store (fun _ => Holding name (Column.Capped config))
      (fun _ => Holding name (Column.Capped config)) := by
  obtain ⟨⟨kind, column⟩, found, capped⟩ := holding
  have moved (receiver : Column n kind) : Ends Exchange.transfer ⟨column, receiver, store.ledger⟩
      (fun _ after => after.source.Capped config) (fun _ after => after.source.Capped config) := by
    have given (after : Exchange n kind) (handed : Exchange.Handed ⟨column, receiver, store.ledger⟩ after) :
        after.source.Capped config :=
      Column.capped_of_nothing (handed.sourceConfig.trans capped.1) handed.sourceValues handed.sourceValidity
    refine (Exchange.transfer_leaves _).mono (fun _ => given) ?_
    rintro _ after (parted | handed)
    · exact parted.source ▸ capped
    · exact given after handed
  refine (transferColumn_gives apart found capped moved).mono ?_ ?_
  · rintro _ after ⟨later, has, kept⟩
    exact ⟨_, has, kept⟩
  · rintro _ after ⟨later, has, kept⟩
    exact ⟨_, has, kept⟩

/-- A column that is given nothing has no values left, or all that it had. -/
theorem receive {kind : Kind} {giver receiver : Column n kind} {source : String} (apart : source ≠ name)
    (given : store.columns.find? source = some ⟨kind, giver⟩)
    (held : store.columns.find? name = some ⟨kind, receiver⟩) (capped : receiver.Capped config) :
    Ends (transferColumn source name) store
      (fun _ after => ¬ store.Gave source after → after.Holding name (Column.Capped config))
      (fun _ after => ¬ store.Gave source after → after.Holding name (Column.Capped config)) := by
  have there : (store.withoutColumn source).columns.find? name = some ⟨kind, receiver⟩ :=
    (Table.find?_without_of_ne _ apart.symm).trans held
  have memory : store.memoryOf source = giver.values.size + giver.validity.size := by
    rw [memoryOf, given]
  have handed (exchange : Exchange n kind)
      (handed : Exchange.Handed ⟨giver, receiver, store.ledger⟩ exchange)
      (nothing : ¬ store.Gave source
        (((store.withoutColumn source).withoutColumn name).withExchange source name exchange)) :
      exchange.target.Capped config := by
    have left : Store.memoryOf
        (((store.withoutColumn source).withoutColumn name).withExchange source name exchange) source = 0 := by
      rw [memoryOf, (find?_withExchange store apart exchange).1]
      exact Nat.add_eq_zero_iff.mpr ⟨handed.sourceValues, handed.sourceValidity⟩
    -- The giver ends without memory, so one that gave nothing had none, and none has arrived.
    have none : giver.values.size + giver.validity.size = 0 := by
      rw [Gave, memory] at nothing
      exact Nat.eq_zero_of_not_pos fun some => nothing ⟨some, left⟩
    obtain ⟨values, validity⟩ := Nat.add_eq_zero_iff.mp none
    exact Column.capped_of_nothing (handed.targetConfig.trans capped.1) (handed.targetValues.trans values)
      (handed.targetValidity.trans validity)
  refine ends_transferColumn_of_found given there ((Exchange.transfer_leaves _).mono ?_ ?_)
  · exact fun _ exchange done nothing =>
      ⟨_, (find?_withExchange store apart exchange).2.1, handed exchange done nothing⟩
  · rintro _ exchange (parted | done) nothing
    · exact ⟨_, (find?_withExchange store apart exchange).2.1,
        parted.targetConfig.trans capped.1, parted.sized (Column.asked_ceiling kind) capped.2⟩
    · exact ⟨_, (find?_withExchange store apart exchange).2.1, handed exchange done nothing⟩

end Holding

end Store

theorem Command.Spares.holding {store : Store n} {command : Command n} {config : Config}
    (spares : command.Spares name store) (holding : store.Holding name (Column.Capped config)) :
    (store.after command).Holding (command.renames name) (Column.Capped config) := by
  have edits (kind : Kind) : Edit.EditInvariant (fun session : Session n kind => session.column.Capped config)
      (fun _ session => session.column.Capped config) := Edit.cappedInvariant config
  cases spares with
  | kept still same =>
    obtain ⟨entry, found, capped⟩ := holding
    rw [still]
    exact ⟨entry, same.trans found, capped⟩
  | edit kind call =>
    exact Store.holds_after (ends_bind.mpr (Store.Holding.editColumn ((edits kind).call call) store holding))
  | copy source safe sourceIndex targetIndex =>
    refine Store.holds_after (ends_bind.mpr (Store.Holding.editBeside (fun kind other => ?_) store holding))
    cases safe with
    | false => exact (edits kind).copyFrom other sourceIndex targetIndex
    | true => exact (edits kind).copyFromSafe other sourceIndex targetIndex
  | split source start length =>
    exact Store.holds_after (ends_bind.mpr
      (Store.Holding.editBeside (fun kind other => (edits kind).split other start length) store holding))
  | rename new =>
    rw [show (Command.rename name new : Command n).renames name = new from if_pos rfl]
    exact Store.holds_after (ends_bind.mpr (holding.renameColumn new))
  | give apart => exact Store.holds_after (ends_bind.mpr (holding.give apart))
  | @receive source kind giver receiver apart given held nothing =>
    obtain ⟨entry, found, capped⟩ := holding
    rw [held] at found
    cases found
    have kept : Action.Ends (Command.transfer source name).run store
        (fun _ after => ¬ store.Gave source after → after.Holding name (Column.Capped config))
        (fun _ after => ¬ store.Gave source after → after.Holding name (Column.Capped config)) :=
      ends_bind.mpr (Store.Holding.receive apart given held capped)
    exact Store.holds_after kept nothing

namespace Store

variable {store : Store n} {commands : List (Command n)}

theorem runAll_holding {config : Config} (spared : store.SparedAlong name commands)
    (holding : store.Holding name (Column.Capped config)) :
    (store.runAll commands).Holding (lastName name commands) (Column.Capped config) := by
  induction commands generalizing store name with
  | nil => exact holding
  | cons command rest ih => exact ih spared.2 (spared.1.holding holding)

theorem slim_runAll {limits : Vector Nat n} (solvent : (ofLimits limits).Along Solvent commands) :
    ((ofLimits limits).runAll commands).All Column.Slim := by
  refine slimColumns.runAll ?_ limits commands solvent
  intro store command failure solvent stopped pair _ lost
  rcases lost with rfl | slim
  · exact absurd stopped solvent
  · exact slim

/-- A column that is given no blocks of another never has one longer than its configured maximum, rounded up.
Without an overdraft no column has a validity block longer than its values. -/
theorem ceiling_runAll :
    (∀ (store : Store n) (name : String) (kind : Kind) (field : String) (type : FieldType)
        (account : Fin n) (config : Config) (commands : List (Command n)),
      store.columns.find? name = some ⟨kind, .ofType field type account config⟩ →
      store.SparedAlong name commands →
      ∃ entry, (store.runAll commands).columns.find? (lastName name commands) = some entry ∧
        entry.column.config = config ∧
        entry.column.values.size ≤ Block.roundUp entry.column.config.maxAllocationBytes ∧
        entry.column.validity.size ≤ Block.roundUp entry.column.config.maxAllocationBytes) ∧
    ∀ (limits : Vector Nat n) (commands : List (Command n)), (ofLimits limits).Along Solvent commands →
      ∀ pair ∈ ((ofLimits limits).runAll commands).columns.entries,
        pair.2.column.validity.size ≤ pair.2.column.values.size := by
  constructor
  · intro store name kind field type account config commands made spared
    have capped : (Column.ofType field type account config : Column n kind).Capped config :=
      ⟨rfl, Column.Sized.ofType (Column.asked_ceiling kind) field type account config⟩
    obtain ⟨entry, found, same, kept⟩ := runAll_holding spared ⟨_, made, capped⟩
    exact ⟨entry, found, same, kept.values, kept.validity⟩
  · exact fun limits commands solvent pair member => (slim_runAll solvent pair member).le

/-- A run that makes a column whose values may take twenty bytes. -/
def bounding (account : Fin n) : List (Command n) :=
  [.create "x" .uint8 "x" none account { maxAllocationBytes := 20 }]

/-- A run that fills the column up, renames it and asks for more. -/
def topping (account : Fin n) : List (Command n) :=
  [.edit "x" .uint8 (.allocate 20), .create "y" .uint8 "y" none account {}, .rename "x" "z",
    .edit "z" .uint8 .grow]

private theorem find?_bounding : ((ofLimits #v[Word.max]).runAll (bounding 0)).columns.find? "x" =
    some ⟨.uint8, .ofType "x" ⟨true, Kind.uint8.dataType⟩ 0 { maxAllocationBytes := 20 }⟩ := by
  cbv

theorem ceiling_runAll_topping :
    let reached := ((ofLimits #v[Word.max]).runAll (bounding 0)).runAll (topping 0)
    (∃ entry, reached.columns.find? "z" = some entry ∧ entry.column.config = { maxAllocationBytes := 20 } ∧
        entry.column.values.size ≤ Block.roundUp entry.column.config.maxAllocationBytes ∧
        entry.column.validity.size ≤ Block.roundUp entry.column.config.maxAllocationBytes) ∧
      reached.memoryOf "z" = 48 ∧
      ∀ pair ∈ ((ofLimits #v[40, 8]).runAll handing).columns.entries,
        pair.2.column.validity.size ≤ pair.2.column.values.size := by
  intro reached
  have spared : ((ofLimits #v[Word.max]).runAll (bounding 0)).SparedAlong "x" (topping 0) :=
    ⟨.edit .uint8 _, .kept rfl (Command.find?_after (by decide) _), .rename "z", .edit .uint8 _, trivial⟩
  exact ⟨ceiling_runAll.1 _ "x" .uint8 "x" _ 0 _ (topping 0) find?_bounding spared, by decide +kernel,
    ceiling_runAll.2 #v[40, 8] handing (by decide +kernel)⟩

/-- A clearing that an overdraft cuts off leaves a validity block without values. -/
theorem ceiling_runAll_overdraft :
    ¬ ∀ (limits : Vector Nat 2) (commands : List (Command 2)),
      ∀ pair ∈ ((ofLimits limits).runAll commands).columns.entries,
        pair.2.column.validity.size ≤ pair.2.column.values.size := by
  intro always
  have longer := always #v[Word.max, Word.max] overdraft
  revert longer
  decide +kernel

end Store

end Columnar
