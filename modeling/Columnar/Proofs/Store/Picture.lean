import Columnar.Proofs.Store.Entries

/-! Runs of commands seen through what the columns show. A picture gives every column's slots as a
plain map. Commands that end well change it as their effect says and commands that stop leave it;
the columns of a store always show the picture. The one way out is an overdrawn account. -/

namespace Columnar

open Columnar.Action

variable {n : Nat}

/-- What a column of some kind shows. -/
structure Sheet where
  kind : Kind
  slots : Slots kind

namespace Sheet

def blank (kind : Kind) : Sheet := ⟨kind, Slots.blank⟩

def edit {kind : Kind} (call : Call kind) (sheet : Sheet) : Sheet :=
  if same : sheet.kind = kind then ⟨kind, call.effect (same ▸ sheet.slots)⟩ else sheet

def copy (other : Sheet) (source target : Nat) (sheet : Sheet) : Sheet :=
  if same : other.kind = sheet.kind then
    { sheet with slots := Function.update sheet.slots target (same ▸ other.slots source) }
  else sheet

def range (sheet : Sheet) (start length : Nat) : Sheet := ⟨sheet.kind, sheet.slots.range start length⟩

def bits (sheet : Sheet) (index : Nat) : Option Nat := (sheet.slots index).map BitVec.toNat

end Sheet

/-- What the columns of a store show, by name. -/
abbrev Picture := String → Option Sheet

/-- What a command that ends well makes of a picture. -/
def Command.effect : Command n → Picture → Picture
  | create name kind _ _ _ _, picture => Function.update picture name (some (.blank kind))
  | drop name, picture => Function.update picture name none
  | rename name new, picture =>
    Function.update (Function.update picture name none) new (picture name)
  | edit name _ call, picture => Function.update picture name ((picture name).map (Sheet.edit call))
  | copy target source _ sourceIndex targetIndex, picture =>
    Function.update picture target
      ((picture source).bind fun other =>
        (picture target).map (other.copy sourceIndex targetIndex))
  | sibling source name _ _, picture =>
    Function.update picture name ((picture source).map fun sheet => .blank sheet.kind)
  | transfer source target, picture =>
    Function.update
      (Function.update picture source ((picture source).map fun sheet => .blank sheet.kind))
      target (picture source)
  | split source target start length, picture =>
    Function.update picture target ((picture source).map fun sheet => sheet.range start length)
  | allocateBlock .., picture | emptyBlock .., picture | dropBlock .., picture
  | growBlock .., picture | writeBlock .., picture | zeroBlock .., picture
  | moveBlock .., picture => picture

def Entry.sheet (entry : Entry n) : Sheet := ⟨entry.kind, entry.column.get?⟩

namespace Store

/-- The columns are sound and show the picture. -/
structure Depicts (store : Store n) (picture : Picture) : Prop where
  distinct : store.columns.Distinct
  sound : ∀ {name entry}, store.columns.find? name = some entry → entry.column.Sound
  shows : ∀ name, (store.columns.find? name).map Entry.sheet = picture name

variable {store : Store n} {picture : Picture} {name : String} {entry : Entry n}

theorem depicts_ofLimits (limits : Vector Nat n) : (ofLimits limits).Depicts fun _ => none :=
  ⟨List.nodup_nil, fun found => (by cases found), fun _ => rfl⟩

namespace Depicts

theorem of_columns (depicts : store.Depicts picture) {other : Store n}
    (same : other.columns = store.columns) : other.Depicts picture :=
  ⟨same ▸ depicts.distinct, fun found => depicts.sound (same ▸ found), same ▸ depicts.shows⟩

theorem found (depicts : store.Depicts picture) (held : store.columns.find? name = some entry) :
    picture name = some entry.sheet := by
  rw [← depicts.shows, held, Option.map_some]

theorem without (depicts : store.Depicts picture) (name : String) :
    (store.withoutColumn name).Depicts (Function.update picture name none) where
  distinct := depicts.distinct.without name
  sound {other entry} held := by
    by_cases same : other = name
    · rw [withoutColumn, same, depicts.distinct.find?_self] at held
      cases held
    · rw [withoutColumn, Table.find?_without_of_ne _ same] at held
      exact depicts.sound held
  shows other := by
    by_cases same : other = name
    · rw [withoutColumn, same, depicts.distinct.find?_self, Function.update_self, Option.map_none]
    · rw [withoutColumn, Table.find?_without_of_ne _ same, Function.update_of_ne same, depicts.shows]

theorem put (depicts : store.Depicts picture) (free : store.columns.find? name = none) {kind : Kind}
    {column : Column n kind} {slots : Slots kind} (shows : column.Shows slots) :
    (store.withColumn name ⟨kind, column⟩).Depicts
      (Function.update picture name (some ⟨kind, slots⟩)) where
  distinct := depicts.distinct.put free _
  sound {other entry} held := by
    rw [withColumn, Table.find?_put] at held
    by_cases same : other = name
    · rw [if_pos same] at held
      cases held
      exact shows.sound
    · rw [if_neg same] at held
      exact depicts.sound held
  shows other := by
    rw [withColumn, Table.find?_put]
    by_cases same : other = name
    · rw [if_pos same, same, Function.update_self, Option.map_some, Entry.sheet, shows.reads]
    · rw [if_neg same, Function.update_of_ne same, depicts.shows]

theorem replace (depicts : store.Depicts picture) (name : String) {kind : Kind}
    {column : Column n kind} {slots : Slots kind} (shows : column.Shows slots) :
    ((store.withoutColumn name).withColumn name ⟨kind, column⟩).Depicts
      (Function.update picture name (some ⟨kind, slots⟩)) := by
  have placed := (depicts.without name).put (depicts.distinct.find?_self name) shows
  rwa [Function.update_idem] at placed

/-- A column that was taken out is put back and shows what it showed. -/
theorem putBack (depicts : store.Depicts picture) {kind : Kind} {column later : Column n kind}
    (held : store.columns.find? name = some ⟨kind, column⟩) (shows : later.Shows column.get?) :
    ((store.withoutColumn name).withColumn name ⟨kind, later⟩).Depicts picture := by
  have placed := depicts.replace name shows
  have same := depicts.found held
  rw [Entry.sheet] at same
  rwa [← same, Function.update_eq_self] at placed

theorem edited (depicts : store.Depicts picture) {kind : Kind} {column : Column n kind}
    {edit : Edit n kind Unit} {slots : Slots kind}
    (held : store.columns.find? name = some ⟨kind, column⟩)
    (turns : Edit.Turns edit column.get? slots) :
    Ends edit ⟨column, store.ledger⟩
      (fun _ session => ((store.withoutColumn name).withSession name session).Depicts
        (Function.update picture name (some ⟨kind, slots⟩)))
      (fun failure session => Fault.failed failure = .failed .overdrawn ∨
        ((store.withoutColumn name).withSession name session).Depicts picture) := by
  refine (turns _ (depicts.sound held).shows).mono ?_ ?_
  · intro _ session shows
    exact (depicts.replace name shows).of_columns rfl
  · intro failure session stopped
    rcases stopped with rfl | shows
    · exact .inl rfl
    · exact .inr ((depicts.putBack held shows).of_columns rfl)

theorem putColumn (depicts : store.Depicts picture) (name : String) {kind : Kind}
    {column : Column n kind} {slots : Slots kind} (shows : column.Shows slots) :
    Ends (putColumn name ⟨kind, column⟩) store
      (fun _ after => after.Depicts (Function.update picture name (some ⟨kind, slots⟩)))
      (fun fault _ => fault = .failed .overdrawn) := by
  refine ends_putColumn (fun free => depicts.put free shows) fun old _ => ?_
  refine (old.column.release_stops _).mono ?_ ?_
  · intro _ ledger _
    exact (depicts.replace name shows).of_columns rfl
  · intro _ _ overdrawn
    exact congrArg Fault.failed overdrawn

theorem putNew (depicts : store.Depicts picture) (name : String) (kind : Kind) (field : String)
    (type : FieldType) (account : Fin n) (config : Config) :
    Ends (Store.putColumn name ⟨kind, Column.ofType field type account config⟩) store
      (fun _ after => after.Depicts (Function.update picture name (some (.blank kind))))
      (fun fault after => fault = .failed .overdrawn ∨ after.Depicts picture) :=
  (depicts.putColumn name (Column.ofType_shows field type account config)).mono_stop fun _ _ => .inl

theorem returned (depicts : store.Depicts picture) (held : store.columns.find? name = some entry) :
    Ends (Store.putColumn name entry) (store.withoutColumn name)
      (fun _ after => after.Depicts picture) (fun fault _ => fault = .failed .overdrawn) := by
  refine ends_putColumn (fun _ => ?_) fun old second => ?_
  · exact depicts.putBack held (depicts.sound held).shows
  · rw [withoutColumn, depicts.distinct.find?_self] at second
    cases second

theorem editBeside (depicts : store.Depicts picture) {target source : String} {drawn : Option Sheet}
    {edit : (kind : Kind) → Column n kind → Edit n kind Unit}
    (turns : ∀ kind other column, store.columns.find? source = some ⟨kind, other⟩ →
      store.columns.find? target = some ⟨kind, column⟩ →
      ∃ slots, drawn = some ⟨kind, slots⟩ ∧ Edit.Turns (edit kind other) column.get? slots) :
    Ends (Store.editBeside target source edit) store
      (fun _ after => after.Depicts (Function.update picture target drawn))
      (fun fault after => fault = .failed .overdrawn ∨ after.Depicts picture) := by
  refine ends_editBeside (fun _ _ _ => .inr depicts) ?_ ?_
  · intro _ entry _ held _
    exact (depicts.returned held).mono (fun _ _ => .inr) fun _ _ => .inl
  · intro kind other column _ read held
    obtain ⟨slots, rfl, redraws⟩ := turns kind other column read held
    exact depicts.edited held redraws

/-- The first of two columns is gone before the second one is taken, so they have two names. -/
theorem ne_of_taken (depicts : store.Depicts picture) {source target : String}
    (held : (store.withoutColumn source).columns.find? target = some entry) : target ≠ source := by
  intro same
  rw [same, withoutColumn, depicts.distinct.find?_self] at held
  cases held

private theorem update_both {source target : String} (apart : target ≠ source)
    (first second : Option Sheet) :
    Function.update (Function.update (Function.update (Function.update picture source none) target none)
      source first) target second =
        Function.update (Function.update picture source first) target second := by
  rw [Function.update_comm apart, Function.update_idem, Function.update_idem]

theorem replaceBoth (depicts : store.Depicts picture) {source target : String}
    (apart : target ≠ source) {kind : Kind} {exchange : Exchange n kind} {gives takes : Slots kind}
    (gave : exchange.source.Shows gives) (received : exchange.target.Shows takes) :
    (((store.withoutColumn source).withoutColumn target).withExchange source target exchange).Depicts
      (Function.update (Function.update picture source (some ⟨kind, gives⟩)) target
        (some ⟨kind, takes⟩)) := by
  have free : ((store.withoutColumn source).withoutColumn target).columns.find? source = none := by
    rw [withoutColumn, Table.find?_without_of_ne _ (Ne.symm apart)]
    exact depicts.distinct.find?_self source
  have placed := ((depicts.without source).without target).put free gave
  have next : (((store.withoutColumn source).withoutColumn target).withColumn source
      ⟨kind, exchange.source⟩).columns.find? target = none := by
    rw [withColumn, Table.find?_put, if_neg apart]
    exact (depicts.without source).distinct.find?_self target
  have both := placed.put next received
  rw [update_both apart] at both
  exact both.of_columns rfl

theorem returnedBoth (depicts : store.Depicts picture) {source target : String}
    {giver receiver : Entry n} (given : store.columns.find? source = some giver)
    (held : (store.withoutColumn source).columns.find? target = some receiver) :
    Ends (Store.putColumn source giver) ((store.withoutColumn source).withoutColumn target)
      (fun _ between => Ends (Store.putColumn target receiver) between
        (fun _ after => after.Depicts picture) (fun fault _ => fault = .failed .overdrawn))
      (fun fault _ => fault = .failed .overdrawn) := by
  have apart := depicts.ne_of_taken held
  have start := (depicts.without source).without target
  have sourceSame := depicts.found given
  have targetSame := (depicts.without source).found held
  rw [Function.update_of_ne apart] at targetSame
  refine (start.putColumn source (depicts.sound given).shows).mono_post ?_
  intro _ between placed
  refine (placed.putColumn target ((depicts.without source).sound held).shows).mono_post ?_
  intro _ after both
  rw [update_both apart] at both
  change after.Depicts (Function.update (Function.update picture source (some giver.sheet)) target
    (some receiver.sheet)) at both
  rwa [← sourceSame, ← targetSame, Function.update_eq_self, Function.update_eq_self] at both

theorem transferColumn (depicts : store.Depicts picture) (source target : String) :
    Ends (Store.transferColumn source target) store
      (fun _ after => after.Depicts
        (Function.update
          (Function.update picture source ((picture source).map fun sheet => .blank sheet.kind))
          target (picture source)))
      (fun fault after => fault = .failed .overdrawn ∨ after.Depicts picture) := by
  refine ends_transferColumn (fun _ => .inr depicts) ?_ ?_ ?_
  · intro giver given _
    exact (depicts.returned given).mono (fun _ _ => .inr) fun _ _ => .inl
  · intro giver receiver given held _
    refine (depicts.returnedBoth given held).mono ?_ fun _ _ => .inl
    intro _ between back
    exact back.mono (fun _ _ => .inr) fun _ _ => .inl
  · intro kind giver receiver given held
    refine (Exchange.transfer_shows _ (depicts.sound given).shows).mono ?_ ?_
    · intro _ exchange reached
      obtain ⟨gave, received⟩ := reached
      rw [depicts.found given]
      exact depicts.replaceBoth (depicts.ne_of_taken held) gave received
    · intro _ exchange overdrawn
      exact .inl (congrArg Fault.failed overdrawn)

end Depicts

end Store

/-- A command that ends well has its effect on what the columns show, and one that stops has none,
unless an account was overdrawn. -/
theorem Command.depicts (command : Command n) {store : Store n} {picture : Picture}
    (depicts : store.Depicts picture) (bounded : store.All Column.Bounded) :
    Ends command.run store (fun _ after => after.Depicts (command.effect picture))
      (fun fault after => fault = .failed .overdrawn ∨ after.Depicts picture) := by
  have onBlocks (blocks : command.OnBlocks) (same : command.effect picture = picture) :
      Ends command.run store (fun _ after => after.Depicts (command.effect picture))
        (fun fault after => fault = .failed .overdrawn ∨ after.Depicts picture) := by
    rw [same]
    exact (blocks.keepsColumns store).mono (fun _ _ => depicts.of_columns)
      fun _ _ columns => .inr (depicts.of_columns columns)
  cases command with
  | create name kind field type account config =>
    refine ends_bind.mpr (Store.ends_newColumn (fun type => ?_) fun _ => .inr depicts)
    exact depicts.putNew name kind field type account config
  | drop name =>
    refine ends_bind.mpr (Store.ends_dropColumn (fun _ => .inr depicts) fun entry _ => ?_)
    refine (entry.column.release_stops _).mono ?_ ?_
    · intro _ ledger _
      exact (depicts.without name).of_columns rfl
    · rintro _ ledger rfl
      exact .inl rfl
  | rename name new =>
    refine ends_bind.mpr (Store.ends_renameColumn (fun _ => .inr depicts) fun entry held => ?_)
    refine ((depicts.without name).putColumn new (depicts.sound held).shows).mono ?_ fun _ _ => .inl
    intro _ after placed
    rw [Command.effect, depicts.found held]
    exact placed
  | edit name kind call =>
    refine ends_bind.mpr (Store.ends_editColumn (fun _ => .inr depicts) ?_ ?_)
    · intro entry held _
      exact (depicts.returned held).mono (fun _ _ => .inr) fun _ _ => .inl
    · intro column held
      have drawn : (picture name).map (Sheet.edit call) = some ⟨kind, call.effect column.get?⟩ := by
        rw [depicts.found held, Option.map_some, Entry.sheet, Sheet.edit, dif_pos rfl]
      rw [Command.effect, drawn]
      exact depicts.edited held (call.turns column.get?)
  | copy target source safe sourceIndex targetIndex =>
    refine ends_bind.mpr (depicts.editBeside fun kind other column read held => ?_)
    refine ⟨Function.update column.get? targetIndex (other.get? sourceIndex), ?_, ?_⟩
    · rw [depicts.found read, depicts.found held, Option.bind_some, Option.map_some, Entry.sheet,
        Entry.sheet, Sheet.copy, dif_pos rfl]
    · split
      · exact Edit.copyFromSafe_turns other sourceIndex targetIndex
      · exact Edit.copyFrom_turns other sourceIndex targetIndex
  | sibling source name field account =>
    refine ends_bind.mpr (Store.ends_findColumn (fun _ => .inr depicts) fun entry held => ?_)
    rw [Command.effect, depicts.found held]
    exact ends_bind.mpr (depicts.putNew name entry.kind field entry.column.field.type account _)
  | transfer source target => exact ends_bind.mpr (depicts.transferColumn source target)
  | split source target start length =>
    refine ends_bind.mpr (depicts.editBeside fun kind other column read _ => ?_)
    refine ⟨Slots.range other.get? start length, ?_, ?_⟩
    · rw [depicts.found read]
      rfl
    · exact Edit.split_turns other start length (bounded.of_find? read).capacity_lt
  | allocateBlock | emptyBlock | dropBlock | growBlock | writeBlock | zeroBlock | moveBlock =>
    exact onBlocks trivial rfl

namespace Store

/-- No account was overdrawn by the command. -/
def Solvent (store : Store n) (command : Command n) : Prop :=
  command.fault? store ≠ some (.failed .overdrawn)

instance (store : Store n) (command : Command n) : Decidable (store.Solvent command) :=
  inferInstanceAs (Decidable (command.fault? store ≠ some (.failed .overdrawn)))

/-- The picture after a run of commands, to which only those that end well contribute. -/
def replay : Store n → List (Command n) → Picture → Picture
  | _, [], picture => picture
  | store, command :: rest, picture =>
    replay (store.after command) rest
      (if command.fault? store = none then command.effect picture else picture)

theorem Depicts.runAll {store : Store n} {picture : Picture} {commands : List (Command n)}
    (depicts : store.Depicts picture) (bounded : store.All Column.Bounded)
    (solvent : store.Along Solvent commands) :
    (store.runAll commands).Depicts (store.replay commands picture) := by
  induction commands generalizing store picture with
  | nil => exact depicts
  | cons command rest ih =>
    obtain ⟨first, later⟩ := solvent
    have next := boundedColumns.after command bounded
    rw [replay]
    rcases after_of_ends (command.depicts depicts bounded) with ⟨well, drawn⟩ | ⟨fault, stopped, kept⟩
    · rw [if_pos well]
      exact ih drawn next later
    · have unharmed : (store.after command).Depicts picture := by
        rcases kept with rfl | same
        · exact absurd stopped first
        · exact same
      rw [if_neg (by simp [stopped])]
      exact ih unharmed next later

theorem soundColumn {limits : Vector Nat n} {commands : List (Command n)} {name : String} {kind : Kind}
    {column : Column n kind} (solvent : (ofLimits limits).Along Solvent commands)
    (found : ((ofLimits limits).runAll commands).columns.find? name = some ⟨kind, column⟩) :
    column.Sound :=
  ((depicts_ofLimits limits).runAll (all_ofLimits limits) solvent).sound found

theorem fault?_set {store : Store n} {name : String} {kind : Kind} {column : Column n kind}
    (held : store.columns.find? name = some ⟨kind, column⟩) {index : Nat}
    (inside : index < column.capacity) (value : Element kind) :
    (Command.edit name kind (.set index value)).fault? store = none := by
  have completes : Ends (Command.edit name kind (.set index value)).run store (fun _ _ => True)
      (fun _ _ => False) :=
    ends_bind.mpr (ends_editColumn_of_found held (Edit.set_completes inside value))
  exact (after_of_total completes).1

/-- After every run in which no account was overdrawn, every slot of every column shows what was
last written to it, and a value written within the capacity is always written. -/
theorem sheet_runAll (limits : Vector Nat n) (commands : List (Command n))
    (solvent : (ofLimits limits).Along Solvent commands) (name : String) :
    (((ofLimits limits).runAll commands).columns.find? name).map Entry.sheet =
        (ofLimits limits).replay commands (fun _ => none) name ∧
      ∀ entry index value, ((ofLimits limits).runAll commands).columns.find? name = some entry →
        index < entry.column.capacity →
        (Command.edit name entry.kind (.set index value)).fault?
          ((ofLimits limits).runAll commands) = none := by
  have depicts := (depicts_ofLimits limits).runAll (all_ofLimits limits) solvent
  refine ⟨depicts.shows name, ?_⟩
  intro entry index value held inside
  exact fault?_set held inside value

/-- A run in which one growth is refused and the column is handed over afterwards. -/
def handing : List (Command 2) :=
  [.create "x" .uint16 "x" none 0 {}, .edit "x" .uint16 (.allocate 8),
    .edit "x" .uint16 (.setSafe 1 7), .edit "x" .uint16 (.setSafe 40 9),
    .create "y" .uint16 "y" none 1 {}, .transfer "x" "y", .edit "y" .uint16 (.setNull 2)]

theorem sheet_runAll_handing :
    (ofLimits #v[40, 8]).Along Solvent handing ∧
      (((ofLimits #v[40, 8]).runAll handing).columns.find? "y").map Entry.sheet =
        (ofLimits #v[40, 8]).replay handing (fun _ => none) "y" ∧
      ((ofLimits #v[40, 8]).replay handing (fun _ => none) "y").map (·.bits 1) = some (some 7) :=
  ⟨by decide +kernel, (sheet_runAll _ _ (by decide +kernel) "y").1, by decide +kernel⟩

/-- A run that overdraws an account. A request larger than memory leaves its charge behind, the
forced charge of a transfer wraps around, and clearing stops with the bits still there. -/
def overdraft : List (Command 2) :=
  let config : Config := { maxAllocationBytes := Word.max }
  [.create "x" .uint8 "x" none 0 config, .edit "x" .uint8 (.allocate 4),
    .edit "x" .uint8 (.allocate (Word.size - 48)), .create "y" .uint8 "y" none 1 config,
    .edit "y" .uint8 (.allocate 64), .edit "y" .uint8 (.set 1 7),
    .edit "y" .uint8 (.setValueCount 2), .transfer "y" "x", .edit "x" .uint8 .clear]

/-- Slots that grow back after an overdraft show what was never written to them. -/
theorem sheet_runAll_overdraft :
    ¬ ∀ (limits : Vector Nat 2) (commands : List (Command 2)) (name : String),
      (((ofLimits limits).runAll commands).columns.find? name).map Entry.sheet =
        (ofLimits limits).replay commands (fun _ => none) name := by
  intro always
  let regrown := overdraft ++ [.edit "x" .uint8 (.setInitialCapacity 4), .edit "x" .uint8 .grow]
  have same := congrArg (Option.map (Sheet.bits · 1)) (always #v[Word.max, Word.max] regrown "x")
  revert same
  decide +kernel

end Store

end Columnar
