import Columnar.Proofs.Column.Origin
import Columnar.Proofs.Store.Volume

/-! What a column grows from after it has lost its memory. Along a run that uses the column in any way,
it is twice an initial capacity or twice a capacity that the column had, and never the default; except
after it came to hold no slots on purpose, by an allocation, a split or a transfer of none. -/

namespace Columnar

open Columnar.Action

variable {n : Nat} {kind : Kind} {name : String} {slots : Nat} {had : List Nat}

/-- The command leaves the column of that name alone, or uses it in some way other than setting its initial
capacity to zero. -/
inductive Command.Uses (name : String) (kind : Kind) (store : Store n) : Command n → Prop where
  | free {command : Command n} (free : name ∉ command.targets) : Uses name kind store command
  | edit {call : Call kind} (positive : call ≠ .setInitialCapacity 0) :
    Uses name kind store (.edit name kind call)
  | copy (source : String) (safe : Bool) (sourceIndex targetIndex : Nat) :
    Uses name kind store (.copy name source safe sourceIndex targetIndex)
  | split (source : String) (start length : Nat) : Uses name kind store (.split source name start length)
  | give {target : String} (apart : name ≠ target) : Uses name kind store (.transfer name target)
  | receive {source : String} {giver : Column n kind} (apart : source ≠ name)
    (given : store.columns.find? source = some ⟨kind, giver⟩) :
    Uses name kind store (.transfer source name)

namespace Command

/-- The command gives the column memory for no slots, or that of a column without any. -/
def Forgets (name : String) (store : Store n) : Command n → Prop
  | edit other _ call => other = name ∧ call = .allocate 0
  | split _ target _ length => target = name ∧ length = 0
  | transfer source target => target = name ∧ store.capacityOf source = 0
  | _ => False

instance (name : String) (store : Store n) (command : Command n) :
    Decidable (command.Forgets name store) :=
  match command with
  | edit .. | split .. | transfer .. => inferInstanceAs (Decidable (_ ∧ _))
  | create .. | drop _ | rename .. | copy .. | sibling .. | allocateBlock .. | emptyBlock ..
  | dropBlock _ | growBlock .. | writeBlock .. | zeroBlock _ | moveBlock .. => isFalse not_false

/-- The initial capacity that a command sets for the column of that name, if it is accepted. -/
def initial? (name : String) (store : Store n) (command : Command n) : Option Nat :=
  match command with
  | edit other _ call => if other = name ∧ command.fault? store = none then call.initial? else none
  | _ => none

/-- The number of slots to which a command grows the column of that name first. -/
def needs (name : String) : Command n → Nat
  | edit other _ call => if other = name then call.needs else 0
  | copy target _ safe _ targetIndex => if target = name ∧ safe then targetIndex + 1 else 0
  | _ => 0

/-- The capacities that a command passes with the column of that name. -/
def passed (name : String) (store : Store n) (command : Command n) : List Nat :=
  match store.columns.find? name with
  | some entry => Edit.passed (command.needs name) ⟨entry.column, store.ledger⟩
  | none => []

end Command

namespace Store

/-- The initial capacity of the column of that name after a run: the last that was accepted, or else the
one that it had. -/
def initial (name : String) : Nat → Store n → List (Command n) → Nat
  | slots, _, [] => slots
  | slots, store, command :: rest =>
    initial name ((command.initial? name store).getD slots) (store.after command) rest

/-- The capacities that the column of that name has in a run, those included that it only passes. -/
def capacities (name : String) : Store n → List (Command n) → List Nat
  | _, [] => []
  | store, command :: rest =>
    (store.after command).capacityOf name :: command.passed name store ++
      capacities name (store.after command) rest

/-- The column is still there and remembers the given number of slots, or a capacity that it has or had. -/
def Recalling (name : String) (kind : Kind) (slots : Nat) (had : List Nat) (after : Store n) : Prop :=
  ∃ later : Column n kind, after.Has name (some ⟨kind, later⟩) ∧ later.Recalls slots had

variable {store : Store n} {command : Command n} {column : Column n kind}

theorem passed_of_found (found : store.columns.find? name = some ⟨kind, column⟩) :
    command.passed name store = Edit.passed (command.needs name) ⟨column, store.ledger⟩ := by
  rw [Command.passed, found]

theorem recalling_of_has (has : store.Has name (some ⟨kind, column⟩)) :
    store.Recalling name kind column.remembered had :=
  ⟨column, has, .inl rfl⟩

/-- An edit that remembers a capacity at most, on the column as it is taken out and put back. -/
theorem recalling_of_rebases {edit : Edit n kind Unit}
    (rebases : Edit.Rebases edit ⟨column, store.ledger⟩ had) :
    Ends edit ⟨column, store.ledger⟩
      (fun _ session => ((store.withoutColumn name).withSession name session).Recalling name kind
        column.remembered had)
      (fun _ session => ((store.withoutColumn name).withSession name session).Recalling name kind
        column.remembered had) := by
  refine rebases.mono ?_ ?_
  · exact fun _ session recalls => ⟨session.column, find?_withSession_self _ name session, recalls⟩
  · exact fun _ session recalls => ⟨session.column, find?_withSession_self _ name session, recalls⟩

theorem recalling_of_vacating (vacating : store.Vacating name column) :
    store.Recalling name kind column.remembered had := by
  obtain ⟨later, has, rfl | ⟨_, same⟩⟩ := vacating
  · exact recalling_of_has has
  · exact ⟨later, has, .inl same⟩

theorem receive_recalling {source : String} {giver : Column n kind} (apart : source ≠ name)
    (found : store.columns.find? name = some ⟨kind, column⟩)
    (given : store.columns.find? source = some ⟨kind, giver⟩) (slots : 0 < giver.capacity) :
    Ends (transferColumn source name) store
      (fun _ after => after.Recalling name kind column.remembered had)
      (fun _ after => after.Recalling name kind column.remembered had) := by
  have held : (store.withoutColumn source).columns.find? name = some ⟨kind, column⟩ :=
    (Table.find?_without_of_ne _ apart.symm).trans found
  have moved := Exchange.transfer_remembers ⟨giver, column, store.ledger⟩ had slots
  refine ends_transferColumn_of_found given held (moved.mono ?_ ?_)
  · exact fun _ exchange recalls => ⟨_, (find?_withExchange store apart exchange).2.1, recalls.2⟩
  · exact fun _ exchange recalls => ⟨_, (find?_withExchange store apart exchange).2.1, recalls.2⟩

end Store

namespace Command

variable {store : Store n} {command : Command n} {column : Column n kind}

theorem initial?_of_free (free : name ∉ command.targets) : command.initial? name store = none := by
  cases command with
  | edit other own call =>
    have apart : other ≠ name := fun same => free (List.mem_singleton.mpr same.symm)
    exact if_neg fun held => apart held.1
  | _ => rfl

theorem initial_recalling {call : Call kind} {slots : Nat} {had : List Nat}
    (set : call.initial? = some slots) (found : store.columns.find? name = some ⟨kind, column⟩) :
    (store.after (edit name kind call)).Recalling name kind
      (((edit name kind call).initial? name store).getD column.remembered) had := by
  have ends : Action.Ends (edit name kind call : Command n).run store
      (fun _ after => after.Recalling name kind slots had)
      (fun _ after => after.Recalling name kind column.remembered had) := by
    refine ends_bind.mpr (Store.ends_editColumn_of_found found ?_)
    cases call with
    | setInitialCapacity capacity =>
      cases set
      refine (Edit.setInitialCapacity_remembers slots _).mono ?_ ?_
      · exact fun _ session same => ⟨_, Store.find?_withSession_self _ name session, .inl same⟩
      · exact fun _ session same => ⟨_, Store.find?_withSession_self _ name session, .inl same⟩
    | _ => cases set
  rcases Store.after_of_ends ends with ⟨fine, kept⟩ | ⟨fault, stopped, kept⟩
  · have accepted : (edit name kind call).initial? name store = some slots := by
      rw [initial?, if_pos ⟨rfl, fine⟩, set]
    rw [accepted]
    exact kept
  · have refused : (edit name kind call).initial? name store = none := by
      rw [initial?, if_neg fun held => by rw [stopped] at held; cases held.2]
    rw [refused]
    exact kept

/-- One command of such a run keeps the column, which then remembers the initial capacity that was set, or
what it did, or a capacity. -/
theorem Uses.recalling (uses : command.Uses name kind store) (spared : ¬ command.Forgets name store)
    (found : store.columns.find? name = some ⟨kind, column⟩) (remembers : 0 < column.remembered) :
    (store.after command).Recalling name kind ((command.initial? name store).getD column.remembered)
      (command.passed name store) := by
  have reaches {had : List Nat} (unset : command.initial? name store = none)
      (ends : Action.Ends command.run store
        (fun _ after => after.Recalling name kind column.remembered had)
        (fun _ after => after.Recalling name kind column.remembered had)) :
      (store.after command).Recalling name kind
        ((command.initial? name store).getD column.remembered) had := by
    rw [unset]
    exact Store.holds_after ends
  have beside {source : String} {edit : (kind : Kind) → Column n kind → Edit n kind Unit} {had : List Nat}
      (rebases : ∀ other : Column n kind, Edit.Rebases (edit kind other) ⟨column, store.ledger⟩ had) :
      Action.Ends (Store.editBeside name source edit) store
        (fun _ after => after.Recalling name kind column.remembered had)
        (fun _ after => after.Recalling name kind column.remembered had) :=
    Store.editBeside_has found (fun _ => Store.recalling_of_has) fun other =>
      Store.recalling_of_rebases (rebases other)
  cases uses with
  | free free =>
    rw [initial?_of_free free]
    exact Store.recalling_of_has ((Command.find?_after free store).trans found)
  | @edit call positive =>
    cases set : call.initial? with
    | none =>
      have unset : (Command.edit name kind call).initial? name store = none := by
        simp only [initial?, set, ite_self]
      have kept : call ≠ .allocate 0 := fun forgets => spared ⟨rfl, forgets⟩
      have needed : (Command.edit name kind call : Command n).needs name = call.needs := if_pos rfl
      rw [Store.passed_of_found found, needed]
      refine reaches unset (ends_bind.mpr (Store.ends_editColumn_of_found found ?_))
      exact Store.recalling_of_rebases (Call.rebases set kept remembers)
    | some slots => exact initial_recalling set found
  | copy source safe sourceIndex targetIndex =>
    refine reaches rfl (ends_bind.mpr (beside fun other => ?_))
    rw [Store.passed_of_found found]
    cases safe with
    | false => exact Edit.rebases_of_fixes fun _ => Edit.fixesInvariant.copyFrom other sourceIndex targetIndex
    | true =>
      have needed : (Command.copy name source true sourceIndex targetIndex : Command n).needs name =
          targetIndex + 1 := if_pos ⟨rfl, rfl⟩
      rw [needed]
      exact Edit.reserve_rebases (fun _ => Edit.fixesInvariant.copyFrom other sourceIndex targetIndex) _ _
  | split source start length =>
    have pos : 0 < length := Nat.pos_of_ne_zero fun none => spared ⟨rfl, none⟩
    exact reaches rfl (ends_bind.mpr (beside fun other => Edit.split_rebases other start pos _))
  | give apart =>
    refine reaches rfl (ends_bind.mpr ((Store.transferColumn_vacates apart found).mono ?_ ?_))
    · exact fun _ _ => Store.recalling_of_vacating
    · exact fun _ _ => Store.recalling_of_vacating
  | receive apart given =>
    have slots : 0 < Column.capacity _ := Nat.pos_of_ne_zero fun none =>
      spared ⟨rfl, (Store.capacityOf_of_found given).trans none⟩
    exact reaches rfl (ends_bind.mpr (Store.receive_recalling apart found given slots))

theorem Uses.initial?_pos (uses : command.Uses name kind store) {slots : Nat}
    (set : command.initial? name store = some slots) : 0 < slots := by
  cases uses with
  | free free =>
    rw [initial?_of_free free] at set
    cases set
  | @edit call positive =>
    obtain ⟨_, set⟩ := Option.ite_none_right_eq_some.mp set
    cases call with
    | setInitialCapacity capacity =>
      cases set
      exact Nat.pos_of_ne_zero fun none => positive (congrArg Call.setInitialCapacity none)
    | _ => cases set
  | copy | split | give | receive => cases set

end Command

namespace Store

variable {store : Store n} {commands : List (Command n)} {column : Column n kind}

/-- Along a run the column remembers the last initial capacity, or a capacity that it had. -/
theorem runAll_recalls {past : List Nat}
    (uses : store.Along (fun store command => command.Uses name kind store) commands)
    (spared : store.Along (fun store command => ¬ command.Forgets name store) commands)
    (found : store.columns.find? name = some ⟨kind, column⟩) (remembers : 0 < column.remembered)
    (origin : column.remembered = slots ∨ column.remembered ∈ past) :
    ∃ later : Column n kind, (store.runAll commands).columns.find? name = some ⟨kind, later⟩ ∧
      0 < later.remembered ∧ (later.remembered = store.initial name slots commands ∨
        later.remembered ∈ past ++ store.capacities name commands) := by
  induction commands generalizing store column slots past with
  | nil => exact ⟨column, found, remembers, by simpa [initial, capacities] using origin⟩
  | cons command rest ih =>
    obtain ⟨later, has, recalls⟩ := uses.1.recalling spared.1 found remembers
    have capacity : (store.after command).capacityOf name = later.capacity := capacityOf_of_found has
    let passed := (store.after command).capacityOf name :: command.passed name store
    have held : 0 < later.remembered ∧ (later.remembered = (command.initial? name store).getD slots ∨
        later.remembered ∈ past ++ passed) := by
      rcases recalls with same | ⟨pos, had⟩
      · cases set : command.initial? name store with
        | none =>
          rw [set] at same
          exact ⟨same ▸ remembers, origin.imp same.trans fun had => List.mem_append_left _ (same ▸ had)⟩
        | some slots =>
          rw [set] at same
          exact ⟨same ▸ uses.1.initial?_pos set, .inl same⟩
      · have newer : later.remembered ∈ passed := by
          simp only [passed, capacity]
          exact had
        exact ⟨pos, .inr (List.mem_append_right _ newer)⟩
    obtain ⟨last, found, pos, origin⟩ := ih uses.2 spared.2 has held.1 held.2
    refine ⟨last, found, pos, ?_⟩
    rw [initial, capacities]
    rwa [List.append_assoc] at origin

/-- A column that never holds no slots on purpose remembers its last initial capacity or a capacity that it
had, and grows from that. -/
theorem origin_runAll {field : String} {type : FieldType} {account : Fin n} {config : Config}
    (made : store.columns.find? name = some ⟨kind, .ofType field type account config⟩)
    (positive : 1 ≤ config.initialCapacity)
    (uses : store.Along (fun store command => command.Uses name kind store) commands)
    (spared : store.Along (fun store command => ¬ command.Forgets name store) commands) :
    ∃ column : Column n kind, (store.runAll commands).columns.find? name = some ⟨kind, column⟩ ∧
      0 < column.remembered ∧
      (column.remembered = store.initial name config.initialCapacity commands ∨
        column.remembered ∈ store.capacities name commands) ∧
      (column.capacity = 0 → column.growthBase = column.remembered) ∧
      ∀ ledger : Ledger n,
        (column.values.size = 0 → column.validity.size = 0 → Ends Edit.grow ⟨column, ledger⟩
          (fun _ after =>
            after.column.values.size = Block.roundUp (2 * column.remembered * kind.width) ∧
            after.column.validity.size = Block.roundUp (Bitmap.bytesFor (2 * column.remembered)))
          (fun _ _ => True)) ∧
        Ends Edit.allocateRemembered ⟨column, ledger⟩
          (fun _ after => 0 < after.column.capacity ∧ column.remembered ≤ after.column.capacity)
          (fun _ _ => True) := by
  have fresh : config.initialCapacity = config.initialCapacity ∨ config.initialCapacity ∈ [] := .inl rfl
  obtain ⟨column, found, remembers, origin⟩ := runAll_recalls uses spared made positive fresh
  refine ⟨column, found, remembers, origin, fun none => column.growthBase_of_remembered none remembers, ?_⟩
  intro ledger
  refine ⟨fun values validity => Edit.grow_from_nothing remembers values validity, ?_⟩
  refine (Edit.allocate_ends ⟨column, ledger⟩ column.remembered).mono ?_ fun _ _ _ => trivial
  intro _ after taken
  rw [taken]
  have enough := column.le_capacity_renewed column.remembered
  exact ⟨remembers.trans_le enough, enough⟩

/-- A run that writes beyond the first growth of a column and clears it. -/
def outgrowing : List (Command 1) :=
  [.edit "x" .uint8 (.setSafe 40 1), .edit "x" .uint8 .clear]

private theorem made_ten : ((ofLimits #v[Word.max]).runAll (making 0 10)).columns.find? "x" =
    some ⟨.uint8, .ofType "x" ⟨true, Kind.uint8.dataType⟩ 0 { initialCapacity := 10 }⟩ := by
  cbv

theorem origin_runAll_outgrowing :
    let store := (ofLimits #v[Word.max]).runAll (making 0 10)
    store.capacities "x" outgrowing = [64, 32, 64, 0] ∧ ∃ column : Column 1 .uint8,
      (store.runAll outgrowing).columns.find? "x" = some ⟨.uint8, column⟩ ∧
        0 < column.remembered ∧ (column.remembered = 10 ∨ column.remembered ∈ [64, 32, 64, 0]) := by
  intro store
  have capacities : store.capacities "x" outgrowing = [64, 32, 64, 0] := by decide +kernel
  have initial : store.initial "x" 10 outgrowing = 10 := by decide +kernel
  have uses : store.Along (fun store command => command.Uses "x" .uint8 store) outgrowing :=
    ⟨.edit (by decide), .edit (by decide), trivial⟩
  obtain ⟨column, found, remembers, origin, _⟩ :=
    origin_runAll made_ten (by decide) uses (by decide +kernel)
  rw [initial, capacities] at origin
  exact ⟨capacities, column, found, remembers, origin⟩

/-- A column that is given the blocks of a column without any grows from the default, and not from its own
initial capacity. -/
theorem origin_runAll_forgotten :
    ¬ ∀ (store : Store 1) (name : String) (kind : Kind) (field : String) (type : FieldType)
        (account : Fin 1) (config : Config) (commands : List (Command 1)) (column : Column 1 kind),
      store.columns.find? name = some ⟨kind, .ofType field type account config⟩ →
        1 ≤ config.initialCapacity →
        store.Along (fun store command => command.Uses name kind store) commands →
        (store.runAll commands).columns.find? name = some ⟨kind, column⟩ → column.capacity = 0 →
        column.growthBase = store.initial name config.initialCapacity commands ∨
          column.growthBase ∈ store.capacities name commands := by
  intro always
  let store : Store 1 := (ofLimits #v[Word.max]).runAll
    (making 0 10 ++ [.create "y" .uint8 "y" none 0 {}])
  have made : store.columns.find? "x" =
      some ⟨.uint8, .ofType "x" ⟨true, Kind.uint8.dataType⟩ 0 { initialCapacity := 10 }⟩ := by
    cbv
  have given : store.columns.find? "y" = some ⟨.uint8, .empty "y" 0 {}⟩ := by
    cbv
  have uses : store.Along (fun store command => command.Uses "x" .uint8 store) [.transfer "y" "x"] :=
    ⟨.receive (by decide) given, trivial⟩
  have left : (store.runAll [.transfer "y" "x"]).columns.find? "x" = some ⟨.uint8,
      { (Column.empty "x" 0 { initialCapacity := 10 } : Column 1 .uint8) with remembered := 0 }⟩ := by
    cbv
  have origin := always store "x" .uint8 "x" _ 0 _ _ _ made (by decide) uses left (by decide)
  revert origin
  decide +kernel

end Store

end Columnar
