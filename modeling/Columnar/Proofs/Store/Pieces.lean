import Columnar.Proofs.Reader
import Columnar.Proofs.Store.Frame
import Columnar.Proofs.Store.Slotwise

namespace Columnar

open Columnar.Action

variable {n : Nat} {kind : Kind}

/-- What a command does to have memory of its own: for a split of a column of that kind this is taking
new memory. -/
def Command.request (kind : Kind) : Command n → Command n
  | split _ target _ length => edit target kind (.allocate length)
  | command => command

namespace Store

variable {store : Store n} {source target : String} {start length : Nat}
variable {other : Column n kind} {pieces : List (String × Nat)} {parts : List (Column n kind)}

/-- The memory that the command asks for is to be had. -/
def Granted (kind : Kind) (store : Store n) (command : Command n) : Prop :=
  store.Succeeds (command.request kind)

instance (kind : Kind) (store : Store n) (command : Command n) : Decidable (Granted kind store command) :=
  inferInstanceAs (Decidable (_ = _))

/-- A column of the kind stands under the name. -/
def Stands (kind : Kind) (store : Store n) (name : String) : Prop :=
  ∃ column : Column n kind, store.columns.find? name = some ⟨kind, column⟩

theorem split_granted {column : Column n kind} (apart : target ≠ source)
    (read : store.columns.find? source = some ⟨kind, other⟩)
    (held : store.columns.find? target = some ⟨kind, column⟩) (bounded : other.capacity < Word.size)
    (inside : start + length ≤ other.capacity)
    (granted : store.Granted kind (.split source target start length)) :
    store.Succeeds (.split source target start length) ∧
      ∃ filled : Column n kind, filled.Filled (column.renewed length) other start length ∧
        ({ filled with count := length } : Column n kind).Holds other start length ∧
        (store.after (.split source target start length)).columns.find? target =
          some ⟨kind, { filled with count := length }⟩ := by
  cases ran : Edit.allocate length ⟨column, store.ledger⟩ with
  | ok _ fresh =>
    have renewed : fresh.column = column.renewed length := (Edit.allocate_ends _ length).of_ok ran
    obtain ⟨filled, ledger, bulk, fill, _⟩ := Edit.split_eq inside bounded ran
    obtain ⟨succeeds, after⟩ := (edits_split apart read held start length).after bulk
    have holds := ((Edit.split_ends other start length _ bounded).of_ok bulk).2
    refine ⟨succeeds, filled, renewed ▸ fill, holds, ?_⟩
    rw [after]
    exact find?_withSession_self _ target _
  | error failure stopped =>
    have refused := ((edits_edit held (.allocate length)).after_error ran).1
    cases refused.symm.trans granted

theorem find?_split {name : String} (different : name ≠ target) (store : Store n)
    (source : String) (start length : Nat) :
    (store.after (.split source target start length)).columns.find? name = store.columns.find? name :=
  Command.find?_after (fun named => different (List.mem_singleton.mp named)) store

/-! ### One piece after another -/

/-- The splits that copy pieces of the given lengths, one after another, into the columns named. -/
def splits (source : String) (start : Nat) : List (String × Nat) → List (Command n)
  | [] => []
  | (target, length) :: rest => .split source target start length :: splits source (start + length) rest

theorem targets_of_splits {command : Command n} (member : command ∈ splits source start pieces) :
    ∃ target ∈ pieces.map Prod.fst, command.targets = [target] := by
  induction pieces generalizing start with
  | nil => cases member
  | cons piece rest ih =>
    rcases List.mem_cons.mp member with rfl | later
    · exact ⟨piece.1, List.mem_cons_self, rfl⟩
    · obtain ⟨target, held, same⟩ := ih later
      exact ⟨target, List.mem_cons_of_mem _ held, same⟩

theorem find?_splits {name : String} (free : name ∉ pieces.map Prod.fst) (store : Store n) :
    (store.runAll (splits source start pieces)).columns.find? name = store.columns.find? name := by
  apply find?_runAll
  intro command member named
  obtain ⟨target, held, same⟩ := targets_of_splits member
  rw [same, List.mem_singleton] at named
  exact free (named ▸ held)

/-- The columns hold the pieces of a range, one after another, and stand under their names. -/
inductive Parts (store : Store n) (other : Column n kind) :
    Nat → List (String × Nat) → List (Column n kind) → Prop where
  | nil {start : Nat} : Parts store other start [] []
  | cons {start length : Nat} {target : String} {part : Column n kind} {pieces : List (String × Nat)}
      {parts : List (Column n kind)} (found : store.columns.find? target = some ⟨kind, part⟩)
      (holds : part.Holds other start length) (rest : Parts store other (start + length) pieces parts) :
      Parts store other start ((target, length) :: pieces) (part :: parts)

namespace Parts

theorem found (held : store.Parts other start pieces parts) :
    pieces.map (fun piece => store.columns.find? piece.1) =
      parts.map fun part => some ⟨kind, part⟩ := by
  induction held with
  | nil => rfl
  | cons found _ _ ih => rw [List.map_cons, List.map_cons, ih, found]

theorem items (held : store.Parts other start pieces parts)
    (inside : start + (pieces.map Prod.snd).sum ≤ other.capacity) :
    (parts.map Column.items).flatten =
      (List.range' start (pieces.map Prod.snd).sum).map other.get? := by
  induction held with
  | nil => rfl
  | cons found holds rest ih =>
    rw [List.map_cons, List.sum_cons, ← Nat.add_assoc] at inside
    rw [List.map_cons, List.flatten_cons, List.map_cons, List.sum_cons, ← List.range'_append_1,
      List.map_append, ih inside, holds.items_eq (by omega)]

/-- The nulls of every piece are counted among its items. -/
theorem nullCounts (held : store.Parts other start pieces parts)
    (inside : start + (pieces.map Prod.snd).sum ≤ other.capacity) :
    parts.map Column.nullCount? =
      (parts.map fun part => part.items.countP Option.isNone).map some := by
  induction held with
  | nil => rfl
  | cons found holds rest ih =>
    rw [List.map_cons, List.sum_cons, ← Nat.add_assoc] at inside
    have sound := (holds.shows (by omega)).sound
    rw [List.map_cons, List.map_cons, List.map_cons, ih inside, sound.nullCount?_eq_items]

end Parts

/-- Where the memory is to be had, every piece of a range within the source is split off. -/
theorem splits_hold (read : store.columns.find? source = some ⟨kind, other⟩)
    (bounded : other.capacity < Word.size) (distinct : (source :: pieces.map Prod.fst).Nodup)
    (there : ∀ name ∈ pieces.map Prod.fst, store.Stands kind name)
    (inside : start + (pieces.map Prod.snd).sum ≤ other.capacity)
    (granted : store.Along (Granted kind) (splits source start pieces)) :
    store.Along Succeeds (splits source start pieces) ∧
      ∃ parts, (store.runAll (splits source start pieces)).Parts other start pieces parts := by
  induction pieces generalizing store start with
  | nil => exact ⟨trivial, [], .nil⟩
  | cons piece rest ih =>
    obtain ⟨target, length⟩ := piece
    obtain ⟨absent, free, others⟩ :
        source ∉ target :: rest.map Prod.fst ∧ target ∉ rest.map Prod.fst ∧
          (rest.map Prod.fst).Nodup := by
      simpa only [List.map_cons, List.nodup_cons] using distinct
    obtain ⟨⟨column, held⟩, standing⟩ := List.forall_mem_cons.mp there
    rw [List.map_cons, List.sum_cons, ← Nat.add_assoc] at inside
    have apart : target ≠ source := (List.ne_of_not_mem_cons absent).symm
    obtain ⟨succeeds, filled, _, holds, found⟩ :=
      split_granted apart read held bounded (by omega) granted.1
    -- the source and the columns of the later pieces are still as they were
    have still {name : String} (different : name ≠ target) :=
      find?_split different store source start length
    have stand : ∀ name ∈ rest.map Prod.fst,
        (store.after (.split source target start length)).Stands kind name := by
      intro name member
      obtain ⟨later, stands⟩ := standing name member
      exact ⟨later, (still fun same => free (same ▸ member)).trans stands⟩
    have unique : (source :: rest.map Prod.fst).Nodup :=
      List.nodup_cons.mpr ⟨List.not_mem_of_not_mem_cons absent, others⟩
    obtain ⟨along, parts, rests⟩ := ih ((still apart.symm).trans read) unique stand inside granted.2
    exact ⟨⟨succeeds, along⟩, _, .cons ((find?_splits free _).trans found) holds rests⟩

/-! ### A piece of a piece -/

/-- Where the memory is to be had, a split of what a split took makes the blocks that one split makes. -/
theorem nested_split {outer inner direct : String} {shift count : Nat} {elsewhere : Store n}
    (bounded : store.All Column.Bounded) (read : store.columns.find? source = some ⟨kind, other⟩)
    (again : elsewhere.columns.find? source = some ⟨kind, other⟩)
    (first : outer ≠ source) (second : inner ≠ outer) (third : direct ≠ source)
    (outside : store.Stands kind outer) (within : store.Stands kind inner)
    (beside : elsewhere.Stands kind direct)
    (inside : start + length ≤ other.capacity) (fits : shift + count ≤ length)
    (granted : store.Along (Granted kind)
      [.split source outer start length, .split outer inner shift count])
    (grantedOnce : elsewhere.Granted kind (.split source direct (start + shift) count)) :
    store.Along Succeeds [.split source outer start length, .split outer inner shift count] ∧
      elsewhere.Succeeds (.split source direct (start + shift) count) ∧
      ∃ twice once : Column n kind,
        (store.runAll [.split source outer start length, .split outer inner shift count]).columns.find?
            inner = some ⟨kind, twice⟩ ∧
          (elsewhere.after (.split source direct (start + shift) count)).columns.find? direct =
            some ⟨kind, once⟩ ∧
          twice.values.bytes = once.values.bytes ∧ twice.validity.bytes = once.validity.bytes := by
  obtain ⟨old, found⟩ := outside
  obtain ⟨before, stood⟩ := within
  obtain ⟨free, vacant⟩ := beside
  have small := (bounded.of_find? read).capacity_lt
  obtain ⟨taken, middle, filled, holds, placed⟩ :=
    split_granted first read found small inside granted.1
  have kept : (store.after (.split source outer start length)).columns.find? inner =
      some ⟨kind, before⟩ :=
    (find?_split second store source start length).trans stood
  have bound := ((boundedColumns.after (.split source outer start length) bounded).of_find?
    placed).capacity_lt
  obtain ⟨split, twice, nested, _, reached⟩ :=
    split_granted second placed kept bound (fits.trans holds.fits) granted.2.1
  obtain ⟨straight, once, single, _, landed⟩ :=
    split_granted third again vacant small (by omega) grantedOnce
  have blocks := filled.nested holds.fits fits nested single rfl rfl
  exact ⟨⟨taken, split, trivial⟩, straight, _, _, reached, landed, blocks⟩

/-- Pieces of a column whose lengths add up to its count have together the items that its reader gives, and
together its nulls. A split of a split makes the blocks that one split makes. -/
theorem pieces_runAll (limits : Vector Nat n) (commands : List (Command n))
    (read : ((ofLimits limits).runAll commands).columns.find? source = some ⟨kind, other⟩) :
    let store := (ofLimits limits).runAll commands
    ((ofLimits limits).Along Solvent commands → ∀ pieces : List (String × Nat),
        (source :: pieces.map Prod.fst).Nodup → (pieces.map Prod.snd).sum = other.count →
        (∀ name ∈ pieces.map Prod.fst, store.Stands kind name) →
        store.Along (Granted kind) (splits source 0 pieces) →
        let cut := store.runAll (splits source 0 pieces)
        store.Along Succeeds (splits source 0 pieces) ∧
          cut.columns.find? source = some ⟨kind, other⟩ ∧
          ∃ parts : List (Column n kind),
            pieces.map (fun piece => cut.columns.find? piece.1) =
                parts.map (fun part => some ⟨kind, part⟩) ∧
              (parts.map Column.items).flatten = other.items ∧
              ∃ nulls : List Nat, parts.map Column.nullCount? = nulls.map some ∧
                other.nullCount? = some nulls.sum) ∧
      ∀ (outer inner direct : String) (start length shift count : Nat) (elsewhere : Store n),
        outer ≠ source → inner ≠ outer → direct ≠ source →
        store.Stands kind outer → store.Stands kind inner → elsewhere.Stands kind direct →
        elsewhere.columns.find? source = some ⟨kind, other⟩ →
        start + length ≤ other.capacity → shift + count ≤ length →
        let nested : List (Command n) :=
          [.split source outer start length, .split outer inner shift count]
        let once : Command n := .split source direct (start + shift) count
        store.Along (Granted kind) nested → elsewhere.Granted kind once →
        store.Along Succeeds nested ∧ elsewhere.Succeeds once ∧
          ∃ twice single : Column n kind,
            (store.runAll nested).columns.find? inner = some ⟨kind, twice⟩ ∧
              (elsewhere.after once).columns.find? direct = some ⟨kind, single⟩ ∧
              twice.values.bytes = single.values.bytes ∧
              twice.validity.bytes = single.validity.bytes := by
  intro store
  have bounded := boundedColumns.runAll limits commands
  constructor
  · intro solvent pieces distinct whole there granted cut
    have sound : other.Sound := soundColumn solvent read
    have inside : 0 + (pieces.map Prod.snd).sum ≤ other.capacity := by
      rw [whole, Nat.zero_add]
      exact sound.count_le
    obtain ⟨along, parts, held⟩ :=
      splits_hold read (bounded.of_find? read).capacity_lt distinct there inside granted
    have items : (parts.map Column.items).flatten = other.items := by
      rw [held.items inside, whole, other.items_eq]
    refine ⟨along, (find?_splits (List.nodup_cons.mp distinct).1 store).trans read, parts, held.found,
      items, _, held.nullCounts inside, ?_⟩
    rw [sound.nullCount?_eq_items, ← items, List.countP_flatten, List.map_map]
    rfl
  · intro outer inner direct start length shift count elsewhere first second third outside within beside
      again inside fits nested once granted grantedOnce
    exact nested_split bounded read again first second third outside within beside inside fits granted
      grantedOnce

/-- A run that makes a column of five slots in use with one value, and two columns without memory. -/
def dividing (account : Fin 1) : List (Command 1) :=
  pairing ++ [.edit "x" .uint16 (.setValueCount 5), .create "z" .uint16 "z" none account {}]

theorem pieces_runAll_dividing :
    let store := (ofLimits #v[100]).runAll (dividing 0)
    (∃ parts : List (Column 1 .uint16),
        parts.map (fun part => some ⟨.uint16, part⟩) =
            ["y", "z"].map (store.runAll (splits "x" 0 [("y", 2), ("z", 3)])).columns.find? ∧
          (parts.map Column.items).flatten = [none, none, none, some 7, none]) ∧
      ∃ twice single : Column 1 .uint16,
        (store.runAll [.split "x" "y" 1 4, .split "y" "z" 1 2]).columns.find? "z" =
            some ⟨.uint16, twice⟩ ∧
          (store.after (.split "x" "z" 2 2)).columns.find? "z" = some ⟨.uint16, single⟩ ∧
          twice.values.bytes = single.values.bytes ∧ twice.validity.bytes = single.validity.bytes := by
  have read : ((ofLimits #v[100]).runAll (dividing 0)).columns.find? "x" = some ⟨.uint16,
      { (((.empty "x" 0 {} : Column 1 .uint16).renewed 8).withBytes 3 [7, 0]).withValid 3 true with
        count := 5 }⟩ := by
    cbv
  have first : ((ofLimits #v[100]).runAll (dividing 0)).Stands .uint16 "y" := ⟨.empty "y" 0 {}, by cbv⟩
  have second : ((ofLimits #v[100]).runAll (dividing 0)).Stands .uint16 "z" := ⟨.empty "z" 0 {}, by cbv⟩
  obtain ⟨pieces, nested⟩ := pieces_runAll #v[100] (dividing 0) read
  obtain ⟨_, _, parts, found, items, _⟩ := pieces (by decide +kernel) [("y", 2), ("z", 3)] (by decide)
    (by decide) (by simp [first, second]) (by decide +kernel)
  have blocks := nested "y" "z" "z" 1 4 1 2 ((ofLimits #v[100]).runAll (dividing 0)) (by decide) (by decide)
    (by decide) first second second read (by decide +kernel) (by decide) (by decide +kernel)
    (by decide +kernel)
  refine ⟨⟨parts, found.symm, ?_⟩, blocks.2.2⟩
  rw [items, Column.items_eq]
  decide +kernel

/-- The run that overdraws an account, without the value that it sets. Clearing stops with the count of
"x" still there; the column "z" could take the pieces. -/
def exceeding (account : Fin 2) : List (Command 2) :=
  overdraft.eraseIdx 5 ++ [.create "z" .uint8 "z" none account {}]

/-- After an overdraft more slots are in use than can be split off. -/
theorem pieces_runAll_exceeding :
    ¬ ∀ (limits : Vector Nat 2) (commands : List (Command 2)) (kind : Kind) (source : String)
        (other : Column 2 kind) (pieces : List (String × Nat)),
      let store := (ofLimits limits).runAll commands
      let cut := store.runAll (splits source 0 pieces)
      store.columns.find? source = some ⟨kind, other⟩ →
        (source :: pieces.map Prod.fst).Nodup → (pieces.map Prod.snd).sum = other.count →
        (∀ name ∈ pieces.map Prod.fst, store.Stands kind name) →
        store.Along (Granted kind) (splits source 0 pieces) →
        ∃ parts : List (Column 2 kind),
          pieces.map (fun piece => cut.columns.find? piece.1) =
              parts.map (fun part => some ⟨kind, part⟩) ∧
            (parts.map Column.items).flatten = other.items := by
  intro always
  have used : (((ofLimits #v[Word.max, Word.max]).runAll (exceeding 1)).columns.find? "x").map
      (fun entry => (entry.kind, entry.column.count)) = some (.uint8, 2) := by
    decide +kernel
  have unused : ((((ofLimits #v[Word.max, Word.max]).runAll (exceeding 1)).runAll
      (splits "x" 0 [("z", 2)])).columns.find? "z").map (fun entry => entry.column.count) = some 0 := by
    decide +kernel
  have stands : ((ofLimits #v[Word.max, Word.max]).runAll (exceeding 1)).Stands .uint8 "z" :=
    ⟨.empty "z" 1 {}, by cbv⟩
  obtain ⟨⟨kind, other⟩, read, same⟩ := Option.map_eq_some_iff.mp used
  obtain ⟨rfl, count⟩ := Prod.mk.inj same
  obtain ⟨parts, found, items⟩ := always #v[Word.max, Word.max] (exceeding 1) .uint8 "x" other [("z", 2)]
    read (by decide) count.symm (by simp [stands]) (by decide +kernel)
  cases parts with
  | nil => cases found
  | cons part rest =>
    obtain ⟨placed, empty⟩ := List.cons.inj found
    obtain rfl : rest = [] := List.map_eq_nil_iff.mp empty.symm
    have counts := congrArg (Option.map fun entry => entry.column.count) placed
    have none : part.count = 0 := Option.some.inj (counts.symm.trans unused)
    have lengths := congrArg List.length items
    simp only [List.map_cons, List.map_nil, List.flatten_singleton, Column.length_items] at lengths
    exact absurd (none.symm.trans (lengths.trans count)) (by decide)

end Store

end Columnar
