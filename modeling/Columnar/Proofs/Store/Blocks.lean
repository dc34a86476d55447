import Columnar.Proofs.Store.Accounts
import Columnar.Proofs.Store.Frame

/-! The length and the bytes of blocks over whole runs. The commands that end well tell both: how long
they make the block of a name, and what they put at each of its positions. The blocks of a store always
have that length and those bytes. -/

namespace Columnar

open Columnar.Action

variable {n : Nat} {name : String}

namespace Block

variable {block : Block n}

def byte (block : Block n) (index : Nat) : UInt8 := block.bytes[index]?.getD 0

theorem getElem?_eq_byte {index : Nat} (inside : index < block.size) :
    block.bytes[index]? = some (block.byte index) := by
  rw [byte, Array.getElem?_eq_getElem inside, Option.getD_some]

@[simp] theorem byte_empty (account : Fin n) (index : Nat) : (empty account).byte index = 0 := rfl

@[simp] theorem byte_zeros (size : Nat) (account : Fin n) (index : Nat) :
    (⟨Bytes.zeros size, account⟩ : Block n).byte index = 0 := by
  by_cases inside : index < size <;> simp [byte, Bytes.zeros, inside]

theorem byte_zeroed (block : Block n) (index : Nat) : block.zeroed.byte index = 0 :=
  byte_zeros block.size block.account index

/-- What is added when a block is made longer reads like what was behind its end before. -/
theorem byte_extendTo (block : Block n) (length index : Nat) :
    (⟨block.bytes.extendTo length, block.account⟩ : Block n).byte index = block.byte index := by
  by_cases inside : index < block.bytes.size
  · rw [byte, Bytes.getElem?_extendTo _ _ inside, byte]
  · have beyond := Nat.le_of_not_lt inside
    have added := byte_zeros (length - block.bytes.size) block.account (index - block.bytes.size)
    rw [byte] at added
    rw [byte, Bytes.extendTo, Array.getElem?_append_right beyond, added, byte,
      Array.getElem?_eq_none beyond, Option.getD_none]

theorem byte_fitting (block : Block n) (size index : Nat) :
    (block.fitting size).byte index = block.byte index := by
  unfold fitting
  split
  · rfl
  · exact block.byte_extendTo _ index

theorem byte_overwrite {start : Nat} {run : List UInt8} (fits : start + run.length ≤ block.size)
    (index : Nat) :
    (⟨block.bytes.overwrite start run, block.account⟩ : Block n).byte index =
      (if start ≤ index then run[index - start]? else none).getD (block.byte index) := by
  rw [byte, Bytes.getElem?_overwrite]
  have length : start + run.length ≤ block.bytes.size := fits
  by_cases covered : start ≤ index ∧ index < start + run.length
  · have within : index - start < run.length := by omega
    rw [if_pos ⟨covered.1, covered.2, by omega⟩, if_pos covered.1, List.getElem?_eq_getElem within,
      Option.getD_some, Option.getD_some]
  · rw [if_neg (by omega)]
    by_cases after : start ≤ index
    · rw [if_pos after, List.getElem?_eq_none (by omega), Option.getD_none, byte]
    · rw [if_neg after, Option.getD_none, byte]

end Block

/-! ### What commands make of a block -/

namespace Command

/-- The length of the block that a command names, after the command has ended well. -/
def newLength : Command n → Option Nat → Option Nat
  | allocateBlock _ _ size, _ => some (Block.roundUp size)
  | emptyBlock .., _ => some 0
  | dropBlock _, _ => none
  | growBlock _ size, former =>
    former.map fun length => if size ≤ length then length else Block.roundUp size
  | _, former => former

/-- The byte that a command which ends well puts at a position of the block that it names. -/
def newByte? : Command n → Nat → Option UInt8
  | allocateBlock .., _ | emptyBlock .., _ | zeroBlock _, _ => some 0
  | writeBlock _ start run, index => if start ≤ index then run[index - start]? else none
  | _, _ => none

/-- The length of the block of a name after a command that ends well. -/
def resize (command : Command n) (name : String) (former : Option Nat) : Option Nat :=
  if command.block? = some name then command.newLength former else former

/-- The byte that a command which ends well puts at a position of the block of a name. -/
def puts (command : Command n) (name : String) (index : Nat) : Option UInt8 :=
  if command.block? = some name then command.newByte? index else none

/-- The command gives the name to another block, or takes it from the one that has it. -/
def Renews (command : Command n) (name : String) : Prop :=
  match command with
  | allocateBlock other .. | emptyBlock other .. | dropBlock other => other = name
  | _ => False

variable {command : Command n}

theorem resize_of_eq (named : command.block? = some name) (former : Option Nat) :
    command.resize name former = command.newLength former := if_pos named

theorem resize_of_ne (apart : command.block? ≠ some name) (former : Option Nat) :
    command.resize name former = former := if_neg apart

theorem puts_of_eq (named : command.block? = some name) (index : Nat) :
    command.puts name index = command.newByte? index := if_pos named

theorem puts_of_ne (apart : command.block? ≠ some name) (index : Nat) :
    command.puts name index = none := if_neg apart

/-- Blocks are made, and made longer, by whole grains. -/
theorem resize_whole {former : Option Nat} (whole : ∀ size ∈ former, Block.grain ∣ size) :
    ∀ size ∈ command.resize name former, Block.grain ∣ size := by
  intro size member
  by_cases named : command.block? = some name
  · rw [resize_of_eq named] at member
    cases command with
    | allocateBlock own account requested =>
      cases member
      exact Block.grain_dvd_roundUp requested
    | emptyBlock own account =>
      cases member
      exact Nat.dvd_zero _
    | dropBlock own => cases member
    | growBlock own requested =>
      obtain ⟨length, held, rfl⟩ := Option.map_eq_some_iff.mp member
      split
      · exact whole length held
      · exact Block.grain_dvd_roundUp requested
    | _ => exact whole size member
  · rw [resize_of_ne named] at member
    exact whole size member

theorem le_resize (keeps : ¬ command.Renews name) (former : Nat) :
    ∃ later, command.resize name (some former) = some later ∧ former ≤ later := by
  by_cases named : command.block? = some name
  · rw [resize_of_eq named]
    cases command with
    | allocateBlock | emptyBlock | dropBlock => exact absurd (Option.some.inj named) keeps
    | growBlock own requested =>
      have longer := Block.le_roundUp requested
      refine ⟨if requested ≤ former then former else Block.roundUp requested, rfl, ?_⟩
      split <;> omega
    | _ => exact ⟨former, rfl, le_rfl⟩
  · rw [resize_of_ne named]
    exact ⟨former, rfl, le_rfl⟩

end Command

/-- The length that commands give the block of a name one after the other. -/
def lengthAfter (name : String) (commands : List (Command n)) (length : Option Nat) : Option Nat :=
  commands.foldl (fun length command => command.resize name length) length

/-- The byte that commands put last at a position of the block of a name. -/
def lastPut (name : String) (index : Nat) (commands : List (Command n)) (byte : UInt8) : UInt8 :=
  commands.foldl (fun byte command => (command.puts name index).getD byte) byte

theorem lengthAfter_whole {commands : List (Command n)} {length : Option Nat}
    (whole : ∀ size ∈ length, Block.grain ∣ size) :
    ∀ size ∈ lengthAfter name commands length, Block.grain ∣ size := by
  induction commands generalizing length with
  | nil => exact whole
  | cons command rest ih => exact ih (command.resize_whole whole)

theorem le_lengthAfter {commands : List (Command n)}
    (keep : ∀ command ∈ commands, ¬ command.Renews name) (length : Nat) :
    ∃ later, lengthAfter name commands (some length) = some later ∧ length ≤ later := by
  induction commands generalizing length with
  | nil => exact ⟨length, rfl, le_rfl⟩
  | cons command rest ih =>
    obtain ⟨first, others⟩ := List.forall_mem_cons.mp keep
    obtain ⟨between, resized, longer⟩ := Command.le_resize first length
    obtain ⟨later, reached, longest⟩ := ih others between
    refine ⟨later, ?_, longer.trans longest⟩
    rw [← reached, ← resized]
    rfl

namespace Store

/-- The commands of a run that end well, in order. -/
def succeeded : Store n → List (Command n) → List (Command n)
  | _, [] => []
  | store, command :: rest =>
    if command.fault? store = none then command :: succeeded (store.after command) rest
    else succeeded (store.after command) rest

theorem mem_of_succeeded {store : Store n} {commands : List (Command n)} {command : Command n}
    (member : command ∈ store.succeeded commands) : command ∈ commands := by
  induction commands generalizing store with
  | nil => exact member
  | cons first rest ih =>
    rw [succeeded] at member
    split at member
    · rcases List.mem_cons.mp member with same | later
      · exact List.mem_cons.mpr (.inl same)
      · exact List.mem_cons_of_mem _ (ih later)
    · exact List.mem_cons_of_mem _ (ih member)

/-! ### What the block of a name bears -/

/-- The block of the name has the length and the bytes; there is none without a length. -/
structure Bears (store : Store n) (name : String) (length : Option Nat) (byte : Nat → UInt8) :
    Prop where
  size : (store.blocks.find? name).map Block.size = length
  reads : ∀ {block}, store.blocks.find? name = some block → ∀ index, block.byte index = byte index

variable {store : Store n} {length : Option Nat} {byte : Nat → UInt8} {block : Block n}

theorem bears_of_none (free : store.blocks.find? name = none) : store.Bears name none byte := by
  constructor
  · rw [free, Option.map_none]
  · intro block held
    cases free.symm.trans held

theorem bears_of_found (found : store.blocks.find? name = some block) (size : length = some block.size)
    (reads : ∀ index, block.byte index = byte index) : store.Bears name length byte := by
  constructor
  · rw [found, size, Option.map_some]
  · intro other held
    cases found.symm.trans held
    exact reads

namespace Bears

theorem congr (bears : store.Bears name length byte) {after : Store n}
    (same : after.blocks.find? name = store.blocks.find? name) : after.Bears name length byte :=
  ⟨same ▸ bears.size, fun held => bears.reads (same ▸ held)⟩

theorem length_eq (bears : store.Bears name length byte) (found : store.blocks.find? name = some block) :
    length = some block.size := by
  rw [← bears.size, found, Option.map_some]

end Bears

theorem putBlock_finds (store : Store n) (name : String) (block : Block n) :
    Ends (putBlock name block) store (fun _ after => after.blocks.find? name = some block)
      (fun fault _ => fault = .failed .overdrawn) := by
  refine ends_putBlock (fun _ => find?_withBlock_self store name block) fun old _ => ?_
  refine (old.release_stops store.ledger).mono ?_ fun _ _ => congrArg Fault.failed
  exact fun _ _ _ => find?_withBlock_self _ name block

/-- What a growth for a size leaves that ends well: everything, where the block has the size, and else
a longer block in its place, which reads the same. -/
structure Grown (before after : Store n) (name : String) (block : Block n) (size : Nat) : Prop where
  columns : after.columns = before.columns
  others : ∀ other, other ≠ name → after.blocks.find? other = before.blocks.find? other
  enough : size ≤ block.size →
    after.blocks.find? name = some block ∧ after.ledger = before.ledger
  short : block.size < size → ∃ larger, after.blocks.find? name = some larger ∧
    larger.account = block.account ∧ larger.size = Block.roundUp size ∧
      ∀ index, larger.byte index = block.byte index

/-- What a growth for a size leaves that stops: all blocks, and all accounts as well where the request
is not larger than memory can be. -/
structure Ungrown (before after : Store n) (block : Block n) (size : Nat) (fault : Fault) : Prop where
  short : block.size < size
  columns : after.columns = before.columns
  blocks : ∀ other, after.blocks.find? other = before.blocks.find? other
  cause : fault = .failed .tooLarge ∧ Word.largestRequest < Block.roundUp size ∨
    (∃ requested limit, fault = .failed (.error (.capacityExhausted requested limit))) ∧
      ¬ (before.ledger.account block.account).Accepts (Block.roundUp size) ∧
      after.ledger.accounts = before.ledger.accounts

theorem ends_growBlock {post : Unit → Store n → Prop} {stop : Fault → Store n → Prop} {size : Nat}
    (distinct : store.blocks.Distinct)
    (missing : store.blocks.find? name = none → stop (.unknownName name) store)
    (grown : ∀ block after, store.blocks.find? name = some block →
      store.Grown after name block size → post () after)
    (ungrown : ∀ block fault after, store.blocks.find? name = some block →
      store.Ungrown after block size fault → stop fault after) :
    Ends (Store.growBlock name size) store post stop := by
  have free := distinct.find?_self name
  refine ends_bind.mpr (ends_takeBlock missing fun block found => ?_)
  have others (block : Block n) {ledger : Ledger n} (other : String) (apart : other ≠ name) :
      Table.find? (({ store with ledger }.withoutBlock name).withBlock name block).blocks other =
        store.blocks.find? other := store.find?_withBlock_withoutBlock block apart
  by_cases enough : size ≤ block.size
  · rw [if_pos enough]
    refine ends_putBlock_of_free free (grown block _ found ⟨rfl, others block, ?_, fun short => ?_⟩)
    · exact fun _ => ⟨find?_withBlock_self _ name block, rfl⟩
    · exact absurd short (Nat.not_lt_of_le enough)
  · have short := Nat.lt_of_not_le enough
    rw [if_neg enough]
    refine ends_bind.mpr (ends_tryCatch.mpr (ends_onLedger.mpr ((Block.enlarge_fits short).mono ?_ ?_)))
    · intro larger between reached
      obtain ⟨rfl, _, released⟩ := reached
      refine ends_bind.mpr (ends_putBlock_of_free free (ends_onLedger.mpr (released.mono_total ?_)))
      intro _ ledger _
      refine grown block _ found ⟨rfl, others _, fun least => absurd least enough, fun _ => ?_⟩
      refine ⟨_, find?_withBlock_self _ name _, block.account_fitting size, ?_, block.byte_fitting size⟩
      rw [Block.fitting_of_lt short, Block.size_of_enlarged short]
    · intro failure ledger declined
      refine ends_bind.mpr (ends_putBlock_of_free free ?_)
      refine ungrown block _ _ found ⟨short, rfl, find?_returned found, ?_⟩
      rcases declined with ⟨rfl, refused, same⟩ | ⟨rfl, large, _⟩
      · exact .inr ⟨⟨_, _, rfl⟩, refused, same⟩
      · exact .inl ⟨rfl, large⟩

end Store

/-- A command that ends well makes of a block what it tells, and one that stops makes nothing of it,
unless an account was overdrawn. -/
theorem Command.bears (command : Command n) {store : Store n} {length : Option Nat}
    {byte : Nat → UInt8} (distinct : store.blocks.Distinct) (bears : store.Bears name length byte) :
    Ends command.run store
      (fun _ after => after.Bears name (command.resize name length)
        fun index => (command.puts name index).getD (byte index))
      (fun fault after => fault = .failed .overdrawn ∨ after.Bears name length byte) := by
  by_cases named : command.block? = some name
  · simp only [resize_of_eq named, puts_of_eq named]
    cases command with
    | allocateBlock own account size =>
      cases named
      refine ends_bind.mpr (Store.ends_onLedger.mpr ((Block.allocate_ends _ account size).mono ?_ ?_))
      · intro block ledger reached
        obtain ⟨rfl, _⟩ := reached
        refine ends_bind.mpr ((Store.putBlock_finds _ name _).mono ?_ fun _ _ => .inl)
        intro _ after found
        refine Store.bears_of_found found ?_ fun index => Block.byte_zeros _ account index
        rw [newLength, Block.size, Bytes.size_zeros]
      · exact fun failure ledger _ => .inr (bears.congr rfl)
    | emptyBlock own account =>
      cases named
      refine ends_bind.mpr ((Store.putBlock_finds _ name _).mono ?_ fun _ _ => .inl)
      intro _ after found
      exact Store.bears_of_found found rfl fun index => Block.byte_empty account index
    | dropBlock own =>
      cases named
      refine ends_bind.mpr (ends_bind.mpr (Store.ends_takeBlock (fun _ => .inr bears) ?_))
      intro block found
      refine Store.ends_onLedger.mpr ((block.release_stops _).mono ?_ ?_)
      · exact fun _ ledger _ => Store.bears_of_none (distinct.find?_self name)
      · exact fun _ ledger overdrawn => .inl (congrArg Fault.failed overdrawn)
    | growBlock own size =>
      cases named
      refine ends_bind.mpr (Store.ends_growBlock distinct (fun _ => .inr bears) ?_ ?_)
      · intro block after found grown
        rw [bears.length_eq found, newLength, Option.map_some]
        by_cases enough : size ≤ block.size
        · rw [if_pos enough]
          exact Store.bears_of_found (grown.enough enough).1 rfl (bears.reads found)
        · obtain ⟨larger, held, _, longer, same⟩ := grown.short (Nat.lt_of_not_le enough)
          rw [if_neg enough, ← longer]
          exact Store.bears_of_found held rfl fun index => (same index).trans (bears.reads found index)
      · exact fun block fault after found kept => .inr (bears.congr (kept.blocks name))
    | writeBlock own start run =>
      cases named
      refine Store.ends_editBlock distinct (fun _ => .inr bears) fun block found => ?_
      by_cases fits : start + run.length ≤ block.bytes.size
      · rw [Bytes.overwrite?, if_pos fits]
        refine Store.bears_of_found (Store.find?_withBlock_self _ name _) ?_ fun index => ?_
        · exact (bears.length_eq found).trans (congrArg some (Bytes.size_overwrite _ _ _).symm)
        · rw [Block.byte_overwrite fits, bears.reads found, newByte?]
      · rw [Bytes.overwrite?, if_neg fits]
        exact .inr (bears.congr (Store.find?_returned found name))
    | zeroBlock own =>
      cases named
      refine Store.ends_editBlock distinct (fun _ => .inr bears) fun block found => ?_
      refine Store.bears_of_found (Store.find?_withBlock_self _ name _) ?_ fun index => ?_
      · exact (bears.length_eq found).trans (congrArg some (Bytes.size_zeros _).symm)
      · exact block.byte_zeroed index
    | moveBlock own target =>
      cases named
      refine Store.ends_editBlock distinct (fun _ => .inr bears) fun block found => ?_
      refine ends_bind.mpr ((block.moveTo_stops target store.ledger).mono ?_ ?_)
      · rintro ⟨moved, within⟩ ledger rfl
        have size := bears.length_eq found
        have reads := bears.reads found
        exact Store.bears_of_found (Store.find?_withBlock_self _ name _) size reads
      · exact fun failure ledger overdrawn => .inl (congrArg Fault.failed overdrawn)
    | _ => cases named
  · simp only [resize_of_ne named, puts_of_ne named]
    exact (command.find?_block named store).mono (fun _ _ => bears.congr)
      fun _ _ same => .inr (bears.congr same)

namespace Store

variable {store : Store n} {length : Option Nat} {byte : Nat → UInt8} {block : Block n}

/-- Along a run a block has the length and the bytes that the commands tell. -/
theorem Bears.runAll {commands : List (Command n)} (bears : store.Bears name length byte)
    (balanced : store.Balanced 0) (fits : store.Along Fits commands) :
    (store.runAll commands).Bears name (lengthAfter name (store.succeeded commands) length)
      fun index => lastPut name index (store.succeeded commands) (byte index) := by
  induction commands generalizing store length byte with
  | nil => exact bears
  | cons command rest ih =>
    obtain ⟨first, later⟩ := fits
    obtain ⟨next, solvent⟩ := balanced.after first
    rw [succeeded]
    have ends := command.bears balanced.distinct bears
    rcases after_of_ends ends with ⟨well, made⟩ | ⟨fault, stopped, kept⟩
    · rw [if_pos well]
      exact ih made next later
    · have same : (store.after command).Bears name length byte := by
        rcases kept with rfl | same
        · exact absurd stopped solvent
        · exact same
      rw [if_neg (by simp [stopped])]
      exact ih same next later

/-- A block that keeps its name along a run is still there, and got no shorter. -/
theorem Balanced.le_size_runAll (balanced : store.Balanced 0)
    (found : store.blocks.find? name = some block) {commands : List (Command n)}
    (fits : store.Along Fits commands) (keep : ∀ command ∈ commands, ¬ command.Renews name) :
    ∃ later, (store.runAll commands).blocks.find? name = some later ∧ block.size ≤ later.size := by
  have bears : store.Bears name (some block.size) block.byte := bears_of_found found rfl fun _ => rfl
  have size := (bears.runAll balanced fits).size
  obtain ⟨length, told, longer⟩ :=
    le_lengthAfter (fun command member => keep command (mem_of_succeeded member)) block.size
  obtain ⟨later, held, rfl⟩ := Option.map_eq_some_iff.mp (size.trans told)
  exact ⟨later, held, longer⟩

theorem fault?_writeBlock (distinct : store.blocks.Distinct)
    (found : store.blocks.find? name = some block) {start : Nat} {run : List UInt8}
    (fits : start + run.length ≤ block.size) :
    (Command.writeBlock name start run).fault? store = none := by
  have completes : Ends (Command.writeBlock name start run).run store (fun _ _ => True)
      (fun _ _ => False) := by
    refine ends_editBlock distinct (fun missing => ?_) fun other held => ?_
    · cases found.symm.trans missing
    · cases found.symm.trans held
      have inside : start + run.length ≤ block.bytes.size := fits
      rw [Bytes.overwrite?, if_pos inside]
      trivial
  exact (after_of_total completes).1

theorem fault?_zeroBlock (distinct : store.blocks.Distinct)
    (found : store.blocks.find? name = some block) : (Command.zeroBlock name).fault? store = none := by
  have completes : Ends (Command.zeroBlock name).run store (fun _ _ => True) (fun _ _ => False) := by
    refine ends_editBlock distinct (fun missing => ?_) fun _ _ => trivial
    cases found.symm.trans missing
  exact (after_of_total completes).1

theorem Balanced.fault?_moveBlock (balanced : store.Balanced 0)
    (found : store.blocks.find? name = some block) (room : store.liveBytes < Word.size)
    (target : Fin n) : (Command.moveBlock name target).fault? store = none := by
  have completes : Ends (Command.moveBlock name target).run store (fun _ _ => True)
      (fun _ _ => False) := by
    refine ends_editBlock balanced.distinct (fun missing => ?_) fun other held => ?_
    · cases found.symm.trans missing
    · exact ends_bind.mpr ((other.moveTo_ends target (balanced.charged_block held) balanced.inRange
        (balanced.total.trans_lt room)).mono_total fun _ _ _ => trivial)
  exact (after_of_total completes).1

/-- After every run within what memory can hold, a block has the length that the requests made it, and at
every position the byte that was put there last. Kept under its name it gets no shorter. -/
theorem blocks_runAll (limits : Vector Nat n) (commands : List (Command n))
    (fits : (ofLimits limits).Along Fits commands) (name : String) :
    let store := (ofLimits limits).runAll commands
    let done := (ofLimits limits).succeeded commands
    (store.blocks.find? name).map Block.size = lengthAfter name done none ∧
      ∀ block, store.blocks.find? name = some block →
        Block.grain ∣ block.size ∧
        (∀ index < block.size, block.bytes[index]? = some (lastPut name index done 0)) ∧
        (∀ size, Ends (Command.growBlock name size).run store
          (fun _ after => store.Grown after name block size)
          (fun fault after => store.Ungrown after block size fault)) ∧
        (∀ start run, start + run.length ≤ block.size →
          (Command.writeBlock name start run).fault? store = none) ∧
        (Command.zeroBlock name).fault? store = none ∧
        (store.liveBytes < Word.size →
          ∀ target, (Command.moveBlock name target).fault? store = none) ∧
        ∀ further, store.Along Fits further → (∀ command ∈ further, ¬ command.Renews name) →
          ∃ later, (store.runAll further).blocks.find? name = some later ∧ block.size ≤ later.size := by
  intro store done
  have balanced : store.Balanced 0 := balanced_runAll fits
  have start : (ofLimits limits).Bears name none fun _ => 0 := bears_of_none rfl
  have bears : store.Bears name (lengthAfter name done none) fun index => lastPut name index done 0 :=
    start.runAll (balanced_ofLimits limits) fits
  refine ⟨bears.size, ?_⟩
  intro block found
  refine ⟨?_, ?_, fun size => ?_, fun start run inside => fault?_writeBlock balanced.distinct found inside,
    fault?_zeroBlock balanced.distinct found, balanced.fault?_moveBlock found,
    fun further fits keep => balanced.le_size_runAll found fits keep⟩
  · exact lengthAfter_whole (fun _ member => by cases member) block.size (bears.length_eq found)
  · intro index inside
    rw [Block.getElem?_eq_byte inside, bears.reads found]
  · refine ends_bind.mpr (ends_growBlock balanced.distinct (fun missing => ?_) ?_ ?_)
    · cases found.symm.trans missing
    · intro other after held grown
      cases found.symm.trans held
      exact grown
    · intro other fault after held kept
      cases found.symm.trans held
      exact kept

/-- A run in which a block is written, made longer beside another one, refused more memory, moved to a
smaller account and written again. -/
def lengthening (first second : Fin n) : List (Command n) :=
  [.allocateBlock "a" first 20, .writeBlock "a" 0 [1, 2, 3, 4], .allocateBlock "b" first 16,
    .growBlock "a" 33, .growBlock "a" 64, .moveBlock "a" second, .writeBlock "a" 40 [9]]

theorem blocks_runAll_lengthening :
    let store := (ofLimits #v[96, 32]).runAll (lengthening 0 1)
    (ofLimits #v[96, 32]).Along Fits (lengthening 0 1) ∧
      ∃ block, store.blocks.find? "a" = some block ∧ block.size = 48 ∧ Block.grain ∣ block.size ∧
        block.bytes[1]? = some 2 ∧ block.bytes[33]? = some 0 ∧ block.bytes[40]? = some 9 ∧
        (Command.zeroBlock "a").fault? store = none ∧
        ∃ later, (store.runAll [.growBlock "a" 4, .growBlock "a" 100, .zeroBlock "a"]).blocks.find? "a" =
          some later ∧ 48 ≤ later.size := by
  intro store
  have fits : (ofLimits #v[96, 32]).Along Fits (lengthening 0 1) := by decide +kernel
  obtain ⟨told, every⟩ := blocks_runAll #v[96, 32] (lengthening 0 1) fits "a"
  have length : lengthAfter "a" ((ofLimits #v[96, 32]).succeeded (lengthening 0 1)) none = some 48 := by
    decide +kernel
  obtain ⟨block, found, size⟩ := Option.map_eq_some_iff.mp (told.trans length)
  obtain ⟨whole, bytes, _, _, zeros, _, later⟩ := every block found
  refine ⟨fits, block, found, size, whole, ?_, ?_, ?_, zeros, ?_⟩
  · exact (bytes 1 (by omega)).trans (by decide +kernel)
  · exact (bytes 33 (by omega)).trans (by decide +kernel)
  · exact (bytes 40 (by omega)).trans (by decide +kernel)
  · rw [← size]
    exact later _ (by decide +kernel) (by simp [Command.Renews])

end Store

end Columnar
