import Columnar.Proofs.Agreement
import Columnar.Proofs.Column.Growth

/-! Growing looks neither at what the blocks hold nor at the notices given so far. Two sessions that
differ in nothing else grow alike: a change in place can be made before or after. -/

namespace Columnar

open Columnar.Action

variable {n : Nat} {kind : Kind} {α : Type} {change marking : Bytes → Bytes}

namespace Ledger

/-- The same accounts, whatever notices were given. -/
def Alike (ledger other : Ledger n) : Prop := other.accounts = ledger.accounts

theorem Alike.account {ledger other : Ledger n} (alike : ledger.Alike other) (id : Fin n) :
    other.account id = ledger.account id := by
  rw [Ledger.account, alike]
  rfl

theorem Alike.put {ledger other : Ledger n} (alike : ledger.Alike other) (id : Fin n)
    (account : Account) : (ledger.put id account).Alike (other.put id account) := by
  change other.accounts.set id account = ledger.accounts.set id account
  rw [alike]

theorem acquire_respects (id : Fin n) (amount : Nat) : Respects (acquire id amount) Alike := by
  intro ledger other alike
  unfold acquire
  simp only [alike.account]
  cases (ledger.account id).charge? amount with
  | none => exact .error _ alike
  | some charged => exact .ok rfl (alike.put id charged)

theorem release_respects (id : Fin n) (amount : Nat) : Respects (release id amount) Alike := by
  intro ledger other alike
  unfold release
  simp only [alike.account]
  have discharged := alike.put id ((ledger.account id).discharge amount)
  by_cases enough : amount ≤ (ledger.account id).allocated
  · rw [if_pos enough, if_pos enough]
    exact .ok rfl discharged
  · rw [if_neg enough, if_neg enough]
    exact .error _ discharged

end Ledger

namespace Block

variable {block larger : Block n} {ledger other : Ledger n}

theorem allocate_respects (account : Fin n) (size : Nat) :
    Respects (allocate account size) Ledger.Alike := by
  intro ledger other alike
  by_cases huge : Word.size ≤ size + (grain - 1)
  · rw [allocate, if_pos huge]
    have seen : Agree Ledger.Alike Ledger.Alike ((get : Accounting n (Ledger n)) ledger)
        ((get : Accounting n (Ledger n)) other) := .ok alike alike
    apply seen.bind
    intro left right after last values states
    rw [values.account]
    exact .error _ states
  · rw [allocate, if_neg huge]
    apply (Ledger.acquire_respects account (roundUp size) ledger other alike).bind
    intro _ _ between last _ states
    by_cases large : Word.largestRequest < roundUp size
    · rw [if_pos large]
      exact .error _ states
    · rw [if_neg large]
      exact .ok rfl states

/-- The second block is the first one, changed in place. -/
structure Changed (change : Bytes → Bytes) (block other : Block n) : Prop where
  same : other = block.mapBytes change
  inPlace : Bytes.InPlace change block.bytes

theorem Changed.size {other : Block n} (changed : block.Changed change other) :
    other.size = block.size := by
  rw [changed.same]
  exact changed.inPlace.size

theorem enlarge_agrees {other : Block n} (changed : block.Changed change other) (size : Nat)
    {ledger last : Ledger n} (alike : ledger.Alike last) :
    Agree (Changed change) Ledger.Alike (block.enlarge size ledger) (other.enlarge size last) := by
  obtain ⟨rfl, inPlace⟩ := changed
  apply (allocate_respects block.account size ledger last alike).bind
  rintro fresh _ between after rfl states
  refine .ok ⟨?_, inPlace.longer _⟩ states
  rw [mapBytes, mapBytes, inPlace.extendTo]

theorem release_agrees {other : Block n} (changed : block.Changed change other)
    {ledger last : Ledger n} (alike : ledger.Alike last) :
    Agree Eq Ledger.Alike (block.release ledger) (other.release last) := by
  have size := changed.size
  obtain ⟨rfl, _⟩ := changed
  rw [release, release, size]
  exact Ledger.release_respects block.account block.size ledger last alike

end Block

/-- What is chosen for the values, or for the validity bitmap. -/
def Buffer.choose {α : Type} (forValues forValidity : α) : Buffer → α
  | .values => forValues
  | .validity => forValidity

namespace Column

def changed (column : Column n kind) (change marking : Bytes → Bytes) : Column n kind :=
  { column with
    values := column.values.mapBytes change
    validity := column.validity.mapBytes marking }

end Column

namespace Session

/-- The second session is the first one with both blocks changed in place, and perhaps with other
notices. -/
structure Twin (change marking : Bytes → Bytes) (session other : Session n kind) : Prop where
  column : other.column = session.column.changed change marking
  ledger : session.ledger.Alike other.ledger
  values : Bytes.InPlace change session.column.values.bytes
  validity : Bytes.InPlace marking session.column.validity.bytes

namespace Twin

variable {session other : Session n kind} (twin : session.Twin change marking other)

include twin

theorem changed (which : Buffer) : (session.column.buffer which).Changed (which.choose change marking)
    (other.column.buffer which) := by
  cases which with
  | values => exact ⟨congrArg Column.values twin.column, twin.values⟩
  | validity => exact ⟨congrArg Column.validity twin.column, twin.validity⟩

theorem config : other.column.config = session.column.config := by
  rw [twin.column]
  rfl

theorem field : other.column.field = session.column.field := by
  rw [twin.column]
  rfl

theorem remembered : other.column.remembered = session.column.remembered := by
  rw [twin.column]
  rfl

theorem capacity : other.column.capacity = session.column.capacity := by
  have values : other.column.values.size = session.column.values.size := (twin.changed .values).size
  have validity : other.column.validity.size = session.column.validity.size :=
    (twin.changed .validity).size
  rw [Column.capacity, Column.capacity, values, validity]

theorem growthBase : other.column.growthBase = session.column.growthBase := by
  rw [Column.growthBase, Column.growthBase, twin.capacity, twin.remembered]

theorem withBuffer {which : Buffer} {larger fresh : Block n}
    (blocks : larger.Changed (which.choose change marking) fresh) :
    Twin change marking
      (⟨session.column.withBuffer which larger, session.ledger⟩ : Session n kind)
      ⟨other.column.withBuffer which fresh, other.ledger⟩ := by
  cases which with
  | values =>
    refine ⟨?_, twin.ledger, blocks.inPlace, twin.validity⟩
    rw [twin.column, blocks.same]
    rfl
  | validity =>
    refine ⟨?_, twin.ledger, twin.values, blocks.inPlace⟩
    rw [twin.column, blocks.same]
    rfl

theorem withRemembered (slots : Nat) :
    Twin change marking
      (⟨{ session.column with remembered := slots }, session.ledger⟩ : Session n kind)
      ⟨{ other.column with remembered := slots }, other.ledger⟩ where
  column := by
    rw [twin.column]
    rfl
  ledger := twin.ledger
  values := twin.values
  validity := twin.validity

theorem withLedger {ledger last : Ledger n} (alike : ledger.Alike last) :
    Twin change marking ⟨session.column, ledger⟩ ⟨other.column, last⟩ :=
  ⟨twin.column, alike, twin.values, twin.validity⟩

end Twin

/-- The sessions differ in their notices at most. -/
abbrev Alike (session other : Session n kind) : Prop := session.Twin id id other

section

variable {session other last : Session n kind}

theorem alike_of_same (column : other.column = session.column)
    (ledger : session.ledger.Alike other.ledger) : session.Alike other :=
  ⟨column, ledger, Bytes.inPlace_id _, Bytes.inPlace_id _⟩

theorem Alike.same (alike : session.Alike other) : other.column = session.column := alike.column

theorem alike_refl (session : Session n kind) : session.Alike session := alike_of_same rfl rfl

theorem alike_noted (session : Session n kind) (notice : Notice) :
    session.Alike ⟨session.column, session.ledger.note notice⟩ := alike_of_same rfl rfl

theorem Alike.symm (alike : session.Alike other) : other.Alike session :=
  alike_of_same alike.same.symm (Eq.symm alike.ledger)

theorem Alike.trans (first : session.Alike other) (second : other.Alike last) : session.Alike last :=
  alike_of_same (second.same.trans first.same) (Eq.trans second.ledger first.ledger)

end

end Session

namespace Edit

open Session

theorem onLedger_agrees {same : α → α → Prop} {action follow : Accounting n α}
    {session other : Session n kind} (twin : session.Twin change marking other)
    (agree : Agree same Ledger.Alike (action session.ledger) (follow other.ledger)) :
    Agree same (Twin change marking) (onLedger action session) (onLedger follow other) := by
  unfold onLedger
  generalize action session.ledger = left at agree
  generalize follow other.ledger = right at agree
  cases agree with
  | ok values states => exact .ok values (twin.withLedger states)
  | error failure states => exact .error failure (twin.withLedger states)

theorem note_agrees (notice further : Notice) {session other : Session n kind}
    (twin : session.Twin change marking other) :
    Agree Eq (Twin change marking) (note notice session) (note further other) :=
  .ok rfl (twin.withLedger twin.ledger)

theorem bufferSizes_respects (slots : Nat) :
    Respects (bufferSizes slots : Edit n kind (Nat × Nat)) (Twin change marking) := by
  intro session other twin
  simp only [bufferSizes, column_bind, twin.config]
  by_cases fits : slots * kind.width < Word.size ∧
      slots * kind.width ≤ session.column.config.maxAllocationBytes
  · rw [if_pos fits, if_pos fits]
    exact .ok rfl twin
  · rw [if_neg fits, if_neg fits]
    exact .error _ (twin.withLedger twin.ledger)

theorem growBuffer_respects (which : Buffer) (size : Nat) :
    Respects (growBuffer which size : Edit n kind Unit) (Twin change marking) := by
  intro session other twin
  have changed := twin.changed which
  simp only [growBuffer, column_bind, changed.size]
  by_cases enough : size ≤ (session.column.buffer which).size
  · rw [if_pos enough, if_pos enough]
    exact .ok rfl twin
  · rw [if_neg enough, if_neg enough]
    apply (onLedger_agrees twin (Block.enlarge_agrees changed size twin.ledger)).bind
    intro larger fresh between last blocks states
    exact onLedger_agrees (states.withBuffer blocks)
      (Block.release_agrees (states.changed which) states.ledger)

theorem rememberCapacity_respects :
    Respects (rememberCapacity : Edit n kind Unit) (Twin change marking) := by
  intro session other twin
  simp only [rememberCapacity, remember, twin.capacity]
  exact .ok rfl (twin.withRemembered _)

theorem grow_respects : Respects (grow : Edit n kind Unit) (Twin change marking) := by
  intro session other twin
  simp only [grow, column_bind, twin.growthBase, twin.config]
  by_cases huge : Word.size ≤ 2 * session.column.growthBase
  · rw [if_pos huge, if_pos huge]
    exact .error _ twin
  · rw [if_neg huge, if_neg huge]
    apply (bufferSizes_respects _ session other twin).bind
    rintro sizes _ between last rfl states
    apply (note_agrees _ _ states).bind
    intro _ _ between last _ states
    refine (growBuffer_respects .values sizes.1).bind (fun _ => ?_) between last states
    exact (growBuffer_respects .validity sizes.2).bind fun _ => rememberCapacity_respects

theorem reserve_respects (slots : Nat) :
    Respects (reserve slots : Edit n kind Unit) (Twin change marking) := by
  intro session other twin
  induction session using reserve.induct slots generalizing other with
  | case1 session enough =>
    have also : slots ≤ other.column.capacity := by rwa [twin.capacity]
    rw [reserve_eq, reserve_eq, if_pos enough, if_pos also]
    exact .ok rfl twin
  | case2 session short result larger grown ih =>
    have also : ¬ slots ≤ other.column.capacity := by rwa [twin.capacity]
    obtain ⟨_, last, ran, _, states⟩ := (grow_respects session other twin).of_ok grown
    rw [reserve_eq, reserve_eq, if_neg short, if_neg also, grown, ran]
    exact ih last states
  | case3 session short failure stopped refused =>
    have also : ¬ slots ≤ other.column.capacity := by rwa [twin.capacity]
    obtain ⟨last, ran, states⟩ := (grow_respects session other twin).of_error refused
    rw [reserve_eq, reserve_eq, if_neg short, if_neg also, refused, ran]
    exact .error failure states

end Edit

end Columnar
