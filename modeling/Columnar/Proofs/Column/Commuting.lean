import Columnar.Proofs.Column.Calls
import Columnar.Proofs.Column.Refusals

/-! Safe writes of different slots commute. Growing does not look at what a write changed, and a write
does not look at other slots. A write that is refused is refused in every order, and those before it
grow the column no further than it would have. -/

namespace Columnar

open Columnar.Action

variable {n : Nat} {kind : Kind} {index other : Nat}

/-- The slot of a call that grows the column first and then writes that one slot. -/
def Call.safeSlot? : Call kind → Option Nat
  | setSafe index _ | setIfSafe index _ _ | setNull index | setHolderSafe index _
  | setCellSafe index _ | setTruncatedSafe index _ | setEncoded index _ => some index
  | _ => none

/-- Why an edit stops in a session, if it does. -/
def Edit.failure? (edit : Edit n kind Unit) (session : Session n kind) : Option Failure :=
  match edit session with
  | .ok _ _ => none
  | .error failure _ => some failure

namespace Session

def after (session : Session n kind) (edit : Edit n kind Unit) : Session n kind :=
  match edit session with
  | .ok _ session => session
  | .error _ session => session

def runAll (session : Session n kind) (calls : List (Call kind)) : Session n kind :=
  calls.foldl (fun session call => session.after call.edit) session

/-- How each call of a run ended. -/
def answers : Session n kind → List (Call kind) → List (Call kind × Option Failure)
  | _, [] => []
  | session, call :: rest =>
    (call, call.edit.failure? session) :: answers (session.after call.edit) rest

end Session

namespace Column

variable {column : Column n kind}

/-- What writing a slot does to the value bytes; a null leaves them. -/
def overwritten (index : Nat) : Option (Element kind) → Bytes → Bytes
  | some value => (Bytes.overwrite · (index * kind.width) value.toBytes)
  | none => id

/-- The column with a slot written or made null. -/
def marked (column : Column n kind) (index : Nat) (value? : Option (Element kind)) : Column n kind :=
  column.changed (overwritten index value?) (Bitmap.put · index value?.isSome)

theorem inPlace_overwritten (inside : index < column.capacity) (value? : Option (Element kind)) :
    Bytes.InPlace (overwritten index value?) column.values.bytes := by
  cases value? with
  | none => exact Bytes.inPlace_id _
  | some value =>
    have within := (lt_capacity_iff.mp inside).1
    refine Bytes.inPlace_overwrite ?_
    rwa [value.length_toBytes, ← Nat.succ_mul]

theorem inPlace_marked (inside : index < column.capacity) (valid : Bool) :
    Bytes.InPlace (Bitmap.put · index valid) column.validity.bytes :=
  Bitmap.inPlace_put (lt_capacity_iff.mp inside).2 valid

theorem overwritten_comm (different : index ≠ other) (value? further? : Option (Element kind))
    (bytes : Bytes) : overwritten other further? (overwritten index value? bytes) =
      overwritten index value? (overwritten other further? bytes) := by
  cases value? with
  | none => rfl
  | some value =>
    cases further? with
    | none => rfl
    | some further =>
      apply Bytes.overwrite_comm
      rw [value.length_toBytes, further.length_toBytes]
      have slots := Slot.apart kind.width different
      rw [Nat.succ_mul] at slots
      exact slots.symm

theorem marked_comm (first : index < column.capacity) (second : other < column.capacity)
    (different : index ≠ other) (value? further? : Option (Element kind)) :
    (column.marked index value?).marked other further? =
      (column.marked other further?).marked index value? := by
  have values := overwritten_comm different value? further? column.values.bytes
  have validity := Bitmap.put_comm (lt_capacity_iff.mp first).2 (lt_capacity_iff.mp second).2 different
    value?.isSome further?.isSome
  simp only [marked, changed, Block.mapBytes, values, validity]

end Column

namespace Edit

variable {session between : Session n kind} {first second edit : Edit n kind Unit}

def mark (index : Nat) : Option (Element kind) → Edit n kind Unit
  | some value => set index value
  | none => putValid index false

theorem WriteInvariant.mark {inv : Session n kind → Prop} {stop : Failure → Session n kind → Prop}
    (writes : WriteInvariant inv stop) (index : Nat) (value? : Option (Element kind)) :
    Keeps (mark index value?) inv stop := by
  cases value? with
  | none => exact writes.putValid index false
  | some value => exact writes.set index value

theorem mark_eq (inside : index < session.column.capacity) (value? : Option (Element kind)) :
    mark index value? session = .ok () ⟨session.column.marked index value?, session.ledger⟩ := by
  obtain ⟨within, covered⟩ := Column.lt_capacity_iff.mp inside
  have flagged (valid : Bool) (column : Column n kind)
      (same : column.validity = session.column.validity) :
      putValid index valid ⟨column, session.ledger⟩ =
        .ok () ⟨column.withValid index valid, session.ledger⟩ := by
    simp only [putValid, same, if_pos covered]
    rfl
  cases value? with
  | none => exact flagged false session.column rfl
  | some value =>
    have room : index * kind.width + value.toBytes.length ≤ session.column.values.bytes.size := by
      rwa [value.length_toBytes, ← Nat.succ_mul]
    have written : putBytes index value.toBytes session =
        .ok () ⟨session.column.withBytes index value.toBytes, session.ledger⟩ := by
      simp only [putBytes, if_pos room]
      rfl
    rw [mark, set, putValue_eq]
    exact bind_ok.mpr ⟨_, _, written, flagged true _ rfl⟩

theorem marked_twin (inside : index < session.column.capacity) (value? : Option (Element kind)) :
    session.Twin (Column.overwritten index value?) (Bitmap.put · index value?.isSome)
      ⟨session.column.marked index value?, session.ledger⟩ :=
  ⟨rfl, rfl, Column.inPlace_overwritten inside value?, Column.inPlace_marked inside value?.isSome⟩

theorem outcome_ok (ran : edit session = .ok () between) :
    edit.failure? session = none ∧ session.after edit = between := by
  rw [failure?, Session.after, ran]
  exact ⟨rfl, rfl⟩

theorem outcome_error {failure : Failure} (ran : edit session = .error failure between) :
    edit.failure? session = some failure ∧ session.after edit = between := by
  rw [failure?, Session.after, ran]
  exact ⟨rfl, rfl⟩

theorem after_of_ends {good : Session n kind → Prop} {bad : Failure → Session n kind → Prop}
    (ends : Ends edit session (fun _ => good) bad) :
    edit.failure? session = none ∧ good (session.after edit) ∨
      ∃ failure, edit.failure? session = some failure ∧ bad failure (session.after edit) := by
  unfold failure? Session.after
  cases ran : edit session with
  | ok _ after => exact .inl ⟨rfl, ends.of_ok ran⟩
  | error failure after => exact .inr ⟨failure, rfl, ends.of_error ran⟩

def put (index : Nat) (value? : Option (Element kind)) : Edit n kind Unit := do
  reserve (index + 1)
  mark index value?

theorem putValid_respects (index : Nat) (valid : Bool) :
    Respects (putValid index valid : Edit n kind Unit) Session.Alike := by
  intro session other alike
  simp only [putValid, alike.same]
  by_cases covered : Bitmap.Covers session.column.validity.bytes index
  · rw [if_pos covered, if_pos covered]
    exact .ok rfl (Session.alike_of_same (congrArg (Column.withValid · index valid) alike.same) alike.ledger)
  · rw [if_neg covered, if_neg covered]
    exact .error _ alike

theorem putBytes_respects (index : Nat) (run : List UInt8) :
    Respects (putBytes index run : Edit n kind Unit) Session.Alike := by
  intro session other alike
  simp only [putBytes, alike.same]
  split
  · exact .ok rfl (Session.alike_of_same (congrArg (Column.withBytes · index run) alike.same) alike.ledger)
  · exact .error _ alike

theorem mark_respects (index : Nat) (value? : Option (Element kind)) :
    Respects (mark index value? : Edit n kind Unit) Session.Alike := by
  cases value? with
  | none => exact putValid_respects index false
  | some value =>
    rw [mark, set, putValue_eq]
    exact (putBytes_respects index value.toBytes).bind fun _ => putValid_respects index true

/-- The edit writes a slot and grows the column first, or it is refused before anything is touched. -/
inductive Writes (index : Nat) : Edit n kind Unit → Prop where
  | refused (cause : Error) : Writes index (throw (.error cause))
  | put (value? : Option (Element kind)) : Writes index (put index value?)

theorem put_of_refused {failure : Failure} (value? : Option (Element kind))
    (refused : reserve (index + 1) session = .error failure between) :
    put index value? session = .error failure between :=
  bind_error.mpr (.inl refused)

theorem put_of_reserved (value? : Option (Element kind))
    (reserved : reserve (index + 1) session = .ok () between) :
    put index value? session = .ok () ⟨between.column.marked index value?, between.ledger⟩ := by
  have inside := ((reserve_grows _ session).of_ok reserved).2
  exact bind_ok.mpr ⟨_, _, reserved, mark_eq inside value?⟩

/-- Neither edit notices whether the other one was made before. -/
structure Commute (session : Session n kind) (first second : Edit n kind Unit) : Prop where
  left : first.failure? (session.after second) = first.failure? session
  right : second.failure? (session.after first) = second.failure? session
  states : ((session.after first).after second).Alike ((session.after second).after first)

theorem Commute.symm (commute : Commute session first second) : Commute session second first :=
  ⟨commute.right, commute.left, Session.Alike.symm commute.states⟩

/-- Where one refusal stops both writes, it stops the second of them again, whichever that is. -/
theorem commute_of_refused {failure : Failure} (leading : session.column.Leading)
    (fine : failure ≠ .tooLarge) (value? further? : Option (Element kind))
    (near : reserve (index + 1) session = .error failure between)
    (far : reserve (other + 1) session = .error failure between) :
    Commute session (put index value?) (put other further?) := by
  obtain ⟨nearLast, nearAgain, nearSame⟩ := reserve_refused_again leading fine near
  obtain ⟨farLast, farAgain, farSame⟩ := reserve_refused_again leading fine far
  have first := outcome_error (put_of_refused value? near)
  have second := outcome_error (put_of_refused further? far)
  have firstAgain := outcome_error (put_of_refused value? nearAgain)
  have secondAgain := outcome_error (put_of_refused further? farAgain)
  refine ⟨?_, ?_, ?_⟩
  · rw [second.2, firstAgain.1, first.1]
  · rw [first.2, secondAgain.1, second.1]
  · rw [first.2, second.2, firstAgain.2, secondAgain.2]
    exact Session.Alike.trans (Session.Alike.symm farSame) nearSame

/-- Where only the higher slot is refused, the lower one is written before or after. -/
theorem commute_of_cut {failure : Failure} {stopped : Session n kind}
    (value? further? : Option (Element kind))
    (near : reserve (index + 1) session = .ok () between)
    (far : reserve (other + 1) session = .error failure stopped)
    (beyond : reserve (other + 1) between = .error failure stopped) :
    Commute session (put index value?) (put other further?) := by
  have inside := ((reserve_grows _ session).of_ok near).2
  have grown := (reserve_grows _ between).of_error beyond
  obtain ⟨last, refused, twin⟩ :=
    (reserve_respects _ _ _ (marked_twin inside value?)).of_error beyond
  have room : reserve (index + 1) stopped = .ok () stopped :=
    reserve_of_le (inside.trans grown.capacity_le)
  have first := outcome_ok (put_of_reserved value? near)
  have second := outcome_error (put_of_refused further? far)
  have firstAgain := outcome_ok (put_of_reserved value? room)
  have secondAgain := outcome_error (put_of_refused further? refused)
  refine ⟨?_, ?_, ?_⟩
  · rw [second.2, firstAgain.1, first.1]
  · rw [first.2, secondAgain.1, second.1]
  · rw [first.2, second.2, firstAgain.2, secondAgain.2]
    exact Session.alike_of_same twin.column.symm (Eq.symm twin.ledger)

theorem commute_of_reached {full : Session n kind} (less : index < other)
    (value? further? : Option (Element kind))
    (near : reserve (index + 1) session = .ok () between)
    (far : reserve (other + 1) session = .ok () full)
    (beyond : reserve (other + 1) between = .ok () full) :
    Commute session (put index value?) (put other further?) := by
  have inside := ((reserve_grows _ session).of_ok near).2
  have within := ((reserve_grows _ session).of_ok far).2
  obtain ⟨_, last, reached, _, twin⟩ :=
    (reserve_respects _ _ _ (marked_twin inside value?)).of_ok beyond
  have wider : index + 1 ≤ full.column.capacity := (Nat.le_of_lt (Nat.succ_lt_succ less)).trans within
  have room : reserve (index + 1)
      (⟨full.column.marked other further?, full.ledger⟩ : Session n kind) = .ok () _ :=
    reserve_of_le ((marked_twin within further?).capacity.symm ▸ wider)
  have first := outcome_ok (put_of_reserved value? near)
  have second := outcome_ok (put_of_reserved further? far)
  have firstAgain := outcome_ok (put_of_reserved value? room)
  have secondAgain := outcome_ok (put_of_reserved further? reached)
  refine ⟨?_, ?_, ?_⟩
  · rw [second.2, firstAgain.1, first.1]
  · rw [first.2, secondAgain.1, second.1]
  · rw [first.2, second.2, firstAgain.2, secondAgain.2]
    refine Session.alike_of_same ?_ (Eq.symm twin.ledger)
    have column : last.column = full.column.marked index value? := twin.column
    rw [column]
    exact (Column.marked_comm wider within less.ne value? further?).symm

/-- Two writes of different slots commute. The lower slot comes first on the way to the higher one, so
either both are refused at one point, or the lower one is written in both orders. -/
theorem commute_of_lt (leading : session.column.Leading) (less : index < other)
    (value? further? : Option (Element kind))
    (fine : (put index value?).failure? session ≠ some .tooLarge ∨
      (put other further?).failure? session ≠ some .tooLarge) :
    Commute session (put index value?) (put other further?) := by
  have through := reserve_through (Nat.succ_le_succ (Nat.le_of_lt less)) session
  cases near : reserve (index + 1) session with
  | error failure stopped =>
    have far : reserve (other + 1) session = .error failure stopped := by
      rw [through]
      exact bind_error.mpr (.inl near)
    refine commute_of_refused leading ?_ value? further? near far
    rintro rfl
    rw [(outcome_error (put_of_refused value? near)).1,
      (outcome_error (put_of_refused further? far)).1] at fine
    simp at fine
  | ok _ between =>
    have same : reserve (other + 1) session = reserve (other + 1) between := by
      rw [through]
      simp only [bind, EStateM.bind, near]
    cases beyond : reserve (other + 1) between with
    | error failure stopped =>
      exact commute_of_cut value? further? near (same.trans beyond) beyond
    | ok _ full =>
      exact commute_of_reached less value? further? near (same.trans beyond) beyond

namespace Writes

theorem commute (leading : session.column.Leading) (writes : Writes index first)
    (further : Writes other second) (different : index ≠ other)
    (fine : first.failure? session ≠ some .tooLarge) : Commute session first second := by
  cases writes with
  | refused cause => exact ⟨rfl, rfl, session.after second |>.alike_refl⟩
  | put value? =>
    cases further with
    | refused cause => exact ⟨rfl, rfl, session.after (Edit.put index value?) |>.alike_refl⟩
    | put further? =>
      rcases Nat.lt_or_gt_of_ne different with less | more
      · exact commute_of_lt leading less value? further? (.inl fine)
      · exact (commute_of_lt leading more further? value? (.inr fine)).symm

/-- However a write ends, the bitmap stays behind the values. -/
theorem keeps (writes : Writes index edit) : Keeps edit (fun session => session.column.Leading)
    (fun _ session => session.column.Leading) := by
  cases writes with
  | refused cause => exact keeps_throw _
  | put value? =>
    intro session leading
    refine ends_bind.mpr ((reserve_ends grow_leading _ session leading).mono_post ?_)
    rintro _ between ⟨held, inside⟩
    rw [Ends, mark_eq inside value?]
    let written := between.mapValues fun bytes => Column.overwritten index value? bytes
    have leads : written.column.Leading :=
      leadingInvariant.written _ (Column.inPlace_overwritten inside value?).size held
    have same : (Bitmap.put written.column.validity.bytes index value?.isSome).size =
        written.column.validity.bytes.size := Bitmap.size_put _ _ _
    exact leadingInvariant.marked _ same leads

theorem respects (writes : Writes index edit) : Respects edit Session.Alike := by
  cases writes with
  | refused cause => exact respects_throw _
  | put value? =>
    exact (reserve_respects (index + 1)).bind fun _ => mark_respects index value?

end Writes

end Edit

theorem Call.writes {call : Call kind} (safe : call.safeSlot? = some index) :
    Edit.Writes index (call.edit : Edit n kind Unit) := by
  have setIf (flag : Int) (value : Element kind) :
      Edit.Writes index (Edit.setIfSafe index flag value : Edit n kind Unit) := by
    by_cases positive : 0 < flag
    · simp only [Edit.setIfSafe, Edit.setIf, if_pos positive]
      exact .put (some value)
    · simp only [Edit.setIfSafe, Edit.setIf, if_neg positive]
      exact .put none
  cases call with
  | setSafe index value | setHolderSafe index holder | setTruncatedSafe index number
  | setEncoded index code =>
    cases safe
    exact .put (some _)
  | setNull index =>
    cases safe
    exact .put none
  | setIfSafe index flag value =>
    cases safe
    exact setIf flag value
  | setCellSafe index cell =>
    cases safe
    simp only [Call.edit, Edit.setCellSafe]
    split
    · exact .refused _
    · exact setIf cell.flag cell.value
  | setInitialCapacity | allocateRemembered | allocate | grow | setValueCount | clear | reset | set
  | setIf | setHolder | setCell | setTruncated => cases safe

namespace Session

variable {session last : Session n kind} {calls others : List (Call kind)}

/-- The state after one call decides all that follows; notices do not. -/
theorem answers_congr (safe : ∀ call ∈ calls, call.safeSlot?.isSome) (alike : session.Alike last) :
    session.answers calls = last.answers calls ∧ (session.runAll calls).Alike (last.runAll calls) := by
  induction calls generalizing session last with
  | nil => exact ⟨rfl, alike⟩
  | cons call rest ih =>
    obtain ⟨index, slot⟩ := Option.isSome_iff_exists.mp (safe call List.mem_cons_self)
    have agree := (Call.writes slot).respects session last alike
    have same : call.edit.failure? session = call.edit.failure? last ∧
        (session.after call.edit).Alike (last.after call.edit) := by
      simp only [Edit.failure?, after]
      generalize call.edit session = left at agree ⊢
      generalize call.edit last = right at agree ⊢
      cases agree with
      | ok _ states => exact ⟨rfl, states⟩
      | error failure states => exact ⟨rfl, states⟩
    have rests := ih (fun call member => safe call (List.mem_cons_of_mem _ member)) same.2
    exact ⟨by rw [answers, answers, same.1, rests.1], rests.2⟩

theorem after_leading {call : Call kind} (safe : call.safeSlot?.isSome)
    (leading : session.column.Leading) : (session.after call.edit).column.Leading := by
  obtain ⟨index, slot⟩ := Option.isSome_iff_exists.mp safe
  have ends := (Call.writes slot).keeps session leading
  unfold after
  cases ran : call.edit session with
  | ok _ after => exact ends.of_ok ran
  | error failure after => exact ends.of_error ran

/-- Safe writes of different slots can be made in any order. -/
theorem answers_perm (perm : calls.Perm others) (leading : session.column.Leading)
    (safe : ∀ call ∈ calls, call.safeSlot?.isSome) (apart : (calls.map Call.safeSlot?).Nodup)
    (fine : ∀ answer ∈ session.answers calls, answer.2 ≠ some .tooLarge) :
    (session.answers calls).Perm (session.answers others) ∧
      (session.runAll calls).Alike (session.runAll others) := by
  induction perm generalizing session with
  | nil => exact ⟨.nil, session.alike_refl⟩
  | cons call _ ih =>
    have here := safe call List.mem_cons_self
    obtain ⟨answers, states⟩ := ih (after_leading here leading)
      (fun call member => safe call (List.mem_cons_of_mem _ member)) (List.nodup_cons.mp apart).2
      (fun answer member => fine answer (List.mem_cons_of_mem _ member))
    exact ⟨answers.cons _, states⟩
  | swap first second rest =>
    obtain ⟨index, slot⟩ := Option.isSome_iff_exists.mp (safe second List.mem_cons_self)
    obtain ⟨other, place⟩ :=
      Option.isSome_iff_exists.mp (safe first (List.mem_cons_of_mem _ List.mem_cons_self))
    have different : index ≠ other := by
      rintro rfl
      simp [slot, place] at apart
    have commute := (Call.writes slot).commute leading (Call.writes place) different
      (fine _ List.mem_cons_self)
    have tail : ∀ call ∈ rest, call.safeSlot?.isSome := fun call member =>
      safe call (List.mem_cons_of_mem _ (List.mem_cons_of_mem _ member))
    have rests := answers_congr tail commute.states
    refine ⟨?_, rests.2⟩
    simp only [answers, commute.left, commute.right, rests.1]
    exact List.Perm.swap _ _ _
  | trans first _ ihFirst ihSecond =>
    obtain ⟨answers, states⟩ := ihFirst leading safe apart fine
    obtain ⟨further, last⟩ := ihSecond leading (fun call member => safe call (first.mem_iff.mpr member))
      ((first.map _).nodup_iff.mp apart) (fun answer member => fine answer (answers.mem_iff.mpr member))
    exact ⟨answers.trans further, Session.Alike.trans states last⟩

end Session

end Columnar
