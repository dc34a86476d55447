import Columnar.Proofs.Column.Shape
import Columnar.Proofs.Column.Transfer

namespace Columnar

open Columnar.Action

variable {n : Nat} {kind : Kind}

theorem Word.size_pos : 0 < Word.size := by decide

namespace Column

/-- Both blocks are memory that can be had, and the count is a word. -/
structure Bounded (column : Column n kind) : Prop where
  values : column.values.size ≤ Word.largestRequest
  validity : column.validity.size ≤ Word.largestRequest
  count : column.count < Word.size

theorem bounded_ofType (name : String) (type : FieldType) (account : Fin n) (config : Config) :
    (ofType name type account config : Column n kind).Bounded :=
  ⟨Nat.zero_le _, Nat.zero_le _, Word.size_pos⟩

theorem Bounded.capacity_lt {column : Column n kind} (bounded : column.Bounded) :
    column.capacity < Word.size :=
  Nat.lt_of_le_of_lt (column.capacity_le_size.trans bounded.values) (by decide)

theorem bounded_emptied (column : Column n kind) : column.emptied.Bounded :=
  ⟨Nat.zero_le _, Nat.zero_le _, Word.size_pos⟩

theorem Granted.bounded {column : Column n kind} {slots : Nat} (granted : column.Granted slots) :
    (column.renewed slots).Bounded :=
  ⟨granted.values, granted.validity, Word.size_pos⟩

theorem Bounded.midway {column fresh later : Column n kind} (bounded : column.Bounded)
    (new : fresh.Bounded) (midway : column.Midway fresh later) : later.Bounded := by
  rcases midway with rfl | rfl
  · exact ⟨new.values, bounded.validity, bounded.count⟩
  · exact ⟨new.values, new.validity, bounded.count⟩

theorem Bounded.withBuffer {column : Column n kind} (bounded : column.Bounded) (which : Buffer)
    {block : Block n} (fits : block.size ≤ Word.largestRequest) : (column.withBuffer which block).Bounded := by
  cases which with
  | values => exact ⟨fits, bounded.validity, bounded.count⟩
  | validity => exact ⟨bounded.values, fits, bounded.count⟩

theorem Bounded.recharged {column later : Column n kind} (bounded : column.Bounded)
    (recharged : column.Recharged later) : later.Bounded :=
  ⟨recharged.values.trans_le bounded.values, recharged.validity.trans_le bounded.validity,
    recharged.count.trans_lt bounded.count⟩

end Column

namespace Edit

theorem boundedInvariant : ShapeInvariant (fun session : Session n kind => session.column.Bounded)
    (fun _ session => session.column.Bounded) where
  noted _ bounded := bounded
  remembered _ bounded := ⟨bounded.values, bounded.validity, bounded.count⟩
  refused _ bounded := bounded
  outOfRange bounded := bounded
  reported _ bounded := bounded
  counted count small bounded := by
    refine ⟨bounded.values, bounded.validity, ?_⟩
    rcases small with word | held
    · exact word
    · exact Nat.lt_of_le_of_lt held bounded.capacity_lt
  written _ same bounded := ⟨same.trans_le bounded.values, bounded.validity, bounded.count⟩
  marked _ same bounded := ⟨bounded.values, same.trans_le bounded.validity, bounded.count⟩
  growBuffer which size session bounded := by
    refine ends_growBuffer (fun _ => bounded) fun short => ?_
    refine (Block.enlarge_ends _ _ size).mono ?_ fun _ _ _ => bounded
    intro larger between reached
    obtain ⟨rfl, small, _⟩ := reached
    have fits := bounded.withBuffer which ((Block.size_of_enlarged short).trans_le small)
    exact (Block.release_stops _ between).mono (fun _ _ _ => fits) fun _ _ _ => fits
  allocate slots session bounded := by
    refine (allocate_leaves session slots).mono ?_ ?_
    · exact fun _ after ⟨taken, granted⟩ => (congrArg Column.Bounded taken).mpr granted.bounded
    · rintro _ after (⟨same, _⟩ | ⟨_, granted, midway⟩)
      · exact same ▸ bounded
      · exact bounded.midway granted.bounded midway
  clear session bounded := by
    have none := session.column.bounded_emptied
    refine (clear_leaves session).mono ?_ fun _ _ stopped => bounded.midway none stopped.2
    exact fun _ after gone => (congrArg Column.Bounded gone).mpr none

theorem chargeBlocks_bounded : Keeps chargeBlocks
    (fun session : Session n kind => session.column.Bounded) (fun _ session => session.column.Bounded) := by
  intro session bounded
  exact (chargeBlocks_recharges session).mono (fun _ _ => bounded.recharged) fun _ _ => bounded.recharged

end Edit

theorem Exchange.transfer_bounded : Keeps transfer
    (fun exchange : Exchange n kind => exchange.source.Bounded ∧ exchange.target.Bounded)
    (fun _ exchange => exchange.source.Bounded ∧ exchange.target.Bounded) := by
  intro exchange bounded
  obtain ⟨source, target⟩ := bounded
  have clear : Keeps Edit.clear (fun session : Session n kind => session.column.Bounded)
      (fun _ session => session.column.Bounded) := Edit.boundedInvariant.clear
  have gone : exchange.source.bare.Bounded := ⟨Nat.zero_le _, Nat.zero_le _, source.count⟩
  refine ends_transfer fun _ => (clear _ target).mono ?_ fun _ _ held => ⟨source, held⟩
  intro _ cleared empty
  have holding : (cleared.column.holding exchange.source).Bounded :=
    ⟨source.values, source.validity, empty.count⟩
  refine (Edit.chargeBlocks_bounded _ holding).mono ?_
    fun _ _ held => ⟨gone, held⟩
  intro _ charged held
  exact (clear _ gone).mono (fun _ _ empty => ⟨empty, ⟨held.values, held.validity, source.count⟩⟩)
    fun _ _ empty => ⟨empty, ⟨held.values, held.validity, source.count⟩⟩

end Columnar
