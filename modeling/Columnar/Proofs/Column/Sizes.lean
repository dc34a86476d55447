import Columnar.Proofs.Column.Doubling
import Columnar.Proofs.Column.Shape
import Columnar.Proofs.Column.Transfer

/-! How large the blocks of a column can be. An edit may be cut off between the two blocks, but each of
them has a size for which it was taken. So what all sizes have that are ever asked for the blocks have,
however edits and transfers end. -/

namespace Columnar

open Columnar.Action

variable {n : Nat} {kind : Kind}

/-- Sizes that blocks may have under a configuration: none at all, and what is taken for a number of
slots that the configuration allows. -/
structure Asked (kind : Kind) (values validity : Config → Nat → Prop) : Prop where
  noValues : ∀ config, values config 0
  noValidity : ∀ config, validity config 0
  values : ∀ config slots, slots * kind.width ≤ config.maxAllocationBytes →
    values config (Block.roundUp (slots * kind.width))
  validity : ∀ config slots, slots * kind.width ≤ config.maxAllocationBytes →
    validity config (Block.roundUp (Bitmap.bytesFor slots))

namespace Column

variable {column : Column n kind} {values validity : Config → Nat → Prop}

/-- Each block has a size as allowed for it under the configuration of the column. -/
structure Sized (values validity : Config → Nat → Prop) (column : Column n kind) : Prop where
  values : values column.config column.values.size
  validity : validity column.config column.validity.size

namespace Sized

theorem ofType (asked : Asked kind values validity) (name : String) (type : FieldType) (account : Fin n)
    (config : Config) : (ofType name type account config : Column n kind).Sized values validity :=
  ⟨asked.noValues config, asked.noValidity config⟩

theorem emptied (asked : Asked kind values validity) (column : Column n kind) :
    column.emptied.Sized values validity :=
  ⟨asked.noValues column.config, asked.noValidity column.config⟩

theorem renewed (asked : Asked kind values validity) {slots : Nat} (granted : column.Granted slots) :
    (column.renewed slots).Sized values validity := by
  constructor
  · rw [column.size_values_renewed]
    exact asked.values _ _ granted.allowed
  · rw [column.size_validity_renewed]
    exact asked.validity _ _ granted.allowed

/-- Sizes on the way to fresh blocks are those of the column's own and of the fresh ones. -/
theorem midway {fresh later : Column n kind} (sized : column.Sized values validity)
    (new : fresh.Sized values validity) (same : fresh.config = column.config)
    (midway : column.Midway fresh later) : later.Sized values validity := by
  have newValues := same ▸ new.values
  have newValidity := same ▸ new.validity
  rcases midway with rfl | rfl
  · exact ⟨newValues, sized.validity⟩
  · exact ⟨newValues, newValidity⟩

variable (sized : column.Sized values validity) (asked : Asked kind values validity)
variable (allowed : 2 * column.growthBase * kind.width ≤ column.config.maxAllocationBytes)

include sized asked allowed

theorem stretched : column.stretched.Sized values validity := by
  refine ⟨?_, sized.validity⟩
  rcases column.values.size_fitting_eq_or (2 * column.growthBase * kind.width) with same | taken
  · exact same ▸ sized.values
  · exact taken ▸ asked.values _ _ allowed

theorem doubled : column.doubled.Sized values validity := by
  refine ⟨(sized.stretched asked allowed).values, ?_⟩
  rcases column.validity.size_fitting_eq_or (Bitmap.bytesFor (2 * column.growthBase)) with same | taken
  · exact same ▸ sized.validity
  · exact taken ▸ asked.validity _ _ allowed

end Sized

abbrev Grained (column : Column n kind) : Prop :=
  column.Sized (fun _ size => Block.grain ∣ size) (fun _ size => Block.grain ∣ size)

theorem asked_grains (kind : Kind) :
    Asked kind (fun _ size => Block.grain ∣ size) (fun _ size => Block.grain ∣ size) where
  noValues _ := Nat.dvd_zero _
  noValidity _ := Nat.dvd_zero _
  values _ _ _ := Block.grain_dvd_roundUp _
  validity _ _ _ := Block.grain_dvd_roundUp _

theorem Grained.size_stretched (grained : column.Grained) : column.stretched.values.size =
    max column.values.size (Block.roundUp (2 * column.growthBase * kind.width)) :=
  Block.size_fitting grained.values _

theorem Grained.size_doubled (grained : column.Grained) : column.doubled.validity.size =
    max column.validity.size (Block.roundUp (Bitmap.bytesFor (2 * column.growthBase))) :=
  Block.size_fitting grained.validity _

end Column

namespace Edit

/-- However an edit ends, the blocks have sizes that were asked for. -/
theorem sizedInvariant {values validity : Config → Nat → Prop} (asked : Asked kind values validity) :
    EditInvariant (fun session : Session n kind => session.column.Sized values validity)
      (fun _ session => session.column.Sized values validity) where
  noted _ sized := sized
  remembered _ sized := ⟨sized.values, sized.validity⟩
  outOfRange sized := sized
  reported _ sized := sized
  counted _ _ sized := ⟨sized.values, sized.validity⟩
  written {session} bytes same sized := by
    refine ⟨?_, sized.validity⟩
    rw [show (session.mapValues fun _ => bytes).column.values.size = session.column.values.size from same]
    exact sized.values
  marked {session} bytes same sized := by
    refine ⟨sized.values, ?_⟩
    rw [show (session.mapValidity fun _ => bytes).column.validity.size = session.column.validity.size
      from same]
    exact sized.validity
  grow session sized := by
    refine (grow_leaves session).mono ?_ ?_
    · rintro _ after ⟨grown, allowed⟩
      exact (congrArg (Column.Sized values validity) grown).mpr (sized.doubled asked allowed)
    · rintro _ after ⟨_, same | ⟨cut, allowed⟩⟩
      · exact (congrArg (Column.Sized values validity) same).mpr sized
      · exact (congrArg (Column.Sized values validity) cut).mpr (sized.stretched asked allowed)
  allocate slots session sized := by
    refine (allocate_leaves session slots).mono ?_ ?_
    · rintro _ after ⟨taken, granted⟩
      exact (congrArg (Column.Sized values validity) taken).mpr (.renewed asked granted)
    · rintro _ after (⟨same, _⟩ | ⟨_, granted, midway⟩)
      · exact (congrArg (Column.Sized values validity) same).mpr sized
      · exact sized.midway (.renewed asked granted) rfl midway
  clear session sized := by
    have none := Column.Sized.emptied asked session.column
    refine (clear_leaves session).mono ?_ fun _ _ stopped => sized.midway none rfl stopped.2
    exact fun _ after gone => (congrArg (Column.Sized values validity) gone).mpr none

theorem configInvariant (config : Config) :
    EditInvariant (fun session : Session n kind => session.column.config = config)
      (fun _ session => session.column.config = config) where
  noted _ same := same
  remembered _ same := same
  outOfRange same := same
  reported _ same := same
  counted _ _ same := same
  written _ _ same := same
  marked _ _ same := same
  grow session same := by
    refine (grow_leaves session).mono ?_ ?_
    · rintro _ after ⟨grown, _⟩
      exact (congrArg Column.config grown).trans same
    · rintro _ after ⟨_, kept | ⟨cut, _⟩⟩
      · exact (congrArg Column.config kept).trans same
      · exact (congrArg Column.config cut).trans same
  allocate slots session same := by
    refine (allocate_leaves session slots).mono ?_ ?_
    · rintro _ after ⟨taken, _⟩
      exact (congrArg Column.config taken).trans same
    · rintro _ after (⟨kept, _⟩ | ⟨_, _, midway⟩)
      · exact (congrArg Column.config kept).trans same
      · exact midway.config.trans same
  clear session same := by
    refine (clear_leaves session).mono ?_ fun _ _ stopped => stopped.2.config.trans same
    exact fun _ after gone => (congrArg Column.config gone).trans same

end Edit

namespace Exchange

/-- The blocks have changed hands, charged or not. -/
structure Handed (before after : Exchange n kind) : Prop where
  sourceConfig : after.source.config = before.source.config
  sourceValues : after.source.values.size = 0
  sourceValidity : after.source.validity.size = 0
  targetConfig : after.target.config = before.target.config
  targetValues : after.target.values.size = before.source.values.size
  targetValidity : after.target.validity.size = before.source.validity.size

/-- The blocks are where they were, but the receiving column has already lost its own. -/
structure Parted (before after : Exchange n kind) : Prop where
  source : after.source = before.source
  targetConfig : after.target.config = before.target.config
  targetValues : after.target.values.size = 0
  targetValidity : after.target.validity.size = before.target.validity.size ∨
    after.target.validity.size = 0

/-- A transfer hands the blocks over, or stops before it does. -/
theorem transfer_leaves (exchange : Exchange n kind) : Ends transfer exchange
    (fun _ after => exchange.Handed after)
    (fun _ after => exchange.Parted after ∨ exchange.Handed after) := by
  refine ends_transfer fun _ => (Edit.clear_leaves _).mono ?_ ?_
  · intro _ cleared emptied
    have config : cleared.column.config = exchange.target.config :=
      (congrArg Column.config emptied).trans rfl
    refine (Edit.chargeBlocks_recharges _).mono ?_ ?_
    · intro _ charged same
      refine (Edit.clear_leaves _).mono ?_ ?_
      · exact fun _ _ gone => gone ▸ ⟨rfl, rfl, rfl, same.config.trans config, same.values, same.validity⟩
      · rintro _ last ⟨_, midway | midway⟩
        · exact .inr (midway ▸ ⟨rfl, rfl, rfl, same.config.trans config, same.values, same.validity⟩)
        · exact .inr (midway ▸ ⟨rfl, rfl, rfl, same.config.trans config, same.values, same.validity⟩)
    · exact fun _ _ same => .inr ⟨rfl, rfl, rfl, same.config.trans config, same.values, same.validity⟩
  · rintro _ cleared ⟨_, midway | midway⟩
    · exact .inl (midway ▸ ⟨rfl, rfl, rfl, .inl rfl⟩)
    · exact .inl (midway ▸ ⟨rfl, rfl, rfl, .inr rfl⟩)

theorem Parted.sized {values validity : Config → Nat → Prop} (asked : Asked kind values validity)
    {before after : Exchange n kind} (parted : before.Parted after)
    (sized : before.target.Sized values validity) : after.target.Sized values validity := by
  constructor
  · rw [parted.targetValues]
    exact asked.noValues _
  · rw [parted.targetConfig]
    rcases parted.targetValidity with same | gone
    · rw [same]
      exact sized.validity
    · rw [gone]
      exact asked.noValidity _

theorem transfer_sized {values validity : Nat → Prop}
    (asked : Asked kind (fun _ => values) (fun _ => validity)) :
    let both (exchange : Exchange n kind) :=
      exchange.source.Sized (fun _ => values) (fun _ => validity) ∧
        exchange.target.Sized (fun _ => values) (fun _ => validity)
    Keeps transfer both (fun _ => both) := by
  rintro both exchange ⟨source, target⟩
  have handed (after : Exchange n kind) (handed : exchange.Handed after) : both after :=
    ⟨⟨handed.sourceValues ▸ asked.noValues after.source.config,
        handed.sourceValidity ▸ asked.noValidity after.source.config⟩,
      handed.targetValues ▸ source.values, handed.targetValidity ▸ source.validity⟩
  refine (transfer_leaves exchange).mono (fun _ after => handed after) ?_
  rintro _ after (parted | done)
  · exact ⟨parted.source ▸ source, parted.sized asked target⟩
  · exact handed after done

end Exchange

end Columnar
