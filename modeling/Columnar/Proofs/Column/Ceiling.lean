import Columnar.Proofs.Column.Sizes

namespace Columnar

open Columnar.Action

variable {n : Nat} {kind : Kind}

namespace Column

variable {column : Column n kind}

/-- Neither block is longer than the maximum of the configuration, rounded up, which the column has. -/
abbrev Capped (config : Config) (column : Column n kind) : Prop :=
  column.config = config ∧ column.Sized (fun config size => size ≤ Block.roundUp config.maxAllocationBytes)
    (fun config size => size ≤ Block.roundUp config.maxAllocationBytes)

theorem asked_ceiling (kind : Kind) :
    Asked kind (fun config size => size ≤ Block.roundUp config.maxAllocationBytes)
      (fun config size => size ≤ Block.roundUp config.maxAllocationBytes) where
  noValues _ := Nat.zero_le _
  noValidity _ := Nat.zero_le _
  values _ _ allowed := Block.roundUp_mono allowed
  validity _ slots allowed := Block.roundUp_mono ((Edit.bytesFor_le kind slots).trans allowed)

theorem capped_of_nothing {config : Config} (same : column.config = config) (values : column.values.size = 0)
    (validity : column.validity.size = 0) : column.Capped config :=
  ⟨same, values.trans_le (Nat.zero_le _), validity.trans_le (Nat.zero_le _)⟩

/-- Both blocks are whole numbers of grains, and the validity block is no longer than the values. -/
structure Slim (column : Column n kind) : Prop where
  grained : column.Grained
  le : column.validity.size ≤ column.values.size

theorem roundUp_bytesFor_le (kind : Kind) (slots : Nat) :
    Block.roundUp (Bitmap.bytesFor slots) ≤ Block.roundUp (slots * kind.width) :=
  Block.roundUp_mono (Edit.bytesFor_le kind slots)

theorem slim_ofType (name : String) (type : FieldType) (account : Fin n) (config : Config) :
    (ofType name type account config : Column n kind).Slim :=
  ⟨Sized.ofType (asked_grains kind) name type account config, le_rfl⟩

theorem slim_emptied (column : Column n kind) : column.emptied.Slim :=
  ⟨⟨Nat.dvd_zero _, Nat.dvd_zero _⟩, le_rfl⟩

theorem slim_renewed (column : Column n kind) (slots : Nat) : (column.renewed slots).Slim := by
  have values := column.size_values_renewed slots
  have validity := column.size_validity_renewed slots
  refine ⟨⟨?_, ?_⟩, ?_⟩
  · rw [values]
    exact Block.grain_dvd_roundUp _
  · rw [validity]
    exact Block.grain_dvd_roundUp _
  · rw [values, validity]
    exact roundUp_bytesFor_le kind slots

namespace Slim

variable (slim : column.Slim)

include slim

theorem receiving (receiver : Column n kind) : (receiver.receiving column).Slim :=
  ⟨⟨slim.grained.values, slim.grained.validity⟩, slim.le⟩

theorem stretched : column.stretched.Slim := by
  refine ⟨⟨Block.grain_dvd_fitting slim.grained.values _, slim.grained.validity⟩, ?_⟩
  exact slim.le.trans (column.values.extends_fitting _).size_le

theorem doubled : column.doubled.Slim := by
  refine ⟨⟨slim.stretched.grained.values, Block.grain_dvd_fitting slim.grained.validity _⟩, ?_⟩
  rw [show column.doubled.values = column.stretched.values from rfl, slim.grained.size_stretched,
    slim.grained.size_doubled]
  exact max_le_max slim.le (roundUp_bytesFor_le kind _)

end Slim

end Column

namespace Edit

theorem cappedInvariant (config : Config) :
    EditInvariant (fun session : Session n kind => session.column.Capped config)
      (fun _ session => session.column.Capped config) :=
  (configInvariant config).and (sizedInvariant (Column.asked_ceiling kind))

/-- Every edit keeps the validity block no longer than the values, unless an account was overdrawn. -/
theorem slimInvariant : EditInvariant (fun session : Session n kind => session.column.Slim)
    (fun failure session => failure = .overdrawn ∨ session.column.Slim) where
  noted _ slim := slim
  remembered _ slim := ⟨⟨slim.grained.values, slim.grained.validity⟩, slim.le⟩
  outOfRange slim := .inr slim
  reported _ slim := .inr slim
  counted _ _ slim := ⟨⟨slim.grained.values, slim.grained.validity⟩, slim.le⟩
  written bytes same slim :=
    ⟨(sizedInvariant (Column.asked_grains kind)).written bytes same slim.grained, slim.le.trans_eq same.symm⟩
  marked bytes same slim :=
    ⟨(sizedInvariant (Column.asked_grains kind)).marked bytes same slim.grained, same.trans_le slim.le⟩
  grow session slim := by
    refine (grow_leaves session).mono ?_ ?_
    · exact fun _ _ grown => (congrArg Column.Slim grown.1).mpr slim.doubled
    · rintro _ after ⟨_, same | ⟨cut, _⟩⟩
      · exact .inr (same ▸ slim)
      · exact .inr (cut ▸ slim.stretched)
  allocate := allocate_keepsColumn Column.slim_renewed
  clear := clear_keepsColumn Column.slim_emptied

end Edit

end Columnar
