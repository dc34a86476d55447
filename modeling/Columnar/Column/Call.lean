import Columnar.Column.Write

namespace Columnar

inductive Call (kind : Kind) where
  | setInitialCapacity (slots : Nat)
  | allocateRemembered
  | allocate (slots : Nat)
  | grow
  | setValueCount (count : Nat)
  | clear
  | reset
  | set (index : Nat) (value : Element kind)
  | setSafe (index : Nat) (value : Element kind)
  | setIf (index : Nat) (flag : Int) (value : Element kind)
  | setIfSafe (index : Nat) (flag : Int) (value : Element kind)
  | setNull (index : Nat)
  | setHolder (index : Nat) (holder : Holder kind)
  | setHolderSafe (index : Nat) (holder : Holder kind)
  | setCell (index : Nat) (cell : Cell kind)
  | setCellSafe (index : Nat) (cell : Cell kind)
  | setTruncated (index : Nat) (number : Int)
  | setTruncatedSafe (index : Nat) (number : Int)
  | setEncoded (index : Nat) (code : Int)
  deriving DecidableEq

def Call.edit {n : Nat} {kind : Kind} : Call kind → Edit n kind Unit
  | setInitialCapacity slots => Edit.setInitialCapacity slots
  | allocateRemembered => Edit.allocateRemembered
  | allocate slots => Edit.allocate slots
  | grow => Edit.grow
  | setValueCount count => Edit.setValueCount count
  | clear => Edit.clear
  | reset => Edit.reset
  | set index value => Edit.set index value
  | setSafe index value => Edit.setSafe index value
  | setIf index flag value => Edit.setIf index flag value
  | setIfSafe index flag value => Edit.setIfSafe index flag value
  | setNull index => Edit.setNull index
  | setHolder index holder => Edit.setHolder index holder
  | setHolderSafe index holder => Edit.setHolderSafe index holder
  | setCell index cell => Edit.setCell index cell
  | setCellSafe index cell => Edit.setCellSafe index cell
  | setTruncated index number => Edit.setTruncated index number
  | setTruncatedSafe index number => Edit.setTruncatedSafe index number
  | setEncoded index code => Edit.setEncoded index code

end Columnar
