import Columnar.Proofs.Column.Longs
import Columnar.Proofs.Store.Picture
import Columnar.Proofs.Store.Slotwise

namespace Columnar.Store

open Columnar.Action

variable {n : Nat} {kind : Kind} {store : Store n} {name : String} {column : Column n kind}

end Columnar.Store
