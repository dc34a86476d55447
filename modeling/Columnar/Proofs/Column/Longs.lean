import Columnar.Proofs.Column.Commuting
import Columnar.Proofs.Column.Reads
import Columnar.Proofs.Element.Integer

namespace Columnar

open Columnar.Action

variable {n : Nat} {kind : Kind} {index : Nat} {value : Element kind}

namespace Column

variable {column between later : Column n kind}

end Column

end Columnar
