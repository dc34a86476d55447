import Columnar.Element.Basic

namespace Columnar

abbrev WideElement (kind : Kind) := BitVec (2 * (8 * kind.width))

namespace Element

/-- The low half of the wide pattern set. -/
def lowHalf (kind : Kind) : WideElement kind :=
  (BitVec.allOnes (8 * kind.width)).setWidth (2 * (8 * kind.width))

def widen {kind : Kind} (element : Element kind) : WideElement kind :=
  element.signExtend (2 * (8 * kind.width)) &&& lowHalf kind

end Element

def Slot.readWide? (kind : Kind) (values : Bytes) (index : Nat) : Option (WideElement kind) :=
  (Slot.read? kind values index).map Element.widen

end Columnar
