namespace Columnar.Text

/-- The ranges of a set of characters, each from its first to its last code point. -/
abbrev Ranges := List (Nat × Nat)

def Ranges.has (ranges : Ranges) (c : Char) : Bool :=
  ranges.any fun (first, last) => first ≤ c.toNat && c.toNat ≤ last

end Columnar.Text
