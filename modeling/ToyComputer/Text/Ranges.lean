/-!
Sets of characters, given by ranges of code points.
-/

namespace ToyComputer.Text

abbrev Ranges := List (Nat × Nat)

def Ranges.contains (ranges : Ranges) (c : Char) : Bool :=
  ranges.any fun (first, last) => first ≤ c.toNat && c.toNat ≤ last

end ToyComputer.Text
