/-!
Sets of characters, given by the first and last code point of their ranges.
-/

namespace PathTemplate.Text

def inRanges (ranges : List (Nat × Nat)) (c : Char) : Bool :=
  ranges.any fun r => r.1 ≤ c.toNat && c.toNat ≤ r.2

end PathTemplate.Text
