import PathTemplate.Text.Ranges

/-!
The characters that count as white space in running text: those with the Unicode property
`White_Space`.
-/

namespace PathTemplate.Text

/-- First and last code point of each range of `White_Space`. -/
def blankRanges : List (Nat × Nat) :=
  [(0x9, 0xD), (0x20, 0x20), (0x85, 0x85), (0xA0, 0xA0), (0x1680, 0x1680), (0x2000, 0x200A),
    (0x2028, 0x2029), (0x202F, 0x202F), (0x205F, 0x205F), (0x3000, 0x3000)]

def isBlank (c : Char) : Bool := inRanges blankRanges c

end PathTemplate.Text
