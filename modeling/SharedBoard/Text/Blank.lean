/-! Blank characters are those with the White_Space property. Texts are trimmed of them at both
ends before they are read as settings, and times may hold them between their parts.
-/

namespace SharedBoard.Text

/-- The code points with the White_Space property, as inclusive ranges. -/
def blankRanges : List (Nat × Nat) :=
  [(0x9, 0xD), (0x20, 0x20), (0x85, 0x85), (0xA0, 0xA0), (0x1680, 0x1680), (0x2000, 0x200A),
    (0x2028, 0x2029), (0x202F, 0x202F), (0x205F, 0x205F), (0x3000, 0x3000)]

/-- Membership of a code point in a list of inclusive ranges. -/
def inRanges (ranges : List (Nat × Nat)) (char : Char) : Bool :=
  ranges.any (fun range => range.1 ≤ char.toNat && char.toNat ≤ range.2)

def isBlank (char : Char) : Bool :=
  inRanges blankRanges char

/-- Drop the blanks at the start of a text. -/
def skipBlanks (text : List Char) : List Char :=
  text.dropWhile isBlank

/-- Drop the blanks at both ends of a text. -/
def trim (text : List Char) : List Char :=
  (skipBlanks (skipBlanks text).reverse).reverse

end SharedBoard.Text
