import TWay.Text.CodeRanges

/-!
# Blanks

The Unicode property `White_Space`, and a text without the blanks it starts with.
-/

namespace TWay.Text

/-- The 25 characters with the property `White_Space`. -/
def blankRanges : CodeRanges :=
  [(0x9, 0xd), (0x20, 0x20), (0x85, 0x85), (0xa0, 0xa0), (0x1680, 0x1680), (0x2000, 0x200a),
   (0x2028, 0x2029), (0x202f, 0x202f), (0x205f, 0x205f), (0x3000, 0x3000)]

example : (blankRanges.map fun r => r.2 + 1 - r.1).sum = 25 := by decide

/-- Whether a character is a blank. -/
def isBlank (c : Char) : Bool := blankRanges.has c

/-- What follows the leading blanks (`trim_start`). -/
def dropBlanks (cs : List Char) : List Char := cs.dropWhile isBlank

end TWay.Text
