import Formula.Text.Ranges

/-!
# Blank characters

The character property `White_Space`, and the two ways in which blanks are set aside: before a text,
and at both of its ends.
-/

namespace Formula.Text

/-- The code points of the property `White_Space`. -/
def blankRanges : Ranges := [
  (0x9, 0xD), (0x20, 0x20), (0x85, 0x85), (0xA0, 0xA0), (0x1680, 0x1680), (0x2000, 0x200A),
  (0x2028, 0x2029), (0x202F, 0x202F), (0x205F, 0x205F), (0x3000, 0x3000)]

/-- Whether `c` is white space. -/
def isBlank (c : Char) : Bool := blankRanges.contains c

/-- `text` without the blanks at its start. -/
def dropBlanks (text : List Char) : List Char := text.dropWhile isBlank

/-- `text` without the blanks at either end. -/
def trim (text : List Char) : List Char := (dropBlanks (dropBlanks text).reverse).reverse

end Formula.Text
