import Resumable.Text.Ranges

/-!
# Blank characters

Three classes of white space: the ASCII one that separates tokens and trees,
the Unicode property, and the one that is trimmed from the end of a line.
-/

namespace Resumable.Text

/-- The blank ASCII characters: code points 9 to 13 and 32. -/
def isAsciiBlank (c : Char) : Bool :=
  inRanges [(0x09, 0x0D), (0x20, 0x20)] c.toNat

/-- The characters with the Unicode property White_Space. -/
def blankRanges : List (Nat × Nat) :=
  [(0x09, 0x0D), (0x20, 0x20), (0x85, 0x85), (0xA0, 0xA0), (0x1680, 0x1680), (0x2000, 0x200A),
   (0x2028, 0x2029), (0x202F, 0x202F), (0x205F, 0x205F), (0x3000, 0x3000)]

/-- Whether a character has the Unicode property White_Space. -/
def isBlank (c : Char) : Bool :=
  inRanges blankRanges c.toNat

/-- Whether a character is dropped at the end of a line: a blank one, or one of
the four ASCII information separators. -/
def isTrailing (c : Char) : Bool :=
  isBlank c || inRanges [(0x1C, 0x1F)] c.toNat

/-- The characters without the blank ones at either end. -/
def trimBlanks (cs : List Char) : List Char :=
  ((cs.dropWhile isBlank).reverse.dropWhile isBlank).reverse

/-- The characters without the trailing ones at the end. -/
def trimEnd (cs : List Char) : List Char :=
  (cs.reverse.dropWhile isTrailing).reverse

end Resumable.Text
