import VisibilityRules.Text.Bounds

/-!
# Blank characters

The white space of Unicode, and the wider set of blanks that counts the four information separators
as well. Trimming removes a given set of characters from both ends of a text.
-/

namespace VisibilityRules.Text

def spaceBounds : List Nat :=
  [0x9, 0xE, 0x20, 0x21, 0x85, 0x86, 0xA0, 0xA1, 0x1680, 0x1681, 0x2000, 0x200B, 0x2028, 0x202A,
   0x202F, 0x2030, 0x205F, 0x2060, 0x3000, 0x3001]

def isSpace (c : Char) : Bool := inBounds spaceBounds c

/-- White space or one of the four information separators. -/
def isBlank (c : Char) : Bool := isSpace c || (0x1C ≤ c.toNat && c.toNat ≤ 0x1F)

/-- The text without the characters of the given set at its two ends. -/
def trim (p : Char → Bool) (cs : List Char) : List Char :=
  ((cs.dropWhile p).reverse.dropWhile p).reverse

end VisibilityRules.Text
