import VisibilityRules.Number.Rounding
import VisibilityRules.Text.Blank
import VisibilityRules.Text.Digit
import VisibilityRules.Text.Numeral

/-!
# Reading doubles

A numeral is a sign, digits with at most one point among or beside them, and an exponent; sign and
exponent may be absent. The words for infinity and for what is no number count as numerals, in any
case. A text may stand for a numeral with blanks around it, digits of any script, and single
underscores between digits.
-/

namespace VisibilityRules.Double

open Text

def splitSign : List Char → Bool × List Char
  | '-' :: rest => (true, rest)
  | '+' :: rest => (false, rest)
  | cs => (false, cs)

/-- The exponent that ends a numeral; its absence counts as zero. -/
def readExponent? : List Char → Option Int
  | [] => some 0
  | c :: rest =>
    if c = 'e' ∨ c = 'E' then
      let (negative, digits) := splitSign rest
      if digits = [] ∨ !digits.all Char.isDigit then none
      else some (if negative then -(natValue digits : Int) else natValue digits)
    else none

def readDigits? (negative : Bool) (cs : List Char) : Option Double :=
  let whole := cs.takeWhile Char.isDigit
  let tail := cs.dropWhile Char.isDigit
  let (part, rest) :=
    match tail with
    | '.' :: more => (more.takeWhile Char.isDigit, more.dropWhile Char.isDigit)
    | _ => ([], tail)
  if whole = [] ∧ part = [] then none
  else (readExponent? rest).map fun exponent =>
    ofDecimal negative (natValue (whole ++ part)) (exponent - part.length)

def readNumeral? (cs : List Char) : Option Double :=
  let (negative, rest) := splitSign cs
  let word := rest.map Char.toLower
  if word = "inf".toList ∨ word = "infinity".toList then some (infinity negative)
  else if word = "nan".toList then some nan
  else readDigits? negative rest

/-- A text without its underscores, each of which must stand between two digits. -/
def joinDigits? (previous : Char) : List Char → Option (List Char)
  | [] => if previous = '_' then none else some []
  | c :: rest =>
    if c = '_' then if previous.isDigit then joinDigits? c rest else none
    else if previous = '_' ∧ !c.isDigit then none
    else (joinDigits? c rest).map (c :: ·)

def ofText? (s : String) : Option Double :=
  (joinDigits? ' ' ((trim isBlank s.toList).map toAsciiDigit)).bind readNumeral?

end VisibilityRules.Double
