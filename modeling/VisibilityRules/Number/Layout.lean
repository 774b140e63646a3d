import VisibilityRules.Number.Shortest
import VisibilityRules.Text.Numeral

/-!
# Layout of decimals

The shortest decimal of a double is written with a point where its leading digit stands at a place
from `positionalFrom` up to ten to the fifteenth, and with an exponent elsewhere. A layout says
where positional writing starts and how an exponent looks.
-/

namespace VisibilityRules

open Text

structure Layout where
  /-- the least exponent of the leading digit that is written with a point alone -/
  positionalFrom : Int
  /-- whether an exponent that is not negative has a plus sign -/
  plusSign : Bool
  /-- the least number of digits of an exponent -/
  exponentWidth : Nat

namespace Layout

/-- The digits of a decimal without trailing zeros, and the place of the point among them. -/
def significant (d : Decimal) : List Char × Int :=
  let digits := natText d.digits
  ((digits.reverse.dropWhile (· = '0')).reverse, digits.length + d.exponent)

/-- Digits written with a point, at least one digit on either side of it. -/
def positional (digits : List Char) (point : Int) : List Char :=
  if point ≤ 0 then '0' :: '.' :: List.replicate (-point).toNat '0' ++ digits
  else if digits.length ≤ point then
    digits ++ List.replicate (point.toNat - digits.length) '0' ++ ['.', '0']
  else digits.take point.toNat ++ '.' :: digits.drop point.toNat

/-- Digits written with one of them before the point, and an exponent. -/
def scientific (layout : Layout) (digits : List Char) (exponent : Int) : List Char :=
  let mantissa := digits.take 1 ++ (if digits.length ≤ 1 then [] else '.' :: digits.drop 1)
  let sign := if exponent < 0 then ['-'] else if layout.plusSign then ['+'] else []
  let size := natText exponent.natAbs
  mantissa ++ 'e' :: sign ++ List.replicate (layout.exponentWidth - size.length) '0' ++ size

/-- A double in the given layout, with the texts for what is no number and for infinity. -/
def write (layout : Layout) (nan infinity : String) : Double → List Char
  | .nan => nan.toList
  | .infinity negative => (if negative then ['-'] else []) ++ infinity.toList
  | .finite negative rank =>
    (if negative then ['-'] else []) ++
      if rank.val = 0 then ['0', '.', '0']
      else
        let (digits, point) := significant (Decimal.shortest rank)
        if layout.positionalFrom ≤ point - 1 ∧ point - 1 < 16 then positional digits point
        else layout.scientific digits (point - 1)

end Layout

end VisibilityRules
