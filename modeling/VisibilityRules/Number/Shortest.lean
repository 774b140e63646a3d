import VisibilityRules.Number.Double

/-!
# Shortest decimals

A double is written with the fewest decimal digits that read back to it; among those, with the
nearest ones. A decimal reads back to a double when it lies between the midpoints to the two
neighbouring doubles; the midpoints themselves belong to the double of even rank.
-/

namespace VisibilityRules

/-- The number `digits * 10 ^ exponent`. -/
structure Decimal where
  digits : Nat
  exponent : Int
deriving DecidableEq, Repr

namespace Decimal

/-- Whether a decimal rounds to the positive double of the given rank. -/
def readsBack (rank : Nat) (d : Decimal) : Bool :=
  let scale := tenTo (-d.exponent).toNat
  let low := (Double.unitsOfRank (rank - 1) + Double.unitsOfRank rank) * scale
  let high := (Double.unitsOfRank rank + Double.unitsOfRank (rank + 1)) * scale
  let twice := 2 * (d.digits * tenTo d.exponent.toNat * unitsInOne)
  if rank % 2 = 0 then low ≤ twice && twice ≤ high else low < twice && twice < high

/-- The decimal of the given exponent that is nearest to a double, among those that read back. -/
def onGrid? (rank : Nat) (exponent : Int) : Option Decimal :=
  let num := Double.unitsOfRank rank * tenTo (-exponent).toNat
  let den := unitsInOne * tenTo exponent.toNat
  let lower : Decimal := ⟨num / den, exponent⟩
  let upper : Decimal := ⟨num / den + 1, exponent⟩
  match lower.readsBack rank, upper.readsBack rank with
  | true, true =>
    let part := 2 * (num % den)
    some (if part < den ∨ part = den ∧ lower.digits % 2 = 0 then lower else upper)
  | true, false => some lower
  | false, true => some upper
  | false, false => none

/-- The least `p` such that the positive double of the given rank lies below `10 ^ p`. -/
def pointOfRank (rank : Nat) : Int :=
  (Nat.toDigits 10 (Double.unitsOfRank rank * tenTo 400 / unitsInOne)).length - 400

/-- The shortest decimal of a positive double, given by its rank. Seventeen digits always suffice;
the exact value stands behind them. -/
def shortest (rank : Nat) : Decimal :=
  let point := pointOfRank rank
  ((List.range 17).findSome? fun i => onGrid? rank (point - (i + 1 : Nat))).getD
    ⟨Double.unitsOfRank rank * Nat.pow 5 1074, -1074⟩

end Decimal

end VisibilityRules
