import VisibilityRules.Number.Double

/-!
# Rounding to the nearest double

A ratio of natural numbers is rounded to the nearest double, and a tie goes to the double of even
rank. Beyond the last finite double the result is an infinity, which for an integer is a failure.
-/

namespace VisibilityRules

/-- The integer nearest to a ratio; a tie goes to the even one. -/
def roundHalfEven (num den : Nat) : Nat :=
  let whole := num / den
  let part := 2 * (num % den)
  if part < den ∨ part = den ∧ whole % 2 = 0 then whole else whole + 1

namespace Double

/-- The rank of the double nearest to a ratio, as if there were no last finite double. Zero has rank
zero. Up to 2^53 units ranks count units. Above, the ratio is measured in the unit that leaves 53
bits, and each doubling of the unit adds 2^52 ranks. -/
def nearestRank (num den : Nat) : Nat :=
  -- the question for zero also keeps a reduction from going into a ratio that is not known
  if num = 0 then 0
  else
    let units := num * unitsInOne
    let doublings := (units / den).log2 + 1 - 53
    doublings * ranksInBlock + roundHalfEven units (den * twoTo doublings)

/-- The double of a given sign and rank; past the last finite rank it is an infinity. -/
def ofRank (negative : Bool) (rank : Nat) : Double :=
  if h : rank < 0x7FF0000000000000 then finite negative ⟨rank, h⟩ else infinity negative

def ofRatio (negative : Bool) (num den : Nat) : Double := ofRank negative (nearestRank num den)

/-- The double nearest to an integer, unless that is beyond the last finite double. -/
def ofInt? (n : Int) : Option Double :=
  match ofRatio (n < 0) n.natAbs 1 with
  | finite negative rank => some (finite negative rank)
  | _ => none

/-- The double nearest to `digits * 10 ^ exponent`. Exponents far outside the range of finite
doubles are settled by the number of digits alone. -/
def ofDecimal (negative : Bool) (digits : Nat) (exponent : Int) : Double :=
  if digits = 0 then zero negative
  else
    let point : Int := (Nat.toDigits 10 digits).length + exponent
    if 310 < point then infinity negative
    else if point < -330 then zero negative
    else if 0 ≤ exponent then ofRatio negative (digits * tenTo exponent.toNat) 1
    else ofRatio negative digits (tenTo (-exponent).toNat)

end Double

end VisibilityRules
