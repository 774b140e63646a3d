/-!
# Doubles and their places on the line

A finite double is a sign and a rank: the number of non-negative doubles below its absolute value.
Every finite double is a whole number of units of 2^-1074, the least positive double, and so is
every integer. All comparisons of numbers compare these whole numbers, without any rounding.
-/

namespace VisibilityRules

def twoTo (n : Nat) : Nat := Nat.pow 2 n

theorem twoTo_pos (n : Nat) : 0 < twoTo n := Nat.pow_pos (by decide)

theorem twoTo_succ (n : Nat) : twoTo (n + 1) = 2 * twoTo n := Nat.pow_succ'

theorem twoTo_le {m n : Nat} (h : m ≤ n) : twoTo m ≤ twoTo n := Nat.pow_le_pow_right (by decide) h

theorem twoTo_add (m n : Nat) : twoTo (m + n) = twoTo m * twoTo n := Nat.pow_add 2 m n

def tenTo (n : Nat) : Nat := Nat.pow 10 n

def unitsInOne : Nat := twoTo 1074

/-- The number of ranks in a row that lie equally far apart: 2^52. -/
def ranksInBlock : Nat := 0x10000000000000

/-- A number with 53 significant bits, an infinity, or no number at all. -/
inductive Double where
  | nan
  | infinity (negative : Bool)
  | finite (negative : Bool) (rank : Fin 0x7FF0000000000000)
deriving DecidableEq, Repr

/-- A place on the line of the real numbers with two ends, in units of 2^-1074. -/
inductive Place where
  | bottom
  | units (n : Int)
  | top
deriving DecidableEq, Repr

def Place.below : Place → Place → Bool
  | .bottom, .bottom => false
  | .bottom, _ => true
  | .units _, .bottom => false
  | .units m, .units n => m < n
  | .units _, .top => true
  | .top, _ => false

def Place.ofInt (n : Int) : Place := .units (n * unitsInOne)

namespace Double

/-- The units in a non-negative double of the given rank. The unit doubles at each further 2^52
ranks; the first two blocks of ranks share the least one. -/
def unitsOfRank (rank : Nat) : Nat :=
  if rank < ranksInBlock then rank
  else (ranksInBlock + rank % ranksInBlock) * twoTo (rank / ranksInBlock - 1)

/-- The place of a double, which only NaN lacks. -/
def place? : Double → Option Place
  | nan => none
  | infinity negative => some (if negative then .bottom else .top)
  | finite negative rank =>
    let n : Int := unitsOfRank rank
    some (.units (if negative then -n else n))

def zero (negative : Bool) : Double := finite negative 0

def toInt? : Double → Option Int
  | finite negative rank =>
    let units := unitsOfRank rank
    if units % unitsInOne = 0 then
      let n : Int := units / unitsInOne
      some (if negative then -n else n)
    else none
  | _ => none

end Double

end VisibilityRules
