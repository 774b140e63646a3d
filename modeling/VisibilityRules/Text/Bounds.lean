/-!
# Sets of code points

A set of code points is given by its ascending bounds: membership switches on at the first bound,
off at the second, and so on. The tables of character properties use this form.
-/

namespace VisibilityRules.Text

/-- The state reached at `n` when membership starts as `inside` and switches at each bound. -/
def switchedAt (inside : Bool) : List Nat → Nat → Bool
  | [], _ => inside
  | b :: bounds, n => if n < b then inside else switchedAt (!inside) bounds n

/-- Whether a character lies in the set with the given bounds. -/
def inBounds (bounds : List Nat) (c : Char) : Bool := switchedAt false bounds c.toNat

end VisibilityRules.Text
