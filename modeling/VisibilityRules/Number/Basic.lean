import VisibilityRules.Number.Double

/-!
# Numbers

A number is an integer of any size or a double. Equality and order of numbers are those of their
places on the line, whatever the kinds of the two numbers; NaN is equal to nothing and has no order.
-/

namespace VisibilityRules

inductive Number where
  | int (n : Int)
  | double (x : Double)
deriving DecidableEq, Repr

inductive Inequality where
  | less
  | lessEqual
  | greater
  | greaterEqual
deriving DecidableEq, Repr

/-- Whether a relation holds of two things, given which of them lies below the other. -/
def Inequality.holds (relation : Inequality) (below above : Bool) : Bool :=
  match relation with
  | .less => below
  | .lessEqual => !above
  | .greater => above
  | .greaterEqual => !below

namespace Number

def place? : Number → Option Place
  | int n => some (.ofInt n)
  | double x => x.place?

def same (a b : Number) : Bool :=
  match a.place?, b.place? with
  | some p, some q => p = q
  | _, _ => false

def related (relation : Inequality) (a b : Number) : Bool :=
  match a.place?, b.place? with
  | some p, some q => relation.holds (p.below q) (q.below p)
  | _, _ => false

end Number

end VisibilityRules
