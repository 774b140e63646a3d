import VisibilityRules.Number.Reading
import VisibilityRules.Operator
import VisibilityRules.Run
import VisibilityRules.Value.Digits
import VisibilityRules.Value.Order

/-!
# Comparison

What each operator says about a current and an expected value. Strict equality and membership never
fail. Loose equality and the order relations turn values of different kinds into doubles, which
fails for an integer beyond the last finite double.
-/

namespace VisibilityRules

namespace Value

/-- The double that a value counts as in a loose comparison: truth values are zero and one, and a
text without anything but blanks is zero. -/
def toDouble? : Value → Except Fault (Option Double)
  | .bool b => .ok (Double.ofInt? (if b then 1 else 0))
  | .int n =>
    match Double.ofInt? n with
    | some x => .ok (some x)
    | none => .error .overflow
  | .double x => .ok (some x)
  | .text s =>
    .ok (if Text.trim Text.isBlank s.toList = [] then some (Double.zero false) else Double.ofText? s)
  | _ => .ok none

/-- Applies a relation of numbers to the doubles that two values count as; where one of them counts
as none, the relation does not hold. -/
def asDoubles (relation : Number → Number → Bool) (left right : Value) : Except Fault Bool :=
  left.toDouble?.bind fun a => right.toDouble?.map fun b =>
    match a, b with
    | some x, some y => relation (.double x) (.double y)
    | _, _ => false

/-- Whether loose equality coerces a value: it does for numbers and truth values. -/
def isCoercive (v : Value) : Bool := v.count?.isSome

def isAbsent : Value → Bool
  | .missing => true
  | .null => true
  | _ => false

/-- Equality that coerces where one side is a number or a truth value. -/
def looseEqual (left right : Value) : Except Fault Bool :=
  if strictEqual left right then .ok true
  else if left.isAbsent || right.isAbsent then .ok false
  else if left.isCoercive || right.isCoercive then asDoubles Number.same left right
  else .ok false

/-- An order relation between two values; where they have no order of their own, that of the doubles
they count as. -/
def related (relation : Inequality) (left right : Value) : Except Fault Bool :=
  match ordered? relation left right with
  | some holds => .ok holds
  | none => asDoubles (Number.related relation) left right

/-- Whether `container` is a list that holds the item. -/
def listed (container item : Value) : Bool :=
  match container with
  | .list items => among items item
  | _ => false

def unlisted (container item : Value) : Bool :=
  match container with
  | .list items => !among items item
  | _ => false

end Value

namespace Operator

def compare (op : Operator) (left right : Value) : Except Fault Bool :=
  match op with
  | looseEqual => Value.looseEqual left right
  | looseNotEqual => (Value.looseEqual left right).map (!·)
  | strictNotEqual => .ok (!Value.strictEqual left right)
  | isIn => .ok (Value.listed right left)
  | notIn => .ok (Value.unlisted right left)
  | contains => .ok (Value.listed left right)
  | notContains => .ok (Value.unlisted left right)
  | less => Value.related .less left right
  | lessEqual => Value.related .lessEqual left right
  | greater => Value.related .greater left right
  | greaterEqual => Value.related .greaterEqual left right
  | strictEqual => .ok (Value.strictEqual left right)

/-- Strict equality for a value that names no operator, with a notice that shows the value. -/
def unknown (given : Value) : Run Fault Operator :=
  if given.withinDigitLimit then ⟨[.noticed (.unknownOperator given)], .ok strictEqual⟩
  else .fail .longInteger

/-- The operator that a value names. Null names strict equality, and so does any value that is no
symbol, with a notice. -/
def read : Value → Run Fault Operator
  | .null => pure strictEqual
  | .text s =>
    match ofSymbol? s with
    | some op => pure op
    | none => unknown (.text s)
  | v => unknown v

/-- The operator that fits two values: membership in an expected list, containment in a current
list, or strict equality, where empty lists do not count; each of them possibly negated. -/
def infer (expected : Value) (negated : Bool) (current : Value) : Operator :=
  match expected, current with
  | .list (_ :: _), _ => if negated then notIn else isIn
  | _, .list (_ :: _) => if negated then notContains else contains
  | _, _ => if negated then strictNotEqual else strictEqual

end Operator

end VisibilityRules
