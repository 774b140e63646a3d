import VisibilityRules.Value.Basic

/-!
# Operators

The twelve comparison operators of condition terms and their symbols.
-/

namespace VisibilityRules

/-- How a term compares a setting with its expected value. -/
inductive Operator where
  | looseEqual
  | looseNotEqual
  | strictNotEqual
  | isIn
  | notIn
  | contains
  | notContains
  | less
  | lessEqual
  | greater
  | greaterEqual
  | strictEqual
deriving DecidableEq, Repr

namespace Operator

def all : List Operator :=
  [looseEqual, looseNotEqual, strictNotEqual, isIn, notIn, contains, notContains, less, lessEqual,
    greater, greaterEqual, strictEqual]

def symbol : Operator → String
  | looseEqual => "=="
  | looseNotEqual => "!="
  | strictNotEqual => "!=="
  | isIn => "in"
  | notIn => "!in"
  | contains => "contains"
  | notContains => "!contains"
  | less => "<"
  | lessEqual => "<="
  | greater => ">"
  | greaterEqual => ">="
  | strictEqual => "==="

def ofSymbol? (s : String) : Option Operator := all.find? (·.symbol = s)

end Operator

end VisibilityRules
