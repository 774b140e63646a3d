import VisibilityRules.Number.Rounding
import VisibilityRules.Number.Basic
import VisibilityRules.Table

/-!
# Setting values

The values that settings hold and that conditions expect. Lists and tuples are kinds of their own,
and a setting that is not there at all has the value `missing`.

Texts are sequences of Unicode scalar values, so they hold no surrogate code points. Mappings are
plain dictionaries with texts as keys. A value is its contents: two NaNs are never one object, and
being equal is decided without asking whether two values are the same object.
-/

namespace VisibilityRules

inductive Value where
  | missing
  | null
  | bool (b : Bool)
  | int (n : Int)
  | double (x : Double)
  | text (s : String)
  | list (items : List Value)
  | tuple (items : List Value)
  | map (entries : List (String × Value))

abbrev Settings := Table Value

namespace Value

instance : Inhabited Value := ⟨null⟩

def isMissing : Value → Bool
  | missing => true
  | _ => false

/-- The number that a value is. A truth value is no number. -/
def number? : Value → Option Number
  | int n => some (.int n)
  | double x => some (.double x)
  | _ => none

/-- The number that a value counts as; a truth value counts as zero or one. -/
def count? : Value → Option Number
  | bool b => some (.int (if b then 1 else 0))
  | v => v.number?

/-- The members of a value that can be gone through: items, characters or keys. -/
def members? : Value → Option (List Value)
  | list items => some items
  | tuple items => some items
  | text s => some (s.toList.map fun c => text (String.singleton c))
  | map entries => some (entries.map fun e => text e.1)
  | _ => none

def kindName : Value → String
  | missing => "_Missing"
  | null => "NoneType"
  | bool _ => "bool"
  | int _ => "int"
  | double _ => "float"
  | text _ => "str"
  | list _ => "list"
  | tuple _ => "tuple"
  | map _ => "dict"

end Value

end VisibilityRules
