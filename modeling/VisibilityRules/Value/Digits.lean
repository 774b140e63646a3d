import VisibilityRules.Fault
import VisibilityRules.Text.Numeral
import VisibilityRules.Value.Basic

/-!
# The digit limit in values

An integer with more digits than a numeral may have cannot be written, so neither notices nor cache
keys can show a value that holds one.
-/

namespace VisibilityRules

namespace Value

mutual
/-- Whether no integer in a value has more digits than a numeral may have. -/
def withinDigitLimit : Value → Bool
  | .int n => (Text.natText n.natAbs).length ≤ digitLimit
  | .list items => allWithinDigitLimit items
  | .tuple items => allWithinDigitLimit items
  | .map entries => entriesWithinDigitLimit entries
  | _ => true
def allWithinDigitLimit : List Value → Bool
  | [] => true
  | item :: rest => withinDigitLimit item && allWithinDigitLimit rest
def entriesWithinDigitLimit : List (String × Value) → Bool
  | [] => true
  | (_, item) :: rest => withinDigitLimit item && entriesWithinDigitLimit rest
end

end Value

def Settings.withinDigitLimit (settings : Settings) : Bool := (Value.map settings).withinDigitLimit

end VisibilityRules
