import VisibilityRules.Fault
import VisibilityRules.TermName
import VisibilityRules.Text.Digit

/-!
# Looking up settings

A lookup finds the setting of a name and goes into the part that the name addresses: an entry of a
mapping or an item of a list. Any other value is taken whole.
-/

namespace VisibilityRules

def readIndex (key : String) : Except Fault Nat :=
  let digits := key.toList.takeWhile fun c => (Text.digitValue? c).isSome
  if digitLimit < digits.length then .error (.tooManyDigits digits.length)
  else if digits.length < key.toList.length then .error (.indexText key)
  else .ok (Text.natValue (digits.map Text.toAsciiDigit))

def Value.part (key : String) : Value → Except Fault Value
  | .map entries => .ok ((Table.get? entries key).getD .missing)
  | .list items =>
    if key.toList.all Text.isDigitLike then
      (readIndex key).map fun i => items[i]?.getD .missing
    else .ok .missing
  | v => .ok v

/-- The value that a name addresses; `missing` where there is none. An empty part counts as none. -/
def Settings.lookup (settings : Settings) (name : TermName) : Except Fault Value :=
  let value := (Table.get? settings name.setting).getD .missing
  match name.part with
  | none => .ok value
  | some key => if key = "" then .ok value else value.part key

end VisibilityRules
