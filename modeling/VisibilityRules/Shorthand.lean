import VisibilityRules.Evaluation

/-!
# Shorthand conditions

A shorthand condition maps names to expected values, all of which must fit. An exclamation mark at
the end of a name negates it, and the operator follows from the values at hand.
-/

namespace VisibilityRules.Shorthand

/-- The name in a key, and whether the key negates it. -/
def splitKey (key : String) : String × Bool :=
  if key.toList.getLast? = some '!' then (String.ofList key.toList.dropLast, true) else (key, false)

def checkEntry (settings : Settings) (key : String) (expected : Value) : Run Fault Bool := do
  let (text, negated) := splitKey key
  let name ← TermName.read text
  let value ← Run.ofExcept (settings.lookup name)
  if value.isMissing then pure false
  else (Operator.infer expected negated value).apply value expected

/-- Checks the entries in order, up to the first that does not fit. -/
def check (settings : Settings) : Table Value → Run Fault Bool
  | [] => Run.pure true
  | (key, expected) :: rest =>
    (checkEntry settings key expected).bind fun holds =>
      if holds then check settings rest else Run.pure false

end VisibilityRules.Shorthand
