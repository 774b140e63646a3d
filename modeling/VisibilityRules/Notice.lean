import VisibilityRules.Value.Literal

/-!
# Notices

What the engine reports to its log while it works, with a level and a text for each notice.
-/

namespace VisibilityRules

inductive Level where
  | debug
  | info
  | warning
deriving DecidableEq, Repr

inductive Notice where
  | unknownOperator (given : Value)
  | unparseableName (name : String)
  | registered (action : String) (position : Nat) (control : String)
  | cacheHit (control : String)
  | cacheCleared (entries : Nat)
  | loaded (conditions controls : Nat)

namespace Notice

def level : Notice → Level
  | unknownOperator _ => .warning
  | unparseableName _ => .warning
  | registered .. => .debug
  | cacheHit _ => .debug
  | cacheCleared _ => .debug
  | loaded .. => .info

def message : Notice → String
  | unknownOperator given =>
    "Unknown operator " ++ String.ofList given.literal ++ ", using strict equality"
  | unparseableName name =>
    "Unparseable condition name " ++ String.ofList (Text.quoted name) ++ ", using it verbatim"
  | registered action position control =>
    "Registered " ++ action ++ " condition #" ++ toString position ++ " for control " ++ control
  | cacheHit control => "State cache hit for " ++ control
  | cacheCleared entries => "Clearing state cache (" ++ toString entries ++ " entries)"
  | loaded conditions controls =>
    "Loaded " ++ toString conditions ++ " conditions for " ++ toString controls ++ " controls"

end Notice

def Level.name : Level → String
  | .debug => "DEBUG"
  | .info => "INFO"
  | .warning => "WARNING"

end VisibilityRules
