import VisibilityRules.Json.Syntax
import VisibilityRules.Schema.Issue

/-!
# Failures

Why an operation of the engine failed, and the text that says so.
-/

namespace VisibilityRules

inductive ConfigFault where
  | notBool (name given : String)
  | notAmong (name first second given : String)
  | notLevel (name given : String)
  | unknownLevel (level : String)
deriving DecidableEq, Repr

def ConfigFault.message : ConfigFault → String
  | notBool name given =>
    name ++ " must be a boolean, got " ++ String.ofList (Text.quoted given)
  | notAmong name first second given =>
    name ++ " must be one of (" ++ String.ofList (Text.quoted first) ++ ", "
      ++ String.ofList (Text.quoted second) ++ "), got " ++ String.ofList (Text.quoted given)
  | notLevel name given =>
    name ++ " is not a logging level: " ++ String.ofList (Text.quoted given)
  | unknownLevel level => "module 'logging' has no attribute '" ++ level ++ "'"

inductive Failure where
  /-- records with issues -/
  | invalid (issues : List Issue)
  /-- a fault of an evaluation -/
  | fault (f : Fault)
  /-- a text that is no JSON -/
  | unreadable (text : List Char) (f : Json.SyntaxFault)
  /-- a file that does not exist -/
  | noFile
  /-- a value of a kind that cannot be gone through -/
  | notIterable (kind : String)
  /-- a value of a kind that has no entries -/
  | notMapping (kind : String)
  /-- a value that cannot be put behind another of the given kind -/
  | cannotAppend (kind other : String)
  /-- two values that have no sum -/
  | cannotAdd (left right : String)
  /-- a value without a JSON form -/
  | unwritable
  /-- a configuration that cannot be taken or used -/
  | config (f : ConfigFault)

/-- The text of a failure; issues have texts of their own, and a missing file has none. -/
def Failure.message : Failure → String
  | invalid _ => ""
  | fault f => f.message
  | unreadable text f => f.message text
  | noFile => ""
  | notIterable kind => "'" ++ kind ++ "' object is not iterable"
  | notMapping kind => "'" ++ kind ++ "' object is not a mapping"
  | cannotAppend kind other =>
    "can only concatenate " ++ kind ++ " (not \"" ++ other ++ "\") to " ++ kind
  | cannotAdd left right =>
    "unsupported operand type(s) for +: '" ++ left ++ "' and '" ++ right ++ "'"
  | unwritable =>
    "Unable to serialize unknown type: <class 'control_conditions.conditions.models._Missing'>"
  | config f => f.message

end VisibilityRules
