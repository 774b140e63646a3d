import VisibilityRules.Fault
import VisibilityRules.Run

/-!
# Issues with records

Reading a record out of a loose value finds every issue with it. An issue has a path from the
outside to the place in question, and a problem. Readings are combined so that the issues of all
parts are reported, in order.
-/

namespace VisibilityRules

inductive Step where
  | field (name : String)
  | index (n : Nat)
deriving DecidableEq, Repr

inductive Problem where
  | absent
  | notText
  | notList
  | notMapping
  | notRecord (name : String)
  | notAmong (first second : String)
  | notBool
  | unclearBool
  | notInteger
  | unclearInteger
  | fractional
  | infinite
  | oversized
  | notNumber
  | unclearNumber
  | fault (f : Fault)
deriving DecidableEq, Repr

structure Issue where
  path : List Step
  problem : Problem
deriving DecidableEq, Repr

namespace Problem

def code : Problem → String
  | absent => "missing"
  | notText => "string_type"
  | notList => "list_type"
  | notMapping => "dict_type"
  | notRecord _ => "model_type"
  | notAmong .. => "literal_error"
  | notBool => "bool_type"
  | unclearBool => "bool_parsing"
  | notInteger => "int_type"
  | unclearInteger => "int_parsing"
  | fractional => "int_from_float"
  | infinite => "finite_number"
  | oversized => "int_parsing_size"
  | notNumber => "float_type"
  | unclearNumber => "float_parsing"
  | fault _ => "value_error"

def message : Problem → String
  | absent => "Field required"
  | notText => "Input should be a valid string"
  | notList => "Input should be a valid list"
  | notMapping => "Input should be a valid dictionary"
  | notRecord name => "Input should be a valid dictionary or instance of " ++ name
  | notAmong first second => "Input should be '" ++ first ++ "' or '" ++ second ++ "'"
  | notBool => "Input should be a valid boolean"
  | unclearBool => "Input should be a valid boolean, unable to interpret input"
  | notInteger => "Input should be a valid integer"
  | unclearInteger => "Input should be a valid integer, unable to parse string as an integer"
  | fractional => "Input should be a valid integer, got a number with a fractional part"
  | infinite => "Input should be a finite number"
  | oversized => "Unable to parse input string as an integer, exceeded maximum size"
  | notNumber => "Input should be a valid number"
  | unclearNumber => "Input should be a valid number, unable to parse string as a number"
  | fault f => "Value error, " ++ f.message

end Problem

/-- A run that reads a record or part of one. -/
abbrev Reading (α : Type) := Run (List Issue) α

namespace Reading

variable {α β : Type}

def issue (problem : Problem) : Reading α := Run.fail [⟨[], problem⟩]

/-- A reading of the part that lies one step further in. -/
def within (step : Step) (x : Reading α) : Reading α :=
  x.mapError (List.map fun i => ⟨step :: i.path, i.problem⟩)

/-- Applies what the first reading gives to what the second gives. The issues of both are kept. -/
def apply (f : Reading (α → β)) (x : Reading α) : Reading β :=
  ⟨f.events ++ x.events,
    match f.outcome, x.outcome with
    | .ok g, .ok a => .ok (g a)
    | .ok _, .error issues => .error issues
    | .error issues, .ok _ => .error issues
    | .error issues, .error more => .error (issues ++ more)⟩

/-- The part of a record under a name, or what stands for it where it is absent. -/
def field (entries : Table Value) (name : String) (read : Value → Reading α)
    (absent : Reading α) : Reading α :=
  match Table.get? entries name with
  | some v => within (.field name) (read v)
  | none => absent

def required (entries : Table Value) (name : String)
    (read : Value → Reading α) : Reading α :=
  field entries name read (within (.field name) (issue .absent))

end Reading

end VisibilityRules
