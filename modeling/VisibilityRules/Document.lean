import VisibilityRules.Failure
import VisibilityRules.Json.Reader
import VisibilityRules.Schema.Condition

/-!
# Documents of conditions

A document maps the name of each control to an entry or to a list of entries. Its rules come in the
order of the document.
-/

namespace VisibilityRules

namespace Reading

/-- The first of two readings that succeeds; if none does, the issues of both. -/
def either {α : Type} (x y : Reading α) : Reading α :=
  ⟨x.events ++ y.events,
    match x.outcome, y.outcome with
    | .ok a, _ => .ok a
    | .error _, .ok b => .ok b
    | .error issues, .error more => .error (issues ++ more)⟩

def consEntry (e : Entry) (rest : List Entry) : List Entry := e :: rest

/-- Reads entries that stand in a list from the given index on. -/
def entriesFrom (index : Nat) : List Value → Reading (List Entry)
  | [] => pure []
  | v :: rest => apply (consEntry <$> within (.index index) (entry v)) (entriesFrom (index + 1) rest)

def entries : Value → Reading (List Entry)
  | .list items => entriesFrom 0 items
  | .tuple items => entriesFrom 0 items
  | _ => issue .notList

def oneOrMore (v : Value) : Reading (List Entry) :=
  either (within (.field "list[ConditionEntry]") (entries v))
    (within (.field "ConditionEntry") ((fun e => [e]) <$> entry v))

def consRules (control : String) (es : List Entry) (rest : List Rule) : List Rule :=
  es.map (fun e => ⟨control, e.conditions, e.action⟩) ++ rest

def documentRules : Table Value → Reading (List Rule)
  | [] => pure []
  | (control, v) :: rest =>
    apply (consRules control <$> within (.field control) (oneOrMore v)) (documentRules rest)

def document : Value → Reading (List Rule)
  | .map sections => documentRules sections
  | _ => issue .notMapping

end Reading

inductive Source where
  /-- a value; a text names a file, and none is at hand -/
  | value (v : Value)
  /-- a file with the given contents, if it exists -/
  | file (contents : Option String)

namespace Source

/-- A text with every kind of line end replaced by a line feed. -/
def lineFeeds : List Char → List Char
  | [] => []
  | '\r' :: '\n' :: rest => '\n' :: lineFeeds rest
  | '\r' :: rest => '\n' :: lineFeeds rest
  | c :: rest => c :: lineFeeds rest

def toValue : Source → Except Failure Value
  | value (.text _) => .error .noFile
  | value v => .ok v
  | file none => .error .noFile
  | file (some contents) =>
    let text := lineFeeds contents.toList
    (Json.read text).mapError (.unreadable text)

def rules (source : Source) : Run Failure (List Rule) :=
  match source.toValue with
  | .ok v => (Reading.document v).mapError .invalid
  | .error failure => .fail failure

end Source

end VisibilityRules
