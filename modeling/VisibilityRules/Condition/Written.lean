import VisibilityRules.Condition.Basic
import VisibilityRules.Json.Writer

/-!
# Conditions as records

A term, a set, an entry and a rule as mappings of their fields in order, and their JSON text.
-/

namespace VisibilityRules

/-- A record that holds a text, or null. -/
def Value.ofText? : Option String → Value
  | some s => .text s
  | none => .null

namespace Term

/-- The record of a term with the given record of its terms. -/
def recordOf (c : Clause) (terms : Value) : Value :=
  .map [("name", .text c.name), ("value", c.value), ("operator", .text c.operator.symbol),
    ("terms", terms), ("relation", .ofText? (c.relation.map Relation.word))]

mutual
def toValue : Term → Value
  | leaf c => recordOf c .null
  | group c terms => recordOf c (.list (toValues terms))
def toValues : List Term → List Value
  | [] => []
  | t :: rest => toValue t :: toValues rest
end

end Term

def ConditionSet.toValue (set : ConditionSet) : Value :=
  .map [("relation", .text set.relation.word), ("terms", .list (Term.toValues set.terms))]

def Entry.toValue (e : Entry) : Value :=
  .map [("conditions", e.conditions.toValue), ("action", .text e.action.word)]

def Rule.toValue (r : Rule) : Value :=
  .map [("control_name", .text r.control), ("conditions", r.conditions.toValue),
    ("action", .text r.action.word)]

end VisibilityRules
