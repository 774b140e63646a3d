import VisibilityRules.Comparison
import VisibilityRules.Condition.Basic
import VisibilityRules.Schema.Scalar

/-!
# Reading conditions

Terms, sets, entries and rules out of loose values. Unknown fields are ignored. Any value is
accepted for a relation, and any value that can be written for an operator.
-/

namespace VisibilityRules

/-- The relation that a value names: only the exact word for `or` names it. -/
def Relation.ofValue : Value → Relation
  | .text s => if s = "or" then .or else .and
  | _ => .and

/-- The relation that the value of a term names, unless that is null. -/
def Relation.ofValue? : Value → Option Relation
  | .null => none
  | v => some (ofValue v)

namespace Reading

/-- Reads an operator; a fault on the way is an issue with the value. -/
def operator (v : Value) : Reading Operator :=
  (Operator.read v).mapError fun f => [⟨[], .fault f⟩]

def assembleTerm (name : String) (value : Value) (op : Operator) (terms : Option (List Term))
    (relation : Option Relation) : Term :=
  match terms with
  | none => .leaf ⟨name, value, op, relation⟩
  | some ts => .group ⟨name, value, op, relation⟩ ts

def consTerm (t : Term) (rest : List Term) : List Term := t :: rest

mutual
def term : Value → Reading Term
  | .map entries =>
    apply
      (apply
        (apply
          (apply
            (assembleTerm <$> field entries "name" text (pure ""))
            (pure ((Table.get? entries "value").getD .null)))
          (field entries "operator" operator (pure .strictEqual)))
        (termsField entries))
      (pure (((Table.get? entries "relation").map Relation.ofValue?).getD none))
  | _ => issue (.notRecord "ConditionTerm")
def termsField : List (String × Value) → Reading (Option (List Term))
  | [] => pure none
  | (name, v) :: rest =>
    if name = "terms" then
      within (.field "terms")
        (match v with
          | .null => pure none
          | .list items => some <$> termsFrom 0 items
          | .tuple items => some <$> termsFrom 0 items
          | _ => issue .notList)
    else termsField rest
/-- Reads terms that stand in a list from the given index on. -/
def termsFrom (index : Nat) : List Value → Reading (List Term)
  | [] => pure []
  | v :: rest => apply (consTerm <$> within (.index index) (term v)) (termsFrom (index + 1) rest)
end

def terms : Value → Reading (List Term)
  | .list items => termsFrom 0 items
  | .tuple items => termsFrom 0 items
  | _ => issue .notList

def conditionSet : Value → Reading ConditionSet
  | .map entries =>
    apply
      (ConditionSet.mk <$> pure (((Table.get? entries "relation").map Relation.ofValue).getD .and))
      (field entries "terms" terms (pure []))
  | _ => issue (.notRecord "ConditionSet")

def action (v : Value) : Reading Action := choice Action.word .show .hide v

def entry : Value → Reading Entry
  | .map entries =>
    apply (Entry.mk <$> required entries "conditions" conditionSet) (required entries "action" action)
  | _ => issue (.notRecord "ConditionEntry")

def rule : Value → Reading Rule
  | .map entries =>
    apply
      (apply (Rule.mk <$> required entries "control_name" text)
        (required entries "conditions" conditionSet))
      (required entries "action" action)
  | _ => issue (.notRecord "ControlCondition")

end Reading

end VisibilityRules
