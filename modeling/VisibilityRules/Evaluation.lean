import VisibilityRules.Comparison
import VisibilityRules.Condition.Basic
import VisibilityRules.Settings

/-!
# Evaluation of conditions

A set is checked from left to right and only as far as its outcome needs. A leaf whose setting is
missing does not hold and makes no comparison.
-/

namespace VisibilityRules

/-- How nested groups combine their terms: always all of them, or by the relation of the group. -/
inductive Nesting where
  | and
  | term
deriving DecidableEq, Repr

def Nesting.word : Nesting → String
  | .and => "and"
  | .term => "term"

def Nesting.relationOf (nesting : Nesting) (group : Clause) : Relation :=
  match nesting, group.relation with
  | .term, some relation => relation
  | _, _ => .and

def Operator.apply (op : Operator) (left right : Value) : Run Fault Bool :=
  match op.compare left right with
  | .ok holds => ⟨[.compared op holds], .ok holds⟩
  | .error fault => .fail fault

/-- Compares the setting that a leaf names with the value it expects. -/
def Clause.check (settings : Settings) (leaf : Clause) : Run Fault Bool := do
  let name ← TermName.read leaf.name
  let value ← Run.ofExcept (settings.lookup name)
  if value.isMissing then pure false else leaf.operator.apply value leaf.value

namespace Term

mutual
def check (nesting : Nesting) (settings : Settings) : Term → Run Fault Bool
  | leaf c => c.check settings
  | group c terms =>
    match nesting.relationOf c with
    | .and => checkAll nesting settings terms
    | .or => checkAny nesting settings terms
/-- Whether all terms hold, up to the first that does not. -/
def checkAll (nesting : Nesting) (settings : Settings) : List Term → Run Fault Bool
  | [] => Run.pure true
  | t :: rest =>
    (check nesting settings t).bind fun holds =>
      if holds then checkAll nesting settings rest else Run.pure false
/-- Whether any term holds, up to the first that does. -/
def checkAny (nesting : Nesting) (settings : Settings) : List Term → Run Fault Bool
  | [] => Run.pure false
  | t :: rest =>
    (check nesting settings t).bind fun holds =>
      if holds then Run.pure true else checkAny nesting settings rest
end

end Term

def ConditionSet.check (nesting : Nesting) (settings : Settings) (set : ConditionSet) :
    Run Fault Bool :=
  match set.relation with
  | .and => Term.checkAll nesting settings set.terms
  | .or => Term.checkAny nesting settings set.terms

end VisibilityRules
