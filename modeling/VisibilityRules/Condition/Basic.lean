import VisibilityRules.Operator

/-!
# Conditions

A condition set is a relation over terms. A term is a leaf, which compares one setting, or a group
of terms. A rule binds a condition set to a control and says whether to show or to hide it.
-/

namespace VisibilityRules

inductive Relation where
  | and
  | or
deriving DecidableEq, Repr

def Relation.word : Relation → String
  | .and => "and"
  | .or => "or"

/-- The fields that leaves and groups have in common; a group does not use name, value and
operator, a leaf does not use the relation. -/
structure Clause where
  name : String := ""
  value : Value := .null
  operator : Operator := .strictEqual
  relation : Option Relation := none

inductive Term where
  | leaf (clause : Clause)
  | group (clause : Clause) (terms : List Term)

namespace Term

def clause : Term → Clause
  | leaf c => c
  | group c _ => c

mutual
def leaves : Term → List Clause
  | leaf c => [c]
  | group _ terms => leavesOf terms
def leavesOf : List Term → List Clause
  | [] => []
  | t :: rest => leaves t ++ leavesOf rest
end

end Term

structure ConditionSet where
  relation : Relation := .and
  terms : List Term := []

inductive Action where
  | show
  | hide
deriving DecidableEq, Repr

def Action.word : Action → String
  | .show => "show"
  | .hide => "hide"

/-- A condition for a control that is not named yet. -/
structure Entry where
  conditions : ConditionSet
  action : Action

/-- A condition for a control. -/
structure Rule where
  control : String
  conditions : ConditionSet
  action : Action

end VisibilityRules
