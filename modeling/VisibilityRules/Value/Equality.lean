import VisibilityRules.Value.Basic

/-!
# Equality of values

Strict equality asks for two values of one kind, with integers and doubles as one kind. Inside
lists, tuples and mappings plain equality applies, which counts a truth value as zero or one.
-/

namespace VisibilityRules.Value

def sameCount (v w : Value) : Bool :=
  match v.count?, w.count? with
  | some a, some b => a.same b
  | _, _ => false

mutual
/-- Plain equality: numbers and truth values by place, containers member by member. -/
def equal : Value → Value → Bool
  | .missing, .missing => true
  | .null, .null => true
  | .text s, .text t => s = t
  | .list xs, .list ys => equalItems xs ys
  | .tuple xs, .tuple ys => equalItems xs ys
  | .map xs, .map ys => xs.length = ys.length && equalEntries xs ys
  | .bool a, w => sameCount (.bool a) w
  | .int a, w => sameCount (.int a) w
  | .double a, w => sameCount (.double a) w
  | _, _ => false
def equalItems : List Value → List Value → Bool
  | [], [] => true
  | x :: xs, y :: ys => equal x y && equalItems xs ys
  | _, _ => false
/-- Whether each entry of the first mapping has an equal value in the second. -/
def equalEntries : List (String × Value) → List (String × Value) → Bool
  | [], _ => true
  | (key, x) :: xs, ys =>
    (match Table.get? ys key with
      | some y => equal x y
      | none => false) && equalEntries xs ys
end

/-- Equality of two values of one kind. -/
def strictEqual (left right : Value) : Bool :=
  match left, right with
  | .missing, .missing => true
  | .null, .null => true
  | .bool a, .bool b => a = b
  | .int a, .int b => (Number.int a).same (.int b)
  | .int a, .double b => (Number.int a).same (.double b)
  | .double a, .int b => (Number.double a).same (.int b)
  | .double a, .double b => (Number.double a).same (.double b)
  | .text s, .text t => s = t
  | .list xs, .list ys => equal (.list xs) (.list ys)
  | .tuple xs, .tuple ys => equal (.tuple xs) (.tuple ys)
  | .map xs, .map ys => equal (.map xs) (.map ys)
  | _, _ => false

def among (items : List Value) (v : Value) : Bool := items.any fun item => strictEqual item v

end VisibilityRules.Value
