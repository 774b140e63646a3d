import VisibilityRules.Condition.Written
import VisibilityRules.Failure
import VisibilityRules.Schema.Condition

/-!
# Building condition sets

A builder collects terms call by call and builds condition sets out of what it has so far.
Ready-made sets cover a single comparison, one of several values, and a setting with a variant for a
device.
-/

namespace VisibilityRules

def Value.memberList (v : Value) : Except Failure (List Value) :=
  match v.members? with
  | some members => .ok members
  | none => .error (.notIterable v.kindName)

namespace Builder

/-- A leaf with the given name, which must be a text. -/
def leaf (op : Operator) (name value : Value) : Run Failure Term :=
  match name with
  | .text s => pure (.leaf { name := s, value := value, operator := op })
  | _ => .fail (.invalid [⟨[.field "name"], .notText⟩])

inductive Call where
  /-- adds a comparison by the method of its operator -/
  | compare (op : Operator) (name value : Value)
  /-- adds a group of what the inner calls collect -/
  | group (relation : Value) (calls : List Call)
  /-- builds a set of the terms so far -/
  | build

instance : Inhabited Call := ⟨.build⟩

/-- The methods of a builder that add a comparison. -/
inductive Method where
  | equals
  | notEquals
  | strictlyEquals
  | notStrictlyEquals
  | greaterThan
  | greaterThanOrEqual
  | lessThan
  | lessThanOrEqual
  | isIn
  | notIn
  | contains
  | notContains
deriving DecidableEq, Repr

def Method.operator : Method → Operator
  | equals => .looseEqual
  | notEquals => .looseNotEqual
  | strictlyEquals => .strictEqual
  | notStrictlyEquals => .strictNotEqual
  | greaterThan => .greater
  | greaterThanOrEqual => .greaterEqual
  | lessThan => .less
  | lessThanOrEqual => .lessEqual
  | isIn => .isIn
  | notIn => .notIn
  | contains => .contains
  | notContains => .notContains

def Method.call (m : Method) (name value : Value) : Call := .compare m.operator name value

/-- The value that a comparison expects: for membership a list of the members of what is given. -/
def expected (op : Operator) (value : Value) : Except Failure Value :=
  match op with
  | .isIn => value.memberList.map .list
  | .notIn => value.memberList.map .list
  | _ => .ok value

mutual
/-- Performs one call of a builder with the given relation and terms: the terms afterwards and the
sets that were built. -/
def call (relation : Relation) (terms : List Term) :
    Call → Run Failure (List Term × List ConditionSet)
  | .compare op name value =>
    (Run.ofExcept (expected op value)).bind fun v =>
      (leaf op name v).bind fun t => Run.pure (terms ++ [t], [])
  | .group groupRelation inner =>
    (calls .and [] inner).bind fun (collected, built) =>
      Run.pure
        (terms ++ [.group { relation := Relation.ofValue? groupRelation } collected], built)
  | .build => Run.pure (terms, [⟨relation, terms⟩])
def calls (relation : Relation) (terms : List Term) :
    List Call → Run Failure (List Term × List ConditionSet)
  | [] => Run.pure (terms, [])
  | c :: rest =>
    (call relation terms c).bind fun (collected, built) =>
      (calls relation collected rest).bind fun (last, more) => Run.pure (last, built ++ more)
end

/-- The sets built by calls on a new builder with the given relation, and by a last call to
build. -/
def run (relation : Value) (cs : List Call) : Run Failure (List ConditionSet) :=
  (calls (.ofValue relation) [] (cs ++ [.build])).bind fun (_, built) => Run.pure built

end Builder

namespace ConditionSet

def ofLeaf (value : Value) (name : String) (op : Operator) : ConditionSet :=
  ⟨.and, [.leaf { name := name, value := value, operator := op }]⟩

/-- A single comparison, by the operator that a value names. -/
def single (name value op : Value) : Run Failure ConditionSet :=
  (Reading.apply (ofLeaf value <$> Reading.within (.field "name") (Reading.text name))
    (Reading.within (.field "operator") (Reading.operator op))).mapError .invalid

def alternatives (name : Value) : List Value → Run Failure (List Term)
  | [] => pure []
  | v :: rest =>
    (Builder.leaf .strictEqual name v).bind fun t =>
      (alternatives name rest).bind fun ts => Run.pure (t :: ts)

/-- Strict equality with any of the members of a value. -/
def oneOf (name values : Value) : Run Failure ConditionSet :=
  (Run.ofExcept values.memberList).bind fun members =>
    (alternatives name members).bind fun terms => Run.pure ⟨.or, terms⟩

/-- A base name with a suffix behind it. Two lists, two tuples or two numbers have a sum as well,
but that is no name. -/
def suffixed (base suffix : Value) : Except Failure (Option String) :=
  match base, suffix with
  | .text s, .text t => .ok (some (s ++ t))
  | .list _, .list _ => .ok none
  | .tuple _, .tuple _ => .ok none
  | .text _, v => .error (.cannotAppend "str" v.kindName)
  | .list _, v => .error (.cannotAppend "list" v.kindName)
  | .tuple _, v => .error (.cannotAppend "tuple" v.kindName)
  | v, w =>
    match v.count?, w.count? with
    | some (.double _), some (.int n) => noSum n
    | some (.int n), some (.double _) => noSum n
    | some _, some _ => .ok none
    | _, _ => .error (.cannotAdd v.kindName w.kindName)
where
  /-- The sum of an integer and a double, which fails where the integer is beyond the doubles. -/
  noSum (n : Int) : Except Failure (Option String) :=
    match Double.ofInt? n with
    | some _ => .ok none
    | none => .error (.fault .overflow)

/-- Leaves that compare each of the named settings with one value. -/
def variants (value : Value) : List Value → Run Failure (List Term)
  | [] => pure []
  | name :: rest =>
    (Builder.leaf .strictEqual name value).bind fun t =>
      (variants value rest).bind fun ts => Run.pure (t :: ts)

/-- Strict equality of the variant of a setting for a device, or of the setting itself. -/
def responsive (base suffix value : Value) : Run Failure ConditionSet :=
  (Run.ofExcept (suffixed base suffix)).bind fun variant =>
    (variants value [.ofText? variant, base]).bind fun terms => Run.pure ⟨.or, terms⟩

end ConditionSet

end VisibilityRules
