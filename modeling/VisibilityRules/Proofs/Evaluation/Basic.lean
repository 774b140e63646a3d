import VisibilityRules.Evaluation
import VisibilityRules.Proofs.Run

/-!
# Equations of evaluation

A leaf looks up one setting and compares it; its result and its events are stated here once. Terms
under a relation are checked one behind another until one of them differs from the truth value that
the relation has by default.
-/

namespace VisibilityRules

theorem Value.isMissing_iff (v : Value) : v.isMissing ↔ v = .missing := by
  cases v <;> simp [isMissing]

/-- The name in a text; a text without name characters is used whole. -/
def TermName.of (s : String) : TermName := (TermName.parse? s).getD ⟨s, none⟩

@[simp] theorem TermName.outcome_read {ε : Type} (s : String) :
    (TermName.read s : Run ε TermName).outcome = .ok (.of s) := by
  unfold TermName.read TermName.of
  cases TermName.parse? s <;> rfl

theorem TermName.comparisons_read {ε : Type} (s : String) :
    (TermName.read s : Run ε TermName).comparisons = [] := by
  unfold TermName.read
  cases TermName.parse? s <;> rfl

theorem Settings.lookup_bare {s : String} (h : TermName.parse? s = some ⟨s, none⟩)
    (settings : Settings) :
    settings.lookup (.of s) = .ok ((Table.get? settings s).getD .missing) := by
  have hname : TermName.of s = ⟨s, none⟩ := by
    rw [TermName.of, h]
    rfl
  rw [hname]
  rfl

namespace Clause

/-- What a leaf comes to: false where its setting is missing, elsewhere what its operator says. -/
def result (settings : Settings) (leaf : Clause) : Except Fault Bool :=
  (settings.lookup (.of leaf.name)).bind fun value =>
    if value.isMissing then .ok false else leaf.operator.compare value leaf.value

theorem result_of_found {settings : Settings} (leaf : Clause) {value : Value}
    (h : settings.lookup (.of leaf.name) = .ok value) {answer : Bool}
    (hanswer : leaf.operator.compare value leaf.value = .ok answer) :
    leaf.result settings = .ok (!value.isMissing && answer) := by
  rw [result, h, Except.bind, hanswer]
  cases value.isMissing <;> rfl

/-- The two values and the operator that a leaf compares, unless its setting is missing. -/
def comparand? (settings : Settings) (leaf : Clause) : Option (Value × Value × Operator) :=
  match settings.lookup (.of leaf.name) with
  | .ok value => if value.isMissing then none else some (value, leaf.value, leaf.operator)
  | .error _ => none

/-- The operator of a comparison with its answer, unless the comparison fails. -/
def answer? : Value × Value × Operator → Option (Operator × Bool)
  | (left, right, op) =>
    match op.compare left right with
    | .ok holds => some (op, holds)
    | .error _ => none

/-- The events of a leaf: the notices on its name, then those of its comparison. -/
theorem check_eq (settings : Settings) (leaf : Clause) :
    leaf.check settings =
      ⟨(TermName.read leaf.name : Run Fault TermName).events ++
        (((leaf.comparand? settings).bind answer?).toList.map fun a => .compared a.1 a.2),
        leaf.result settings⟩ := by
  have hread := TermName.outcome_read (ε := Fault) leaf.name
  simp only [check, Run.monad_bind_def]
  rw [Run.bind_of_ok hread]
  unfold comparand? result
  cases hl : settings.lookup (.of leaf.name) with
  | error e => simp [Run.bind_error, Except.bind]
  | ok value =>
    simp only [Run.ofExcept_def, Run.bind_ok, List.nil_append, Except.bind]
    by_cases hm : value.isMissing
    · simp [hm]
    · simp only [hm, Bool.false_eq_true, if_false, Operator.apply, Option.bind_some, answer?]
      cases leaf.operator.compare value leaf.value <;> rfl

@[simp] theorem outcome_check (settings : Settings) (leaf : Clause) :
    (leaf.check settings).outcome = leaf.result settings := by
  rw [check_eq]

theorem comparisons_check (settings : Settings) (leaf : Clause) :
    (leaf.check settings).comparisons = ((leaf.comparand? settings).bind answer?).toList := by
  have hread := TermName.comparisons_read (ε := Fault) leaf.name
  rw [Run.comparisons_eq] at hread
  rw [check_eq, Run.comparisons_eq, List.filterMap_append, hread]
  cases (leaf.comparand? settings).bind answer? <;> rfl

end Clause

/-- The truth value that a relation gives to no terms at all. -/
def Relation.neutral : Relation → Bool
  | .and => true
  | .or => false

namespace Term

def checkOf (nesting : Nesting) (settings : Settings) (relation : Relation) (terms : List Term) :
    Run Fault Bool :=
  match relation with
  | .and => checkAll nesting settings terms
  | .or => checkAny nesting settings terms

theorem check_group (nesting : Nesting) (settings : Settings) (c : Clause) (terms : List Term) :
    check nesting settings (group c terms) =
      checkOf nesting settings (nesting.relationOf c) terms := by
  rw [check]
  rfl

@[simp] theorem checkOf_nil (nesting : Nesting) (settings : Settings) (relation : Relation) :
    checkOf nesting settings relation [] = ⟨[], .ok relation.neutral⟩ := by
  cases relation <;> rfl

/-- A failure and a truth value that differs from the default end the check. -/
theorem checkOf_cons (nesting : Nesting) (settings : Settings) (relation : Relation) (t : Term)
    (rest : List Term) :
    checkOf nesting settings relation (t :: rest) =
      (check nesting settings t).bind fun holds =>
        if holds = relation.neutral then checkOf nesting settings relation rest
        else ⟨[], .ok holds⟩ := by
  cases relation with
  | and =>
    simp only [checkOf, checkAll, Relation.neutral]
    congr 1
    funext holds
    cases holds <;> rfl
  | or =>
    simp only [checkOf, checkAny, Relation.neutral]
    congr 1
    funext holds
    cases holds <;> rfl

end Term

/-- Whether all, or any, of some leaves hold. -/
def Relation.combine (relation : Relation) (leaves : List Clause) (holds : Clause → Bool) : Bool :=
  match relation with
  | .and => leaves.all holds
  | .or => leaves.any holds

theorem Relation.combine_cons (relation : Relation) (c : Clause) (rest : List Clause)
    (holds : Clause → Bool) :
    relation.combine (c :: rest) holds =
      if holds c = relation.neutral then relation.combine rest holds else holds c := by
  cases relation <;> cases h : holds c <;> simp [combine, neutral, h]

theorem ConditionSet.check_eq (nesting : Nesting) (settings : Settings) (set : ConditionSet) :
    set.check nesting settings = Term.checkOf nesting settings set.relation set.terms := rfl

/-- Where all leaves of a flat set have an answer, the set answers their conjunction or
disjunction. -/
theorem ConditionSet.outcome_check_leaves {settings : Settings} {leaves : List Clause}
    {holds : Clause → Bool} (h : ∀ c ∈ leaves, c.result settings = .ok (holds c))
    (nesting : Nesting) (relation : Relation) :
    ((⟨relation, leaves.map .leaf⟩ : ConditionSet).check nesting settings).outcome =
      .ok (relation.combine leaves holds) := by
  rw [check_eq]
  induction leaves with
  | nil => cases relation <;> rfl
  | cons c rest ih =>
    have hhead := h c List.mem_cons_self
    have hrest := ih fun other hother => h other (List.mem_cons_of_mem _ hother)
    rw [List.map_cons, Term.checkOf_cons, Run.outcome_bind, Term.check, Clause.outcome_check, hhead,
      Except.bind, relation.combine_cons]
    split
    · exact hrest
    · rfl

end VisibilityRules
