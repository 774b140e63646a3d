import VisibilityRules.Proofs.Dependency.Extraction
import VisibilityRules.Proofs.Evaluation.Basic
import VisibilityRules.Proofs.Value.NormalForm
import VisibilityRules.Registry.Basic

/-!
# What an evaluation depends on

Two settings under which each setting that a leaf reads is the same up to the order of entries, or
absent from both, give the same run of every check and the same verdict of every list of rules.
-/

namespace VisibilityRules

namespace Settings

/-- Whether a setting is absent from both settings, or there in both with the same value up to the
order of entries. -/
def SameAt (s t : Settings) (name : String) : Prop :=
  (Table.get? s name).map Value.normal = (Table.get? t name).map Value.normal

private def reach (name : TermName) (value : Value) : Except Fault Value :=
  match name.part with
  | none => .ok value
  | some key => if key = "" then .ok value else value.part key

private theorem reach_normal (name : TermName) (value : Value) :
    reach name value.normal = (reach name value).map Value.normal := by
  unfold reach
  cases name.part with
  | none => rfl
  | some key =>
    by_cases hk : key = ""
    · simp only [hk, if_true]
      rfl
    · simp only [hk, if_false, Value.part_normal]

theorem lookup_congr {s t : Settings} {name : TermName} (h : SameAt s t name.setting) :
    (s.lookup name).map Value.normal = (t.lookup name).map Value.normal := by
  have hreach (u : Settings) : (u.lookup name).map Value.normal =
      reach name (((Table.get? u name.setting).map Value.normal).getD .missing) := by
    change (reach name ((Table.get? u name.setting).getD .missing)).map Value.normal = _
    rw [← reach_normal]
    cases Table.get? u name.setting <;> rfl
  rw [hreach, hreach, h]

end Settings

theorem Operator.apply_normal (op : Operator) (v w : Value) :
    op.apply v.normal w = op.apply v w := by
  rw [apply, apply, Value.compare_normal]

private def Clause.finish (leaf : Clause) (found : Except Fault Value) : Run Fault Bool :=
  (Run.ofExcept found).bind fun value =>
    if value.isMissing then pure false else leaf.operator.apply value leaf.value

private theorem Clause.finish_normal (leaf : Clause) (found : Except Fault Value) :
    leaf.finish (found.map Value.normal) = leaf.finish found := by
  cases found with
  | error e => rfl
  | ok value =>
    simp only [finish, Except.map, Run.ofExcept_def, Run.bind_ok, Value.isMissing_normal,
      Operator.apply_normal]

theorem Clause.check_congr {s t : Settings} {leaf : Clause}
    (h : s.SameAt t (TermName.of leaf.name).setting) : leaf.check s = leaf.check t := by
  have hread := TermName.outcome_read (ε := Fault) leaf.name
  have hcheck (u : Settings) : leaf.check u =
      (TermName.read leaf.name).bind fun name => leaf.finish (u.lookup name) := rfl
  rw [hcheck, hcheck, Run.bind_of_ok hread, Run.bind_of_ok hread, ← Clause.finish_normal,
    ← Clause.finish_normal leaf (t.lookup _), Settings.lookup_congr h]

namespace Term

mutual
theorem check_congr (nesting : Nesting) {s t : Settings} : ∀ term : Term,
    (∀ c ∈ leaves term, s.SameAt t (TermName.of c.name).setting) →
    check nesting s term = check nesting t term
  | leaf c, h => by
    rw [check, check]
    exact Clause.check_congr (h c (by simp [leaves]))
  | group c terms, h => by
    rw [leaves] at h
    rw [check_group, check_group]
    exact checkOf_congr nesting (nesting.relationOf c) terms h
theorem checkOf_congr (nesting : Nesting) {s t : Settings} (relation : Relation) :
    ∀ terms : List Term, (∀ c ∈ leavesOf terms, s.SameAt t (TermName.of c.name).setting) →
    checkOf nesting s relation terms = checkOf nesting t relation terms
  | [], _ => by
    rw [checkOf_nil, checkOf_nil]
  | term :: rest, h => by
    have hhead := check_congr nesting term fun c hc => h c (by simp [leavesOf, hc])
    have htail := checkOf_congr nesting relation rest fun c hc => h c (by simp [leavesOf, hc])
    rw [checkOf_cons, checkOf_cons, hhead, htail]
end

end Term

namespace Registry

theorem firstVerdict_congr (nesting : Nesting) {s t : Settings} (rules : List Rule)
    (h : ∀ name ∈ Dependency.leafNames rules, s.SameAt t (TermName.of name).setting) :
    firstVerdict nesting s rules = firstVerdict nesting t rules := by
  induction rules with
  | nil => rfl
  | cons rule rest ih =>
    rw [Dependency.leafNames, List.flatMap_cons] at h
    have hset : rule.conditions.check nesting s = rule.conditions.check nesting t := by
      rw [ConditionSet.check_eq, ConditionSet.check_eq]
      apply Term.checkOf_congr
      intro c hc
      exact h c.name (List.mem_append_left _ (List.mem_map_of_mem hc))
    have hrest := ih fun name hname => h name (List.mem_append_right _ hname)
    rw [firstVerdict, firstVerdict, hset, hrest]

theorem verdict_congr_rules {r r' : Registry} {control : String}
    (hnesting : r'.nesting = r.nesting) (hrules : r'.rulesOf control = r.rulesOf control)
    (settings : Settings) : r'.verdict control settings = r.verdict control settings := by
  unfold verdict
  rw [hrules, hnesting]

theorem verdict_congr (r : Registry) (control : String) {s t : Settings}
    (h : ∀ name ∈ Dependency.leafNames (r.rulesOf control),
      s.SameAt t (TermName.of name).setting) :
    r.verdict control s = r.verdict control t := by
  unfold verdict
  cases hr : r.rulesOf control with
  | nil => rfl
  | cons rule rest =>
    rw [hr] at h
    exact firstVerdict_congr r.nesting (rule :: rest) h

end Registry

end VisibilityRules
