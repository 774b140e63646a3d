import Mathlib
import VisibilityRules.Proofs.Dependency.Agreement
import VisibilityRules.Proofs.Evaluation.Dependence
import VisibilityRules.Proofs.Registry.FirstMatch

/-!
# Which changes the dependents cover

A verdict changes with a setting only if a leaf reads the setting, and the dependents of the setting
are the controls with a leaf whose name starts with it. The two meet where both readings of the name
agree, and for every other name there is a registry in which they part.
-/

namespace VisibilityRules

namespace Registry

open Dependency

private theorem dependents_of_changed {evaluator config : Option Configuration}
    {ops : List Operation} {control setting : String} {s t : Settings}
    (hagree : ∀ name, name ≠ setting → Table.get? s name = Table.get? t name)
    (hclear : ∀ name ∈ leafNames (((new evaluator config).after ops).rulesOf control),
      (TermName.of name).setting = setting → TermName.isClear name)
    (hchange : ((new evaluator config).after ops).verdict control s ≠
      ((new evaluator config).after ops).verdict control t) :
    control ∈ ((new evaluator config).after ops).dependentsOf setting := by
  have hread : ∃ name ∈ leafNames (((new evaluator config).after ops).rulesOf control),
      (TermName.of name).setting = setting := by
    by_contra hnone
    apply hchange
    apply verdict_congr
    intro name hname
    have hne : (TermName.of name).setting ≠ setting := fun h => hnone ⟨name, hname, h⟩
    exact congrArg (Option.map Value.normal) (hagree _ hne)
  obtain ⟨name, hname, hsetting⟩ := hread
  rw [(tidy_after evaluator config ops).mem_dependentsOf_iff]
  refine ⟨name, hname, ?_⟩
  rw [(TermName.baseName?_eq_setting_iff name).mpr (hclear name hname hsetting), hsetting]

private theorem rulesOf_hideWhere (evaluator config : Option Configuration)
    (control name : String) (value : Value) :
    ((new evaluator config).after [.hideWhere control name value]).rulesOf control =
      [⟨control, ⟨.and, [.leaf ⟨name, value, .strictEqual, none⟩]⟩, .hide⟩] := by
  rw [rulesOf_after]
  have h := history_concat control [] (.hideWhere control name value)
  rw [List.nil_append] at h
  rw [h, Operation.added_hideWhere]
  simp [Operation.hideWhere, Operation.forgets, history]

private theorem outcome_check_leaf (nesting : Nesting) (settings : Settings) (c : Clause) :
    ((⟨.and, [.leaf c]⟩ : ConditionSet).check nesting settings).outcome = c.result settings := by
  rw [ConditionSet.check_eq, Term.checkOf_cons, Run.outcome_bind, Term.check, Clause.outcome_check]
  cases c.result settings with
  | error e => rfl
  | ok holds => cases holds <;> rfl

private theorem lookup_of_whole {settings : Settings} {name : TermName} {v : Value}
    (hget : (Table.get? settings name.setting).getD .missing = v)
    (hpart : ∀ key, v.part key = .ok v) : settings.lookup name = .ok v := by
  unfold Settings.lookup
  rw [hget]
  cases name.part with
  | none => rfl
  | some key =>
    dsimp only
    rw [hpart, ite_self]

private theorem visible_where_absent (evaluator config : Option Configuration)
    (control name : String) (value : Value) :
    ((((new evaluator config).after [.hideWhere control name value]).verdict control []).outcome.map
      Verdict.visible) = .ok true := by
  have hlookup : Settings.lookup [] (.of name) = .ok .missing := lookup_of_whole rfl fun _ => rfl
  have hrules := rulesOf_hideWhere evaluator config control name value
  rw [verdict_of_rules _ hrules (List.cons_ne_nil _ _), firstVerdict, Run.outcome_bind,
    Run.outcome_mapError, outcome_check_leaf, Clause.result, hlookup]
  rfl

private theorem hidden_where_present (evaluator config : Option Configuration)
    (control name : String) :
    ((((new evaluator config).after [.hideWhere control name (.int 1)]).verdict control
      [((TermName.of name).setting, .int 1)]).outcome.map Verdict.visible) = .ok false := by
  have hlookup : Settings.lookup [((TermName.of name).setting, .int 1)] (.of name) = .ok (.int 1) :=
    lookup_of_whole (by simp [Table.get?]) fun _ => rfl
  have hrules := rulesOf_hideWhere evaluator config control name (.int 1)
  have hmatch : Operator.strictEqual.compare (.int 1) (.int 1) = .ok true := by
    simp [Operator.compare, Value.strictEqual, Number.same, Number.place?]
  rw [verdict_of_rules _ hrules (List.cons_ne_nil _ _), firstVerdict, Run.outcome_bind,
    Run.outcome_mapError, outcome_check_leaf, Clause.result, hlookup]
  simp only [Except.bind, Value.isMissing, Bool.false_eq_true, if_false, hmatch]
  rfl

/-- A change of one setting that changes the verdict on a control makes the control one of the
dependents of the setting, if the names by which its leaves read the setting are clear. For every
name that is not clear there is a rule that reads a setting by it and hides its control when the
setting changes, while the control is none of the dependents of the setting. -/
theorem dependents_cover_clear_names (evaluator config : Option Configuration) (control : String) :
    (∀ (ops : List Operation) (setting : String) (s t : Settings),
      let r := (new evaluator config).after ops
      (∀ name, name ≠ setting → Table.get? s name = Table.get? t name) →
      (∀ name ∈ leafNames (r.rulesOf control),
        (TermName.of name).setting = setting → TermName.isClear name) →
      (r.verdict control s).outcome ≠ (r.verdict control t).outcome →
      control ∈ r.dependentsOf setting) ∧
    ∀ name, ¬TermName.isClear name → ∃ (ops : List Operation) (setting : String) (s t : Settings),
      let r := (new evaluator config).after ops
      leafNames (r.rulesOf control) = [name] ∧
      (∀ other, other ≠ setting → Table.get? s other = Table.get? t other) ∧
      (r.verdict control s).outcome.map Verdict.visible = .ok true ∧
      (r.verdict control t).outcome.map Verdict.visible = .ok false ∧
      control ∉ r.dependentsOf setting := by
  refine ⟨?_, ?_⟩
  · intro ops setting s t r hagree hclear hchange
    exact dependents_of_changed hagree hclear fun heq => hchange (congrArg Run.outcome heq)
  · intro name hunclear
    have hnames : leafNames (((new evaluator config).after
        [.hideWhere control name (.int 1)]).rulesOf control) = [name] := by
      rw [rulesOf_hideWhere]
      rfl
    refine ⟨[.hideWhere control name (.int 1)], (TermName.of name).setting, [],
      [((TermName.of name).setting, .int 1)], hnames, ?_,
      visible_where_absent evaluator config control name _,
      hidden_where_present evaluator config control name, ?_⟩
    · intro other hother
      simp [Table.get?, Ne.symm hother]
    · rw [(tidy_after evaluator config _).mem_dependentsOf_iff, hnames]
      rintro ⟨other, hother, hbase⟩
      rw [List.mem_singleton] at hother
      exact hunclear ((TermName.baseName?_eq_setting_iff name).mp (hother ▸ hbase))

private theorem outcome_ne_of_visible {x y : Run Failure Verdict}
    (h : x.outcome.toOption.map Verdict.visible ≠ y.outcome.toOption.map Verdict.visible) :
    x.outcome ≠ y.outcome := fun heq => h (by rw [heq])

theorem panel_depends_on_image :
    "panel" ∈ ((new none none).after
      [.hideWhere "panel" "image[url]" (.text "x")]).dependentsOf "image" := by
  refine (dependents_cover_clear_names none none "panel").1 _ "image" []
    [("image", .map [("url", .text "x")])] ?_ (by decide +kernel)
    (outcome_ne_of_visible (by decide +kernel))
  intro name hname
  simp [Table.get?, Ne.symm hname]

/-- A dot ends the name of the setting for an evaluation, but not for the dependents. -/
theorem dependents_miss_dotted_name :
    ¬∀ (ops : List Operation) (control setting : String) (s t : Settings),
      let r := (new none none).after ops
      (∀ name, name ≠ setting → Table.get? s name = Table.get? t name) →
      (r.verdict control s).outcome ≠ (r.verdict control t).outcome →
      control ∈ r.dependentsOf setting := by
  intro h
  have hmem := h [.hideWhere "panel" "layout.mode" (.text "wide")] "panel" "layout" []
    [("layout", .text "wide")] (fun name hname => by simp [Table.get?, Ne.symm hname])
    (outcome_ne_of_visible (by decide +kernel))
  exact absurd hmem (by decide +kernel)

end Registry

end VisibilityRules
