import VisibilityRules.Proofs.Cache.Key
import VisibilityRules.Proofs.Evaluation.ShortCircuit

/-!
# Settings outside the dependencies

The settings that rules are said to look up cover all that an evaluation of the rules can read, in
whatever order and however far it goes through their leaves. Two settings that agree there have the
same runs with the same comparisons, and so the same verdicts.
-/

namespace VisibilityRules

/-- Whether two settings lack the same ones of some names and hold the same values under the
others. -/
def Settings.AgreeOn (s t : Settings) (names : List String) : Prop :=
  ∀ name ∈ names, Table.get? s name = Table.get? t name

/-- What a check compares: the values of each leaf that it visits and the operator between them. -/
def ConditionSet.comparands (nesting : Nesting) (settings : Settings) (set : ConditionSet) :
    List (Value × Value × Operator) :=
  (set.walk nesting (Clause.result settings)).filterMap (Clause.comparand? settings)

theorem Settings.lookup_eq_of_get?_eq {s t : Settings} {name : TermName}
    (h : Table.get? s name.setting = Table.get? t name.setting) : s.lookup name = t.lookup name := by
  unfold lookup
  rw [h]

namespace Clause

variable {s t : Settings} {leaf : Clause}

theorem result_congr (h : s.lookup (.of leaf.name) = t.lookup (.of leaf.name)) :
    leaf.result s = leaf.result t := by
  unfold result
  rw [h]

theorem comparand?_congr (h : s.lookup (.of leaf.name) = t.lookup (.of leaf.name)) :
    leaf.comparand? s = leaf.comparand? t := by
  unfold comparand?
  rw [h]

end Clause

namespace ConditionSet

variable {s t : Settings} {set : ConditionSet}

private theorem comparands_congr (nesting : Nesting)
    (h : ∀ c ∈ Term.leavesOf set.terms, s.lookup (.of c.name) = t.lookup (.of c.name)) :
    set.comparands nesting s = set.comparands nesting t := by
  have hwalk : set.walk nesting (Clause.result s) = set.walk nesting (Clause.result t) :=
    walk_congr fun c hc => Clause.result_congr (h c hc)
  rw [comparands, comparands, hwalk]
  exact List.filterMap_congr fun c hc => Clause.comparand?_congr (h c (mem_leaves_of_mem_walk hc))

private theorem check_congr (nesting : Nesting)
    (h : ∀ c ∈ Term.leavesOf set.terms,
      Table.get? s (TermName.of c.name).setting = Table.get? t (TermName.of c.name).setting) :
    set.check nesting s = set.check nesting t :=
  Term.checkOf_congr nesting set.relation set.terms fun c hc =>
    congrArg (Option.map Value.normal) (h c hc)

end ConditionSet

namespace Dependency

private theorem agree_on_leafNames {s t : Settings} {rules : List Rule}
    (h : s.AgreeOn t (settingsRead rules)) {name : String} (hname : name ∈ leafNames rules) :
    Table.get? s (TermName.of name).setting = Table.get? t (TermName.of name).setting := by
  apply h
  rw [settingsRead, mem_distinct]
  exact List.mem_map_of_mem hname

/-- The settings that rules are said to look up determine the run of each rule, with all that it
compares, and the verdict on every control that has these rules: settings that agree on them cannot
be told apart, whatever they hold elsewhere. -/
theorem evaluated_determines_runs (rules : List Rule) :
    ∃ names, (evaluated rules : Run Failure (List String)).outcome = .ok names ∧
      ∀ s t : Settings, s.AgreeOn t names →
        (∀ (nesting : Nesting), ∀ rule ∈ rules,
          rule.conditions.check nesting s = rule.conditions.check nesting t ∧
          rule.conditions.comparands nesting s = rule.conditions.comparands nesting t) ∧
        ∀ (r : Registry) (control : String), r.rulesOf control = rules →
          r.verdict control s = r.verdict control t := by
  refine ⟨settingsRead rules, outcome_evaluated rules, fun s t hagree => ⟨?_, ?_⟩⟩
  · intro nesting rule hrule
    have hleaf : ∀ c ∈ Term.leavesOf rule.conditions.terms,
        Table.get? s (TermName.of c.name).setting = Table.get? t (TermName.of c.name).setting := by
      intro c hc
      apply agree_on_leafNames hagree
      exact List.mem_flatMap.mpr ⟨rule, hrule, List.mem_map_of_mem hc⟩
    exact ⟨ConditionSet.check_congr nesting hleaf, ConditionSet.comparands_congr nesting
      fun c hc => Settings.lookup_eq_of_get?_eq (hleaf c hc)⟩
  · intro r control hrules
    apply Registry.verdict_congr
    intro name hname
    rw [hrules] at hname
    exact congrArg (Option.map Value.normal) (agree_on_leafNames hagree hname)

theorem title_not_read :
    let rules : List Rule := [⟨"panel", ⟨.or, [.leaf ⟨"layout.mode", .text "wide", .strictEqual, none⟩,
      .group {} [.leaf ⟨"items[0]", .int 1, .less, none⟩]]⟩, .hide⟩]
    let s : Settings := [("layout", .text "flat"), ("items", .list [.int 0]), ("title", .null)]
    let t : Settings := [("items", .list [.int 0]), ("layout", .text "flat")]
    (evaluated rules : Run Failure (List String)).outcome = .ok ["layout", "items"] ∧
      s.AgreeOn t ["layout", "items"] ∧
      ∀ rule ∈ rules, rule.conditions.check .term s = rule.conditions.check .term t := by
  intro rules s t
  have hread : settingsRead rules = ["layout", "items"] := by decide +kernel
  have hagree : s.AgreeOn t ["layout", "items"] := by
    simp [Settings.AgreeOn, s, t, Table.get?]
  obtain ⟨names, hnames, hruns⟩ := evaluated_determines_runs rules
  have hknown : (evaluated rules : Run Failure (List String)).outcome = .ok ["layout", "items"] := by
    rw [outcome_evaluated, hread]
  rw [hknown] at hnames
  cases hnames
  exact ⟨hknown, hagree, fun rule hrule => ((hruns s t hagree).1 .term rule hrule).1⟩

end Dependency

end VisibilityRules
