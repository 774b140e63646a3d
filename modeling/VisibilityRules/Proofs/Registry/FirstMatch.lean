import Mathlib
import VisibilityRules.Proofs.Registry.History

/-!
# The first rule that holds decides

A verdict goes through the rules of a control in order and stops at the first one whose check holds
or fails. Together with the history of the rules this ties every verdict to the operations
performed.
-/

namespace VisibilityRules.Registry

def checkEvents (nesting : Nesting) (settings : Settings) (rules : List Rule) : List Event :=
  rules.flatMap fun rule => (rule.conditions.check nesting settings).events

/-- Whether the check of a rule answers that the rule does not hold. -/
def Passes (nesting : Nesting) (settings : Settings) (rule : Rule) : Prop :=
  (rule.conditions.check nesting settings).outcome = .ok false

theorem firstVerdict_of_passing {nesting : Nesting} {settings : Settings} {before : List Rule}
    (h : ∀ rule ∈ before, Passes nesting settings rule) (rest : List Rule) :
    firstVerdict nesting settings (before ++ rest) =
      ⟨checkEvents nesting settings before ++ (firstVerdict nesting settings rest).events,
        (firstVerdict nesting settings rest).outcome⟩ := by
  induction before with
  | nil => rfl
  | cons rule before ih =>
    have hrule : (rule.conditions.check nesting settings).outcome = .ok false :=
      h rule List.mem_cons_self
    have hrest := ih fun other hother => h other (List.mem_cons_of_mem _ hother)
    rw [List.cons_append, firstVerdict, Run.bind_of_ok (Run.outcome_mapError_of_ok hrule),
      Run.events_mapError, if_neg Bool.false_ne_true, hrest, checkEvents, checkEvents,
      List.flatMap_cons, List.append_assoc]

private theorem checkEvents_concat (nesting : Nesting) (settings : Settings) (before : List Rule)
    (rule : Rule) :
    checkEvents nesting settings (before ++ [rule]) =
      checkEvents nesting settings before ++ (rule.conditions.check nesting settings).events := by
  rw [checkEvents, List.flatMap_append, List.flatMap_singleton, checkEvents]

theorem firstVerdict_of_match {nesting : Nesting} {settings : Settings} {rule : Rule}
    (h : (rule.conditions.check nesting settings).outcome = .ok true)
    (hjson : rule.conditions.toValue.hasJson) (rest : List Rule) :
    firstVerdict nesting settings (rule :: rest) =
      ⟨(rule.conditions.check nesting settings).events,
        .ok
          { visible := rule.action = .show
            reason := some ("Condition \"" ++ rule.action.word ++ "\" triggered")
            trigger := some (String.ofList rule.conditions.toValue.json) }⟩ := by
  rw [firstVerdict, Run.bind_of_ok (Run.outcome_mapError_of_ok h), Run.events_mapError,
    if_pos rfl, triggered, if_pos hjson, Run.pure_def, List.append_nil]

theorem firstVerdict_of_fault {nesting : Nesting} {settings : Settings} {rule : Rule} {e : Fault}
    (h : (rule.conditions.check nesting settings).outcome = .error e) (rest : List Rule) :
    firstVerdict nesting settings (rule :: rest) =
      ⟨(rule.conditions.check nesting settings).events, .error (.fault e)⟩ := by
  rw [firstVerdict, Run.bind_of_error (Run.outcome_mapError_of_error h), Run.events_mapError]

theorem verdict_of_rules (r : Registry) {control : String} {rules : List Rule}
    (h : r.rulesOf control = rules) (hne : rules ≠ []) (settings : Settings) :
    r.verdict control settings = firstVerdict r.nesting settings rules := by
  unfold verdict
  rw [h]
  cases rules with
  | nil => exact absurd rfl hne
  | cons rule rest => rfl

/-- A rule that holds decides, after the rules before it have passed; its text must have a JSON
form. -/
theorem verdict_of_match {r : Registry} {control : String} {settings : Settings}
    {before rest : List Rule} {rule : Rule} (hrules : r.rulesOf control = before ++ rule :: rest)
    (hpass : ∀ earlier ∈ before, Passes r.nesting settings earlier)
    (hmatch : (rule.conditions.check r.nesting settings).outcome = .ok true)
    (hjson : rule.conditions.toValue.hasJson) :
    r.verdict control settings =
      ⟨checkEvents r.nesting settings (before ++ [rule]),
        .ok
          { visible := rule.action = .show
            reason := some ("Condition \"" ++ rule.action.word ++ "\" triggered")
            trigger := some (String.ofList rule.conditions.toValue.json) }⟩ := by
  rw [verdict_of_rules r hrules (by simp), firstVerdict_of_passing hpass,
    firstVerdict_of_match hmatch hjson, checkEvents_concat]

theorem verdict_of_fault {r : Registry} {control : String} {settings : Settings}
    {before rest : List Rule} {rule : Rule} (hrules : r.rulesOf control = before ++ rule :: rest)
    (hpass : ∀ earlier ∈ before, Passes r.nesting settings earlier) {e : Fault}
    (hfault : (rule.conditions.check r.nesting settings).outcome = .error e) :
    r.verdict control settings =
      ⟨checkEvents r.nesting settings (before ++ [rule]), .error (.fault e)⟩ := by
  rw [verdict_of_rules r hrules (by simp), firstVerdict_of_passing hpass,
    firstVerdict_of_fault hfault, checkEvents_concat]

theorem verdict_of_passing {r : Registry} {control : String} {settings : Settings}
    (hpass : ∀ rule ∈ r.rulesOf control, Passes r.nesting settings rule) :
    r.verdict control settings =
      ⟨checkEvents r.nesting settings (r.rulesOf control),
        .ok
          { visible := true
            reason := some (if r.rulesOf control = [] then "No conditions defined"
              else "No conditions matched, default visible")
            trigger := none }⟩ := by
  by_cases hnone : r.rulesOf control = []
  · rw [verdict, hnone]
    rfl
  · have hall := firstVerdict_of_passing hpass []
    rw [List.append_nil] at hall
    rw [verdict_of_rules r rfl hnone, hall, if_neg hnone, firstVerdict, Run.pure_def,
      List.append_nil]

/-- The rules of a control are its history, and the counts are those of the histories. A verdict
checks the history in order: the first rule that holds decides and the first that fails ends the
verdict, with no event of a later rule; if all pass, the control is visible. -/
theorem firstMatch_over_history (evaluator config : Option Configuration) (ops : List Operation)
    (control : String)
    (written : ∀ op ∈ ops, ∀ rule ∈ op.added, rule.conditions.toValue.hasJson = true) :
    let r := (new evaluator config).after ops
    r.rulesOf control = history control ops ∧
    (∃ controls : Finset String, (∀ c, c ∈ controls ↔ history c ops ≠ []) ∧
      r.statistics.controls = controls.card ∧
      r.statistics.conditions = ∑ c ∈ controls, (history c ops).length) ∧
    ∀ settings : Settings,
      (∀ before rule rest, history control ops = before ++ rule :: rest →
        (∀ earlier ∈ before, Passes r.nesting settings earlier) →
        ((rule.conditions.check r.nesting settings).outcome = .ok true →
          r.verdict control settings =
            ⟨checkEvents r.nesting settings (before ++ [rule]),
              .ok
                { visible := rule.action = .show
                  reason := some ("Condition \"" ++ rule.action.word ++ "\" triggered")
                  trigger := some (String.ofList rule.conditions.toValue.json) }⟩) ∧
        ∀ e, (rule.conditions.check r.nesting settings).outcome = .error e →
          r.verdict control settings =
            ⟨checkEvents r.nesting settings (before ++ [rule]), .error (.fault e)⟩) ∧
      ((∀ rule ∈ history control ops, Passes r.nesting settings rule) →
        r.verdict control settings =
          ⟨checkEvents r.nesting settings (history control ops),
            .ok
              { visible := true
                reason := some (if history control ops = [] then "No conditions defined"
                  else "No conditions matched, default visible")
                trigger := none }⟩) := by
  intro r
  have htidy : r.Tidy := tidy_after evaluator config ops
  have hrules (c : String) : r.rulesOf c = history c ops := rulesOf_after evaluator config ops c
  refine ⟨hrules control, ⟨(Table.keys r.rules).toFinset, ?_, ?_, ?_⟩, ?_⟩
  · intro c
    rw [List.mem_toFinset, htidy.mem_keys_iff, hrules]
  · rw [List.toFinset_card_of_nodup htidy.1, Table.keys, List.length_map]
    rfl
  · have hcount := ruleCount_eq r htidy
    simp only [hrules] at hcount
    exact_mod_cast congrArg Int.ofNat hcount
  · intro settings
    refine ⟨?_, ?_⟩
    · intro before rule rest hsplit hpass
      have hmem : rule ∈ history control ops := by
        rw [hsplit]
        exact List.mem_append_right _ List.mem_cons_self
      obtain ⟨op, hop, hadded⟩ := mem_added_of_mem_history hmem
      have hjson : rule.conditions.toValue.hasJson := written op hop rule hadded
      have hrest := (hrules control).trans hsplit
      exact ⟨fun hmatch => verdict_of_match hrest hpass hmatch hjson,
        fun e hfault => verdict_of_fault hrest hpass hfault⟩
    · rw [← hrules control]
      exact verdict_of_passing

theorem panel_hidden_by_later_rule :
    let ops := [Operation.hideWhere "panel" "theme" .null, .clearControl "panel",
      .hideWhere "panel" "mode" (.text "flat"), .hideWhere "panel" "size" (.text "small")]
    (∀ op ∈ ops, ∀ rule ∈ op.added, rule.conditions.toValue.hasJson = true) ∧
      ((((new none none).after ops).verdict "panel" [("size", .text "small")]).outcome.map
        Verdict.visible) = .ok false := by
  intro ops
  have hwritten : ∀ op ∈ ops, ∀ rule ∈ op.added, rule.conditions.toValue.hasJson = true := by
    decide
  refine ⟨hwritten, ?_⟩
  have hverdicts :=
    (firstMatch_over_history none none ops "panel" hwritten).2.2 [("size", .text "small")]
  have hsplit : history "panel" ops =
      [⟨"panel", ⟨.and, [.leaf ⟨"mode", .text "flat", .strictEqual, none⟩]⟩, .hide⟩] ++
        ⟨"panel", ⟨.and, [.leaf ⟨"size", .text "small", .strictEqual, none⟩]⟩, .hide⟩ :: [] := rfl
  have hpasses := hverdicts.1 _ _ _ hsplit (by
    intro earlier hearlier
    rw [List.mem_singleton] at hearlier
    rw [hearlier]
    rfl)
  rw [hpasses.1 rfl]
  rfl

end VisibilityRules.Registry
