import Mathlib
import VisibilityRules.Proofs.Cache.Memoisation
import VisibilityRules.Proofs.Schema.Reading

/-!
# Controls do not interfere

What is observed of the operations on a control depends on these operations and on those that
replace the settings or drop all rules. It stays the same when the operations on other controls are
deleted from a run, and so under every interleaving of sequences of operations on different
controls.
-/

namespace VisibilityRules.Registry

namespace Operation

def control? : Operation → Option String
  | .register (.map entries) =>
    match Table.get? entries "control_name" with
    | some (.text control) => some control
    | _ => none
  | .clearControl control => some control
  | .rulesOf control => some control
  | .verdict control _ => some control
  | .controlState control _ => some control
  | _ => none

/-- Whether an operation is about a single control, or replaces the settings or drops all rules. -/
def isSeparate : Operation → Bool
  | .register _ | .clearControl _ | .rulesOf _ | .verdict .. | .controlState .. => true
  | .setSettings _ | .reset => true
  | _ => false

/-- Whether an operation names another control. -/
def isElsewhere (control : String) (op : Operation) : Bool := op.control?.any (· ≠ control)

theorem isSeparate_of_control? {op : Operation} {control : String}
    (h : op.control? = some control) : op.isSeparate := by
  cases op <;> first | rfl | cases h

theorem eq_of_not_elsewhere {op : Operation} {named control : String}
    (hnamed : op.control? = some named) (h : op.isElsewhere control = false) : named = control := by
  simpa [isElsewhere, hnamed] using h

theorem control?_of_added {v : Value} {rule : Rule} (h : rule ∈ (Operation.register v).added) :
    (Operation.register v).control? = some rule.control := by
  have hread : (Reading.rule v).outcome = .ok rule := by
    rw [added] at h
    cases hv : (Reading.rule v).outcome with
    | ok read =>
      rw [hv] at h
      rw [List.mem_singleton.mp h]
    | error issues =>
      rw [hv] at h
      cases h
  cases v with
  | map entries =>
    simp only [Reading.rule, Reading.apply_eq_ok_iff, Reading.map_eq_ok_iff,
      Reading.required_eq_ok_iff, Reading.text_eq_ok_iff] at hread
    obtain ⟨_, _, ⟨_, _, ⟨control, ⟨_, hname, rfl⟩, rfl⟩, _, rfl⟩, _, rfl⟩ := hread
    rw [control?, hname]
  | _ => exact absurd hread (Reading.issue_ne_ok _ _)

theorem elsewhere_keeps {op : Operation} {control : String} (hop : op.isSeparate)
    (h : op.isElsewhere control) :
    (∀ settings, op.settingsAfter settings = settings) ∧ op.invalidates control = false := by
  cases op with
  | register v =>
    have hother : ∀ rule ∈ (Operation.register v).added, rule.control ≠ control := by
      intro rule hrule
      simpa [isElsewhere, control?_of_added hrule] using h
    exact ⟨fun _ => rfl, by simpa [invalidates, forgets] using hother⟩
  | clearControl dropped =>
    have hother : dropped ≠ control := by simpa [isElsewhere, control?] using h
    simp [settingsAfter, forgets, invalidates, added, hother]
  | rulesOf | verdict | controlState => exact ⟨fun _ => rfl, rfl⟩
  | setSettings | reset => simp [isElsewhere, control?] at h
  | _ => simp [isSeparate] at hop

end Operation

/-- What is observed of an operation: how it ends, the comparisons that it makes, and the controls
whose states it finds in the cache. -/
structure Observation where
  outcome : Except Failure Answer
  comparisons : List (Operator × Bool)
  hits : List String

def Observation.of (run : Run Failure Answer) : Observation :=
  ⟨run.outcome, run.comparisons, run.hits⟩

def observations (r : Registry) (ops : List Operation) : List (Operation × Observation) :=
  ops.zip ((r.runs ops).map .of)

theorem observations_cons (r : Registry) (op : Operation) (rest : List Operation) :
    r.observations (op :: rest) =
      (op, .of (r.perform op).1) :: (r.perform op).2.observations rest := rfl

/-- Whether two registries have the same options and settings, and the same rules and states of a
control. -/
structure SameFor (control : String) (r r' : Registry) : Prop where
  config : r'.config = r.config
  nesting : r'.nesting = r.nesting
  settings : r'.settings = r.settings
  rules : r'.rulesOf control = r.rulesOf control
  states : ∀ key, r'.cache.find? control key = r.cache.find? control key

namespace SameFor

variable {control : String} {r r' : Registry} {op : Operation}

theorem refl (control : String) (r : Registry) : SameFor control r r :=
  ⟨rfl, rfl, rfl, rfl, fun _ => rfl⟩

theorem perform_elsewhere (h : SameFor control r r') (hop : op.isSeparate)
    (helsewhere : op.isElsewhere control) : SameFor control (r.perform op).2 r' := by
  obtain ⟨hsettings, hkept⟩ := Operation.elsewhere_keeps hop helsewhere
  refine ⟨?_, ?_, ?_, ?_, ?_⟩
  · rw [config_perform, h.config]
  · rw [nesting_perform, h.nesting]
  · rw [settings_perform, hsettings, h.settings]
  · rw [rulesOf_perform_of_kept r hkept, h.rules]
  · intro key
    have hanswers (state : ControlState) : ¬r.Answers op control key state := by
      intro hasked
      obtain ⟨given, rfl, _⟩ := hasked
      simp [Operation.isElsewhere, Operation.control?] at helsewhere
    rw [h.states]
    ext state
    simp [find?_perform, hkept, hanswers]

theorem cacheKey_eq (h : SameFor control r r') (settings : Settings) :
    r'.cacheKey control settings = r.cacheKey control settings := by
  unfold cacheKey
  rw [h.config, h.rules]

theorem controlState_eq (h : SameFor control r r') (settings : Settings) :
    (r'.controlState control settings).1 = (r.controlState control settings).1 := by
  have hsame := h.cacheKey_eq settings
  have hverdict : r'.verdict control settings = r.verdict control settings :=
    verdict_congr_rules h.nesting h.rules settings
  by_cases henabled : r.config.cacheEnabled
  · have henabled' : r'.config.cacheEnabled := by
      rw [h.config]
      exact henabled
    cases hkey : (r.cacheKey control settings).outcome with
    | error failure =>
      have hkey' := hsame ▸ hkey
      rw [controlState_of_no_key henabled hkey, controlState_of_no_key henabled' hkey', hsame]
    | ok key =>
      have hkey' := hsame ▸ hkey
      cases hfind : r.cache.find? control key with
      | some state =>
        have hfind' := (h.states key).trans hfind
        rw [controlState_of_find? henabled hkey hfind,
          controlState_of_find? henabled' hkey' hfind', hsame]
      | none =>
        have hfind' := (h.states key).trans hfind
        rw [controlState_of_not_find? henabled hkey hfind,
          controlState_of_not_find? henabled' hkey' hfind', hsame, hverdict]
  · have henabled' : ¬r'.config.cacheEnabled := by
      rw [h.config]
      exact henabled
    rw [controlState_of_disabled henabled, controlState_of_disabled henabled', hverdict]

/-- The notice that counts the rules of a control is not observed. -/
private theorem observation_register (r r' : Registry) (v : Value) :
    Observation.of (r'.perform (.register v)).1 = .of (r.perform (.register v)).1 := by
  cases hread : (Reading.rule v).outcome with
  | ok rule =>
    simp only [perform, registerValue_of_ok _ hread, Observation.of, Run.hits_map,
      Run.comparisons_map, Run.hits_mk_append, Run.comparisons_mk_append]
    rfl
  | error issues => simp only [perform, registerValue_of_error _ hread]

/-- The notice that counts the dropped states is not observed. -/
private theorem observation_clear (cache : StateCache) :
    Observation.of ((fun _ => .done) <$> (fun _ => ()) <$> cache.clear) = ⟨.ok .done, [], []⟩ := by
  unfold StateCache.clear
  cases cache.controls <;> rfl

theorem observation_eq (h : SameFor control r r') (hop : op.isSeparate)
    (hhere : op.isElsewhere control = false) :
    Observation.of (r'.perform op).1 = .of (r.perform op).1 := by
  cases op with
  | register v => exact observation_register r r' v
  | setSettings | reset => exact (observation_clear r'.cache).trans (observation_clear r.cache).symm
  | clearControl dropped => rfl
  | rulesOf asked =>
    obtain rfl := Operation.eq_of_not_elsewhere rfl hhere
    rw [perform, perform, h.rules]
  | verdict asked given =>
    obtain rfl := Operation.eq_of_not_elsewhere rfl hhere
    rw [perform, perform, h.settings, verdict_congr_rules h.nesting h.rules]
  | controlState asked given =>
    obtain rfl := Operation.eq_of_not_elsewhere rfl hhere
    dsimp only [perform]
    rw [h.settings, h.controlState_eq]
  | _ => simp [Operation.isSeparate] at hop

theorem perform_here (h : SameFor control r r') (hop : op.isSeparate)
    (hhere : op.isElsewhere control = false) :
    SameFor control (r.perform op).2 (r'.perform op).2 := by
  refine ⟨?_, ?_, ?_, ?_, ?_⟩
  · rw [config_perform, config_perform, h.config]
  · rw [nesting_perform, nesting_perform, h.nesting]
  · rw [settings_perform, settings_perform, h.settings]
  · rw [rulesOf_perform, rulesOf_perform, h.rules]
  · intro key
    have houtcome := congrArg Observation.outcome (h.observation_eq hop hhere)
    have hanswers (state : ControlState) :
        r'.Answers op control key state ↔ r.Answers op control key state := by
      unfold Answers
      simp only [h.settings, h.cacheKey_eq]
      rw [show (r'.perform op).1.outcome = (r.perform op).1.outcome from houtcome]
    ext state
    rw [find?_perform, find?_perform, h.states, h.config, hanswers]

end SameFor

/-! ### Whole runs -/

/-- Deleting the operations on other controls changes nothing that is observed of the others. -/
theorem observations_filter {control : String} {r r' : Registry} (h : SameFor control r r')
    {ops : List Operation} (hops : ∀ op ∈ ops, op.isSeparate) :
    (r.observations ops).filter (fun e => !e.1.isElsewhere control) =
      r'.observations (ops.filter fun op => !op.isElsewhere control) := by
  induction ops generalizing r r' with
  | nil => rfl
  | cons op rest ih =>
    rw [List.forall_mem_cons] at hops
    rw [observations_cons]
    cases helsewhere : op.isElsewhere control with
    | true =>
      have hrest := ih (h.perform_elsewhere hops.1 helsewhere) hops.2
      rw [List.filter_cons_of_neg (by simp [helsewhere]),
        List.filter_cons_of_neg (by simp [helsewhere]), hrest]
    | false =>
      have hrest := ih (h.perform_here hops.1 helsewhere) hops.2
      rw [List.filter_cons_of_pos (by simp [helsewhere]),
        List.filter_cons_of_pos (by simp [helsewhere]), observations_cons, hrest,
        h.observation_eq hops.1 helsewhere]

/-- Whether a run takes its operations from numbered sequences, each of them in its order and to its
end. -/
inductive Interleaves : (Nat → List Operation) → List Operation → Prop
  | done {seqs : Nat → List Operation} (ended : ∀ i, seqs i = []) : Interleaves seqs []
  | step {seqs : Nat → List Operation} {i : Nat} {op : Operation} {rest ops : List Operation}
      (next : seqs i = op :: rest) (more : Interleaves (Function.update seqs i rest) ops) :
      Interleaves seqs (op :: ops)

theorem Interleaves.filter_eq {seqs : Nat → List Operation} {ops : List Operation}
    (h : Interleaves seqs ops) {p : Operation → Bool} {i : Nat}
    (others : ∀ j ≠ i, ∀ op ∈ seqs j, p op = false) : ops.filter p = (seqs i).filter p := by
  induction h with
  | done ended => rw [ended]
  | @step seqs j op rest ops next more ih =>
    have hothers : ∀ k ≠ i, ∀ op ∈ Function.update seqs j rest k, p op = false := by
      intro k hk op' hop'
      by_cases hkj : k = j
      · subst hkj
        rw [Function.update_self] at hop'
        exact others k hk op' (by rw [next]; exact List.mem_cons_of_mem _ hop')
      · rw [Function.update_of_ne hkj] at hop'
        exact others k hk op' hop'
    have hrest := ih hothers
    by_cases hij : i = j
    · subst hij
      rw [Function.update_self] at hrest
      rw [next, List.filter_cons, List.filter_cons, hrest]
    · rw [Function.update_of_ne hij] at hrest
      have hop : p op = false := others j (Ne.symm hij) op (by rw [next]; exact List.mem_cons_self)
      rw [List.filter_cons_of_neg (by simp [hop]), hrest]

/-- The operations that remain when those on other controls are deleted from a run show the same as
in the whole run. So under every interleaving of sequences, where each control is named in the
sequence of its owner only, what is observed of the operations on a control is what is observed when
that sequence runs alone. -/
theorem controls_do_not_interfere (r : Registry) (ops : List Operation)
    (separate : ∀ op ∈ ops, op.isSeparate) (control : String) :
    (r.observations ops).filter (fun e => !e.1.isElsewhere control) =
        r.observations (ops.filter fun op => !op.isElsewhere control) ∧
      ∀ (owner : String → Nat) (seqs : Nat → List Operation),
        (∀ i, ∀ op ∈ seqs i, ∃ named, op.control? = some named ∧ owner named = i) →
        Interleaves seqs ops →
        (r.observations ops).filter (fun e => e.1.control? = some control) =
          (r.observations (seqs (owner control))).filter fun e => e.1.control? = some control := by
  refine ⟨observations_filter (.refl control r) separate, ?_⟩
  intro owner seqs owned hinterleaves
  have hseparate : ∀ op ∈ seqs (owner control), op.isSeparate := by
    intro op hop
    obtain ⟨named, hnamed, _⟩ := owned _ op hop
    exact Operation.isSeparate_of_control? hnamed
  have hkept : ops.filter (fun op => !op.isElsewhere control) =
      (seqs (owner control)).filter fun op => !op.isElsewhere control := by
    apply hinterleaves.filter_eq
    intro j hj op hop
    obtain ⟨named, hnamed, rfl⟩ := owned j op hop
    have hother : named ≠ control := fun heq => hj (by rw [heq])
    simp [Operation.isElsewhere, hnamed, hother]
  -- an operation that names the control is among those that remain
  have hnames (shown : List (Operation × Observation)) :
      shown.filter (fun e => e.1.control? = some control) =
        (shown.filter fun e => !e.1.isElsewhere control).filter
          fun e => e.1.control? = some control := by
    rw [List.filter_filter]
    apply List.filter_congr
    intro e _
    by_cases hnamed : e.1.control? = some control <;> simp [Operation.isElsewhere, hnamed]
  rw [hnames, observations_filter (.refl control r) separate, hkept,
    ← observations_filter (.refl control r) hseparate, ← hnames]

/-- Two sequences on a panel and on a title, whose registration fails. -/
theorem panel_beside_title :
    let panel : List Operation :=
      [.hideWhere "panel" "mode" (.int 1), .controlState "panel" none, .controlState "panel" none]
    let title : List Operation :=
      [.register (.map [("control_name", .text "title")]), .clearControl "title"]
    let seqs : Nat → List Operation
      | 0 => panel
      | 1 => title
      | _ => []
    let ops : List Operation :=
      [.hideWhere "panel" "mode" (.int 1), .register (.map [("control_name", .text "title")]),
        .controlState "panel" none, .clearControl "title", .controlState "panel" none]
    let r := new none none
    Interleaves seqs ops ∧
      (r.observations ops).filter (fun e => !e.1.isElsewhere "panel") =
        r.observations (ops.filter fun op => !op.isElsewhere "panel") ∧
      (r.observations ops).filter (fun e => e.1.control? = some "panel") =
        (r.observations panel).filter fun e => e.1.control? = some "panel" := by
  intro panel title seqs ops r
  have hinterleaves : Interleaves seqs ops := by
    apply Interleaves.step (i := 0) rfl
    apply Interleaves.step (i := 1) rfl
    apply Interleaves.step (i := 0) rfl
    apply Interleaves.step (i := 1) rfl
    apply Interleaves.step (i := 0) rfl
    apply Interleaves.done
    intro i
    match i with
    | 0 | 1 | i + 2 => rfl
  have hseparate : ∀ op ∈ ops, op.isSeparate := by
    simp [ops, Operation.isSeparate, Operation.hideWhere]
  have howned : ∀ i, ∀ op ∈ seqs i, ∃ named, op.control? = some named ∧
      (if named = "panel" then 0 else 1) = i := by
    intro i op hop
    match i with
    | 0 =>
      refine ⟨"panel", ?_, rfl⟩
      have hpanel : ∀ op ∈ panel, op.control? = some "panel" := by
        simp [panel, Operation.control?, Operation.hideWhere, Table.get?]
      exact hpanel op hop
    | 1 =>
      refine ⟨"title", ?_, rfl⟩
      have htitle : ∀ op ∈ title, op.control? = some "title" := by
        simp [title, Operation.control?, Table.get?]
      exact htitle op hop
    | i + 2 => cases hop
  exact ⟨hinterleaves, (controls_do_not_interfere r ops hseparate "panel").1,
    (controls_do_not_interfere r ops hseparate "panel").2 _ seqs howned hinterleaves⟩

end VisibilityRules.Registry
