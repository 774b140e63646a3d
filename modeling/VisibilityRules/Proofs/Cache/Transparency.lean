import Mathlib
import VisibilityRules.Proofs.Cache.Memoisation

/-!
# The cache does not show

Every state in the cache of a registry is the state that the present rules of its control give under
all plain settings with its key, as long as no two of the texts that were hashed share their digest.
So the state of a control is that of its verdict, whatever was asked before and whatever the options
for the cache.
-/

namespace VisibilityRules

/-- Whether different ones among texts have different digests. -/
def CollisionFree (texts : List (List Char)) : Prop :=
  ∀ t ∈ texts, ∀ u ∈ texts, digest t = digest u → t = u

namespace Registry

/-- The texts that an operation hashes. -/
def hashedBy (r : Registry) : Operation → List (List Char)
  | .controlState control settings =>
    if r.config.cacheEnabled && (r.covered control (settings.getD r.settings)).withinDigitLimit then
      [r.keyText control (settings.getD r.settings)]
    else []
  | _ => []

theorem mem_hashedBy {r : Registry} {control key : String} {given : Option Settings}
    (henabled : r.config.cacheEnabled)
    (hkey : (r.cacheKey control (given.getD r.settings)).outcome = .ok key) :
    r.keyText control (given.getD r.settings) ∈ r.hashedBy (.controlState control given) := by
  rw [hashedBy, henabled, (cacheKey_eq_ok_iff.mp hkey).1]
  exact List.mem_cons_self

def hashed (r : Registry) : List Operation → List (List Char)
  | [] => []
  | op :: rest => r.hashedBy op ++ hashed (r.perform op).2 rest

theorem hashed_append (r : Registry) (ops more : List Operation) :
    r.hashed (ops ++ more) = r.hashed ops ++ (r.after ops).hashed more := by
  induction ops generalizing r with
  | nil => rfl
  | cons first rest ih =>
    rw [List.cons_append, hashed, ih, hashed, List.append_assoc]
    rfl

theorem hashed_concat (r : Registry) (ops : List Operation) (op : Operation) :
    r.hashed (ops ++ [op]) = r.hashed ops ++ (r.after ops).hashedBy op := by
  rw [hashed_append, hashed, hashed, List.append_nil]

namespace Operation

def given? : Operation → Option Settings
  | .setSettings given => some given
  | .verdict _ given => given
  | .controlState _ given => given
  | .visibleControls _ given => given
  | .anyVisible _ given => given
  | _ => none

/-- Whether an operation changes neither rules nor settings. -/
def isQuery : Operation → Bool
  | .register _ => false
  | .registerAll _ => false
  | .load _ => false
  | .clearControl _ => false
  | .setSettings _ => false
  | .reset => false
  | _ => true

end Operation

/-! ### Every stored state is justified -/

/-- Whether a state is the one that the present rules of a control give under plain settings whose
text has the given key and is one of the given texts. -/
def Justified (texts : List (List Char)) (r : Registry) (control key : String)
    (state : ControlState) : Prop :=
  ∃ settings v, settings.IsPlain ∧ r.keyText control settings ∈ texts ∧
    digest (r.keyText control settings) = key ∧
    (r.verdict control settings).outcome = .ok v ∧ v.state = state

/-- Whether every state in the cache is justified. -/
def Sound (texts : List (List Char)) (r : Registry) : Prop :=
  ∀ control key state, r.cache.find? control key = some state →
    Justified texts r control key state

theorem Justified.congr {texts : List (List Char)} {r r' : Registry} {control key : String}
    {state : ControlState} (h : Justified texts r control key state)
    (hconfig : r'.config = r.config) (hnesting : r'.nesting = r.nesting)
    (hrules : r'.rulesOf control = r.rulesOf control) : Justified texts r' control key state := by
  obtain ⟨settings, v, hplain, hmem, hkey, hverdict, hstate⟩ := h
  have htext : r'.keyText control settings = r.keyText control settings :=
    keyText_congr_rules hconfig hrules settings
  refine ⟨settings, v, hplain, ?_, ?_, ?_, hstate⟩
  · rw [htext]
    exact hmem
  · rw [htext]
    exact hkey
  · rw [verdict_congr_rules hnesting hrules]
    exact hverdict

theorem Justified.mono {texts : List (List Char)} {r : Registry} {control key : String}
    {state : ControlState} (h : Justified texts r control key state)
    (more : List (List Char)) : Justified (texts ++ more) r control key state := by
  obtain ⟨settings, v, hplain, hmem, hrest⟩ := h
  exact ⟨settings, v, hplain, List.mem_append_left _ hmem, hrest⟩

private theorem Sound.of_empty {r : Registry} (h : r.cache = .empty) (texts : List (List Char)) :
    Sound texts r := by
  intro control key state hfind
  rw [h, StateCache.find?_empty] at hfind
  contradiction

/-- Whether an operation is given no settings or plain ones. -/
def Operation.IsPlain (op : Operation) : Prop := ∀ given ∈ op.given?, given.IsPlain

theorem Sound.justified_of_answers {texts : List (List Char)} {r : Registry} (h : Sound texts r)
    (henabled : r.config.cacheEnabled) (hsettings : r.settings.IsPlain) {op : Operation}
    (hop : op.IsPlain) {control key : String} {state : ControlState}
    (hanswers : r.Answers op control key state) :
    Justified (texts ++ r.hashedBy op) r control key state := by
  cases op with
  | controlState asked given =>
    obtain ⟨rfl, hkey, hstate⟩ := answers_controlState_iff.mp hanswers
    have hplain : (given.getD r.settings).IsPlain := by
      cases given with
      | none => exact hsettings
      | some settings => exact hop settings rfl
    cases hfind : r.cache.find? asked key with
    | some found =>
      rw [controlState_of_find? henabled hkey hfind] at hstate
      cases hstate
      exact (h _ _ _ hfind).mono _
    | none =>
      rw [controlState_of_not_find? henabled hkey hfind] at hstate
      cases hverdict : (r.verdict asked (given.getD r.settings)).outcome with
      | error e =>
        rw [hverdict] at hstate
        cases hstate
      | ok v =>
        rw [hverdict] at hstate
        exact ⟨given.getD r.settings, v, hplain,
          List.mem_append_right _ (mem_hashedBy henabled hkey), (cacheKey_eq_ok_iff.mp hkey).2,
          hverdict, Except.ok.inj hstate⟩
  | _ => simp [Answers] at hanswers

/-- What an operation does not drop it leaves with the rules that justify it. -/
theorem Sound.perform {texts : List (List Char)} {r : Registry} (h : Sound texts r)
    (hsettings : r.settings.IsPlain) {op : Operation} (hop : op.IsPlain) :
    Sound (texts ++ r.hashedBy op) (r.perform op).2 := by
  intro control key state hfind
  obtain ⟨hkept, hfound⟩ := (find?_perform r op control key state).mp hfind
  have hjustified : Justified (texts ++ r.hashedBy op) r control key state := by
    rcases hfound with hbefore | ⟨henabled, hanswers⟩
    · exact (h control key state hbefore).mono _
    · exact h.justified_of_answers henabled hsettings hop hanswers
  exact hjustified.congr (config_perform r op) (nesting_perform r op)
    (rulesOf_perform_of_kept r hkept)

theorem plain_settings_after {evaluator config : Option Configuration} {ops : List Operation}
    (hops : ∀ op ∈ ops, op.IsPlain) : ((new evaluator config).after ops).settings.IsPlain := by
  induction ops using List.reverseRecOn with
  | nil => rfl
  | append_singleton ops op ih =>
    have hbefore := ih fun other hother => hops other (List.mem_append_left _ hother)
    have hop : op.IsPlain := hops op (by simp)
    rw [after_concat, settings_perform]
    cases op with
    | setSettings given => exact hop given rfl
    | reset => rfl
    | _ => exact hbefore

/-- Along every run, each stored state is justified by a text that was hashed before. -/
theorem sound_after {evaluator config : Option Configuration} {ops : List Operation}
    (hops : ∀ op ∈ ops, op.IsPlain) :
    Sound ((new evaluator config).hashed ops) ((new evaluator config).after ops) := by
  induction ops using List.reverseRecOn with
  | nil => exact .of_empty rfl _
  | append_singleton ops op ih =>
    have hbefore : ∀ other ∈ ops, other.IsPlain :=
      fun other hother => hops other (List.mem_append_left _ hother)
    rw [hashed_concat, after_concat]
    exact (ih hbefore).perform (plain_settings_after hbefore) (hops op (by simp))

/-! ### States and verdicts -/

private theorem outcome_controlState {texts : List (List Char)} {r : Registry}
    (hsound : Sound texts r) {control : String} {given : Option Settings}
    (hplain : (given.getD r.settings).IsPlain)
    (hwithin : (given.getD r.settings).withinDigitLimit)
    (hfree : CollisionFree (texts ++ r.hashedBy (.controlState control given))) :
    (r.controlState control (given.getD r.settings)).1.outcome =
      (r.verdict control (given.getD r.settings)).outcome.map Verdict.state := by
  by_cases henabled : r.config.cacheEnabled
  · have hkey := cacheKey_eq_ok_iff.mpr ⟨withinDigitLimit_covered hwithin r control, rfl⟩
    cases hfind : r.cache.find? control (digest (r.keyText control (given.getD r.settings))) with
    | none => rw [controlState_of_not_find? henabled hkey hfind]
    | some state =>
      obtain ⟨settings, v, hstored, hmem, hdigest, hverdict, rfl⟩ := hsound _ _ _ hfind
      have htext : r.keyText control settings = r.keyText control (given.getD r.settings) :=
        hfree _ (List.mem_append_left _ hmem) _
          (List.mem_append_right _ (mem_hashedBy henabled hkey)) hdigest
      rw [controlState_of_find? henabled hkey hfind,
        ← verdict_eq_of_keyText_eq r control hstored hplain htext, hverdict]
      rfl
  · rw [controlState_of_disabled henabled]
    rfl

private theorem outcome_visibleControls {r : Registry} {settings : Settings}
    {answer : String → Except Failure Bool} {controls : List String}
    (h : ∀ c ∈ controls, answer c = (r.verdict c settings).outcome.map Verdict.visible) :
    (r.visibleControls settings controls).outcome = controls.filterM answer := by
  have haux (seen : List String) : List.filterAuxM answer controls seen =
      (r.visibleControls settings controls).outcome.map fun more => more.reverse ++ seen := by
    induction controls generalizing seen with
    | nil => rfl
    | cons c rest ih =>
      have hrest := ih fun d hd => h d (List.mem_cons_of_mem _ hd)
      simp only [List.filterAuxM, h c List.mem_cons_self, hrest, visibleControls,
        Run.monad_bind_def, Run.outcome_bind]
      cases (r.verdict c settings).outcome with
      | error e => rfl
      | ok v =>
        simp only [Except.map, Except.bind, bind]
        cases (r.visibleControls settings rest).outcome with
        | error e => rfl
        | ok more => cases v.visible <;> simp [Run.pure_def]
  rw [List.filterM, haux]
  cases (r.visibleControls settings controls).outcome with
  | error e => rfl
  | ok names =>
    simp only [Except.map, bind, Except.bind, List.append_nil, List.reverse_reverse]
    rfl

private theorem outcome_anyVisible {r : Registry} {settings : Settings}
    {answer : String → Except Failure Bool} {controls : List String}
    (h : ∀ c ∈ controls, answer c = (r.verdict c settings).outcome.map Verdict.visible) :
    (r.anyVisible settings controls).outcome = controls.anyM answer := by
  induction controls with
  | nil => rfl
  | cons c rest ih =>
    have hrest := ih fun d hd => h d (List.mem_cons_of_mem _ hd)
    simp only [List.anyM, h c List.mem_cons_self, ← hrest, anyVisible, Run.outcome_bind]
    cases (r.verdict c settings).outcome with
    | error e => rfl
    | ok v =>
      simp only [Except.map, Except.bind, bind]
      cases v.visible <;> rfl

/-! ### Queries leave no trace -/

private theorem history_filter (control : String) (ops : List Operation) :
    history control (ops.filter (!·.isQuery)) = history control ops := by
  induction ops using List.reverseRecOn with
  | nil => rfl
  | append_singleton ops op ih =>
    rw [List.filter_append, history_concat]
    cases hquery : op.isQuery with
    | false =>
      rw [List.filter_cons_of_pos (by rw [hquery]; rfl), List.filter_nil, history_concat, ih]
    | true =>
      have hnone : op.forgets control = false ∧ op.added = [] := by
        cases op <;> first | exact ⟨rfl, rfl⟩ | exact absurd hquery (by simp [Operation.isQuery])
      rw [List.filter_cons_of_neg (by rw [hquery]; decide), List.filter_nil, List.append_nil, ih,
        hnone.1, hnone.2]
      simp

private theorem settings_after (r : Registry) (ops : List Operation) :
    (r.after ops).settings =
      (ops.filter (!·.isQuery)).foldl (fun settings op => op.settingsAfter settings) r.settings := by
  induction ops using List.reverseRecOn with
  | nil => rfl
  | append_singleton ops op ih =>
    rw [after_concat, settings_perform, ih, List.filter_append]
    cases hquery : op.isQuery with
    | false =>
      rw [List.filter_cons_of_pos (by rw [hquery]; rfl), List.filter_nil, List.foldl_concat]
    | true =>
      rw [List.filter_cons_of_neg (by rw [hquery]; decide), List.filter_nil, List.append_nil]
      cases op <;> first | rfl | exact absurd hquery (by simp [Operation.isQuery])

private theorem nesting_after (r : Registry) (ops : List Operation) :
    (r.after ops).nesting = r.nesting :=
  after_induction (p := fun s => s.nesting = r.nesting) rfl
    (fun s op hs => (nesting_perform s op).trans hs) ops

/-- The texts that are hashed in a run and for the states of some controls after it. -/
def hashedFor (evaluator config : Option Configuration) (ops : List Operation)
    (controls : List String) (given : Option Settings) : List (List Char) :=
  (new evaluator config).hashed ops ++ controls.flatMap fun control =>
    ((new evaluator config).after ops).hashedBy (.controlState control given)

private theorem outcome_controlState_after {evaluator config : Option Configuration}
    {ops : List Operation} {controls : List String} {given : Option Settings}
    (plain : ∀ op ∈ ops, op.IsPlain) (plain_given : ∀ settings ∈ given, settings.IsPlain)
    (within : (given.getD ((new evaluator config).after ops).settings).withinDigitLimit)
    (free : CollisionFree (hashedFor evaluator config ops controls given)) {control : String}
    (hcontrol : control ∈ controls) :
    (((new evaluator config).after ops).controlState control
        (given.getD ((new evaluator config).after ops).settings)).1.outcome =
      (((new evaluator config).after ops).verdict control
        (given.getD ((new evaluator config).after ops).settings)).outcome.map Verdict.state := by
  have hsettings : (given.getD ((new evaluator config).after ops).settings).IsPlain := by
    cases given with
    | none => exact plain_settings_after plain
    | some settings => exact plain_given settings rfl
  have hsub : (new evaluator config).hashed ops ++
      ((new evaluator config).after ops).hashedBy (.controlState control given) ⊆
        hashedFor evaluator config ops controls given := by
    intro text htext
    rcases List.mem_append.mp htext with hbefore | hlast
    · exact List.mem_append_left _ hbefore
    · exact List.mem_append_right _ (List.mem_flatMap.mpr ⟨control, hcontrol, hlast⟩)
  exact outcome_controlState (sound_after plain) hsettings within
    fun t ht u hu => free t (hsub ht) u (hsub hu)

/-- After every run the state of a control under settings within the digit limit is that of its
verdict, with the same failure where the verdict fails, and the requests for several controls agree
with the states. Another run that changes rules and settings in the same way, whatever it asks for
in between and whatever its options for the cache, ends with the same states. -/
theorem controlState_transparent (evaluator config : Option Configuration) (ops : List Operation)
    (controls : List String) (given : Option Settings) (plain : ∀ op ∈ ops, op.IsPlain)
    (plain_given : ∀ settings ∈ given, settings.IsPlain)
    (within : (given.getD ((new evaluator config).after ops).settings).withinDigitLimit)
    (free : CollisionFree (hashedFor evaluator config ops controls given)) :
    let r := (new evaluator config).after ops
    let settings := given.getD r.settings
    let state := fun control => (r.controlState control settings).1.outcome
    (∀ control ∈ controls, state control =
      (r.verdict control settings).outcome.map fun v =>
        { visible := v.visible, enabled := v.visible,
          data := some [("reason", .ofText? v.reason), ("trigger_condition", .ofText? v.trigger)] }) ∧
    (r.visibleControls settings controls).outcome =
      controls.filterM (fun control => (state control).map ControlState.visible) ∧
    (r.anyVisible settings controls).outcome =
      controls.anyM (fun control => (state control).map ControlState.visible) ∧
    ∀ (evaluator' config' : Option Configuration) (ops' : List Operation),
      (new evaluator' config').nesting = (new evaluator config).nesting →
      ops'.filter (!·.isQuery) = ops.filter (!·.isQuery) →
      (∀ op ∈ ops', op.IsPlain) →
      CollisionFree (hashedFor evaluator' config' ops' controls given) →
      let r' := (new evaluator' config').after ops'
      ∀ control ∈ controls,
        r'.verdict control (given.getD r'.settings) = r.verdict control settings ∧
        (r'.controlState control (given.getD r'.settings)).1.outcome = state control := by
  intro r settings state
  have hstate (control : String) (hcontrol : control ∈ controls) :
      state control = (r.verdict control settings).outcome.map Verdict.state :=
    outcome_controlState_after plain plain_given within free hcontrol
  have hvisible : ∀ control ∈ controls, (state control).map ControlState.visible =
      (r.verdict control settings).outcome.map Verdict.visible := by
    intro control hcontrol
    rw [hstate control hcontrol]
    cases (r.verdict control settings).outcome <;> rfl
  refine ⟨hstate, outcome_visibleControls hvisible, outcome_anyVisible hvisible, ?_⟩
  intro evaluator' config' ops' hnesting hchanges plain' free' r' control hcontrol
  have hsettings : given.getD r'.settings = settings := by
    change given.getD r'.settings = given.getD r.settings
    rw [settings_after, settings_after, hchanges]
    rfl
  have hverdict : r'.verdict control (given.getD r'.settings) = r.verdict control settings := by
    rw [hsettings]
    apply verdict_congr_rules
    · rw [nesting_after, nesting_after, hnesting]
    · rw [rulesOf_after, rulesOf_after, ← history_filter, hchanges, history_filter]
  refine ⟨hverdict, ?_⟩
  have hstate' : (r'.controlState control (given.getD r'.settings)).1.outcome =
      (r'.verdict control (given.getD r'.settings)).outcome.map Verdict.state :=
    outcome_controlState_after plain' plain_given (hsettings ▸ within) free' hcontrol
  rw [hstate', hverdict, hstate control hcontrol]

instance (texts : List (List Char)) : Decidable (CollisionFree texts) :=
  inferInstanceAs (Decidable (∀ t ∈ texts, ∀ u ∈ texts, digest t = digest u → t = u))

theorem panel_shown_after_change :
    let config : Configuration := { cacheStrategy := .dependencies }
    let ops := [.hideWhere "panel" "mode" (.text "flat"),
      .controlState "panel" (some [("mode", .text "flat")]),
      .setSettings [("mode", .text "wide")]]
    CollisionFree (hashedFor none (some config) ops ["panel"] none) ∧
      ((((new none (some config)).after ops).controlState "panel"
        [("mode", .text "wide")]).1.outcome.map ControlState.visible) = .ok true := by
  intro config ops
  have plain : ∀ op ∈ ops, op.IsPlain := by
    simp [ops, Operation.IsPlain, Operation.given?, Operation.hideWhere, Settings.IsPlain,
      Value.entriesHaveJson, Value.hasJson]
  have free : CollisionFree (hashedFor none (some config) ops ["panel"] none) := by
    decide +kernel
  -- the registry is named, so that nothing below evaluates the run again
  obtain ⟨r, hr⟩ : ∃ r, r = (new none (some config)).after ops := ⟨_, rfl⟩
  have hsettings : r.settings = [("mode", .text "wide")] := by
    rw [hr]
    rfl
  have within : (Option.getD none r.settings).withinDigitLimit := by
    rw [Option.getD_none, hsettings]
    decide
  have hverdict : (r.verdict "panel" r.settings).outcome.toOption.map Verdict.visible =
      some true := by
    rw [hr]
    decide +kernel
  rw [hr] at within
  have hstate := (controlState_transparent none (some config) ops ["panel"] none plain (by simp)
    within free).1 "panel" (List.mem_singleton.mpr rfl)
  dsimp only at hstate
  rw [← hr, Option.getD_none] at hstate
  rw [← hr, ← hsettings, hstate]
  refine ⟨free, ?_⟩
  cases h : (r.verdict "panel" r.settings).outcome with
  | ok v =>
    rw [h] at hverdict
    exact congrArg Except.ok (Option.some.inj hverdict)
  | error failure =>
    rw [h] at hverdict
    cases hverdict

end Registry

end VisibilityRules
