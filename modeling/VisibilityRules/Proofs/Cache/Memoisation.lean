import Mathlib
import VisibilityRules.Proofs.Cache.Request
import VisibilityRules.Proofs.Kept
import VisibilityRules.Proofs.Registry.History

/-!
# What is remembered

With the cache enabled, a request for the state of a control is answered from the cache exactly if
an earlier request for the control under the same key was answered, and no operation since then has
dropped the states of the control. The size of the cache is the number of controls and keys for
which this is so.
-/

namespace VisibilityRules.Registry

/-- Whether an operation drops the states of a control: it adds a rule for the control, drops its
rules, or replaces the settings. -/
def Operation.invalidates (control : String) : Operation → Bool
  | .setSettings _ => true
  | op => op.forgets control || op.added.any (·.control = control)

/-- Whether an operation asks for the state of a control under a key and is answered. -/
def Answers (r : Registry) (op : Operation) (control key : String) (state : ControlState) : Prop :=
  ∃ given, op = .controlState control given ∧
    (r.cacheKey control (given.getD r.settings)).outcome = .ok key ∧
    (r.perform op).1.outcome = .ok (.state state)

/-- Whether an operation of a run asked for the state of a control under a key and was answered, and
no later one has dropped the states of the control. -/
def Remembers (start : Registry) (ops : List Operation) (control key : String)
    (state : ControlState) : Prop :=
  ∃ before op later, ops = before ++ op :: later ∧
    (start.after before).Answers op control key state ∧
    ∀ next ∈ later, next.invalidates control = false

/-! ### One step -/

theorem answers_controlState_iff {r : Registry} {asked control key : String}
    {given : Option Settings} {state : ControlState} :
    r.Answers (.controlState asked given) control key state ↔
      asked = control ∧ (r.cacheKey asked (given.getD r.settings)).outcome = .ok key ∧
        (r.controlState asked (given.getD r.settings)).1.outcome = .ok state := by
  have houtcome : (r.perform (.controlState asked given)).1.outcome = .ok (.state state) ↔
      (r.controlState asked (given.getD r.settings)).1.outcome = .ok state := by
    rw [perform, Run.outcome_map]
    cases (r.controlState asked (given.getD r.settings)).1.outcome <;> simp [Except.map]
  constructor
  · intro h
    obtain ⟨given', hop, hkey, hstate⟩ := h
    cases hop
    exact ⟨rfl, hkey, houtcome.mp hstate⟩
  · intro h
    obtain ⟨rfl, hkey, hstate⟩ := h
    exact ⟨given, rfl, hkey, houtcome.mpr hstate⟩

private theorem find?_controlState {r : Registry} (henabled : r.config.cacheEnabled)
    (asked : String) (settings : Settings) (control key : String) (state : ControlState) :
    (r.controlState asked settings).2.cache.find? control key = some state ↔
      r.cache.find? control key = some state ∨
        asked = control ∧ (r.cacheKey asked settings).outcome = .ok key ∧
          (r.controlState asked settings).1.outcome = .ok state := by
  cases hkey : (r.cacheKey asked settings).outcome with
  | error failure => simp [controlState_of_no_key henabled hkey]
  | ok own =>
    rw [Except.ok.injEq]
    cases hfind : r.cache.find? asked own with
    | some found =>
      rw [controlState_of_find? henabled hkey hfind]
      constructor
      · exact .inl
      · intro h
        rcases h with hbefore | ⟨rfl, rfl, hstate⟩
        · exact hbefore
        · rw [hfind, Except.ok.inj hstate]
    | none =>
      rw [controlState_of_not_find? henabled hkey hfind]
      cases hverdict : (r.verdict asked settings).outcome with
      | error failure => simp [Except.map]
      | ok v =>
        dsimp only [Except.map]
        rw [StateCache.find?_put]
        by_cases hsame : control = asked ∧ key = own
        · obtain ⟨rfl, rfl⟩ := hsame
          simp [hfind]
        · have hother : ¬(asked = control ∧ own = key ∧
              Except.ok v.state = (.ok state : Except Failure ControlState)) :=
            fun h => hsame ⟨h.1.symm, h.2.1.symm⟩
          rw [if_neg hsame, or_iff_left hother]

/-- A state is in the cache after an operation if the operation does not drop it, and the state was
there before or the operation has answered it. -/
theorem find?_perform (r : Registry) (op : Operation) (control key : String)
    (state : ControlState) :
    (r.perform op).2.cache.find? control key = some state ↔
      op.invalidates control = false ∧
        (r.cache.find? control key = some state ∨
          r.config.cacheEnabled ∧ r.Answers op control key state) := by
  rw [perform_snd]
  cases op with
  | register | registerAll | load =>
    rw [find?_foldl_add]
    simp [Operation.invalidates, Operation.forgets, Answers]
  | clearControl dropped =>
    dsimp only [clearControl]
    rw [StateCache.find?_discard]
    by_cases h : control = dropped
    · simp [h, Operation.invalidates, Operation.forgets]
    · simp [h, Ne.symm h, Operation.invalidates, Operation.forgets, Operation.added, Answers]
  | controlState asked given =>
    dsimp only
    rw [answers_controlState_iff]
    by_cases henabled : r.config.cacheEnabled
    · rw [find?_controlState henabled]
      simp [Operation.invalidates, Operation.forgets, Operation.added, henabled]
    · rw [controlState_of_disabled henabled]
      simp [Operation.invalidates, Operation.forgets, Operation.added, henabled]
  | _ => simp [Operation.invalidates, Operation.forgets, Operation.added, Answers]

theorem rulesOf_perform_of_kept (r : Registry) {op : Operation} {control : String}
    (h : op.invalidates control = false) : (r.perform op).2.rulesOf control = r.rulesOf control := by
  have hrules : op.forgets control = false ∧ op.added.filter (·.control = control) = [] := by
    cases op with
    | setSettings => simp [Operation.invalidates] at h
    | _ => simpa [Operation.invalidates] using h
  rw [rulesOf_perform, hrules.1, hrules.2]
  simp

theorem tidy_cache_perform {r : Registry} (h : r.cache.Tidy) (op : Operation) :
    (r.perform op).2.cache.Tidy := by
  have hadds (rules : List Rule) : (rules.foldl add r).cache.Tidy :=
    List.foldlRecOn rules add h fun _ hr rule _ => StateCache.Tidy.discard hr rule.control
  rw [perform_snd]
  cases op with
  | register | registerAll | load => exact hadds _
  | clearControl control => exact h.discard control
  | setSettings | reset => exact .empty
  | controlState control given =>
    dsimp only
    by_cases henabled : r.config.cacheEnabled
    · cases hkey : (r.cacheKey control (given.getD r.settings)).outcome with
      | error failure =>
        rw [controlState_of_no_key henabled hkey]
        exact h
      | ok key =>
        cases hfind : r.cache.find? control key with
        | some state =>
          rw [controlState_of_find? henabled hkey hfind]
          exact h
        | none =>
          rw [controlState_of_not_find? henabled hkey hfind]
          cases (r.verdict control (given.getD r.settings)).outcome with
          | ok v => exact h.put _ _ _
          | error failure => exact h
    · rw [controlState_of_disabled henabled]
      exact h
  | _ => exact h

/-! ### A whole run -/

theorem tidy_cache_after (evaluator config : Option Configuration) (ops : List Operation) :
    ((new evaluator config).after ops).cache.Tidy :=
  after_induction (p := fun r => r.cache.Tidy) .empty (fun _ op h => tidy_cache_perform h op) ops

theorem not_remembers_nil {start : Registry} {control key : String} {state : ControlState} :
    ¬Remembers start [] control key state := Kept.not_nil

/-- After one more operation, what is remembered is what the operation answers and, unless it drops
the states of the control, what was remembered before. -/
theorem remembers_concat_iff {start : Registry} {ops : List Operation} {op : Operation}
    {control key : String} {state : ControlState} :
    Remembers start (ops ++ [op]) control key state ↔
      op.invalidates control = false ∧ Remembers start ops control key state ∨
        (start.after ops).Answers op control key state := Kept.concat_iff

theorem invalidates_of_answers {r : Registry} {op : Operation} {control key : String}
    {state : ControlState} (h : r.Answers op control key state) (other : String) :
    op.invalidates other = false := by
  obtain ⟨given, rfl, _⟩ := h
  rfl

theorem find?_after {start : Registry} (hempty : start.cache = .empty)
    (henabled : start.config.cacheEnabled) (ops : List Operation) (control key : String)
    (state : ControlState) :
    (start.after ops).cache.find? control key = some state ↔
      Remembers start ops control key state := by
  induction ops using List.reverseRecOn with
  | nil =>
    rw [after_nil, hempty, StateCache.find?_empty]
    simp [not_remembers_nil]
  | append_singleton ops op ih =>
    have hconfig : (start.after ops).config.cacheEnabled = true := by
      rw [config_after]
      exact henabled
    rw [after_concat, find?_perform, ih, remembers_concat_iff]
    constructor
    · intro h
      obtain ⟨hop, hbefore | ⟨_, hanswers⟩⟩ := h
      · exact .inl ⟨hop, hbefore⟩
      · exact .inr hanswers
    · intro h
      rcases h with ⟨hop, hbefore⟩ | hanswers
      · exact ⟨hop, .inl hbefore⟩
      · exact ⟨invalidates_of_answers hanswers control, .inr ⟨hconfig, hanswers⟩⟩

theorem find?_after_of_disabled {start : Registry} (hempty : start.cache = .empty)
    (hdisabled : ¬start.config.cacheEnabled) (ops : List Operation) (control key : String) :
    (start.after ops).cache.find? control key = none := by
  induction ops using List.reverseRecOn with
  | nil => rw [after_nil, hempty, StateCache.find?_empty]
  | append_singleton ops op ih =>
    rw [Option.eq_none_iff_forall_ne_some]
    intro state hstate
    rw [after_concat, find?_perform, ih, config_after] at hstate
    simp [hdisabled] at hstate

theorem cached_eq_card {r : Registry} (h : r.cache.Tidy) :
    r.statistics.cached = r.cache.places.toFinset.card := by
  rw [List.toFinset_card_of_nodup h.nodup_places, StateCache.length_places]
  rfl

theorem hits_of_disabled {r : Registry} (hdisabled : ¬r.config.cacheEnabled) (op : Operation) :
    (r.perform op).1.hits = [] := by
  by_cases hop : ∃ control given, op = .controlState control given
  · obtain ⟨control, given, rfl⟩ := hop
    dsimp only [perform]
    rw [controlState_of_disabled hdisabled, Run.hits_map, Run.hits_map]
    exact (r.only_verdict control (given.getD r.settings)).hits_eq_nil
  · push Not at hop
    exact hits_perform hop

section Request

variable {r : Registry} {control key : String} {given : Option Settings}
  (henabled : r.config.cacheEnabled)
  (hkey : (r.cacheKey control (given.getD r.settings)).outcome = .ok key)

include henabled hkey

theorem hits_request_iff :
    (r.perform (.controlState control given)).1.hits = [control] ↔
      ∃ state, r.cache.find? control key = some state := by
  dsimp only [perform]
  rw [Run.hits_map, hits_controlState henabled hkey, ← Option.isSome_iff_exists]
  split <;> simp [*]

theorem request_of_no_hit (h : (r.perform (.controlState control given)).1.hits ≠ [control]) :
    (r.perform (.controlState control given)).1.hits = [] ∧
      (r.perform (.controlState control given)).1.comparisons =
        (r.verdict control (given.getD r.settings)).comparisons := by
  dsimp only [perform] at h ⊢
  rw [Run.hits_map, hits_controlState henabled hkey] at h
  rw [Run.hits_map, Run.comparisons_map, hits_controlState henabled hkey,
    comparisons_controlState henabled hkey]
  split at h
  · exact absurd rfl h
  · next hnone => exact ⟨if_neg hnone, if_neg hnone⟩

theorem request_of_find? {state : ControlState} (h : r.cache.find? control key = some state) :
    (r.perform (.controlState control given)).1.outcome = .ok (.state state) ∧
      (r.perform (.controlState control given)).1.comparisons = [] := by
  dsimp only [perform]
  rw [Run.comparisons_map, comparisons_controlState henabled hkey,
    controlState_of_find? henabled hkey h, h]
  exact ⟨rfl, rfl⟩

end Request

theorem request_of_no_key {r : Registry} {control : String} {given : Option Settings}
    {failure : Failure} (henabled : r.config.cacheEnabled)
    (hkey : (r.cacheKey control (given.getD r.settings)).outcome = .error failure) :
    (r.perform (.controlState control given)).1.outcome = .error failure ∧
      (r.perform (.controlState control given)).1.hits = [] ∧
      (r.perform (.controlState control given)).1.comparisons = [] ∧
      (r.perform (.controlState control given)).2 = r := by
  dsimp only [perform]
  rw [Run.hits_map, Run.comparisons_map]
  refine ⟨?_, (hits_of_no_key henabled hkey).1, (hits_of_no_key henabled hkey).2, ?_⟩
  · rw [controlState_of_no_key henabled hkey]
    rfl
  · rw [controlState_of_no_key henabled hkey]

/-- With the cache enabled, a request whose key can be computed is answered from the cache exactly
if the key is remembered for its control; it then compares nothing and gives the remembered state,
and any other such request compares as the verdict does. A request whose key covers a setting beyond
the digit limit fails, compares nothing and changes nothing. The size of the cache counts what is
remembered. With the cache disabled nothing is answered from it, and it stays empty. -/
theorem memoisation_exact (evaluator config : Option Configuration) (ops : List Operation) :
    let start := new evaluator config
    let r := start.after ops
    if start.config.cacheEnabled then
      (∀ control given,
        let run := (r.perform (.controlState control given)).1
        let computed := (r.cacheKey control (given.getD r.settings)).outcome
        ((∃ key, computed = .ok key) ↔
          (r.covered control (given.getD r.settings)).withinDigitLimit) ∧
        (∀ key, computed = .ok key →
          (run.hits = [control] ↔ ∃ state, Remembers start ops control key state) ∧
          (∀ state, Remembers start ops control key state →
            run.outcome = .ok (.state state) ∧ run.comparisons = []) ∧
          (run.hits ≠ [control] → run.hits = [] ∧
            run.comparisons = (r.verdict control (given.getD r.settings)).comparisons)) ∧
        ∀ failure, computed = .error failure →
          failure = .fault .longInteger ∧ run.outcome = .error failure ∧ run.hits = [] ∧
          run.comparisons = [] ∧ (r.perform (.controlState control given)).2 = r) ∧
      ∃ remembered : Finset (String × String),
        (∀ control key,
          (control, key) ∈ remembered ↔ ∃ state, Remembers start ops control key state) ∧
        r.statistics.cached = remembered.card
    else
      (∀ op, (r.perform op).1.hits = []) ∧ r.statistics.cached = 0 := by
  intro start r
  have htidy : r.cache.Tidy := tidy_cache_after evaluator config ops
  have hconfig : r.config = start.config := config_after start ops
  split
  · next henabled =>
    have hfind (control key : String) (state : ControlState) :
        r.cache.find? control key = some state ↔ Remembers start ops control key state :=
      find?_after rfl henabled ops control key state
    rw [← hconfig] at henabled
    refine ⟨?_, r.cache.places.toFinset, ?_, cached_eq_card htidy⟩
    · intro control given run computed
      refine ⟨by simp [computed, cacheKey_eq_ok_iff], ?_, fun failure hkey =>
        ⟨(cacheKey_eq_error_iff.mp hkey).2.symm, request_of_no_key henabled hkey⟩⟩
      intro key hkey
      simp only [← hfind]
      exact ⟨hits_request_iff henabled hkey,
        fun state hstate => request_of_find? henabled hkey hstate, request_of_no_hit henabled hkey⟩
    · intro control key
      rw [List.mem_toFinset, htidy.mem_places_iff, Option.isSome_iff_exists]
      exact exists_congr (hfind control key)
  · next hdisabled =>
    have hnone : r.cache.places.toFinset = ∅ := by
      rw [Finset.eq_empty_iff_forall_notMem]
      intro place hplace
      rw [List.mem_toFinset, htidy.mem_places_iff,
        find?_after_of_disabled rfl hdisabled ops] at hplace
      cases hplace
    rw [← hconfig] at hdisabled
    refine ⟨hits_of_disabled hdisabled, ?_⟩
    rw [cached_eq_card htidy, hnone]
    rfl

/-- A panel is asked for again, and then under a size with too many digits. -/
theorem panel_asked_beyond_limit :
    let flat : Settings := [("mode", .text "flat")]
    let oversized : Settings := [("mode", .text "flat"), ("size", .int (tenTo digitLimit))]
    let ops := [.hideWhere "panel" "mode" (.text "flat"), .controlState "panel" (some flat)]
    let r := (new none none).after ops
    let again := (r.perform (.controlState "panel" (some flat))).1
    let beyond := (r.perform (.controlState "panel" (some oversized))).1
    again.hits = ["panel"] ∧ again.comparisons = [] ∧
      beyond.outcome = .error (.fault .longInteger) ∧ beyond.hits = [] := by
  intro flat oversized ops r again beyond
  have henabled : (new none none).config.cacheEnabled := rfl
  have hexact := memoisation_exact none none ops
  dsimp only at hexact
  rw [if_pos henabled] at hexact
  obtain ⟨hagain, hanswered, -⟩ := hexact.1 "panel" (some flat)
  obtain ⟨hbeyond, -, hfailed⟩ := hexact.1 "panel" (some oversized)
  have hhits : again.hits = ["panel"] := by decide +kernel
  have hflat : (r.covered "panel" flat).withinDigitLimit := by decide +kernel
  have hoversized : ¬(r.covered "panel" oversized).withinDigitLimit := by decide +kernel
  obtain ⟨key, hkey⟩ := hagain.mpr hflat
  obtain ⟨state, hstate⟩ := (hanswered key hkey).1.mp hhits
  cases hcomputed : (r.cacheKey "panel" oversized).outcome with
  | ok key => exact absurd (hbeyond.mp ⟨key, hcomputed⟩) hoversized
  | error failure =>
    obtain ⟨rfl, houtcome, hnone, -⟩ := hfailed failure hcomputed
    dsimp only [again, beyond, r] at hhits ⊢
    exact ⟨hhits, ((hanswered key hkey).2.1 state hstate).2, houtcome, hnone⟩

end VisibilityRules.Registry
