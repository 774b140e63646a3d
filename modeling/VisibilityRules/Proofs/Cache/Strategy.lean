import Mathlib
import VisibilityRules.Proofs.Cache.KeyText
import VisibilityRules.Proofs.Cache.Memoisation
import VisibilityRules.Proofs.Cache.Stability
import VisibilityRules.Proofs.Cache.Transparency

/-!
# Keys of dependencies against keys of all settings

Two registries that differ in what their keys cover are given the same operations. Both caches then
hold states for the same requests, each under its own keys. Requests that share the key of all
settings share the key of those that the rules read, so the cache with the narrow keys answers all
that the other one answers, and holds no more. Settings beyond the digit limit have no key, while
those of them that the rules read may have one: then only the narrow cache holds a state.
-/

namespace VisibilityRules.Registry

theorem keyText_congr (r : Registry) (control : String) {s t : Settings}
    (h : s.snapshotText = t.snapshotText) : r.keyText control s = r.keyText control t := by
  unfold keyText covered
  cases r.config.cacheStrategy with
  | snapshot => exact h
  | dependencies =>
    apply Settings.snapshotText_restrict_congr (fun _ => .rfl)
    intro name _
    exact Settings.map_canonical_of_snapshotText_eq h name

theorem covered_of_snapshot {r : Registry} (h : r.config.cacheStrategy = .snapshot)
    (control : String) (settings : Settings) : r.covered control settings = settings := by
  unfold covered
  rw [h]

/-! ### The requests behind a cache -/

/-- The control and the settings of a request that has a key and whose verdict succeeds. -/
def answered (r : Registry) : Operation → List (String × Settings)
  | .controlState control given =>
    if (r.covered control (given.getD r.settings)).withinDigitLimit &&
        (r.verdict control (given.getD r.settings)).succeeded then
      [(control, given.getD r.settings)]
    else []
  | _ => []

/-- Whether the cache of a registry holds states under the keys of some requests, and no others. -/
def Holds (r : Registry) (asked : List (String × Settings)) : Prop :=
  ∀ control key, (r.cache.find? control key).isSome ↔
    ∃ settings, (control, settings) ∈ asked ∧ digest (r.keyText control settings) = key

theorem mem_answered_iff {r : Registry} {control : String} {given : Option Settings}
    {p : String × Settings} :
    p ∈ r.answered (.controlState control given) ↔
      (r.covered control (given.getD r.settings)).withinDigitLimit ∧
        (r.verdict control (given.getD r.settings)).succeeded ∧
        p = (control, given.getD r.settings) := by
  rw [answered, ← and_assoc, ← Bool.and_eq_true]
  split <;> simp [*]

theorem snapshotText_of_answered {r : Registry} (henabled : r.config.cacheEnabled)
    (hstrategy : r.config.cacheStrategy = .snapshot) {op : Operation} {p : String × Settings}
    (h : p ∈ r.answered op) : p.2.snapshotText ∈ r.hashedBy op := by
  cases op with
  | controlState control given =>
    obtain ⟨hwithin, _, rfl⟩ := mem_answered_iff.mp h
    have hmem := mem_hashedBy henabled (cacheKey_eq_ok_iff.mpr ⟨hwithin, rfl⟩)
    rwa [keyText, covered_of_snapshot hstrategy] at hmem
  | _ => cases h

theorem keyText_perform (r : Registry) {op : Operation} {control : String}
    (h : op.invalidates control = false) (settings : Settings) :
    (r.perform op).2.keyText control settings = r.keyText control settings :=
  keyText_congr_rules (config_perform r op) (rulesOf_perform_of_kept r h) settings

/-- A request with a key is answered if there is a state under the key, or its verdict succeeds. -/
theorem controlState_succeeds_iff {r : Registry} (henabled : r.config.cacheEnabled)
    {control key : String} {settings : Settings}
    (hkey : (r.cacheKey control settings).outcome = .ok key) :
    (∃ state, (r.controlState control settings).1.outcome = .ok state) ↔
      (r.cache.find? control key).isSome ∨ (r.verdict control settings).succeeded := by
  cases hfind : r.cache.find? control key with
  | some state => simp [controlState_of_find? henabled hkey hfind]
  | none =>
    rw [controlState_of_not_find? henabled hkey hfind, Run.succeeded_iff]
    cases (r.verdict control settings).outcome <;> simp [Except.map]

theorem found_or_answers_iff {r : Registry} (henabled : r.config.cacheEnabled) (op : Operation)
    (control key : String) :
    ((r.cache.find? control key).isSome ∨ ∃ state, r.Answers op control key state) ↔
      (r.cache.find? control key).isSome ∨
        ∃ settings, (control, settings) ∈ r.answered op ∧
          digest (r.keyText control settings) = key := by
  cases op with
  | controlState asked given =>
    constructor
    · intro h
      rcases h with hfound | ⟨state, hanswers⟩
      · exact .inl hfound
      · obtain ⟨rfl, hkey, hstate⟩ := answers_controlState_iff.mp hanswers
        obtain ⟨hwithin, hdigest⟩ := cacheKey_eq_ok_iff.mp hkey
        rcases (controlState_succeeds_iff henabled hkey).mp ⟨state, hstate⟩ with hfound | hverdict
        · exact .inl hfound
        · exact .inr ⟨_, mem_answered_iff.mpr ⟨hwithin, hverdict, rfl⟩, hdigest⟩
    · intro h
      rcases h with hfound | ⟨settings, hasked, hdigest⟩
      · exact .inl hfound
      · obtain ⟨hwithin, hverdict, hplace⟩ := mem_answered_iff.mp hasked
        obtain ⟨rfl, rfl⟩ := Prod.mk.inj hplace
        have hkey := cacheKey_eq_ok_iff.mpr ⟨hwithin, hdigest⟩
        obtain ⟨state, hstate⟩ := (controlState_succeeds_iff henabled hkey).mpr (.inr hverdict)
        exact .inr ⟨state, answers_controlState_iff.mpr ⟨rfl, hkey, hstate⟩⟩
  | _ => simp [Answers, answered]

theorem Holds.perform {r : Registry} {asked : List (String × Settings)} (h : r.Holds asked)
    (henabled : r.config.cacheEnabled) (op : Operation) :
    (r.perform op).2.Holds (r.answered op ++ asked.filter fun p => !op.invalidates p.1) := by
  intro control key
  have hfind : ((r.perform op).2.cache.find? control key).isSome ↔
      op.invalidates control = false ∧
        ((r.cache.find? control key).isSome ∨ ∃ state, r.Answers op control key state) := by
    simp only [Option.isSome_iff_exists, find?_perform, henabled, true_and, exists_and_left,
      exists_or]
  rw [hfind, found_or_answers_iff henabled, h control key]
  cases hkept : op.invalidates control with
  | true =>
    have hnone : r.answered op = [] := by
      cases op with
      | controlState => cases hkept
      | _ => rfl
    simp [hkept, hnone]
  | false =>
    simp only [keyText_perform r hkept, List.mem_append, List.mem_filter, hkept, Bool.not_false,
      and_true, true_and, or_and_right, exists_or]
    exact or_comm

/-! ### Two registries side by side -/

/-- Two registries with the same rules and settings whose caches hold states for the same requests,
the first one under keys of all settings and the second one under keys of its own. The first one
lacks those of the requests whose settings are beyond the digit limit. The texts behind its keys are
among given texts. -/
structure Paired (texts : List (List Char)) (asked : List (String × Settings))
    (r r' : Registry) : Prop where
  enabled : r.config.cacheEnabled
  enabled' : r'.config.cacheEnabled
  strategy : r.config.cacheStrategy = .snapshot
  nesting : r'.nesting = r.nesting
  settings : r'.settings = r.settings
  rules : ∀ control, r'.rulesOf control = r.rulesOf control
  holds : r.Holds (asked.filter (·.2.withinDigitLimit))
  holds' : r'.Holds asked
  hashed : ∀ p ∈ asked, p.2.withinDigitLimit → p.2.snapshotText ∈ texts

namespace Paired

variable {texts : List (List Char)} {asked : List (String × Settings)} {r r' : Registry}

/-- Under keys of all settings the requests within the digit limit are answered. -/
theorem answered_eq (h : Paired texts asked r r') (op : Operation) :
    r.answered op = (r'.answered op).filter (·.2.withinDigitLimit) := by
  cases op with
  | controlState control given =>
    have hcovered (hwithin : (given.getD r.settings).withinDigitLimit) :
        (r'.covered control (given.getD r.settings)).withinDigitLimit :=
      withinDigitLimit_covered hwithin r' control
    rw [answered, answered, h.settings, verdict_congr_rules h.nesting (h.rules control),
      covered_of_snapshot h.strategy]
    cases hwithin : (given.getD r.settings).withinDigitLimit with
    | true =>
      rw [hcovered hwithin]
      split <;> simp [hwithin]
    | false =>
      rw [Bool.false_and, if_neg Bool.false_ne_true]
      split <;> simp [hwithin]
  | _ => rfl

theorem perform (h : Paired texts asked r r') {op : Operation} (hhashed : r.hashedBy op ⊆ texts) :
    Paired texts (r'.answered op ++ asked.filter fun p => !op.invalidates p.1)
      (r.perform op).2 (r'.perform op).2 := by
  refine ⟨?_, ?_, ?_, ?_, ?_, ?_, ?_, h.holds'.perform h.enabled' op, ?_⟩
  · rw [config_perform]
    exact h.enabled
  · rw [config_perform]
    exact h.enabled'
  · rw [config_perform]
    exact h.strategy
  · rw [nesting_perform, nesting_perform, h.nesting]
  · rw [settings_perform, settings_perform, h.settings]
  · intro control
    rw [rulesOf_perform, rulesOf_perform, h.rules]
  · have hafter := h.holds.perform h.enabled op
    rw [h.answered_eq, List.filter_comm, ← List.filter_append] at hafter
    exact hafter
  · intro p hp hwithin
    rcases List.mem_append.mp hp with hnew | hold
    · apply hhashed
      apply snapshotText_of_answered h.enabled h.strategy
      rw [h.answered_eq]
      exact List.mem_filter.mpr ⟨hnew, hwithin⟩
    · exact h.hashed p (List.mem_of_mem_filter hold) hwithin

/-- What the cache with the keys of all settings answers, the other one answers too. -/
theorem hits_subset (h : Paired texts asked r r') (hfree : CollisionFree texts) {op : Operation}
    (hhashed : r.hashedBy op ⊆ texts) : (r.perform op).1.hits ⊆ (r'.perform op).1.hits := by
  by_cases hop : ∃ control given, op = .controlState control given
  · obtain ⟨control, given, rfl⟩ := hop
    dsimp only [Registry.perform]
    rw [Run.hits_map, Run.hits_map, h.settings]
    cases hkey : (r.cacheKey control (given.getD r.settings)).outcome with
    | error failure =>
      rw [(hits_of_no_key h.enabled hkey).1]
      exact List.nil_subset _
    | ok key =>
      obtain ⟨hwithin, hdigest⟩ := cacheKey_eq_ok_iff.mp hkey
      have hlast := hhashed (mem_hashedBy h.enabled hkey)
      rw [keyText, covered_of_snapshot h.strategy] at hdigest hlast
      rw [covered_of_snapshot h.strategy] at hwithin
      have hkey' :=
        cacheKey_eq_ok_iff.mpr ⟨withinDigitLimit_covered hwithin r' control, rfl⟩
      rw [hits_controlState h.enabled hkey, hits_controlState h.enabled' hkey']
      split
      · next hfound =>
        obtain ⟨settings, hasked, hearlier⟩ := (h.holds _ _).mp hfound
        rw [List.mem_filter] at hasked
        rw [keyText, covered_of_snapshot h.strategy, ← hdigest] at hearlier
        -- without collisions the earlier request has the same text, so the same narrow key too
        have htext : settings.snapshotText = (given.getD r.settings).snapshotText :=
          hfree _ (h.hashed _ hasked.1 hasked.2) _ hlast hearlier
        have hfound' := (h.holds' control _).mpr ⟨settings, hasked.1, rfl⟩
        rw [r'.keyText_congr control htext] at hfound'
        rw [if_pos hfound']
        exact List.Subset.refl _
      · exact List.nil_subset _
  · push Not at hop
    rw [hits_perform hop]
    exact List.nil_subset _

/-- The requests that share a key of all settings share their other key, so there are no more of
these. -/
theorem cached_le (h : Paired texts asked r r') (hfree : CollisionFree texts)
    (hwithin : ∀ p ∈ asked, p.2.withinDigitLimit) (htidy : r.cache.Tidy)
    (htidy' : r'.cache.Tidy) : r'.statistics.cached ≤ r.statistics.cached := by
  have hholds := h.holds
  rw [List.filter_eq_self.mpr hwithin] at hholds
  have htexts : ∀ p ∈ asked, p.2.snapshotText ∈ texts := fun p hp => h.hashed p hp (hwithin p hp)
  rw [cached_eq_card htidy, cached_eq_card htidy', Nat.cast_le]
  apply Finset.card_le_card_of_forall_subsingleton fun narrow wide => ∃ settings,
    (narrow.1, settings) ∈ asked ∧ digest (r'.keyText narrow.1 settings) = narrow.2 ∧
      wide = (narrow.1, digest settings.snapshotText)
  · intro narrow hnarrow
    rw [List.mem_toFinset, htidy'.mem_places_iff, h.holds'] at hnarrow
    obtain ⟨settings, hasked, hkey⟩ := hnarrow
    refine ⟨_, ?_, settings, hasked, hkey, rfl⟩
    rw [List.mem_toFinset, htidy.mem_places_iff, hholds]
    refine ⟨settings, hasked, ?_⟩
    rw [keyText, covered_of_snapshot h.strategy]
  · intro wide _ narrow hnarrow other hother
    obtain ⟨_, settings, hasked, hkey, rfl⟩ := hnarrow
    obtain ⟨_, settings', hasked', hkey', hwide⟩ := hother
    obtain ⟨hcontrol, hdigest⟩ := Prod.mk.inj hwide
    have htext : settings.snapshotText = settings'.snapshotText :=
      hfree _ (htexts _ hasked) _ (htexts _ hasked') hdigest
    apply Prod.ext hcontrol
    rw [← hkey, ← hkey', hcontrol, r'.keyText_congr other.1 htext]

theorem forall₂_hits_subset (h : Paired texts asked r r') (hfree : CollisionFree texts)
    {ops : List Operation} (hhashed : r.hashed ops ⊆ texts) :
    List.Forall₂ (fun run run' => run.hits ⊆ run'.hits) (r.runs ops) (r'.runs ops) := by
  induction ops generalizing asked r r' with
  | nil => exact .nil
  | cons op rest ih =>
    rw [Registry.hashed, List.append_subset] at hhashed
    exact .cons (h.hits_subset hfree hhashed.1) (ih (h.perform hhashed.1) hhashed.2)

end Paired

/-- Whether an operation is given no settings or settings within the digit limit. -/
def Operation.WithinDigitLimit (op : Operation) : Prop :=
  ∀ given ∈ op.given?, given.withinDigitLimit

/-- Whether the active settings and those of some requests are within the digit limit. -/
def WithinDigitLimit (r : Registry) (asked : List (String × Settings)) : Prop :=
  r.settings.withinDigitLimit ∧ ∀ p ∈ asked, p.2.withinDigitLimit

theorem WithinDigitLimit.perform {r : Registry} {asked : List (String × Settings)}
    (h : r.WithinDigitLimit asked) {op : Operation} (hop : op.WithinDigitLimit) :
    (r.perform op).2.WithinDigitLimit
      (r.answered op ++ asked.filter fun p => !op.invalidates p.1) := by
  refine ⟨?_, ?_⟩
  · rw [settings_perform]
    cases op with
    | setSettings given => exact hop given rfl
    | reset => rfl
    | _ => exact h.1
  · intro p hp
    rcases List.mem_append.mp hp with hnew | hold
    · cases op with
      | controlState control given =>
        obtain ⟨_, _, rfl⟩ := mem_answered_iff.mp hnew
        cases given with
        | none => exact h.1
        | some settings => exact hop settings rfl
      | _ => cases hnew
    · exact h.2 p (List.mem_of_mem_filter hold)

theorem Paired.after {texts : List (List Char)} {asked : List (String × Settings)} {r r' : Registry}
    (h : Paired texts asked r r') {ops : List Operation} (hhashed : r.hashed ops ⊆ texts)
    (hasked : r'.WithinDigitLimit asked) (hops : ∀ op ∈ ops, op.WithinDigitLimit) :
    ∃ asked', Paired texts asked' (r.after ops) (r'.after ops) ∧
      ∀ p ∈ asked', p.2.withinDigitLimit := by
  induction ops generalizing asked r r' with
  | nil => exact ⟨asked, h, hasked.2⟩
  | cons op rest ih =>
    rw [Registry.hashed, List.append_subset] at hhashed
    rw [List.forall_mem_cons] at hops
    exact ih (h.perform hhashed.1) hhashed.2 (hasked.perform hops.1) hops.2

/-- The dependencies strategy caches at least as well as the snapshot strategy. Of two registries
that differ in the strategy only and are given the same operations, the one that keeps states under
the keys of dependencies answers from its cache whatever the other one answers from its own, and
after each operation it keeps no more states, as long as all settings were within the digit
limit. -/
theorem dependencies_cache_as_well (evaluator : Option Configuration) (config : Configuration)
    (ops : List Operation) (enabled : config.cacheEnabled)
    (free : CollisionFree
      ((new evaluator (some { config with cacheStrategy := .snapshot })).hashed ops)) :
    let r := new evaluator (some { config with cacheStrategy := .snapshot })
    let r' := new evaluator (some { config with cacheStrategy := .dependencies })
    List.Forall₂ (fun run run' => run.hits ⊆ run'.hits) (r.runs ops) (r'.runs ops) ∧
      ∀ done, done <+: ops → (∀ op ∈ done, op.WithinDigitLimit) →
        (r'.after done).statistics.cached ≤ (r.after done).statistics.cached := by
  intro r r'
  have hpaired : Paired (r.hashed ops) [] r r' :=
    { enabled, enabled' := enabled, strategy := rfl, settings := rfl, rules := fun _ => rfl
      nesting := by cases evaluator <;> rfl
      holds := by simp [Holds, r, new]
      holds' := by simp [Holds, r', new]
      hashed := by simp }
  refine ⟨hpaired.forall₂_hits_subset free (List.Subset.refl _), ?_⟩
  intro done hdone hwithin
  obtain ⟨more, rfl⟩ := hdone
  have hhashed : r.hashed done ⊆ r.hashed (done ++ more) := by
    rw [hashed_append]
    exact List.subset_append_left _ _
  have hempty : r'.WithinDigitLimit [] := ⟨rfl, by simp⟩
  obtain ⟨asked, hafter, hasked⟩ := hpaired.after hhashed hempty hwithin
  exact hafter.cached_le free hasked (tidy_cache_after _ _ done) (tidy_cache_after _ _ done)

/-- A panel that depends on the mode is asked for under two themes. -/
theorem panel_under_two_themes :
    let config : Configuration := {}
    let dark : Settings := [("mode", .text "flat"), ("theme", .text "dark")]
    let light : Settings := [("mode", .text "flat"), ("theme", .text "light")]
    let ops := [.hideWhere "panel" "mode" (.text "flat"), .controlState "panel" (some dark),
      .controlState "panel" (some dark), .controlState "panel" (some light)]
    let r := new none (some { config with cacheStrategy := .snapshot })
    let r' := new none (some { config with cacheStrategy := .dependencies })
    CollisionFree (r.hashed ops) ∧
      List.Forall₂ (fun run run' => run.hits ⊆ run'.hits) (r.runs ops) (r'.runs ops) ∧
      (r.runs ops).map Run.hits = [[], [], ["panel"], []] ∧
      (r'.runs ops).map Run.hits = [[], [], ["panel"], ["panel"]] ∧
      (r'.after ops).statistics.cached ≤ (r.after ops).statistics.cached := by
  intro config dark light ops r r'
  have free : CollisionFree (r.hashed ops) := by decide +kernel
  obtain ⟨hhits, hcached⟩ := dependencies_cache_as_well none config ops rfl free
  have hwithin : ∀ op ∈ ops, op.WithinDigitLimit := by
    have hthemes : dark.withinDigitLimit ∧ light.withinDigitLimit := ⟨rfl, rfl⟩
    simp [ops, Operation.WithinDigitLimit, Operation.given?, Operation.hideWhere, hthemes]
  exact ⟨free, hhits, by decide +kernel, by decide +kernel,
    hcached ops (List.prefix_refl ops) hwithin⟩

end VisibilityRules.Registry
