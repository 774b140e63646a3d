import VisibilityRules.Proofs.Evaluation.Dependence
import VisibilityRules.Proofs.Value.Canonical
import VisibilityRules.Proofs.Value.Digits

/-!
# What a cache key says

The text behind a key covers each setting that a verdict on the control reads, under either
strategy. So two settings with the same text give the same verdict. There is a key exactly if the
settings that it covers are within the digit limit.
-/

namespace VisibilityRules

open Dependency

/-- The settings that an evaluation of rules looks up, without repetitions. -/
def Dependency.settingsRead (rules : List Rule) : List String :=
  distinct ((leafNames rules).map fun name => (TermName.of name).setting)

theorem Dependency.outcome_evaluated {ε : Type} (rules : List Rule) :
    (evaluated rules : Run ε (List String)).outcome = .ok (settingsRead rules) := by
  have hresolve (s : String) : ((fun name => some name.setting) <$> TermName.read s :
      Run ε (Option String)).outcome = .ok (some (TermName.of s).setting) := by
    rw [Run.outcome_map, TermName.outcome_read]
    rfl
  rw [evaluated, Run.outcome_map, extractRules_eq_foldlM, outcome_foldlM_collect hresolve,
    List.filterMap_eq_map', List.nil_append]
  rfl

namespace Settings

/-- Whether no value of a setting has a missing part. -/
def IsPlain (settings : Settings) : Prop := Value.entriesHaveJson settings

theorem restrict_eq (settings : Settings) (names : List String) :
    settings.restrict names = Table.found (Table.get? settings) (distinct names) := rfl

theorem get?_restrict (settings : Settings) (names : List String) (name : String) :
    Table.get? (settings.restrict names) name =
      if name ∈ names then Table.get? settings name else none := by
  rw [restrict_eq, Table.get?_found]
  simp only [mem_distinct]

theorem IsPlain.restrict {settings : Settings} (h : settings.IsPlain) (names : List String) :
    (settings.restrict names).IsPlain := by
  unfold IsPlain at h ⊢
  rw [Value.entriesHaveJson_iff] at h ⊢
  intro e he
  obtain ⟨name, _, hget⟩ := List.mem_filterMap.mp he
  obtain ⟨v, hv, rfl⟩ := Option.map_eq_some_iff.mp hget
  exact h (name, v) (Table.mem_of_get?_eq_some hv)

theorem withinDigitLimit_restrict_iff {settings : Settings} {names : List String} :
    (settings.restrict names).withinDigitLimit ↔
      ∀ name ∈ names, ∀ v ∈ Table.get? settings name, v.withinDigitLimit := by
  rw [withinDigitLimit, Value.withinDigitLimit_map_iff]
  constructor
  · intro h name hname v hv
    refine h (name, v) (List.mem_filterMap.mpr ⟨name, (mem_distinct _ _).mpr hname, ?_⟩)
    rw [hv, Option.map_some]
  · intro h e he
    obtain ⟨name, hname, hget⟩ := List.mem_filterMap.mp he
    obtain ⟨v, hv, rfl⟩ := Option.map_eq_some_iff.mp hget
    exact h name ((mem_distinct _ _).mp hname) v hv

theorem withinDigitLimit_restrict {settings : Settings} (h : settings.withinDigitLimit)
    (names : List String) : (settings.restrict names).withinDigitLimit :=
  withinDigitLimit_restrict_iff.mpr fun name _ v hv =>
    Value.withinDigitLimit_map_iff.mp h (name, v) (Table.mem_of_get?_eq_some hv)

theorem sameAt_of_snapshotText_eq {s t : Settings} (hs : s.IsPlain) (ht : t.IsPlain)
    (h : s.snapshotText = t.snapshotText) (name : String) : s.SameAt t name := by
  have hnormal := Value.normal_eq_of_canonical_eq (v := .map s) (w := .map t) hs ht h
  rw [Value.normal_map, Value.normal_map, Value.map.injEq] at hnormal
  unfold SameAt
  rw [← Value.get?_normalEntries, ← Value.get?_normalEntries, hnormal]

end Settings

namespace Registry

/-- The settings that the key for a control covers. -/
def covered (r : Registry) (control : String) (settings : Settings) : Settings :=
  match r.config.cacheStrategy with
  | .snapshot => settings
  | .dependencies => settings.restrict (settingsRead (r.rulesOf control))

def keyText (r : Registry) (control : String) (settings : Settings) : List Char :=
  (r.covered control settings).snapshotText

private theorem outcome_cacheKey (r : Registry) (control : String) (settings : Settings) :
    (r.cacheKey control settings).outcome =
      (r.covered control settings).snapshotKey.mapError .fault := by
  unfold cacheKey covered
  cases r.config.cacheStrategy with
  | snapshot => rfl
  | dependencies =>
    rw [Run.bind_of_ok (outcome_evaluated _)]
    rfl

/-- A key is the digest of the text of the settings that it covers, if these are within the digit
limit. -/
theorem cacheKey_eq_ok_iff {r : Registry} {control key : String} {settings : Settings} :
    (r.cacheKey control settings).outcome = .ok key ↔
      (r.covered control settings).withinDigitLimit ∧ digest (r.keyText control settings) = key := by
  rw [outcome_cacheKey, Settings.snapshotKey, keyText]
  cases (r.covered control settings).withinDigitLimit <;> simp [Except.mapError]

theorem cacheKey_eq_error_iff {r : Registry} {control : String} {settings : Settings}
    {failure : Failure} :
    (r.cacheKey control settings).outcome = .error failure ↔
      (r.covered control settings).withinDigitLimit = false ∧ .fault .longInteger = failure := by
  rw [outcome_cacheKey, Settings.snapshotKey]
  cases (r.covered control settings).withinDigitLimit <;> simp [Except.mapError]

theorem keyText_congr_rules {r r' : Registry} {control : String}
    (hconfig : r'.config = r.config) (hrules : r'.rulesOf control = r.rulesOf control)
    (settings : Settings) : r'.keyText control settings = r.keyText control settings := by
  unfold keyText covered
  rw [hconfig, hrules]

theorem isPlain_covered {r : Registry} {control : String} {settings : Settings}
    (h : settings.IsPlain) : (r.covered control settings).IsPlain := by
  unfold Registry.covered
  cases r.config.cacheStrategy with
  | snapshot => exact h
  | dependencies => exact h.restrict _

theorem withinDigitLimit_covered {settings : Settings} (h : settings.withinDigitLimit) (r : Registry)
    (control : String) : (r.covered control settings).withinDigitLimit := by
  unfold covered
  cases r.config.cacheStrategy with
  | snapshot => exact h
  | dependencies => exact Settings.withinDigitLimit_restrict h _

theorem verdict_eq_of_keyText_eq (r : Registry) (control : String) {s t : Settings}
    (hs : s.IsPlain) (ht : t.IsPlain) (h : r.keyText control s = r.keyText control t) :
    r.verdict control s = r.verdict control t := by
  apply verdict_congr
  intro name hname
  have hsame : (r.covered control s).SameAt (r.covered control t) (TermName.of name).setting :=
    Settings.sameAt_of_snapshotText_eq (isPlain_covered hs) (isPlain_covered ht) h _
  unfold covered at hsame
  cases hstrategy : r.config.cacheStrategy with
  | snapshot =>
    rw [hstrategy] at hsame
    exact hsame
  | dependencies =>
    have hread : (TermName.of name).setting ∈ settingsRead (r.rulesOf control) := by
      rw [settingsRead, mem_distinct]
      exact List.mem_map_of_mem hname
    rw [hstrategy] at hsame
    unfold Settings.SameAt at hsame ⊢
    rw [Settings.get?_restrict, Settings.get?_restrict, if_pos hread, if_pos hread] at hsame
    exact hsame

end Registry

end VisibilityRules
