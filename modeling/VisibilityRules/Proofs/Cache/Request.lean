import Mathlib
import VisibilityRules.Proofs.Cache.Key
import VisibilityRules.Proofs.Cache.State
import VisibilityRules.Proofs.Registry.Hits

/-!
# Requests for a state

A request for the state of a control looks up the cache under its key, and fails where there is
none. A hit is reported, and then no leaf is compared; otherwise the request goes on as the verdict
does.
-/

namespace VisibilityRules

namespace Run

variable {ε α : Type}

theorem hits_mk_append (before after : List Event) (outcome : Except ε α) :
    (Run.mk (before ++ after) outcome).hits = before.filterMap hit? ++ after.filterMap hit? :=
  List.filterMap_append

theorem comparisons_mk_append (before after : List Event) (outcome : Except ε α) :
    (Run.mk (before ++ after) outcome).comparisons =
      before.filterMap compared? ++ after.filterMap compared? :=
  List.filterMap_append

end Run

namespace Registry

/-! ### Events of keys -/

private theorem only_evaluated {ε : Type} (rules : List Rule) :
    (Dependency.evaluated rules : Run ε (List String)).Only Event.OnName := by
  rw [Dependency.evaluated, Dependency.extractRules_eq_foldlM]
  exact (Dependency.only_foldlM_collect (fun s => (TermName.only_read s).map _) _ _).map _

theorem only_cacheKey (r : Registry) (control : String) (settings : Settings) :
    (r.cacheKey control settings).Only Event.OnName := by
  unfold cacheKey
  cases r.config.cacheStrategy with
  | snapshot => exact Run.only_ofExcept _
  | dependencies => exact (only_evaluated _).bind fun _ => Run.only_ofExcept _

private theorem hits_of_key (r : Registry) (control : String) (settings : Settings) :
    (r.cacheKey control settings).events.filterMap Run.hit? = [] :=
  ((r.only_cacheKey control settings).mono fun _ => Event.OnName.noHit).hits_eq_nil

private theorem comparisons_of_key (r : Registry) (control : String) (settings : Settings) :
    (r.cacheKey control settings).events.filterMap Run.compared? = [] := by
  rw [List.filterMap_eq_nil_iff]
  intro e he
  obtain ⟨name, rfl⟩ := r.only_cacheKey control settings e he
  rfl

/-! ### Hit and miss -/

private theorem computeState_none (r : Registry) (control : String) (settings : Settings) :
    r.computeState control settings none = (Verdict.state <$> r.verdict control settings, r) := by
  unfold computeState
  dsimp only
  split
  · next h => exact absurd h (by simp)
  · rfl

private theorem computeState_some (r : Registry) (control : String) (settings : Settings)
    (key : String) :
    r.computeState control settings (some key) =
      (Verdict.state <$> r.verdict control settings,
        match (r.verdict control settings).outcome with
        | .ok v => { r with cache := r.cache.put control key v.state }
        | .error _ => r) := by
  unfold computeState
  dsimp only
  rw [Run.outcome_map]
  cases (r.verdict control settings).outcome <;> rfl

theorem controlState_of_disabled {r : Registry} (h : ¬r.config.cacheEnabled) (control : String)
    (settings : Settings) :
    r.controlState control settings = (Verdict.state <$> r.verdict control settings, r) := by
  rw [controlState, if_neg h, computeState_none]

section Enabled

variable {r : Registry} {control key : String} {settings : Settings}

private theorem lookup_eq (hkey : (r.cacheKey control settings).outcome = .ok key) :
    ((r.cacheKey control settings).bind fun key =>
        (fun hit => (key, hit)) <$> r.cache.get control key) =
      ⟨(r.cacheKey control settings).events ++
          (r.cache.get control key : Run Failure (Option ControlState)).events,
        .ok (key, r.cache.find? control key)⟩ := by
  rw [Run.bind_of_ok hkey, Run.outcome_map, StateCache.outcome_get]
  rfl

theorem controlState_of_no_key {failure : Failure} (henabled : r.config.cacheEnabled)
    (hkey : (r.cacheKey control settings).outcome = .error failure) :
    r.controlState control settings =
      (⟨(r.cacheKey control settings).events, .error failure⟩, r) := by
  rw [controlState, if_pos henabled, Run.bind_of_error hkey]

theorem controlState_of_find? {state : ControlState} (henabled : r.config.cacheEnabled)
    (hkey : (r.cacheKey control settings).outcome = .ok key)
    (hfind : r.cache.find? control key = some state) :
    r.controlState control settings =
      (⟨(r.cacheKey control settings).events ++ [.noticed (.cacheHit control)], .ok state⟩, r) := by
  rw [controlState, if_pos henabled, lookup_eq hkey, StateCache.get, hfind]

theorem controlState_of_not_find? (henabled : r.config.cacheEnabled)
    (hkey : (r.cacheKey control settings).outcome = .ok key)
    (hfind : r.cache.find? control key = none) :
    r.controlState control settings =
      (⟨(r.cacheKey control settings).events ++ (r.verdict control settings).events,
          (r.verdict control settings).outcome.map Verdict.state⟩,
        match (r.verdict control settings).outcome with
        | .ok v => { r with cache := r.cache.put control key v.state }
        | .error _ => r) := by
  rw [controlState, if_pos henabled, lookup_eq hkey, StateCache.get, hfind]
  simp only [computeState_some, Run.pure_def, List.append_nil]
  rfl

theorem hits_controlState (henabled : r.config.cacheEnabled)
    (hkey : (r.cacheKey control settings).outcome = .ok key) :
    (r.controlState control settings).1.hits =
      if (r.cache.find? control key).isSome then [control] else [] := by
  cases hfind : r.cache.find? control key with
  | some state =>
    rw [controlState_of_find? henabled hkey hfind, Run.hits_mk_append, hits_of_key]
    rfl
  | none =>
    have hverdict := (r.only_verdict control settings).hits_eq_nil
    rw [Run.hits] at hverdict
    rw [controlState_of_not_find? henabled hkey hfind, Run.hits_mk_append, hits_of_key, hverdict]
    rfl

/-- A request that the cache answers compares nothing; any other compares as the verdict does. -/
theorem comparisons_controlState (henabled : r.config.cacheEnabled)
    (hkey : (r.cacheKey control settings).outcome = .ok key) :
    (r.controlState control settings).1.comparisons =
      if (r.cache.find? control key).isSome then []
      else (r.verdict control settings).comparisons := by
  cases hfind : r.cache.find? control key with
  | some state =>
    rw [controlState_of_find? henabled hkey hfind, Run.comparisons_mk_append, comparisons_of_key]
    rfl
  | none =>
    rw [controlState_of_not_find? henabled hkey hfind, Run.comparisons_mk_append,
      comparisons_of_key]
    rfl

theorem hits_of_no_key {failure : Failure} (henabled : r.config.cacheEnabled)
    (hkey : (r.cacheKey control settings).outcome = .error failure) :
    (r.controlState control settings).1.hits = [] ∧
      (r.controlState control settings).1.comparisons = [] := by
  rw [controlState_of_no_key henabled hkey]
  exact ⟨hits_of_key r control settings, comparisons_of_key r control settings⟩

end Enabled

end Registry

end VisibilityRules
