import Mathlib.Data.List.Nodup
import VisibilityRules.Cache.State
import VisibilityRules.Proofs.Run
import VisibilityRules.Proofs.Table

/-!
# What a cache holds

The three ways to change a cache, by the state that is found afterwards. The size of a cache is the
number of different controls and keys under which a state is found.
-/

namespace VisibilityRules.StateCache

@[simp] theorem find?_empty (control key : String) : empty.find? control key = none := rfl

theorem outcome_get {ε : Type} (cache : StateCache) (control key : String) :
    (cache.get control key : Run ε (Option ControlState)).outcome =
      .ok (cache.find? control key) := by
  unfold get
  cases cache.find? control key <;> rfl

theorem outcome_clear {ε : Type} (cache : StateCache) :
    (cache.clear : Run ε StateCache).outcome = .ok .empty := by
  unfold clear
  cases cache.controls <;> rfl

theorem find?_put (cache : StateCache) (control key : String) (state : ControlState)
    (other otherKey : String) :
    (cache.put control key state).find? other otherKey =
      if other = control ∧ otherKey = key then some state else cache.find? other otherKey := by
  unfold find? put
  by_cases hcontrol : other = control
  · subst hcontrol
    simp only [Table.get?_put_self, Option.bind_some, true_and]
    by_cases hkey : otherKey = key
    · subst hkey
      rw [Table.get?_put_self, if_pos rfl]
    · rw [Table.get?_put_of_ne _ _ hkey, if_neg hkey]
      cases Table.get? cache.controls other <;> rfl
  · simp only [hcontrol, false_and, if_false, Table.get?_put_of_ne _ _ hcontrol]

theorem find?_discard (cache : StateCache) (control other key : String) :
    (cache.discard control).find? other key =
      if other = control then none else cache.find? other key := by
  unfold find? discard
  by_cases hcontrol : other = control
  · subst hcontrol
    simp
  · simp only [hcontrol, if_false, Table.get?_remove_of_ne _ hcontrol]

/-! ### Size -/

/-- The controls and keys under which a cache lists states. -/
def places (cache : StateCache) : List (String × String) :=
  cache.controls.flatMap fun e => (Table.keys e.2).map fun key => (e.1, key)

theorem length_places (cache : StateCache) : cache.places.length = cache.size := by
  unfold places size
  induction cache.controls with
  | nil => rfl
  | cons e rest ih =>
    rw [List.flatMap_cons, List.length_append, ih, List.length_map, Table.keys, List.length_map,
      List.foldr_cons]

/-- A cache lists each control once, and each key of a control once. -/
structure Tidy (cache : StateCache) : Prop where
  controls : (Table.keys cache.controls).Nodup
  keys : ∀ e ∈ cache.controls, (Table.keys e.2).Nodup

theorem Tidy.empty : StateCache.empty.Tidy := ⟨List.nodup_nil, by simp [StateCache.empty]⟩

theorem Tidy.put {cache : StateCache} (h : cache.Tidy) (control key : String)
    (state : ControlState) : (cache.put control key state).Tidy := by
  refine ⟨Table.nodup_keys_put h.controls _ _, ?_⟩
  intro e he
  rcases Table.mem_put he with hnew | hold
  · have hstates : (Table.keys ((Table.get? cache.controls control).getD [])).Nodup := by
      cases hget : Table.get? cache.controls control with
      | none => exact List.nodup_nil
      | some states => exact h.keys _ (Table.mem_of_get?_eq_some hget)
    rw [hnew]
    exact Table.nodup_keys_put hstates _ _
  · exact h.keys e hold

theorem Tidy.discard {cache : StateCache} (h : cache.Tidy) (control : String) :
    (cache.discard control).Tidy := by
  refine ⟨h.controls.sublist (List.filter_sublist.map _), ?_⟩
  intro e he
  exact h.keys e (List.mem_of_mem_filter he)

theorem Tidy.mem_places_iff {cache : StateCache} (h : cache.Tidy) (control key : String) :
    (control, key) ∈ cache.places ↔ (cache.find? control key).isSome := by
  unfold places find?
  constructor
  · intro hmem
    obtain ⟨e, he, hplace⟩ := List.mem_flatMap.mp hmem
    obtain ⟨_, hkey, heq⟩ := List.mem_map.mp hplace
    obtain ⟨rfl, rfl⟩ := Prod.mk.inj heq
    rw [Table.get?_of_mem h.controls he, Option.bind_some, Table.isSome_get?_iff]
    exact hkey
  · intro hfound
    cases hget : Table.get? cache.controls control with
    | none => simp [hget] at hfound
    | some states =>
      rw [hget, Option.bind_some, Table.isSome_get?_iff] at hfound
      exact List.mem_flatMap.mpr
        ⟨_, Table.mem_of_get?_eq_some hget, List.mem_map_of_mem hfound⟩

theorem Tidy.nodup_places {cache : StateCache} (h : cache.Tidy) : cache.places.Nodup := by
  rw [places, List.nodup_flatMap]
  constructor
  · intro e he
    exact (h.keys e he).map fun _ _ heq => (Prod.mk.inj heq).2
  · have hdiffer := List.pairwise_map.mp h.controls
    apply hdiffer.imp
    intro e d hne place he hd
    obtain ⟨_, _, rfl⟩ := List.mem_map.mp he
    obtain ⟨_, _, heq⟩ := List.mem_map.mp hd
    exact hne (Prod.mk.inj heq).1.symm

end VisibilityRules.StateCache
