import Mathlib
import VisibilityRules.Proofs.Dependency.Extraction
import VisibilityRules.Proofs.Registry.History

/-!
# The inverse of a dependency tree

The controls that depend on a setting are the controls with a rule that names the setting, in the
order of the registry. Both the tree and its inverse read a name as its part before a bracket.
-/

namespace VisibilityRules

theorem baseName?_eq_some_iff (name setting : String) :
    baseName? name = some setting ↔
      name.toList.takeWhile (· ≠ '[') ≠ [] ∧
        String.ofList (name.toList.takeWhile (· ≠ '[')) = setting := by
  unfold baseName?
  cases name.toList.takeWhile (· ≠ '[') <;> simp

namespace Dependency

private def dependentsIn (dependents : Table (List String)) (setting : String) : List String :=
  (Table.get? dependents setting).getD []

private theorem dependentsIn_addDependent (control : String) (dependents : Table (List String))
    (named setting : String) :
    dependentsIn (addDependent control dependents named) setting =
      dependentsIn dependents setting ++ if named = setting then [control] else [] := by
  unfold dependentsIn addDependent
  by_cases h : named = setting
  · subst h
    simp
  · simp [h, Table.get?_put_of_ne _ _ (Ne.symm h)]

private theorem dependentsIn_foldl_names (control : String) (names : List String)
    (dependents : Table (List String)) (setting : String) :
    dependentsIn (names.foldl (addDependent control) dependents) setting =
      dependentsIn dependents setting ++
        (names.filter (· = setting)).map fun _ => control := by
  induction names generalizing dependents with
  | nil => simp
  | cons named rest ih =>
    rw [List.foldl_cons, ih, dependentsIn_addDependent, List.append_assoc]
    by_cases h : named = setting <;> simp [h]

private theorem dependentsIn_foldl_tree (tree dependents : Table (List String)) (setting : String) :
    dependentsIn (tree.foldl (fun ds e => e.2.foldl (addDependent e.1) ds) dependents) setting =
      dependentsIn dependents setting ++
        tree.flatMap fun e => (e.2.filter (· = setting)).map fun _ => e.1 := by
  induction tree generalizing dependents with
  | nil => simp
  | cons e rest ih =>
    rw [List.foldl_cons, ih, dependentsIn_foldl_names, List.flatMap_cons, List.append_assoc]

/-- Each control of a tree stands under a setting as often as the tree lists the setting for it. -/
theorem get?_invert (tree : Table (List String)) (setting : String) :
    (Table.get? (invert tree) setting).getD [] =
      tree.flatMap fun e => (e.2.filter (· = setting)).map fun _ => e.1 := by
  change dependentsIn (invert tree) setting = _
  rw [invert, dependentsIn_foldl_tree]
  rfl

theorem mem_ofRules (setting : String) (rules : List Rule) :
    setting ∈ ofRules rules ↔ ∃ name ∈ leafNames rules, baseName? name = some setting := by
  rw [ofRules, mem_distinct, baseNames_eq, List.mem_filterMap]

private theorem filter_ofRules (rules : List Rule) (setting : String) :
    (ofRules rules).filter (· = setting) = if setting ∈ ofRules rules then [setting] else [] := by
  have hnd : (ofRules rules).Nodup := nodup_distinct _
  rw [List.filter_eq]
  by_cases h : setting ∈ ofRules rules
  · rw [if_pos h, List.count_eq_one_of_mem hnd h]
    rfl
  · rw [if_neg h, List.count_eq_zero_of_not_mem h]
    rfl

theorem tree_cons (e : String × List Rule) (rules : Table (List Rule)) :
    tree (e :: rules) = (if ofRules e.2 = [] then [] else [(e.1, ofRules e.2)]) ++ tree rules := by
  unfold tree
  rw [List.filterMap_cons]
  cases h : ofRules e.2 <;> simp [h]

end Dependency

namespace Registry

open Dependency

theorem dependentsOf_eq (r : Registry) (setting : String) :
    r.dependentsOf setting =
      (r.rules.filter fun e => setting ∈ ofRules e.2).map Prod.fst := by
  rw [dependentsOf, get?_invert, dependencyTree]
  induction r.rules with
  | nil => rfl
  | cons e rest ih =>
    have hnames : ((ofRules e.2).filter (· = setting)).map (fun _ => e.1) =
        if setting ∈ ofRules e.2 then [e.1] else [] := by
      rw [filter_ofRules]
      split <;> rfl
    rw [tree_cons, List.flatMap_append, ih, List.filter_cons]
    by_cases h : setting ∈ ofRules e.2
    · have hne : ofRules e.2 ≠ [] := List.ne_nil_of_mem h
      rw [if_pos h] at hnames
      rw [if_neg hne, List.flatMap_singleton, hnames, if_pos (decide_eq_true h)]
      rfl
    · rw [if_neg h] at hnames
      have hfalse : ¬decide (setting ∈ ofRules e.2) = true := by simpa using h
      rw [if_neg hfalse]
      split
      · rfl
      · rw [List.flatMap_singleton, hnames]
        rfl

theorem Tidy.mem_dependentsOf_iff {r : Registry} (h : r.Tidy) (control setting : String) :
    control ∈ r.dependentsOf setting ↔
      ∃ name ∈ leafNames (r.rulesOf control), baseName? name = some setting := by
  rw [dependentsOf_eq, ← mem_ofRules, List.mem_map]
  constructor
  · rintro ⟨e, he, rfl⟩
    rw [List.mem_filter] at he
    rw [h.mem_rules he.1]
    exact of_decide_eq_true he.2
  · intro hmem
    have hne : r.rulesOf control ≠ [] := by
      intro hnil
      rw [hnil] at hmem
      simp [mem_ofRules, leafNames] at hmem
    obtain ⟨e, he, rfl⟩ := List.mem_map.mp ((h.mem_keys_iff control).mpr hne)
    rw [h.mem_rules he] at hmem
    exact ⟨e, List.mem_filter.mpr ⟨he, decide_eq_true hmem⟩, rfl⟩

end Registry

end VisibilityRules
