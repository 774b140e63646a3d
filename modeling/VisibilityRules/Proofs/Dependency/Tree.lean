import VisibilityRules.Proofs.Dependency.Inverse
import VisibilityRules.Proofs.Registry.Arrival

/-!
# What the dependency tree lists

The tree has an entry for each control with a leaf whose name has a base, and the entry lists the
bases of the control's leaves as they first occur. Entries, and the dependents of each setting, come
in the order in which the controls arrived.
-/

namespace VisibilityRules

/-! ### Bases of names -/

/-- Whether a text is what a name begins with, all of it or up to its first bracket, and not
empty. -/
def IsBase (name base : String) : Prop :=
  base ≠ "" ∧ '[' ∉ base.toList ∧ (name = base ∨ ∃ rest, name = base ++ "[" ++ rest)

theorem takeWhile_ne_bracket_eq_iff {cs base : List Char} :
    cs.takeWhile (· ≠ '[') = base ↔ '[' ∉ base ∧ (cs = base ∨ ∃ rest, cs = base ++ '[' :: rest) := by
  constructor
  · rintro rfl
    refine ⟨fun hmem => by simpa using List.mem_takeWhile_imp hmem, ?_⟩
    have hsplit := List.takeWhile_append_dropWhile (p := (· ≠ '[')) (l := cs)
    have hhead := List.head?_dropWhile_not (· ≠ '[') cs
    cases hdrop : cs.dropWhile (· ≠ '[') with
    | nil =>
      rw [hdrop, List.append_nil] at hsplit
      exact .inl hsplit.symm
    | cons c rest =>
      rw [hdrop] at hsplit hhead
      have hc : c = '[' := by simpa using hhead
      exact .inr ⟨rest, hc ▸ hsplit.symm⟩
  · rintro ⟨hbase, hcs⟩
    have hall : ∀ c ∈ base, decide (c ≠ '[') = true := by
      intro c hc
      rw [decide_eq_true_eq]
      rintro rfl
      exact hbase hc
    rcases hcs with rfl | ⟨rest, rfl⟩
    · exact List.takeWhile_eq_self_iff.mpr hall
    · rw [List.takeWhile_append_of_pos hall, List.takeWhile_cons_of_neg (by simp), List.append_nil]

theorem baseName?_eq_some_iff_isBase (name base : String) :
    baseName? name = some base ↔ IsBase name base := by
  have hchars : baseName? name = some base ↔
      base ≠ "" ∧ name.toList.takeWhile (· ≠ '[') = base.toList := by
    rw [baseName?_eq_some_iff, ← String.toList_inj, String.toList_ofList]
    refine and_congr_left fun h => ?_
    rw [h, Ne, Ne, String.toList_eq_nil_iff]
  have hname : (∃ rest, name.toList = base.toList ++ '[' :: rest) ↔
      ∃ rest, name = base ++ "[" ++ rest := by
    constructor
    · rintro ⟨rest, h⟩
      refine ⟨String.ofList rest, ?_⟩
      rw [← String.toList_inj, h]
      simp
    · rintro ⟨rest, rfl⟩
      exact ⟨rest.toList, by simp⟩
  rw [hchars, IsBase, takeWhile_ne_bracket_eq_iff, hname, String.toList_inj]

instance (name base : String) : Decidable (IsBase name base) :=
  decidable_of_iff _ (baseName?_eq_some_iff_isBase name base)

namespace Dependency

theorem firstSeen_ofRules (rules : List Rule) :
    FirstSeen IsBase (leafNames rules) (ofRules rules) := by
  rw [ofRules, baseNames_eq]
  exact (FirstSeen.distinct baseName? (leafNames rules)).congr baseName?_eq_some_iff_isBase

theorem firstSeen_iff_eq_ofRules {rules : List Rule} {names : List String} :
    FirstSeen IsBase (leafNames rules) names ↔ names = ofRules rules := by
  constructor
  · exact fun h => h.unique (firstSeen_ofRules rules)
  · rintro rfl
    exact firstSeen_ofRules rules

theorem mem_tree_iff {rules : Table (List Rule)} {control : String} {names : List String} :
    (control, names) ∈ tree rules ↔
      names ≠ [] ∧ ∃ rs, (control, rs) ∈ rules ∧ names = ofRules rs := by
  rw [tree, List.mem_filterMap]
  constructor
  · rintro ⟨⟨_, rs⟩, hmem, hentry⟩
    dsimp only at hentry
    split at hentry
    · cases hentry
    · next hne =>
      cases hentry
      exact ⟨hne, rs, hmem, rfl⟩
  · rintro ⟨hne, rs, hmem, rfl⟩
    refine ⟨(control, rs), hmem, ?_⟩
    dsimp only
    split
    · next hnil => exact absurd hnil hne
    · rfl

theorem keys_tree_sublist (rules : Table (List Rule)) :
    (Table.keys (tree rules)).Sublist (Table.keys rules) := by
  induction rules with
  | nil => exact .slnil
  | cons e rest ih =>
    rw [tree_cons]
    split
    · exact ih.cons e.1
    · exact ih.cons_cons e.1

end Dependency

namespace Registry

open Dependency

theorem Tidy.mem_dependencyTree_iff {r : Registry} (h : r.Tidy) {control : String}
    {names : List String} :
    (control, names) ∈ r.dependencyTree ↔ names ≠ [] ∧ names = ofRules (r.rulesOf control) := by
  rw [dependencyTree, mem_tree_iff]
  refine and_congr_right fun hne => ?_
  constructor
  · rintro ⟨rs, hrs, rfl⟩
    rw [h.mem_rules hrs]
  · rintro rfl
    have hrules : r.rulesOf control ≠ [] := by
      intro hnil
      rw [hnil] at hne
      exact hne rfl
    obtain ⟨e, he, rfl⟩ := List.mem_map.mp ((h.mem_keys_iff control).mpr hrules)
    exact ⟨e.2, he, by rw [h.mem_rules he]⟩

theorem Tidy.mem_dependentsOf_iff_tree {r : Registry} (h : r.Tidy) (control setting : String) :
    control ∈ r.dependentsOf setting ↔
      ∃ names, (control, names) ∈ r.dependencyTree ∧ setting ∈ names := by
  rw [h.mem_dependentsOf_iff, ← mem_ofRules]
  simp only [h.mem_dependencyTree_iff]
  constructor
  · exact fun hmem => ⟨_, ⟨List.ne_nil_of_mem hmem, rfl⟩, hmem⟩
  · rintro ⟨_, ⟨-, rfl⟩, hmem⟩
    exact hmem

theorem Tidy.mem_keys_dependencyTree_iff {r : Registry} (h : r.Tidy) (control : String) :
    control ∈ Table.keys r.dependencyTree ↔
      ∃ name ∈ leafNames (r.rulesOf control), ∃ base, IsBase name base := by
  have hsome : ofRules (r.rulesOf control) ≠ [] ↔
      ∃ name ∈ leafNames (r.rulesOf control), ∃ base, IsBase name base := by
    constructor
    · intro hne
      obtain ⟨base, hbase⟩ := List.exists_mem_of_ne_nil _ hne
      obtain ⟨name, hname, h⟩ := ((firstSeen_ofRules _).mem_iff base).mp hbase
      exact ⟨name, hname, base, h⟩
    · rintro ⟨name, hname, base, h⟩
      exact List.ne_nil_of_mem (((firstSeen_ofRules _).mem_iff base).mpr ⟨name, hname, h⟩)
  rw [← hsome, Table.keys, List.mem_map]
  constructor
  · rintro ⟨⟨_, names⟩, he, rfl⟩
    obtain ⟨hne, rfl⟩ := h.mem_dependencyTree_iff.mp he
    exact hne
  · exact fun hne => ⟨_, h.mem_dependencyTree_iff.mpr ⟨hne, rfl⟩, rfl⟩

/-- After all sequences of operations, the dependency tree has an entry exactly for the controls
with a leaf that has a base, and the entry lists these bases as they first occur in the rules that
stand. The dependents of a setting are the controls whose entries list it. The entries and the
dependents are ordered by the first rule of the control that stands. -/
theorem dependencyTree_exact (evaluator config : Option Configuration) (ops : List Operation) :
    let r := (new evaluator config).after ops
    let names := fun control => leafNames ((standing ops).filter (·.control = control))
    let arrival := fun control => (standing ops).findIdx (·.control = control)
    (∀ control, control ∈ Table.keys r.dependencyTree ↔
      ∃ name ∈ names control, ∃ base, IsBase name base) ∧
    (∀ control bases, (control, bases) ∈ r.dependencyTree ↔
      bases ≠ [] ∧ FirstSeen IsBase (names control) bases) ∧
    ((Table.keys r.dependencyTree).Pairwise fun c d => arrival c < arrival d) ∧
    ∀ setting,
      (∀ control, control ∈ r.dependentsOf setting ↔
        ∃ bases, (control, bases) ∈ r.dependencyTree ∧ setting ∈ bases) ∧
      (r.dependentsOf setting).Pairwise fun c d => arrival c < arrival d := by
  intro r names arrival
  have htidy : r.Tidy := tidy_after evaluator config ops
  have hrules (control : String) :
      r.rulesOf control = (standing ops).filter (·.control = control) := by
    rw [rulesOf_after, history_eq_filter_standing]
  have hordered : (Table.keys r.rules).Pairwise fun c d => arrival c < arrival d :=
    (firstSeen_keys evaluator config ops).ordered
  refine ⟨fun control => ?_, fun control bases => ?_, ?_, fun setting => ⟨fun control => ?_, ?_⟩⟩
  · rw [htidy.mem_keys_dependencyTree_iff, hrules]
  · rw [htidy.mem_dependencyTree_iff, hrules, firstSeen_iff_eq_ofRules]
  · exact hordered.sublist (keys_tree_sublist r.rules)
  · exact htidy.mem_dependentsOf_iff_tree control setting
  · rw [dependentsOf_eq]
    exact hordered.sublist (List.filter_sublist.map _)

/-- A control that is cleared and registered again comes last. -/
example :
    ((new none none).after [.hideWhere "panel" "image[url]" .null, .hideWhere "title" "image" .null,
      .clearControl "panel", .hideWhere "panel" "image" .null]).dependentsOf "image" =
      ["title", "panel"] := by
  decide +kernel

end Registry

end VisibilityRules
