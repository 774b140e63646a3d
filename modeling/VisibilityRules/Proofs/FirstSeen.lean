import Mathlib.Data.List.Basic
import VisibilityRules.Table

/-!
# Lists in order of first occurrence

What it means that a list has the things that occur in another one, each once and in the order in
which they first occur. There is one such list, and taking the distinct members finds it.
-/

namespace VisibilityRules

variable {α : Type}

/-- Whether a list has what the members of another are related to, each once and in the order in
which a member is first related to it. -/
structure FirstSeen (rel : α → String → Prop) [∀ x y, Decidable (rel x y)] (xs : List α)
    (ys : List String) : Prop where
  mem_iff : ∀ y, y ∈ ys ↔ ∃ x ∈ xs, rel x y
  ordered : ys.Pairwise fun y z => xs.findIdx (rel · y) < xs.findIdx (rel · z)

namespace FirstSeen

variable {rel rel' : α → String → Prop} [∀ x y, Decidable (rel x y)] [∀ x y, Decidable (rel' x y)]
  {xs : List α} {ys zs : List String}

theorem nodup (h : FirstSeen rel xs ys) : ys.Nodup := by
  refine h.ordered.imp ?_
  rintro y _ hlt rfl
  exact Nat.lt_irrefl _ hlt

theorem unique (h : FirstSeen rel xs ys) (h' : FirstSeen rel xs zs) : ys = zs := by
  have hperm : ys.Perm zs := (List.perm_ext_iff_of_nodup h.nodup h'.nodup).mpr fun y =>
    (h.mem_iff y).trans (h'.mem_iff y).symm
  exact hperm.eq_of_pairwise (fun _ _ _ _ hlt hgt => absurd hgt (Nat.lt_asymm hlt)) h.ordered
    h'.ordered

theorem congr (hrel : ∀ x y, rel x y ↔ rel' x y) (h : FirstSeen rel xs ys) :
    FirstSeen rel' xs ys := by
  obtain ⟨hmem, hordered⟩ := h
  simp only [hrel] at hmem hordered
  exact ⟨hmem, hordered⟩

theorem distinct (f : α → Option String) (xs : List α) :
    FirstSeen (fun x y => f x = some y) xs (distinct (xs.filterMap f)) := by
  refine ⟨fun y => by rw [mem_distinct, List.mem_filterMap], ?_⟩
  induction xs with
  | nil => exact .nil
  | cons x xs ih =>
    cases hx : f x with
    | none =>
      rw [List.filterMap_cons_none hx]
      refine ih.imp fun hlt => ?_
      simpa [List.findIdx_cons, hx] using hlt
    | some first =>
      rw [List.filterMap_cons_some hx, VisibilityRules.distinct, List.pairwise_cons]
      constructor
      · intro z hz
        have hne : first ≠ z := by
          rintro rfl
          simp at hz
        simp [List.findIdx_cons, hx, hne]
      · -- what comes later in the list is not the first member, so all places move by one
        refine (List.Pairwise.filter _ ih).imp_of_mem fun hy hz hlt => ?_
        have hne {y : String}
            (hy : y ∈ (VisibilityRules.distinct (xs.filterMap f)).filter (· ≠ first)) :
            first ≠ y := by
          rintro rfl
          simp at hy
        simpa [List.findIdx_cons, hx, hne hy, hne hz] using hlt

theorem distinct_map (f : α → String) (xs : List α) :
    FirstSeen (fun x y => f x = y) xs (VisibilityRules.distinct (xs.map f)) := by
  rw [← List.filterMap_eq_map']
  exact (distinct (fun x => some (f x)) xs).congr fun x y => by simp

end FirstSeen

/-! ### Distinct members -/

theorem distinct_sublist (xs : List String) : (distinct xs).Sublist xs := by
  induction xs with
  | nil => exact .slnil
  | cons x xs ih => exact (List.filter_sublist.trans ih).cons_cons x

theorem distinct_of_nodup {xs : List String} (h : xs.Nodup) : distinct xs = xs := by
  induction xs with
  | nil => rfl
  | cons x xs ih =>
    obtain ⟨hx, hxs⟩ := List.nodup_cons.mp h
    rw [distinct, ih hxs, List.filter_eq_self.mpr]
    intro y hy
    rw [decide_eq_true_eq]
    rintro rfl
    exact hx hy

theorem distinct_eq_singleton_iff {xs : List String} {x : String} :
    distinct xs = [x] ↔ xs ≠ [] ∧ ∀ y ∈ xs, y = x := by
  constructor
  · intro h
    refine ⟨?_, fun y hy => ?_⟩
    · rintro rfl
      cases h
    · rw [← mem_distinct, h, List.mem_singleton] at hy
      exact hy
  · rintro ⟨hne, hall⟩
    obtain ⟨y, ys, rfl⟩ := List.exists_cons_of_ne_nil hne
    obtain ⟨rfl, hys⟩ := List.forall_mem_cons.mp hall
    rw [distinct, List.filter_eq_nil_iff.mpr]
    intro z hz
    simpa using hys z ((mem_distinct z ys).mp hz)

theorem distinct_concat (xs : List String) (x : String) :
    distinct (xs ++ [x]) = if x ∈ xs then distinct xs else distinct xs ++ [x] := by
  induction xs with
  | nil => rfl
  | cons y ys ih =>
    rw [List.cons_append, distinct, ih, distinct]
    by_cases hy : x = y
    · subst hy
      by_cases hmem : x ∈ ys <;> simp [hmem]
    · by_cases hmem : x ∈ ys <;> simp [hmem, hy]

theorem distinct_filter (p : String → Bool) (xs : List String) :
    distinct (xs.filter p) = (distinct xs).filter p := by
  induction xs with
  | nil => rfl
  | cons x xs ih =>
    by_cases hx : p x
    · rw [List.filter_cons_of_pos hx, distinct, distinct, List.filter_cons_of_pos hx, ih,
        List.filter_comm]
    · have hkeep : ∀ y ∈ (distinct xs).filter p, decide (y ≠ x) = true := by
        intro y hy
        rw [decide_eq_true_eq]
        rintro rfl
        exact hx (List.mem_filter.mp hy).2
      rw [List.filter_cons_of_neg hx, distinct, List.filter_cons_of_neg hx, ih, List.filter_comm,
        List.filter_eq_self.mpr hkeep]

end VisibilityRules
