import VisibilityRules.Table

/-!
# Lookup, mapping and sorting of tables

Writing to a table repeats no key, and changing the values of a table changes what is found under
each key in the same way. Sorting a table by its keys keeps entries of one key in their order, so it
changes no lookup; where no key is repeated, all orders of the entries are sorted into one table.
-/

namespace VisibilityRules.Table

variable {α β : Type}

def mapValues (f : α → β) (t : Table α) : Table β := t.map fun e => (e.1, f e.2)

@[simp] theorem mapValues_cons (f : α → β) (e : String × α) (t : Table α) :
    mapValues f (e :: t) = (e.1, f e.2) :: mapValues f t := rfl

@[simp] theorem length_mapValues (f : α → β) (t : Table α) :
    (mapValues f t).length = t.length := List.length_map _

theorem get?_mapValues (f : α → β) (t : Table α) (k : String) :
    get? (mapValues f t) k = (get? t k).map f := by
  induction t with
  | nil => rfl
  | cons e rest ih =>
    rw [mapValues_cons, get?, get?, ih]
    split <;> rfl

theorem mem_of_get?_eq_some {t : Table α} {k : String} {v : α} (h : get? t k = some v) :
    (k, v) ∈ t := by
  induction t with
  | nil => simp [get?] at h
  | cons e rest ih =>
    rw [get?] at h
    split at h
    · next hk =>
      rw [← hk, ← Option.some.inj h]
      exact List.mem_cons_self
    · exact List.mem_cons_of_mem _ (ih h)

theorem isSome_get?_iff {t : Table α} {k : String} : (get? t k).isSome ↔ k ∈ keys t := by
  rw [Option.isSome_iff_ne_none, Ne, get?_eq_none_iff, Decidable.not_not]

theorem mem_keys_of_mem {t : Table α} {e : String × α} (h : e ∈ t) : e.1 ∈ keys t :=
  List.mem_map_of_mem h

theorem get?_of_mem {t : Table α} (hnd : (keys t).Nodup) {e : String × α} (h : e ∈ t) :
    get? t e.1 = some e.2 := by
  induction t with
  | nil => simp at h
  | cons d rest ih =>
    have hd : d.1 ∉ keys rest := (List.nodup_cons.mp hnd).1
    have hrest : (keys rest).Nodup := (List.nodup_cons.mp hnd).2
    rcases List.mem_cons.mp h with rfl | hmem
    · simp [get?]
    · have hne : d.1 ≠ e.1 := by
        intro he
        apply hd
        rw [he]
        exact mem_keys_of_mem hmem
      rw [get?, if_neg hne, ih hrest hmem]

theorem nodup_keys_put {t : Table α} (h : (keys t).Nodup) (k : String) (v : α) :
    (keys (put t k v)).Nodup := by
  rw [keys_put]
  split
  · exact h
  · next hk =>
    rw [List.nodup_append]
    refine ⟨h, by simp, ?_⟩
    intro a ha b hb
    rw [List.mem_singleton] at hb
    rintro rfl
    exact hk (hb ▸ ha)

theorem put_ne_nil (t : Table α) (k : String) (v : α) : put t k v ≠ [] := by
  cases t with
  | nil => exact List.cons_ne_nil _ _
  | cons e rest =>
    rw [put]
    split <;> exact List.cons_ne_nil _ _

theorem put_of_not_mem {t : Table α} {k : String} (h : k ∉ keys t) (v : α) :
    put t k v = t ++ [(k, v)] := by
  induction t with
  | nil => rfl
  | cons e rest ih =>
    have hne : k ≠ e.1 := List.ne_of_not_mem_cons h
    have hrest : k ∉ keys rest := List.not_mem_of_not_mem_cons h
    rw [put, if_neg (Ne.symm hne), ih hrest, List.cons_append]

theorem get?_merge (t : Table α) {u : Table α} (hu : (keys u).Nodup) (k : String) :
    get? (merge t u) k = (get? u k).or (get? t k) := by
  induction u generalizing t with
  | nil => rfl
  | cons e rest ih =>
    obtain ⟨hnew, hrest⟩ := List.nodup_cons.mp hu
    have hmerge : merge t (e :: rest) = merge (put t e.1 e.2) rest := rfl
    rw [hmerge, ih _ hrest, get?]
    by_cases hk : e.1 = k
    · subst hk
      rw [(get?_eq_none_iff rest e.1).mpr hnew, if_pos rfl, get?_put_self]
      rfl
    · rw [if_neg hk, get?_put_of_ne _ _ (Ne.symm hk)]

theorem mem_put {t : Table α} {k : String} {v : α} {e : String × α} (h : e ∈ put t k v) :
    e.2 = v ∨ e ∈ t := by
  induction t with
  | nil =>
    rw [put, List.mem_singleton] at h
    exact .inl (by rw [h])
  | cons d rest ih =>
    rw [put] at h
    split at h
    · rcases List.mem_cons.mp h with rfl | hmem
      · exact .inl rfl
      · exact .inr (List.mem_cons_of_mem _ hmem)
    · rcases List.mem_cons.mp h with rfl | hmem
      · exact .inr List.mem_cons_self
      · rcases ih hmem with hv | ht
        · exact .inl hv
        · exact .inr (List.mem_cons_of_mem _ ht)

private theorem insertSorted_perm (k : String) (v : α) (t : Table α) :
    (insertSorted k v t).Perm ((k, v) :: t) := by
  induction t with
  | nil => exact List.Perm.refl _
  | cons e rest ih =>
    rw [insertSorted]
    split
    · exact (ih.cons e).trans (List.Perm.swap _ _ _)
    · exact List.Perm.refl _

theorem sorted_perm (t : Table α) : (sorted t).Perm t := by
  induction t with
  | nil => exact List.Perm.refl _
  | cons e rest ih => exact (insertSorted_perm _ _ _).trans (ih.cons _)

@[simp] theorem length_sorted (t : Table α) : (sorted t).length = t.length :=
  (sorted_perm t).length_eq

/-- Whether no entry has a smaller key than one before it. -/
def Ascending (t : Table α) : Prop := t.Pairwise fun e d => ¬d.1 < e.1

private theorem Ascending.insertSorted {t : Table α} (h : Ascending t) (k : String) (v : α) :
    Ascending (insertSorted k v t) := by
  induction t with
  | nil => simp [Table.insertSorted, Ascending]
  | cons e rest ih =>
    obtain ⟨hfirst, hrest⟩ := List.pairwise_cons.mp h
    rw [Table.insertSorted]
    split
    · next hlt =>
      apply List.Pairwise.cons
      · intro d hd
        rcases List.mem_cons.mp ((insertSorted_perm k v rest).mem_iff.mp hd) with hnew | hold
        · rw [hnew]
          exact String.lt_asymm hlt
        · exact hfirst d hold
      · exact ih hrest
    · next hge =>
      apply List.Pairwise.cons
      · intro d hd
        rcases List.mem_cons.mp hd with hhead | htail
        · rw [hhead]
          exact hge
        · have hle : e.1 ≤ d.1 := String.not_lt.mp (hfirst d htail)
          exact String.not_lt.mpr (String.le_trans (String.not_lt.mp hge) hle)
      · exact h

theorem ascending_sorted (t : Table α) : Ascending (sorted t) := by
  induction t with
  | nil => exact List.Pairwise.nil
  | cons e rest ih => exact ih.insertSorted e.1 e.2

/-- Sorting leaves a table in ascending order as it is. -/
theorem Ascending.sorted_eq {t : Table α} (h : Ascending t) : sorted t = t := by
  induction t with
  | nil => rfl
  | cons e rest ih =>
    obtain ⟨hfirst, hrest⟩ := List.pairwise_cons.mp h
    rw [sorted, ih hrest]
    cases rest with
    | nil => rfl
    | cons d rest => rw [Table.insertSorted, if_neg (hfirst d List.mem_cons_self)]

/-- Where no key is repeated, sorting forgets the order of the entries. -/
theorem sorted_eq_of_perm {t u : Table α} (hnd : (keys t).Nodup) (h : t.Perm u) :
    sorted t = sorted u := by
  have hperm : (sorted t).Perm (sorted u) := (sorted_perm t).trans (h.trans (sorted_perm u).symm)
  refine List.Perm.eq_of_pairwise ?_ (ascending_sorted t) (ascending_sorted u) hperm
  intro e d he hd hle hge
  have hkey : e.1 = d.1 := String.le_antisymm (String.not_lt.mp hle) (String.not_lt.mp hge)
  have hfound : get? t e.1 = some e.2 := get?_of_mem hnd ((sorted_perm t).mem_iff.mp he)
  have hother : get? t d.1 = some d.2 :=
    get?_of_mem hnd (h.mem_iff.mpr ((sorted_perm u).mem_iff.mp hd))
  rw [hkey, hother] at hfound
  exact Prod.ext hkey (Option.some.inj hfound).symm

private theorem get?_insertSorted (k : String) (v : α) (t : Table α) (l : String) :
    get? (insertSorted k v t) l = if k = l then some v else get? t l := by
  induction t with
  | nil => rfl
  | cons e rest ih =>
    rw [insertSorted]
    split
    · next hlt =>
      rw [get?, ih, get?]
      by_cases hl : k = l
      · -- the entry that was passed lies strictly below, so it has another key
        have hne : e.1 ≠ l := by
          intro he
          rw [he, hl] at hlt
          exact String.lt_irrefl l hlt
        simp [hl, hne]
      · simp [hl]
    · rw [get?]

theorem get?_sorted (t : Table α) (k : String) : get? (sorted t) k = get? t k := by
  induction t with
  | nil => rfl
  | cons e rest ih => rw [sorted, get?_insertSorted, ih, get?]

private theorem insertSorted_mapValues (f : α → β) (k : String) (v : α) (t : Table α) :
    insertSorted k (f v) (mapValues f t) = mapValues f (insertSorted k v t) := by
  induction t with
  | nil => rfl
  | cons e rest ih =>
    rw [mapValues_cons, insertSorted, insertSorted]
    split
    · rw [mapValues_cons, ih]
    · rfl

theorem sorted_mapValues (f : α → β) (t : Table α) :
    sorted (mapValues f t) = mapValues f (sorted t) := by
  induction t with
  | nil => rfl
  | cons e rest ih => rw [mapValues_cons, sorted, ih, insertSorted_mapValues, sorted]

/-! ### Entries under given keys -/

/-- The entries that a lookup finds under given keys, in the order of the keys. -/
def found (lookup : String → Option α) (ks : List String) : Table α :=
  ks.filterMap fun k => (lookup k).map fun v => (k, v)

theorem found_cons (lookup : String → Option α) (k : String) (ks : List String) :
    found lookup (k :: ks) =
      ((lookup k).map fun v => (k, v)).toList ++ found lookup ks := by
  unfold found
  cases h : lookup k <;> simp [h]

theorem get?_found (lookup : String → Option α) (ks : List String) (k : String) :
    get? (found lookup ks) k = if k ∈ ks then lookup k else none := by
  induction ks with
  | nil => rfl
  | cons first rest ih =>
    rw [found_cons]
    by_cases hfirst : first = k
    · subst hfirst
      cases h : lookup first with
      | none => simpa [h] using ih
      | some v => simp [get?]
    · have hmem : k ∈ first :: rest ↔ k ∈ rest := by simp [Ne.symm hfirst]
      cases h : lookup first with
      | none => simpa [hmem] using ih
      | some v => simpa [get?, hfirst, hmem] using ih

theorem keys_found (lookup : String → Option α) (ks : List String) :
    keys (found lookup ks) = ks.filter fun k => (lookup k).isSome := by
  induction ks with
  | nil => rfl
  | cons k rest ih =>
    rw [found_cons]
    cases h : lookup k <;> simpa [keys, h] using ih

theorem mapValues_found (f : α → β) (lookup : String → Option α) (ks : List String) :
    mapValues f (found lookup ks) = found (fun k => (lookup k).map f) ks := by
  induction ks with
  | nil => rfl
  | cons k rest ih =>
    rw [found_cons, found_cons, ← ih]
    cases h : lookup k <;> simp [mapValues]

theorem found_congr {lookup lookup' : String → Option α} {ks : List String}
    (h : ∀ k ∈ ks, lookup k = lookup' k) : found lookup ks = found lookup' ks := by
  induction ks with
  | nil => rfl
  | cons k rest ih =>
    have hrest := ih fun other hother => h other (List.mem_cons_of_mem _ hother)
    rw [found_cons, found_cons, h k List.mem_cons_self, hrest]

/-- Under the same keys, in any order, the same is found. -/
theorem sorted_found_congr {lookup lookup' : String → Option α} {ks ks' : List String}
    (hnd : ks.Nodup) (hkeys : ks.Perm ks') (h : ∀ k ∈ ks, lookup k = lookup' k) :
    sorted (found lookup ks) = sorted (found lookup' ks') := by
  have hunique : (keys (found lookup' ks)).Nodup := by
    rw [keys_found]
    exact hnd.filter _
  rw [found_congr h]
  exact sorted_eq_of_perm hunique (hkeys.filterMap _)

end VisibilityRules.Table
