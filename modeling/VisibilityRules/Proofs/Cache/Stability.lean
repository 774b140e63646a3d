import VisibilityRules.Proofs.Cache.Key

/-!
# Keys do not depend on the order of arrival

Settings that are the same up to the order in which entries arrived, at any depth, have the same
key. The key of the settings with given names depends on which names these are, and on the values
that are found under them.
-/

namespace VisibilityRules

namespace Value

mutual
/-- Values that are the same up to the order in which the entries of their mappings arrived, at any
depth. No key of a mapping comes twice. -/
inductive Reordered : Value → Value → Prop
  | refl (v : Value) : Reordered v v
  | list {xs ys : List Value} (items : AllReordered xs ys) : Reordered (.list xs) (.list ys)
  | tuple {xs ys : List Value} (items : AllReordered xs ys) : Reordered (.tuple xs) (.tuple ys)
  | map {xs ys zs : List (String × Value)} (unique : (Table.keys xs).Nodup) (order : xs.Perm ys)
      (entries : EntriesReordered ys zs) : Reordered (.map xs) (.map zs)
inductive AllReordered : List Value → List Value → Prop
  | nil : AllReordered [] []
  | cons {v w : Value} {xs ys : List Value} (head : Reordered v w) (tail : AllReordered xs ys) :
      AllReordered (v :: xs) (w :: ys)
inductive EntriesReordered : List (String × Value) → List (String × Value) → Prop
  | nil : EntriesReordered [] []
  | cons {key : String} {v w : Value} {xs ys : List (String × Value)} (head : Reordered v w)
      (tail : EntriesReordered xs ys) : EntriesReordered ((key, v) :: xs) ((key, w) :: ys)
end

mutual
theorem Reordered.normal_eq {v w : Value} : Reordered v w → normal v = normal w
  | .refl _ => rfl
  | .list items => by rw [normal_list, normal_list, items.map_normal_eq]
  | .tuple items => by rw [normal_tuple, normal_tuple, items.map_normal_eq]
  | .map unique order entries => by
    rw [normal_map, normal_map, Table.sorted_eq_of_perm unique order, ← Table.sorted_mapValues,
      ← Table.sorted_mapValues, entries.mapValues_normal_eq]
theorem AllReordered.map_normal_eq {xs ys : List Value} :
    AllReordered xs ys → xs.map normal = ys.map normal
  | .nil => rfl
  | .cons head tail => by rw [List.map_cons, List.map_cons, head.normal_eq, tail.map_normal_eq]
theorem EntriesReordered.mapValues_normal_eq {xs ys : List (String × Value)} :
    EntriesReordered xs ys → Table.mapValues normal xs = Table.mapValues normal ys
  | .nil => rfl
  | .cons head tail => by
    rw [Table.mapValues_cons, Table.mapValues_cons, head.normal_eq, tail.mapValues_normal_eq]
end

theorem Reordered.canonical_eq {v w : Value} (h : Reordered v w) : canonical v = canonical w := by
  rw [← canonical_normal v, ← canonical_normal w, h.normal_eq]

theorem Reordered.withinDigitLimit_eq {v w : Value} (h : Reordered v w) :
    v.withinDigitLimit = w.withinDigitLimit := by
  rw [← withinDigitLimit_normal v, ← withinDigitLimit_normal w, h.normal_eq]

private theorem map_canonical_eq {v w : Option Value} (h : Option.Rel Reordered v w) :
    v.map canonical = w.map canonical := by
  cases h with
  | some hvalue => rw [Option.map_some, Option.map_some, hvalue.canonical_eq]
  | none => rfl

private theorem all_withinDigitLimit_iff {v w : Option Value} (h : Option.Rel Reordered v w) :
    (∀ x ∈ v, x.withinDigitLimit) ↔ ∀ x ∈ w, x.withinDigitLimit := by
  cases h with
  | some hvalue => simp [hvalue.withinDigitLimit_eq]
  | none => rfl

end Value

namespace Settings

open Value

/-- The text of the settings with given names shows which names these are and the texts of the
values under them, and nothing else. -/
theorem snapshotText_restrict_congr {s t : Settings} {names names' : List String}
    (hnames : ∀ name, name ∈ names ↔ name ∈ names')
    (h : ∀ name ∈ names,
      (Table.get? s name).map canonical = (Table.get? t name).map canonical) :
    (s.restrict names).snapshotText = (t.restrict names').snapshotText := by
  have hperm : (distinct names).Perm (distinct names') := by
    rw [List.perm_ext_iff_of_nodup (nodup_distinct names) (nodup_distinct names')]
    simpa using hnames
  have hfound : ∀ name ∈ distinct names,
      (Table.get? s name).map canonical = (Table.get? t name).map canonical := by
    intro name hname
    rw [mem_distinct] at hname
    exact h name hname
  rw [snapshotText, snapshotText, canonical_map, canonical_map, writtenEntries, writtenEntries,
    restrict_eq, restrict_eq, Table.mapValues_found, Table.mapValues_found,
    Table.sorted_found_congr (nodup_distinct names) hperm hfound]

/-- Keys are stable. The key of all settings is the same in whatever order entries arrived, at any
depth. The key of the settings with given names is the same for all lists of the same names, and for
all settings that hold the same values under these names up to that order. -/
theorem keys_ignore_arrival :
    (∀ s t : Settings, Reordered (.map s) (.map t) → t.snapshotKey = s.snapshotKey) ∧
    ∀ (s t : Settings) (names names' : List String), (∀ name, name ∈ names ↔ name ∈ names') →
      (∀ name ∈ names, Option.Rel Reordered (Table.get? s name) (Table.get? t name)) →
      s.dependenciesKey names = t.dependenciesKey names' := by
  refine ⟨?_, ?_⟩
  · intro s t h
    rw [snapshotKey, snapshotKey, withinDigitLimit, withinDigitLimit, snapshotText, snapshotText,
      h.canonical_eq, h.withinDigitLimit_eq]
  · intro s t names names' hnames h
    have htexts : ∀ name ∈ names,
        (Table.get? s name).map canonical = (Table.get? t name).map canonical :=
      fun name hname => map_canonical_eq (h name hname)
    have hwithin : (s.restrict names).withinDigitLimit = (t.restrict names').withinDigitLimit := by
      rw [Bool.eq_iff_iff, withinDigitLimit_restrict_iff, withinDigitLimit_restrict_iff]
      simp only [← hnames]
      exact forall₂_congr fun name hname => all_withinDigitLimit_iff (h name hname)
    rw [dependenciesKey, dependenciesKey, snapshotKey, snapshotKey, hwithin,
      snapshotText_restrict_congr hnames htexts]

theorem image_and_mode_reordered :
    let s : Settings :=
      [("mode", .text "flat"), ("image", .tuple [.map [("url", .null), ("width", .int 5)]])]
    let t : Settings :=
      [("image", .tuple [.map [("width", .int 5), ("url", .null)]]), ("mode", .text "flat")]
    t.snapshotKey = s.snapshotKey ∧
      s.dependenciesKey ["mode", "image", "mode"] = t.dependenciesKey ["image", "mode"] := by
  intro s t
  have himage : Reordered (.tuple [.map [("url", .null), ("width", .int 5)]])
      (.tuple [.map [("width", .int 5), ("url", .null)]]) :=
    .tuple (.cons (.map (by decide) (.swap _ _ _) (.cons (.refl _) (.cons (.refl _) .nil))) .nil)
  have hall : Reordered (.map s) (.map t) :=
    .map (by decide) (.swap _ _ _) (.cons himage (.cons (.refl _) .nil))
  refine ⟨keys_ignore_arrival.1 s t hall, keys_ignore_arrival.2 s t _ _ (by simp [or_comm]) ?_⟩
  intro name hname
  simp only [List.mem_cons, List.not_mem_nil, or_false] at hname
  rcases hname with rfl | rfl | rfl
  · exact .some (.refl _)
  · exact .some himage
  · exact .some (.refl _)

end Settings

end VisibilityRules
