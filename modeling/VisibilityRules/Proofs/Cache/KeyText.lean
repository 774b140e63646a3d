import VisibilityRules.Proofs.Cache.Key

/-!
# What a key text tells

The text behind the key of settings tells all there is to the settings but two things: the order in
which the entries of mappings arrived, and whether a part is missing or holds the text `MISSING`.
-/

namespace VisibilityRules

namespace Value

mutual
/-- Values that are the same up to the order of entries at any depth, where a missing part and the
text `MISSING` count as the same. -/
inductive Alike : Value → Value → Prop
  | refl (v : Value) : Alike v v
  | missing : Alike .missing (.text "MISSING")
  | spelled : Alike (.text "MISSING") .missing
  | list {xs ys : List Value} (items : AllAlike xs ys) : Alike (.list xs) (.list ys)
  | tuple {xs ys : List Value} (items : AllAlike xs ys) : Alike (.tuple xs) (.tuple ys)
  | map {xs xs' ys' ys : List (String × Value)} (left : xs.Perm xs')
      (entries : EntriesAlike xs' ys') (right : ys'.Perm ys) : Alike (.map xs) (.map ys)
inductive AllAlike : List Value → List Value → Prop
  | nil : AllAlike [] []
  | cons {v w : Value} {xs ys : List Value} (head : Alike v w) (tail : AllAlike xs ys) :
      AllAlike (v :: xs) (w :: ys)
inductive EntriesAlike : List (String × Value) → List (String × Value) → Prop
  | nil : EntriesAlike [] []
  | cons {key : String} {v w : Value} {xs ys : List (String × Value)} (head : Alike v w)
      (tail : EntriesAlike xs ys) : EntriesAlike ((key, v) :: xs) ((key, w) :: ys)
end

mutual
/-- A value with the text `MISSING` in the place of each missing part. -/
def spelled : Value → Value
  | .missing => .text "MISSING"
  | .list items => .list (spelleds items)
  | .tuple items => .tuple (spelleds items)
  | .map entries => .map (spelledEntries entries)
  | v => v
def spelleds : List Value → List Value
  | [] => []
  | item :: rest => spelled item :: spelleds rest
def spelledEntries : List (String × Value) → List (String × Value)
  | [] => []
  | (key, item) :: rest => (key, spelled item) :: spelledEntries rest
end

private theorem spelleds_eq (items : List Value) : spelleds items = items.map spelled := by
  induction items with
  | nil => rfl
  | cons item rest ih => rw [spelleds, ih, List.map_cons]

private theorem spelledEntries_eq (entries : Table Value) :
    spelledEntries entries = Table.mapValues spelled entries := by
  induction entries with
  | nil => rfl
  | cons e rest ih => rw [spelledEntries, ih, Table.mapValues_cons]

/-- The text of a missing part is the text of the text `MISSING`, and nothing else is spelled
out. -/
theorem canonical_spelled (v : Value) : canonical v.spelled = canonical v := by
  induction v using memberInduction with
  | missing | null | bool | int | double | text => rfl
  | list items ih | tuple items ih =>
    have hitems : items.map (canonical ∘ spelled) = items.map canonical := List.map_congr_left ih
    simp only [spelled, spelleds_eq, canonical_list, canonical_tuple, List.map_map, hitems]
  | map entries ih =>
    have hentries : Table.mapValues canonical (spelledEntries entries) =
        Table.mapValues canonical entries := by
      rw [spelledEntries_eq, Table.mapValues, Table.mapValues, Table.mapValues, List.map_map]
      apply List.map_congr_left
      intro e he
      rw [Function.comp_apply, ih e he]
    rw [spelled, canonical_map, canonical_map, hentries]

mutual
theorem hasJson_spelled : ∀ v : Value, v.spelled.hasJson
  | .missing | .null | .bool _ | .int _ | .double _ | .text _ => rfl
  | .list items | .tuple items => by
    rw [spelled, hasJson]
    exact allHaveJson_spelleds items
  | .map entries => by
    rw [spelled, hasJson]
    exact entriesHaveJson_spelledEntries entries
theorem allHaveJson_spelleds : ∀ items : List Value, allHaveJson (spelleds items)
  | [] => rfl
  | item :: rest => by
    rw [spelleds, allHaveJson, hasJson_spelled item, allHaveJson_spelleds rest]
    rfl
theorem entriesHaveJson_spelledEntries : ∀ entries : List (String × Value),
    entriesHaveJson (spelledEntries entries)
  | [] => rfl
  | (key, item) :: rest => by
    rw [spelledEntries, entriesHaveJson, hasJson_spelled item, entriesHaveJson_spelledEntries rest]
    rfl
end

/-- What a text shows of a value: missing parts spelled out, and entries in the order of their
keys. -/
private def shown (v : Value) : Value := normal v.spelled

private theorem shown_list (items : List Value) : shown (.list items) = .list (items.map shown) := by
  rw [shown, spelled, normal_list, spelleds_eq, List.map_map]
  rfl

private theorem shown_tuple (items : List Value) :
    shown (.tuple items) = .tuple (items.map shown) := by
  rw [shown, spelled, normal_tuple, spelleds_eq, List.map_map]
  rfl

private theorem shown_map (entries : Table Value) :
    shown (.map entries) = .map (Table.mapValues shown (Table.sorted entries)) := by
  rw [shown, spelled, normal_map, spelledEntries_eq, Table.sorted_mapValues, Table.mapValues,
    Table.mapValues, List.map_map]
  rfl

private theorem allAlike_of_shown {xs ys : List Value}
    (ih : ∀ v ∈ xs, ∀ w, shown v = shown w → Alike v w) (h : xs.map shown = ys.map shown) :
    AllAlike xs ys := by
  induction xs generalizing ys with
  | nil =>
    rw [List.map_nil, eq_comm, List.map_eq_nil_iff] at h
    rw [h]
    exact .nil
  | cons x rest ihrest =>
    cases ys with
    | nil => simp at h
    | cons y ys =>
      obtain ⟨hhead, htail⟩ := List.cons.inj h
      exact .cons (ih x List.mem_cons_self y hhead)
        (ihrest (fun v hv => ih v (List.mem_cons_of_mem _ hv)) htail)

private theorem entriesAlike_of_shown {xs ys : Table Value}
    (ih : ∀ e ∈ xs, ∀ w, shown e.2 = shown w → Alike e.2 w)
    (h : Table.mapValues shown xs = Table.mapValues shown ys) : EntriesAlike xs ys := by
  induction xs generalizing ys with
  | nil =>
    cases ys with
    | nil => exact .nil
    | cons d ys => simp [Table.mapValues] at h
  | cons e rest ihrest =>
    cases ys with
    | nil => simp [Table.mapValues] at h
    | cons d ys =>
      obtain ⟨key, v⟩ := e
      obtain ⟨key', w⟩ := d
      obtain ⟨hhead, htail⟩ := List.cons.inj h
      obtain ⟨rfl, hvalue⟩ := Prod.mk.inj hhead
      exact .cons (ih (key, v) List.mem_cons_self w hvalue)
        (ihrest (fun d hd => ih d (List.mem_cons_of_mem _ hd)) htail)

private theorem alike_of_shown (v : Value) : ∀ w, shown v = shown w → Alike v w := by
  induction v using memberInduction with
  | missing =>
    intro w h
    cases w with
    | missing => exact .refl _
    | text s => cases h; exact .missing
    | _ => cases h
  | null | bool | int | double =>
    intro w h
    cases w <;> cases h
    exact .refl _
  | text s =>
    intro w h
    cases w with
    | missing => cases h; exact .spelled
    | text t => cases h; exact .refl _
    | _ => cases h
  | list xs ih =>
    intro w h
    cases w with
    | list ys =>
      rw [shown_list, shown_list] at h
      exact .list (allAlike_of_shown ih (list.inj h))
    | _ => cases h
  | tuple xs ih =>
    intro w h
    cases w with
    | tuple ys =>
      rw [shown_tuple, shown_tuple] at h
      exact .tuple (allAlike_of_shown ih (tuple.inj h))
    | _ => cases h
  | map xs ih =>
    intro w h
    cases w with
    | map ys =>
      rw [shown_map, shown_map] at h
      have hsorted : ∀ e ∈ Table.sorted xs, ∀ w, shown e.2 = shown w → Alike e.2 w :=
        fun e he => ih e ((Table.sorted_perm xs).mem_iff.mp he)
      exact .map (Table.sorted_perm xs).symm (entriesAlike_of_shown hsorted (map.inj h))
        (Table.sorted_perm ys)
    | _ => cases h

private theorem shown_eq_of_canonical_eq {v w : Value} (h : canonical v = canonical w) :
    shown v = shown w := by
  apply normal_eq_of_canonical_eq (hasJson_spelled v) (hasJson_spelled w)
  rw [canonical_spelled, canonical_spelled, h]

private theorem canonical_shown (v : Value) : canonical (shown v) = canonical v := by
  rw [shown, canonical_normal, canonical_spelled]

theorem alike_of_canonical_eq {v w : Value} (h : canonical v = canonical w) : Alike v w :=
  alike_of_shown v w (shown_eq_of_canonical_eq h)

end Value

namespace Settings

/-- Settings with the same text have the same names, and the same text of the value under each. -/
theorem map_canonical_of_snapshotText_eq {s t : Settings} (h : s.snapshotText = t.snapshotText)
    (name : String) :
    (Table.get? s name).map Value.canonical = (Table.get? t name).map Value.canonical := by
  have hshown := Value.shown_eq_of_canonical_eq (v := .map s) (w := .map t) h
  have hget (u : Settings) : (Table.get? u name).map Value.canonical =
      (Table.get? (Table.mapValues Value.shown (Table.sorted u)) name).map Value.canonical := by
    rw [Table.get?_mapValues, Table.get?_sorted, Option.map_map]
    apply Option.map_congr
    intro v _
    exact (Value.canonical_shown v).symm
  rw [Value.shown_map, Value.shown_map, Value.map.injEq] at hshown
  rw [hget s, hshown, ← hget t]

/-- Settings with the same text under their keys hold the same values under the same names, up to
the order of entries at any depth and up to parts that are missing in one and hold the text
`MISSING` in the other. -/
theorem alike_of_snapshotText_eq (s t : Settings) (h : s.snapshotText = t.snapshotText) :
    Value.Alike (.map s) (.map t) :=
  Value.alike_of_canonical_eq h

theorem reordered_alike :
    let s : Settings := [("mode", .missing), ("sizes", .tuple [.map [("b", .int 1), ("a", .null)]])]
    let t : Settings :=
      [("sizes", .tuple [.map [("a", .null), ("b", .int 1)]]), ("mode", .text "MISSING")]
    s.snapshotText = t.snapshotText ∧ Value.Alike (.map s) (.map t) := by
  intro s t
  have htext : s.snapshotText = t.snapshotText := by decide +kernel
  exact ⟨htext, alike_of_snapshotText_eq s t htext⟩

/-- A setting that is missing and one that holds the text `MISSING` share their text. -/
theorem snapshotText_hides_missing :
    ¬∀ s t : Settings, s.snapshotText = t.snapshotText →
      ∀ name, (Table.get? s name).map Value.kindName = (Table.get? t name).map Value.kindName := by
  intro h
  have hkind := h [("mode", .missing)] [("mode", .text "MISSING")] rfl "mode"
  exact absurd hkind (by decide)

end Settings

end VisibilityRules
