import VisibilityRules.Proofs.Evaluation.Failure

/-!
# What a shorthand condition says

A shorthand condition abbreviates a conjunction with one leaf for each of its entries. The operator
of a leaf depends on the settings, so each settings have a conjunction of their own; checking it is
the same run as checking the shorthand condition. The mark on a key negates its entry exactly, as
the operators that are inferred never meet data that they have no use for.
-/

namespace VisibilityRules

namespace Shorthand

/-! ### Keys -/

/-- The name in a key, and whether the key negates it. Of several exclamation marks at the end, only
the last one is no part of the name. -/
inductive KeyMeans (key : String) : String → Bool → Prop
  | plain (unmarked : ∀ stem, key ≠ stem ++ "!") : KeyMeans key key false
  | negated {name : String} (marked : key = name ++ "!") : KeyMeans key name true

theorem splitKey_marked (name : String) : splitKey (name ++ "!") = (name, true) := by
  simp [splitKey, String.toList_append]

theorem unmarked_iff (key : String) :
    (∀ stem, key ≠ stem ++ "!") ↔ key.toList.getLast? ≠ some '!' := by
  constructor
  · intro h hlast
    obtain ⟨stem, hstem⟩ := List.getLast?_eq_some_iff.mp hlast
    apply h (String.ofList stem)
    rw [← String.toList_inj, hstem, String.toList_append]
    simp
  · rintro h stem rfl
    simp [String.toList_append] at h

theorem splitKey_unmarked {key : String} (h : ∀ stem, key ≠ stem ++ "!") :
    splitKey key = (key, false) := by
  rw [splitKey, if_neg ((unmarked_iff key).mp h)]

theorem KeyMeans.splitKey {key name : String} {negated : Bool} (h : KeyMeans key name negated) :
    splitKey key = (name, negated) := by
  cases h with
  | plain unmarked => exact splitKey_unmarked unmarked
  | negated marked => rw [marked, splitKey_marked]

theorem exists_keyMeans (key : String) : ∃ name negated, KeyMeans key name negated := by
  by_cases h : ∃ name, key = name ++ "!"
  · obtain ⟨name, hname⟩ := h
    exact ⟨name, true, .negated hname⟩
  · exact ⟨key, false, .plain (not_exists.mp h)⟩

/-! ### Entries as leaves -/

/-- What an entry abbreviates under the given settings: a leaf with the name in the key, the
expected value, and the operator that fits the values at hand. Where the name cannot be looked up,
the operator is free. -/
structure SpelledOut (settings : Settings) (entry : String × Value) (leaf : Clause) : Prop where
  value : leaf.value = entry.2
  key : ∃ negated, KeyMeans entry.1 leaf.name negated ∧
    ∀ current, settings.lookup (.of leaf.name) = .ok current →
      leaf.operator = Operator.infer entry.2 negated current

theorem SpelledOut.of_found {settings : Settings} {entry : String × Value} {leaf : Clause}
    {negated : Bool} {current : Value} (hvalue : leaf.value = entry.2)
    (hkey : KeyMeans entry.1 leaf.name negated)
    (hfound : settings.lookup (.of leaf.name) = .ok current)
    (hoperator : leaf.operator = Operator.infer entry.2 negated current) :
    SpelledOut settings entry leaf := by
  refine ⟨hvalue, negated, hkey, fun current' hfound' => ?_⟩
  rw [hoperator, Except.ok.inj (hfound.symm.trans hfound')]

theorem exists_spelledOut (settings : Settings) (entry : String × Value) :
    ∃ leaf, SpelledOut settings entry leaf := by
  obtain ⟨name, negated, hkey⟩ := exists_keyMeans entry.1
  cases hfound : settings.lookup (.of name) with
  | error f => exact ⟨{ name, value := entry.2 }, rfl, negated, hkey, by simp [hfound]⟩
  | ok current =>
    exact ⟨⟨name, entry.2, Operator.infer entry.2 negated current, none⟩,
      .of_found rfl hkey hfound rfl⟩

theorem SpelledOut.checkEntry {settings : Settings} {entry : String × Value} {leaf : Clause}
    (h : SpelledOut settings entry leaf) :
    checkEntry settings entry.1 entry.2 = leaf.check settings := by
  obtain ⟨hvalue, negated, hkey, hoperator⟩ := h
  have hread := TermName.outcome_read (ε := Fault) leaf.name
  simp only [Shorthand.checkEntry, Clause.check, hkey.splitKey, Run.monad_bind_def]
  rw [Run.bind_of_ok hread, Run.bind_of_ok hread]
  cases hfound : settings.lookup (.of leaf.name) with
  | error f => rfl
  | ok current =>
    rw [hoperator current hfound, hvalue]
    rfl

/-- The conjunctions that a shorthand condition abbreviates exist under all settings, and checking
one of them under these settings is the same run as checking the shorthand condition: the same
answer or failure after the same comparisons and notices, however groups are nested. -/
theorem check_spelledOut (settings : Settings) (condition : Table Value) :
    (∃ leaves, List.Forall₂ (SpelledOut settings) condition leaves) ∧
      ∀ leaves, List.Forall₂ (SpelledOut settings) condition leaves → ∀ nesting,
        (ConditionSet.mk .and (leaves.map .leaf)).check nesting settings =
          check settings condition := by
  constructor
  · choose leaf hleaf using exists_spelledOut settings
    refine ⟨condition.map leaf, ?_⟩
    rw [List.forall₂_map_right_iff, List.forall₂_same]
    exact fun entry _ => hleaf entry
  · intro leaves h nesting
    -- an entry and its leaf make the same run, so both checks stop at the same place
    induction h with
    | nil => rfl
    | @cons entry leaf rest leaves hleaf _ ih =>
      have hhead := hleaf.checkEntry
      calc (ConditionSet.mk .and ((leaf :: leaves).map .leaf)).check nesting settings
          = (leaf.check settings).bind fun holds =>
              if holds then (ConditionSet.mk .and (leaves.map .leaf)).check nesting settings
              else Run.pure false := rfl
        _ = check settings (entry :: rest) := by
          rw [ih, ← hhead]
          rfl

theorem mode_and_tags_spelledOut :
    let settings : Settings :=
      [("mode", .text "dark"), ("tags", .list [.text "new", .text "sale"])]
    let condition : Table Value :=
      [("mode", .list [.text "light", .text "dark"]), ("tags!", .text "old"), ("size", .null)]
    let leaves : List Clause := [⟨"mode", .list [.text "light", .text "dark"], .isIn, none⟩,
      ⟨"tags", .text "old", .notContains, none⟩, ⟨"size", .null, .strictEqual, none⟩]
    List.Forall₂ (SpelledOut settings) condition leaves ∧
      (ConditionSet.mk .and (leaves.map .leaf)).check .term settings = check settings condition := by
  intro settings condition leaves
  have hmode : settings.lookup (.of "mode") = .ok (.text "dark") :=
    Settings.lookup_bare (by decide +kernel) settings
  have htags : settings.lookup (.of "tags") = .ok (.list [.text "new", .text "sale"]) :=
    Settings.lookup_bare (by decide +kernel) settings
  have hsize : settings.lookup (.of "size") = .ok .missing :=
    Settings.lookup_bare (by decide +kernel) settings
  have unmarked {key : String} (h : key.toList.getLast? ≠ some '!') : KeyMeans key key false :=
    .plain ((unmarked_iff key).mpr h)
  have hleaves : List.Forall₂ (SpelledOut settings) condition leaves :=
    .cons (.of_found rfl (unmarked (by decide +kernel)) hmode rfl)
      (.cons (.of_found rfl (.negated (by decide +kernel)) htags rfl)
        (.cons (.of_found rfl (unmarked (by decide +kernel)) hsize rfl) .nil))
  exact ⟨hleaves, (check_spelledOut settings condition).2 leaves hleaves .term⟩

/-! ### Negation -/

/-- The operator that is inferred has a list where it looks for members. -/
theorem infer_cases (expected current : Value) :
    (∃ items, expected = .list items ∧ ∀ negated,
        Operator.infer expected negated current = if negated then .notIn else .isIn) ∨
      (∃ items, current = .list items ∧ ∀ negated,
        Operator.infer expected negated current = if negated then .notContains else .contains) ∨
      ∀ negated,
        Operator.infer expected negated current = if negated then .strictNotEqual else .strictEqual := by
  unfold Operator.infer
  split
  · exact .inl ⟨_, rfl, fun _ => rfl⟩
  · exact .inr (.inl ⟨_, rfl, fun _ => rfl⟩)
  · exact .inr (.inr fun _ => rfl)

theorem compare_infer_negated (expected current : Value) :
    ∃ holds, (Operator.infer expected false current).compare current expected = .ok holds ∧
      (Operator.infer expected true current).compare current expected = .ok (!holds) := by
  rcases infer_cases expected current with ⟨items, rfl, hop⟩ | ⟨items, rfl, hop⟩ | hop
  -- with a list in place, non-membership is no longer false on both sides
  all_goals
    rw [hop, hop]
    exact ⟨_, rfl, rfl⟩

theorem outcome_check_single {settings : Settings} {key name : String} {negated : Bool}
    {value : Value} (hkey : KeyMeans key name negated)
    (hfound : settings.lookup (.of name) = .ok value) (expected : Value) :
    (check settings [(key, expected)]).outcome =
      if value.isMissing then .ok false
      else (Operator.infer expected negated value).compare value expected := by
  have hlast : (fun holds : Bool => if holds then check settings [] else Run.pure false) =
      Run.pure := by
    funext holds
    cases holds <;> rfl
  rw [check, hlast, Run.bind_pure, outcome_checkEntry, hkey.splitKey, hfound]
  rfl

/-- A key without a mark and the same key with one make complementary conditions of the same
expected value where their setting is there. Where it is missing, neither of them holds. -/
theorem negation_complements (settings : Settings) (key : String) (expected value : Value)
    (hkey : ∀ stem, key ≠ stem ++ "!") (hfound : settings.lookup (.of key) = .ok value) :
    let plain := check settings [(key, expected)]
    let negated := check settings [(key ++ "!", expected)]
    (value ≠ .missing → ∃ holds, plain.outcome = .ok holds ∧ negated.outcome = .ok (!holds)) ∧
      (value = .missing → plain.outcome = .ok false ∧ negated.outcome = .ok false) := by
  intro plain negated
  have hplain : plain.outcome = _ := outcome_check_single (.plain hkey) hfound expected
  have hnegated : negated.outcome = _ := outcome_check_single (.negated rfl) hfound expected
  rw [hplain, hnegated]
  constructor
  · intro hpresent
    have hmissing : ¬value.isMissing := by rwa [Value.isMissing_iff]
    rw [if_neg hmissing, if_neg hmissing]
    exact compare_infer_negated expected value
  · rintro rfl
    exact ⟨rfl, rfl⟩

theorem image_sizes_negated :
    let settings : Settings := [("image", .map [("sizes", .list [.int 1, .null])])]
    let sizes : Value := .list [.int 1, .null]
    (∀ stem, "image[sizes]" ≠ stem ++ "!") ∧
      settings.lookup (.of "image[sizes]") = .ok sizes ∧ sizes ≠ .missing ∧
      ∃ holds, (check settings [("image[sizes]", .null)]).outcome = .ok holds ∧
        (check settings [("image[sizes]!", .null)]).outcome = .ok (!holds) := by
  intro settings sizes
  have hkey : ∀ stem, "image[sizes]" ≠ stem ++ "!" := (unmarked_iff _).mpr (by decide +kernel)
  have hfound : settings.lookup (.of "image[sizes]") = .ok sizes := by
    rw [show TermName.of "image[sizes]" = ⟨"image", some "sizes"⟩ by decide +kernel]
    rfl
  have hlaw := negation_complements settings "image[sizes]" .null sizes hkey hfound
  exact ⟨hkey, hfound, nofun, hlaw.1 nofun⟩

end Shorthand

end VisibilityRules
