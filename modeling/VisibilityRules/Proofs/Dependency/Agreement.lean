import VisibilityRules.Proofs.Cache.Key
import VisibilityRules.Proofs.Dependency.Tree
import VisibilityRules.Proofs.TermName.Reading

/-!
# Where the two readings of a name agree

The dependency tree takes a name up to its first bracket, an evaluation takes the leftmost run of
name characters. The names for which this is the same setting are the clear ones, and for no other
name does the tree show what an evaluation looks up.
-/

namespace VisibilityRules

namespace TermName

/-- Whether the part of a name before a bracket is a run of name characters, or the name has neither
a bracket nor a name character. -/
def isClear (name : String) : Bool :=
  let base := name.toList.takeWhile (· ≠ '[')
  !base.isEmpty &&
    (base.all isNameChar || !name.toList.contains '[' && name.toList.all (!isNameChar ·))

private theorem isClear_iff (name : String) :
    isClear name ↔ name.toList.takeWhile (· ≠ '[') ≠ [] ∧
      ((∀ c ∈ name.toList.takeWhile (· ≠ '['), isNameChar c) ∨
        '[' ∉ name.toList ∧ ∀ c ∈ name.toList, ¬isNameChar c) := by
  simp [isClear]

private theorem setting_of_none {name : String} (h : ∀ c ∈ name.toList, ¬isNameChar c) :
    (of name).setting = name := by
  rw [of, parse?_of_plain h]
  rfl

private theorem setting_of_firstRun {name : String} {before run rest : List Char}
    (h : FirstRun name.toList before run rest) : (of name).setting = String.ofList run := by
  rw [of, parse?_of_firstRun h]
  rfl

private theorem setting_of_run {name : String}
    (hne : name.toList.takeWhile (· ≠ '[') ≠ [])
    (hall : ∀ c ∈ name.toList.takeWhile (· ≠ '['), isNameChar c) :
    (of name).setting = String.ofList (name.toList.takeWhile (· ≠ '[')) := by
  have hfirst : FirstRun name.toList [] (name.toList.takeWhile (· ≠ '['))
      (name.toList.dropWhile (· ≠ '[')) := by
    refine ⟨List.takeWhile_append_dropWhile.symm, nofun, ⟨hne, hall⟩, fun c hc => ?_⟩
    -- what stands behind the base starts with the bracket
    have hbracket : c = '[' := by simpa using not_of_head?_dropWhile (· ≠ '[') name.toList c hc
    rw [hbracket]
    decide
  exact setting_of_firstRun hfirst

private theorem setting_of_plain {name : String} (hbracket : '[' ∉ name.toList)
    (hnone : ∀ c ∈ name.toList, ¬isNameChar c) :
    (of name).setting = String.ofList (name.toList.takeWhile (· ≠ '[')) := by
  have hwhole : name.toList.takeWhile (· ≠ '[') = name.toList :=
    List.takeWhile_eq_self_iff.mpr fun c hc => by
      have hne : c ≠ '[' := fun heq => hbracket (heq ▸ hc)
      simpa using hne
  rw [hwhole, setting_of_none hnone, String.ofList_toList]

theorem baseName?_eq_setting_iff (name : String) :
    baseName? name = some (of name).setting ↔ isClear name := by
  rw [baseName?_eq_some_iff, isClear_iff]
  refine and_congr_right fun hne => ?_
  constructor
  · intro h
    by_cases hsome : ∃ c ∈ name.toList, isNameChar c
    · left
      obtain ⟨before, run, rest, hfirst⟩ := exists_firstRun hsome
      rw [setting_of_firstRun hfirst, String.ofList_inj] at h
      rw [h]
      exact hfirst.isRun.2
    · right
      have hnone : ∀ c ∈ name.toList, ¬isNameChar c := fun c hc hname => hsome ⟨c, hc, hname⟩
      rw [setting_of_none hnone, ← String.toList_inj, String.toList_ofList] at h
      refine ⟨fun hmem => ?_, hnone⟩
      rw [← h] at hmem
      simpa using List.mem_takeWhile_imp hmem
  · rintro (hall | ⟨hbracket, hnone⟩)
    · exact (setting_of_run hne hall).symm
    · exact (setting_of_plain hbracket hnone).symm

end TermName

namespace Registry

open Dependency

variable {s : String} {rules : List Rule}

private theorem settingsRead_of_leafNames (hne : leafNames rules ≠ [])
    (hall : ∀ name ∈ leafNames rules, name = s) : settingsRead rules = [(TermName.of s).setting] := by
  rw [settingsRead, distinct_eq_singleton_iff]
  refine ⟨by simpa using hne, ?_⟩
  intro setting hsetting
  obtain ⟨name, hname, rfl⟩ := List.mem_map.mp hsetting
  rw [hall name hname]

private theorem ofRules_of_leafNames (hne : leafNames rules ≠ [])
    (hall : ∀ name ∈ leafNames rules, name = s) (setting : String) :
    [setting] = ofRules rules ↔ baseName? s = some setting := by
  obtain ⟨name, hname⟩ := List.exists_mem_of_ne_nil _ hne
  obtain rfl : name = s := hall name hname
  rw [eq_comm, ofRules, baseNames_eq, distinct_eq_singleton_iff]
  constructor
  · rintro ⟨hbases, hsame⟩
    obtain ⟨base, hbase⟩ := List.exists_mem_of_ne_nil _ hbases
    obtain ⟨other, hother, hread⟩ := List.mem_filterMap.mp hbase
    rw [hall other hother] at hread
    rw [hread, hsame base hbase]
  · intro hread
    refine ⟨List.ne_nil_of_mem (List.mem_filterMap.mpr ⟨name, hname, hread⟩), ?_⟩
    intro base hbase
    obtain ⟨other, hother, hbase⟩ := List.mem_filterMap.mp hbase
    rw [hall other hother, hread] at hbase
    exact (Option.some.inj hbase).symm

/-- The two readings of a name give the same setting exactly if the part before its first bracket is
not empty and either is a run of name characters, or is all of the name and no character of it is a
name character. In every registry, for a control whose leaves all have this name, an evaluation
looks up this setting alone, and the dependency tree records it exactly if the two readings
agree. -/
theorem readings_agree_iff (ε : Type) (s : String) :
    ∃ name : TermName, (TermName.read s : Run ε TermName).outcome = .ok name ∧
      let base := s.toList.takeWhile (· ≠ '[')
      (baseName? s = some name.setting ↔
        base ≠ [] ∧ ((∀ c ∈ base, isNameChar c) ∨
          '[' ∉ s.toList ∧ ∀ c ∈ s.toList, ¬isNameChar c)) ∧
      ∀ (evaluator config : Option Configuration) (ops : List Operation) (control : String),
        let r := (new evaluator config).after ops
        leafNames (r.rulesOf control) ≠ [] → (∀ leaf ∈ leafNames (r.rulesOf control), leaf = s) →
        (evaluated (r.rulesOf control) : Run ε (List String)).outcome = .ok [name.setting] ∧
        ((control, [name.setting]) ∈ r.dependencyTree ↔ baseName? s = some name.setting) := by
  refine ⟨.of s, TermName.outcome_read s, ?_, ?_⟩
  · exact (TermName.baseName?_eq_setting_iff s).trans (TermName.isClear_iff s)
  · intro evaluator config ops control r hne hall
    rw [outcome_evaluated, settingsRead_of_leafNames hne hall,
      (tidy_after evaluator config ops).mem_dependencyTree_iff, ofRules_of_leafNames hne hall]
    exact ⟨rfl, and_iff_right (List.cons_ne_nil _ _)⟩

theorem tree_shows_image_and_misses_layout :
    let r := (new none none).after [.hideWhere "panel" "image[url]" (.int 1),
      .hideWhere "title" "layout.mode" .null, .hideWhere "panel" "image[url]" (.int 2)]
    leafNames (r.rulesOf "panel") = ["image[url]", "image[url]"] ∧
      (evaluated (r.rulesOf "panel") : Run Fault (List String)).outcome = .ok ["image"] ∧
      ("panel", ["image"]) ∈ r.dependencyTree ∧
      leafNames (r.rulesOf "title") = ["layout.mode"] ∧
      (evaluated (r.rulesOf "title") : Run Fault (List String)).outcome = .ok ["layout"] ∧
      ("title", ["layout"]) ∉ r.dependencyTree := by
  intro r
  have hpanel : leafNames (r.rulesOf "panel") = ["image[url]", "image[url]"] := by decide +kernel
  have htitle : leafNames (r.rulesOf "title") = ["layout.mode"] := by decide +kernel
  have himage : TermName.of "image[url]" = ⟨"image", some "url"⟩ := by decide +kernel
  have hlayout : TermName.of "layout.mode" = ⟨"layout", none⟩ := by decide +kernel
  obtain ⟨name, hname, -, hlisted⟩ := readings_agree_iff Fault "image[url]"
  obtain ⟨name', hname', -, hmissed⟩ := readings_agree_iff Fault "layout.mode"
  rw [TermName.outcome_read, himage] at hname
  rw [TermName.outcome_read, hlayout] at hname'
  cases hname
  cases hname'
  obtain ⟨hread, hshown⟩ := hlisted none none _ "panel" (by rw [hpanel]; simp) (by rw [hpanel]; simp)
  obtain ⟨hread', hshown'⟩ := hmissed none none _ "title" (by rw [htitle]; simp)
    (by rw [htitle]; simp)
  refine ⟨hpanel, hread, hshown.mpr (by decide +kernel), htitle, hread', ?_⟩
  rw [hshown']
  decide +kernel

end Registry

end VisibilityRules
