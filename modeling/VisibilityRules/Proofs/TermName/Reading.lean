import Mathlib.Data.List.TakeWhile
import VisibilityRules.Proofs.Evaluation.Basic
import VisibilityRules.Proofs.TermName.Search

/-!
# What a term name addresses

The setting is the leftmost longest run of name characters in a text, whatever stands before and
behind it. The part is a second run, if exactly that run stands in square brackets right behind the
first one. Only a text without any name character is taken whole, and that is reported.
-/

namespace VisibilityRules

namespace TermName

/-- Whether characters form a run of a name: there is one, and all are name characters. -/
def IsRun (cs : List Char) : Prop := cs ≠ [] ∧ ∀ c ∈ cs, isNameChar c

instance : DecidablePred IsRun := fun cs =>
  decidable_of_iff (cs ≠ [] ∧ cs.all isNameChar) (by rw [IsRun, List.all_eq_true])

/-- The leftmost longest run of name characters in a text, between what stands before and behind. -/
structure FirstRun (cs before run rest : List Char) : Prop where
  split : cs = before ++ run ++ rest
  leftmost : ∀ c ∈ before, ¬isNameChar c
  isRun : IsRun run
  longest : ∀ c ∈ rest.head?, ¬isNameChar c

/-- A text that starts with a run of name characters in square brackets. -/
inductive Bracketed : List Char → List Char → Prop
  | intro {key tail : List Char} (isRun : IsRun key) : Bracketed ('[' :: key ++ ']' :: tail) key

/-! ### Runs in a text -/

theorem takeWhile_run {run rest : List Char} (hrun : ∀ c ∈ run, isNameChar c)
    (hrest : ∀ c ∈ rest.head?, ¬isNameChar c) : (run ++ rest).takeWhile isNameChar = run := by
  rw [List.takeWhile_append_of_pos hrun]
  cases rest with
  | nil => simp
  | cons c rest => rw [List.takeWhile_cons_of_neg (hrest c rfl), List.append_nil]

theorem dropWhile_run {run rest : List Char} (hrun : ∀ c ∈ run, isNameChar c)
    (hrest : ∀ c ∈ rest.head?, ¬isNameChar c) : (run ++ rest).dropWhile isNameChar = rest := by
  rw [List.dropWhile_append_of_pos hrun]
  cases rest with
  | nil => rfl
  | cons c rest => exact List.dropWhile_cons_of_neg (hrest c rfl)

theorem not_of_head?_dropWhile (p : Char → Bool) (cs : List Char) :
    ∀ c ∈ (cs.dropWhile p).head?, ¬p c := by
  intro c hc
  have hhead := List.head?_dropWhile_not p cs
  rw [Option.mem_def.mp hc] at hhead
  exact Bool.not_eq_true _ ▸ hhead

theorem exists_firstRun {cs : List Char} (h : ∃ c ∈ cs, isNameChar c) :
    ∃ before run rest, FirstRun cs before run rest := by
  induction cs with
  | nil => simp at h
  | cons c cs ih =>
    by_cases hc : isNameChar c
    · refine ⟨[], (c :: cs).takeWhile isNameChar, (c :: cs).dropWhile isNameChar, ?_, nofun, ?_, ?_⟩
      · exact List.takeWhile_append_dropWhile.symm
      · refine ⟨?_, fun d hd => List.mem_takeWhile_imp hd⟩
        rw [List.takeWhile_cons_of_pos hc]
        exact List.cons_ne_nil _ _
      · exact not_of_head?_dropWhile isNameChar (c :: cs)
    · obtain ⟨before, run, rest, hfirst⟩ := ih (by simpa [hc] using h)
      refine ⟨c :: before, run, rest, ?_, ?_, hfirst.isRun, hfirst.longest⟩
      · rw [hfirst.split, List.cons_append, List.cons_append]
      · exact List.forall_mem_cons.mpr ⟨hc, hfirst.leftmost⟩

theorem FirstRun.dropWhile_eq {cs before run rest : List Char} (h : FirstRun cs before run rest) :
    cs.dropWhile (!isNameChar ·) = run ++ rest := by
  obtain ⟨c, tail, hrun⟩ := List.exists_cons_of_ne_nil h.isRun.1
  have hc : isNameChar c := h.isRun.2 c (by rw [hrun]; exact List.mem_cons_self)
  rw [h.split, List.append_assoc, List.dropWhile_append_of_pos (by simpa using h.leftmost), hrun,
    List.cons_append, List.dropWhile_cons_of_neg (by simp [hc])]

/-! ### The name -/

theorem bracketed?_eq_some_iff (cs : List Char) (key : String) :
    bracketed? cs = some key ↔ Bracketed cs key.toList := by
  constructor
  · intro h
    unfold bracketed? at h
    split at h
    · next rest =>
      split at h
      · next c run tail htake hdrop =>
        have hsplit : rest = (c :: run) ++ ']' :: tail := by
          rw [← htake, ← hdrop, List.takeWhile_append_dropWhile]
        have hkey : key.toList = c :: run := by
          rw [← Option.some.inj h, String.toList_ofList]
        rw [hsplit, hkey]
        refine .intro ⟨List.cons_ne_nil c run, fun d hd => ?_⟩
        rw [← htake] at hd
        exact List.mem_takeWhile_imp hd
      · contradiction
    · contradiction
  · intro h
    generalize hchars : key.toList = run at h
    cases h with
    | @intro _ tail isRun =>
      obtain ⟨c, rest, hcons⟩ := List.exists_cons_of_ne_nil isRun.1
      have hclosing : ∀ c ∈ (']' :: tail).head?, ¬isNameChar c := by
        intro c hc
        rw [← Option.some.inj hc]
        decide
      have hkey : String.ofList (c :: rest) = key := by
        rw [← hcons, ← hchars, String.ofList_toList]
      rw [List.cons_append, bracketed?, takeWhile_run isRun.2 hclosing,
        dropWhile_run isRun.2 hclosing, hcons]
      exact congrArg some hkey

theorem parse?_of_plain {s : String} (h : ∀ c ∈ s.toList, ¬isNameChar c) : parse? s = none := by
  have hdrop : s.toList.dropWhile (!isNameChar ·) = [] :=
    List.dropWhile_eq_nil_iff.mpr fun c hc => by simpa using h c hc
  rw [parse?, hdrop]

theorem parse?_of_firstRun {s : String} {before run rest : List Char}
    (h : FirstRun s.toList before run rest) :
    parse? s = some ⟨String.ofList run, bracketed? rest⟩ := by
  obtain ⟨c, tail, rfl⟩ := List.exists_cons_of_ne_nil h.isRun.1
  have htail : ∀ d ∈ tail, isNameChar d := fun d hd => h.isRun.2 d (List.mem_cons_of_mem c hd)
  rw [parse?, h.dropWhile_eq, List.cons_append]
  dsimp only
  rw [takeWhile_run htail h.longest, dropWhile_run htail h.longest]

theorem read_of_plain {ε : Type} {s : String} (h : ∀ c ∈ s.toList, ¬isNameChar c) :
    (read s : Run ε TermName) = ⟨[.noticed (.unparseableName s)], .ok ⟨s, none⟩⟩ := by
  rw [read, parse?_of_plain h]
  rfl

theorem read_of_parse? {ε : Type} {s : String} {name : TermName} (h : parse? s = some name) :
    (read s : Run ε TermName) = ⟨[], .ok name⟩ := by
  rw [read, h]
  rfl

theorem parse?_bare {s : String} (h : IsRun s.toList) : parse? s = some ⟨s, none⟩ := by
  have hfirst : FirstRun s.toList [] s.toList [] := ⟨by simp, nofun, h, nofun⟩
  rw [parse?_of_firstRun hfirst, String.ofList_toList]
  rfl

/-- Text behind the closing bracket is not looked at. -/
theorem parse?_with_part {setting key : String} (hsetting : IsRun setting.toList)
    (hkey : IsRun key.toList) (tail : String) :
    parse? (setting ++ "[" ++ key ++ "]" ++ tail) = some ⟨setting, some key⟩ := by
  have hchars : (setting ++ "[" ++ key ++ "]" ++ tail).toList =
      [] ++ setting.toList ++ ('[' :: key.toList ++ ']' :: tail.toList) := by
    simp [String.toList_append]
  have hfirst : FirstRun (setting ++ "[" ++ key ++ "]" ++ tail).toList [] setting.toList
      ('[' :: key.toList ++ ']' :: tail.toList) := by
    refine ⟨hchars, nofun, hsetting, ?_⟩
    intro c hc
    rw [← Option.some.inj hc]
    decide
  rw [parse?_of_firstRun hfirst, (bracketed?_eq_some_iff _ key).mpr (.intro hkey),
    String.ofList_toList]

/-- A text without name characters is read as it stands, with one warning. In every other text the
leftmost longest run of name characters is the setting, and the part is what stands in brackets
right behind it, if that is a run as well; this is what a search for the name pattern finds. A run
is read as a setting, and two runs as a setting and a part. -/
theorem read_leftmost_run {ε : Type} :
    (∀ s : String,
      ((∀ c ∈ s.toList, ¬isNameChar c) → (Notice.unparseableName s).level = .warning ∧
        (read s : Run ε TermName) = ⟨[.noticed (.unparseableName s)], .ok ⟨s, none⟩⟩) ∧
      ((∃ c ∈ s.toList, isNameChar c) → ∃ before run rest, FirstRun s.toList before run rest) ∧
      (∀ before run rest, FirstRun s.toList before run rest →
        ∃ part, (read s : Run ε TermName) = ⟨[], .ok ⟨String.ofList run, part⟩⟩ ∧
          ∀ key : String, part = some key ↔ Bracketed rest key.toList) ∧
      (read s : Run ε TermName) =
        match pattern.search s.toList with
        | some m => ⟨[], .ok (ofMatch m)⟩
        | none => ⟨[.noticed (.unparseableName s)], .ok ⟨s, none⟩⟩) ∧
    ∀ setting key : String, IsRun setting.toList → IsRun key.toList →
      (read setting : Run ε TermName) = ⟨[], .ok ⟨setting, none⟩⟩ ∧
      (read (setting ++ "[" ++ key ++ "]") : Run ε TermName) = ⟨[], .ok ⟨setting, some key⟩⟩ := by
  refine ⟨fun s => ⟨?_, exists_firstRun, ?_, ?_⟩, ?_⟩
  · intro hplain
    exact ⟨rfl, read_of_plain hplain⟩
  · intro before run rest hfirst
    exact ⟨bracketed? rest, read_of_parse? (parse?_of_firstRun hfirst), bracketed?_eq_some_iff rest⟩
  · rw [read, parse?_eq_search]
    cases pattern.search s.toList <;> rfl
  · intro setting key hsetting hkey
    have hpart := parse?_with_part hsetting hkey ""
    rw [String.append_empty] at hpart
    exact ⟨read_of_parse? (parse?_bare hsetting), read_of_parse? hpart⟩

theorem image_url_read_behind_dots :
    FirstRun "..image[url]]".toList ['.', '.'] "image".toList "[url]]".toList ∧
      Bracketed "[url]]".toList "url".toList ∧
      (read "..image[url]]" : Run Fault TermName) = ⟨[], .ok ⟨"image", some "url"⟩⟩ := by
  have hbefore : ∀ c ∈ ['.', '.'], ¬isNameChar c :=
    List.forall_mem_cons.mpr ⟨by decide, List.forall_mem_singleton.mpr (by decide)⟩
  have hrest : "[url]]".toList.head? = some '[' := by decide +kernel
  have hfirst : FirstRun "..image[url]]".toList ['.', '.'] "image".toList "[url]]".toList := by
    refine ⟨by decide +kernel, hbefore, by decide +kernel, fun c hc => ?_⟩
    rw [hrest] at hc
    rw [← Option.some.inj hc]
    decide
  have hpart : Bracketed "[url]]".toList "url".toList := by
    have h : Bracketed ('[' :: "url".toList ++ ']' :: [']']) "url".toList := .intro (by decide +kernel)
    simpa using h
  obtain ⟨part, hread, hkey⟩ := (read_leftmost_run.1 "..image[url]]").2.2.1 _ _ _ hfirst
  rw [(hkey "url").mpr hpart, String.ofList_toList] at hread
  exact ⟨hfirst, hpart, hread⟩

end TermName

end VisibilityRules
