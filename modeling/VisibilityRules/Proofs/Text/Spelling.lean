import Mathlib.Data.List.TakeWhile
import VisibilityRules.Text.Blank
import VisibilityRules.Text.Case

/-!
# Spellings of a word

Blanks around a word and the case of its ASCII letters make up its spelling. Whatever is trimmed and
then taken in one case is the same in all spellings.
-/

namespace VisibilityRules.Text

/-- Whether a text is another one with blanks around it and with ASCII letters in other case. -/
def Respelled (s t : String) : Prop :=
  ∃ before body after, t.toList = before ++ body ++ after ∧
    (∀ c ∈ before, isBlank c) ∧ (∀ c ∈ after, isBlank c) ∧
    -- lowering a character changes ASCII letters only
    body.map Char.toLower = s.toList.map Char.toLower

/-! ### Case -/

def capitals : List Char := "ABCDEFGHIJKLMNOPQRSTUVWXYZ".toList

private theorem ofNat_mem_capitals :
    ∀ n : Nat, n < 91 → 65 ≤ n → Char.ofNat n ∈ capitals := by
  decide +kernel

theorem toLower_eq_self_or_mem_capitals (c : Char) : c.toLower = c ∨ c ∈ capitals := by
  unfold Char.toLower
  split
  · next h =>
    right
    have hlow : 65 ≤ c.toNat := h.1
    have hhigh : c.toNat ≤ 90 := h.2
    rw [← Char.ofNat_toNat c]
    exact ofNat_mem_capitals c.toNat (by omega) hlow
  · exact .inl rfl

/-- What is the same for the capitals and their small letters does not depend on case. -/
private theorem apply_toLower {α : Type} {f : Char → α}
    (h : capitals.map (fun c => f c.toLower) = capitals.map f) (c : Char) : f c.toLower = f c := by
  rcases toLower_eq_self_or_mem_capitals c with hself | hmem
  · rw [hself]
  · exact List.map_inj_left.mp h c hmem

theorem isBlank_toLower (c : Char) : isBlank c.toLower = isBlank c :=
  apply_toLower (by decide +kernel) c

theorem lowerForm_toLower (c : Char) : lowerForm c.toLower = lowerForm c :=
  apply_toLower (by decide +kernel) c

theorem upperForm_toLower (c : Char) : upperForm c.toLower = upperForm c :=
  apply_toLower (by decide +kernel) c

theorem lowerWord_map_toLower (cs : List Char) : lowerWord (cs.map Char.toLower) = lowerWord cs := by
  rw [lowerWord, List.map_map]
  exact List.map_congr_left fun c _ => lowerForm_toLower c

theorem upperWord_map_toLower (cs : List Char) : upperWord (cs.map Char.toLower) = upperWord cs := by
  rw [upperWord, List.flatMap_map]
  simp only [upperForm_toLower]
  rfl

/-! ### Blanks -/

section Trim

variable {p : Char → Bool} {cs blanks : List Char}

theorem trim_append_left (h : ∀ c ∈ blanks, p c) (cs : List Char) :
    trim p (blanks ++ cs) = trim p cs := by
  rw [trim, List.dropWhile_append_of_pos h]
  rfl

theorem trim_append_right (cs : List Char) (h : ∀ c ∈ blanks, p c) :
    trim p (cs ++ blanks) = trim p cs := by
  unfold trim
  rw [List.dropWhile_append]
  split
  · next hempty =>
    have hnone : blanks.dropWhile p = [] := List.dropWhile_eq_nil_iff.mpr h
    rw [hnone, List.isEmpty_iff.mp hempty]
  · have hreverse : ∀ c ∈ blanks.reverse, p c := fun c hc => h c (List.mem_reverse.mp hc)
    rw [List.reverse_append, List.dropWhile_append_of_pos hreverse]

theorem trim_map {f : Char → Char} (h : ∀ c, p (f c) = p c) (cs : List Char) :
    trim p (cs.map f) = (trim p cs).map f := by
  have hp : p ∘ f = p := funext h
  rw [trim, trim, List.dropWhile_map, hp, ← List.map_reverse, List.dropWhile_map, hp,
    ← List.map_reverse]

end Trim

/-! ### Spellings -/

namespace Respelled

variable {s t : String}

/-- In all spellings of a word the same is left between the blanks, apart from case. -/
theorem trim_map_toLower (h : Respelled s t) :
    (trim isBlank t.toList).map Char.toLower = (trim isBlank s.toList).map Char.toLower := by
  obtain ⟨before, body, after, hsplit, hbefore, hafter, hcase⟩ := h
  rw [hsplit, trim_append_right _ hafter, trim_append_left hbefore, ← trim_map isBlank_toLower,
    hcase, trim_map isBlank_toLower]

theorem lowerWord_trim (h : Respelled s t) :
    lowerWord (trim isBlank t.toList) = lowerWord (trim isBlank s.toList) := by
  rw [← lowerWord_map_toLower, h.trim_map_toLower, lowerWord_map_toLower]

theorem upperWord_trim (h : Respelled s t) :
    upperWord (trim isBlank t.toList) = upperWord (trim isBlank s.toList) := by
  rw [← upperWord_map_toLower, h.trim_map_toLower, upperWord_map_toLower]

end Respelled

end VisibilityRules.Text
