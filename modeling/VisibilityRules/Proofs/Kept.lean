import Mathlib.Data.List.Basic

/-!
# Members that are kept

In a list of operations, what one of them brings about lasts as long as all later ones keep it. One
more operation either brings it about itself, or keeps what there was.
-/

namespace VisibilityRules

variable {α : Type}

/-- Whether a member of a list, together with what stands before it, has a property, and all later
members keep it. -/
def Kept (brings : List α → α → Prop) (keeps : α → Prop) (xs : List α) : Prop :=
  ∃ before x later, xs = before ++ x :: later ∧ brings before x ∧ ∀ next ∈ later, keeps next

namespace Kept

variable {brings : List α → α → Prop} {keeps : α → Prop} {xs : List α} {x : α}

theorem not_nil : ¬Kept brings keeps [] := by
  rintro ⟨before, x, later, hsplit, _⟩
  simp at hsplit

theorem concat_iff :
    Kept brings keeps (xs ++ [x]) ↔ keeps x ∧ Kept brings keeps xs ∨ brings xs x := by
  constructor
  · intro h
    obtain ⟨before, first, later, hsplit, hbrings, hkeeps⟩ := h
    rcases List.eq_nil_or_concat later with rfl | ⟨later', last, rfl⟩
    · obtain ⟨rfl, hlast⟩ := List.append_inj' hsplit rfl
      cases hlast
      exact .inr hbrings
    · rw [List.concat_eq_append, ← List.cons_append, ← List.append_assoc] at hsplit
      obtain ⟨rfl, hlast⟩ := List.append_inj' hsplit rfl
      cases hlast
      rw [List.concat_eq_append] at hkeeps
      have hlast := hkeeps x (by simp)
      exact .inl ⟨hlast, before, first, later', rfl, hbrings,
        fun next hnext => hkeeps next (List.mem_append_left _ hnext)⟩
  · intro h
    rcases h with ⟨hx, before, first, later, rfl, hbrings, hkeeps⟩ | hbrings
    · refine ⟨before, first, later ++ [x], by simp, hbrings, ?_⟩
      intro next hnext
      rcases List.mem_append.mp hnext with hlater | hlast
      · exact hkeeps next hlater
      · rw [List.mem_singleton.mp hlast]
        exact hx
    · exact ⟨xs, x, [], rfl, hbrings, by simp⟩

end Kept

end VisibilityRules
