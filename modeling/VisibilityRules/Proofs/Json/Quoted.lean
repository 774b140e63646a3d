import Mathlib
import VisibilityRules.Json.Quoted
import VisibilityRules.Proofs.Text.Numeral

/-!
# Quoted texts end where they end

The form of a character is no part of the form of another one and never starts with a quote. So a
quoted text can be told from whatever stands behind it, whichever characters stand for themselves.
-/

namespace VisibilityRules.Json

/-- Whether the code of an element can be told from whatever stands behind it. -/
def PrefixFree {α : Type} (code : α → List Char) : Prop :=
  ∀ a b r s, code a ++ r = code b ++ s → a = b ∧ r = s

theorem PrefixFree.flatMap {α : Type} {code : α → List Char} (h : PrefixFree code) {stop : Char}
    (hstop : ∀ a r s, code a ++ r ≠ stop :: s) :
    PrefixFree fun as : List α => as.flatMap code ++ [stop] := by
  intro as
  induction as with
  | nil =>
    intro bs r s heq
    cases bs with
    | nil => exact ⟨rfl, by simpa using heq⟩
    | cons b bs => exact absurd (by simpa using heq.symm) (hstop b _ r)
  | cons a as ih =>
    intro bs r s heq
    cases bs with
    | nil => exact absurd (by simpa using heq) (hstop a _ s)
    | cons b bs =>
      simp only [List.flatMap_cons, List.append_assoc] at heq
      obtain ⟨hhead, htail⟩ := h a b _ _ heq
      obtain ⟨hrest, hend⟩ := ih bs r s (by simpa using htail)
      rw [hhead, hrest]
      exact ⟨rfl, hend⟩

private theorem letter?_ne_u (c : Char) : letter? c ≠ some 'u' := by
  unfold letter?
  split <;> decide

private def unletter : Char → Char
  | 'b' => '\x08'
  | 't' => '\t'
  | 'n' => '\n'
  | 'f' => '\x0C'
  | 'r' => '\r'
  | l => l

private theorem eq_unletter {c l : Char} (h : letter? c = some l) : c = unletter l := by
  unfold letter? at h
  split at h <;> cases h <;> rfl

private theorem letter?_of_plain {c : Char} (h : letter? c = none) : c ≠ '\\' ∧ c ≠ '"' := by
  constructor
  · rintro rfl
    simp [letter?] at h
  · rintro rfl
    simp [letter?] at h

private theorem length_unitForm (unit : Nat) : (unitForm unit).length = 6 := by
  simp [unitForm]

private theorem unitForm_append_inj {m n : Nat} {r s : List Char} (hm : m < 0x10000)
    (hn : n < 0x10000) (h : unitForm m ++ r = unitForm n ++ s) : m = n ∧ r = s := by
  obtain ⟨hunit, hrest⟩ := List.append_inj h (by rw [length_unitForm, length_unitForm])
  simp only [unitForm, List.cons.injEq, true_and] at hunit
  exact ⟨Text.hexText_inj (by simpa using hm) (by simpa using hn) hunit, hrest⟩

private theorem toNat_cases (c : Char) :
    c.toNat < 0xD800 ∨ 0xDFFF < c.toNat ∧ c.toNat < 0x110000 := c.valid

/-- The first unit of a character tells whether a second one follows. -/
private theorem unitsForm_append_inj (c d : Char) (r s : List Char)
    (h : unitsForm c ++ r = unitsForm d ++ s) : c = d ∧ r = s := by
  have hc := toNat_cases c
  have hd := toNat_cases d
  unfold unitsForm at h
  split at h
  · split at h
    · next hlow hlow' =>
      obtain ⟨hunit, hrest⟩ := unitForm_append_inj hlow hlow' h
      exact ⟨Char.toNat_inj.mp hunit, hrest⟩
    · rw [List.append_assoc] at h
      obtain ⟨hunit, _⟩ := unitForm_append_inj (by omega) (by omega) h
      omega
  · split at h
    · rw [List.append_assoc] at h
      obtain ⟨hunit, _⟩ := unitForm_append_inj (by omega) (by omega) h
      omega
    · rw [List.append_assoc, List.append_assoc] at h
      obtain ⟨hhigh, htail⟩ := unitForm_append_inj (by omega) (by omega) h
      obtain ⟨hlow, hrest⟩ := unitForm_append_inj (by omega) (by omega) htail
      exact ⟨Char.toNat_inj.mp (by omega), hrest⟩

private theorem unitsForm_cons (c : Char) : ∃ rest, unitsForm c = '\\' :: 'u' :: rest := by
  unfold unitsForm
  split <;> exact ⟨_, rfl⟩

private theorem quotedChar_cases (plain : Char → Bool) (c : Char) :
    (∃ l, letter? c = some l ∧ quotedChar plain c = ['\\', l]) ∨
      (c ≠ '\\' ∧ c ≠ '"' ∧ quotedChar plain c = [c]) ∨
      quotedChar plain c = unitsForm c := by
  unfold quotedChar
  cases h : letter? c with
  | some l => exact .inl ⟨l, rfl, rfl⟩
  | none =>
    right
    dsimp only
    split
    · exact .inl ⟨(letter?_of_plain h).1, (letter?_of_plain h).2, rfl⟩
    · exact .inr rfl

theorem prefixFree_quotedChar (plain : Char → Bool) : PrefixFree (quotedChar plain) := by
  intro c d r s h
  obtain ⟨us, hus⟩ := unitsForm_cons c
  obtain ⟨vs, hvs⟩ := unitsForm_cons d
  rcases quotedChar_cases plain c with ⟨l, hl, hc⟩ | ⟨hslash, _, hc⟩ | hc
  · rcases quotedChar_cases plain d with ⟨m, hm, hd⟩ | ⟨hslash', _, hd⟩ | hd
    · rw [hc, hd] at h
      obtain ⟨hletter, hrest⟩ := List.cons.inj (List.cons.inj h).2
      exact ⟨(eq_unletter hl).trans (hletter ▸ (eq_unletter hm).symm), hrest⟩
    · rw [hc, hd] at h
      exact absurd (List.cons.inj h).1.symm hslash'
    · rw [hc, hd, hvs] at h
      have hletter : l = 'u' := (List.cons.inj (List.cons.inj h).2).1
      exact absurd (hletter ▸ hl) (letter?_ne_u c)
  · rcases quotedChar_cases plain d with ⟨m, hm, hd⟩ | ⟨_, _, hd⟩ | hd
    · rw [hc, hd] at h
      exact absurd (List.cons.inj h).1 hslash
    · rw [hc, hd] at h
      exact ⟨(List.cons.inj h).1, (List.cons.inj h).2⟩
    · rw [hc, hd, hvs] at h
      exact absurd (List.cons.inj h).1 hslash
  · rcases quotedChar_cases plain d with ⟨m, hm, hd⟩ | ⟨hslash', _, hd⟩ | hd
    · rw [hc, hd, hus] at h
      have hletter : 'u' = m := (List.cons.inj (List.cons.inj h).2).1
      exact absurd (hletter ▸ hm) (letter?_ne_u d)
    · rw [hc, hd, hus] at h
      exact absurd (List.cons.inj h).1.symm hslash'
    · rw [hc, hd] at h
      exact unitsForm_append_inj c d r s h

private theorem quotedChar_ne_quote (plain : Char → Bool) (c : Char) (r s : List Char) :
    quotedChar plain c ++ r ≠ '"' :: s := by
  intro h
  rcases quotedChar_cases plain c with ⟨l, _, hc⟩ | ⟨_, hquote, hc⟩ | hc
  · rw [hc] at h
    exact absurd (List.cons.inj h).1 (by decide)
  · rw [hc] at h
    exact hquote (List.cons.inj h).1
  · obtain ⟨us, hus⟩ := unitsForm_cons c
    rw [hc, hus] at h
    exact absurd (List.cons.inj h).1 (by decide)

/-- Nothing that stands behind a quoted text can be taken for a part of it. -/
theorem prefixFree_quoted (plain : Char → Bool) : PrefixFree (quoted plain) := by
  intro s t r r' h
  unfold quoted at h
  have hbody := (List.cons.inj h).2
  obtain ⟨hchars, hrest⟩ :=
    (prefixFree_quotedChar plain).flatMap (quotedChar_ne_quote plain) _ _ _ _ hbody
  exact ⟨String.toList_inj.mp hchars, hrest⟩

end VisibilityRules.Json
