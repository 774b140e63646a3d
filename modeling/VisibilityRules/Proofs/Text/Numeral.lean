import Mathlib
import VisibilityRules.Text.Numeral

/-!
# Values of numerals

A numeral in base ten is found again in its value, zeros in front of digits change nothing, and
zeros behind them multiply. In base sixteen a fixed width tells all numbers apart that fit into it.
-/

namespace VisibilityRules.Text

/-- A letter, a digit, a point or a sign: what constants and numerals are made of. -/
def IsBareChar (c : Char) : Prop := c.isAlphanum ∨ c = '.' ∨ c = '-' ∨ c = '+'

theorem IsBareChar.of_isDigit {c : Char} (h : c.isDigit) : IsBareChar c := by
  left
  rw [Char.isAlphanum, h, Bool.or_true]

theorem isBareChar_of_all (word : List Char) (h : word.all Char.isAlphanum) :
    ∀ c ∈ word, IsBareChar c := fun c hc => .inl (List.all_eq_true.mp h c hc)

theorem not_isLower_of_isDigit {c : Char} (h : c.isDigit) : ¬c.isLower := by
  simp only [Char.isDigit, Char.isLower, ge_iff_le, Bool.and_eq_true, decide_eq_true_eq,
    UInt32.le_iff_toNat_le] at h ⊢
  have hhigh : c.val.toNat ≤ 57 := h.2
  rintro ⟨hlow, _⟩
  have hlow' : 97 ≤ c.val.toNat := hlow
  omega

theorem natText_isDigit {n : Nat} {c : Char} (h : c ∈ natText n) : c.isDigit :=
  Nat.isDigit_of_mem_toDigits (by decide) (by decide) h

theorem span_digits {digits rest : List Char} (hd : ∀ c ∈ digits, c.isDigit)
    (hr : ∀ c ∈ rest.head?, ¬c.isDigit) :
    (digits ++ rest).takeWhile Char.isDigit = digits ∧
      (digits ++ rest).dropWhile Char.isDigit = rest := by
  rw [List.takeWhile_append_of_pos hd, List.dropWhile_append_of_pos hd]
  cases rest with
  | nil => simp
  | cons c rest =>
    have hc : ¬c.isDigit := hr c rfl
    rw [List.takeWhile_cons_of_neg hc, List.dropWhile_cons_of_neg hc, List.append_nil]
    exact ⟨rfl, rfl⟩

theorem natText_ne_nil (n : Nat) : natText n ≠ [] := Nat.toDigits_ne_nil

private theorem digitChar_ne_zero : ∀ d < 10, 0 < d → Nat.digitChar d ≠ '0' := by decide

theorem natText_head {n : Nat} (h : 0 < n) : ∃ c rest, natText n = c :: rest ∧ c ≠ '0' := by
  induction n using Nat.strong_induction_on with
  | h n ih =>
    unfold natText at ih ⊢
    by_cases hn : n < 10
    · exact ⟨_, [], Nat.toDigits_of_lt_base hn, digitChar_ne_zero n hn h⟩
    · obtain ⟨c, rest, hfront, hc⟩ := ih (n / 10) (by omega) (by omega)
      rw [Nat.toDigits_of_base_le (by decide) (by omega), hfront]
      exact ⟨c, _, rfl, hc⟩

@[simp] theorem natValue_natText (n : Nat) : natValue (natText n) = n := Nat.ofDigitChars_ten_toDigits

theorem natText_injective : Function.Injective natText :=
  Function.LeftInverse.injective natValue_natText

theorem intText_isDigit {n : Int} {c : Char} (h : c ∈ intText n) : c.isDigit ∨ c = '-' := by
  cases n with
  | ofNat n => exact .inl (natText_isDigit h)
  | negSucc n =>
    rcases List.mem_cons.mp h with rfl | hmem
    · exact .inr rfl
    · exact .inl (natText_isDigit hmem)

theorem intText_ne_nil (n : Int) : intText n ≠ [] := by
  cases n with
  | ofNat n => exact natText_ne_nil n
  | negSucc n => exact List.cons_ne_nil _ _

private theorem natText_ne_minus_cons (n : Nat) (rest : List Char) : natText n ≠ '-' :: rest := by
  intro h
  have hdigit : '-'.isDigit := natText_isDigit (n := n) (h ▸ List.mem_cons_self)
  exact absurd hdigit (by decide)

theorem intText_injective : Function.Injective intText := by
  intro m n h
  cases m with
  | ofNat m =>
    cases n with
    | ofNat n => rw [natText_injective h]
    | negSucc n => exact absurd h (natText_ne_minus_cons m _)
  | negSucc m =>
    cases n with
    | ofNat n => exact absurd h.symm (natText_ne_minus_cons n _)
    | negSucc n =>
      have hsucc : m + 1 = n + 1 := natText_injective (List.cons.inj h).2
      rw [Nat.succ.inj hsucc]

@[simp] theorem natValue_zeros_append (count : Nat) (digits : List Char) :
    natValue (List.replicate count '0' ++ digits) = natValue digits := by
  rw [natValue, Nat.ofDigitChars_append, Nat.ofDigitChars_replicate_zero, Nat.mul_zero]
  rfl

theorem natValue_append_zeros (digits : List Char) (count : Nat) :
    natValue (digits ++ List.replicate count '0') = 10 ^ count * natValue digits := by
  rw [natValue, Nat.ofDigitChars_append, Nat.ofDigitChars_replicate_zero]
  rfl

@[simp] theorem length_hexText (width n : Nat) : (hexText width n).length = width := by
  induction width generalizing n with
  | zero => rfl
  | succ width ih => rw [hexText, List.length_append, ih, List.length_singleton]

private theorem digitChar_hex_injective : ∀ m < 16, ∀ n < 16,
    Nat.digitChar m = Nat.digitChar n → m = n := by
  decide

theorem hexText_inj {width m n : Nat} (hm : m < 16 ^ width) (hn : n < 16 ^ width)
    (h : hexText width m = hexText width n) : m = n := by
  induction width generalizing m n with
  | zero => omega
  | succ width ih =>
    rw [hexText, hexText] at h
    obtain ⟨hfront, hlast⟩ := List.append_inj h (by simp)
    rw [pow_succ] at hm hn
    have hdiv : m / 16 = n / 16 :=
      ih (Nat.div_lt_of_lt_mul (by omega)) (Nat.div_lt_of_lt_mul (by omega)) hfront
    have hmod : m % 16 = n % 16 :=
      digitChar_hex_injective _ (Nat.mod_lt _ (by decide)) _ (Nat.mod_lt _ (by decide))
        (List.singleton_inj.mp hlast)
    omega

end VisibilityRules.Text
