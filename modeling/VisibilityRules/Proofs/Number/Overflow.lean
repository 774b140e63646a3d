import Mathlib
import VisibilityRules.Number.Rounding

/-!
# Integers beyond the doubles

The last finite double lies one unit of 2^971 below 2^1024. An integer has a nearest finite double
exactly if it lies nearer to the last one than to 2^1024; halfway between the two, the tie goes to
the rank that is no longer finite.
-/

namespace VisibilityRules

section HalfEven

variable {num den k : Nat}

theorem le_roundHalfEven (hden : 0 < den) (h : k * den ≤ num) : k ≤ roundHalfEven num den := by
  have hwhole : k ≤ num / den := (Nat.le_div_iff_mul_le hden).mpr h
  unfold roundHalfEven
  dsimp only
  split <;> omega

theorem roundHalfEven_le (hden : 0 < den) (h : num ≤ k * den) : roundHalfEven num den ≤ k := by
  have hwhole : num / den ≤ k := Nat.div_le_of_le_mul (by rwa [Nat.mul_comm])
  have hsplit := Nat.div_add_mod' num den
  unfold roundHalfEven
  dsimp only
  split
  · exact hwhole
  · next hup =>
    rcases Nat.lt_or_eq_of_le hwhole with hlt | rfl
    · exact hlt
    · -- nothing is left over, so nothing is rounded up
      have hnone : num % den = 0 := by omega
      exact absurd (Or.inl (by omega)) hup

/-- A ratio is rounded up past an odd integer from halfway on. -/
theorem succ_le_roundHalfEven_iff (hden : 0 < den) (hodd : k % 2 = 1) :
    k + 1 ≤ roundHalfEven num den ↔ (2 * k + 1) * den ≤ 2 * num := by
  have hsplit := Nat.div_add_mod' num den
  have hmod := Nat.mod_lt num hden
  have hexpand : (2 * k + 1) * den = 2 * (k * den) + den := by ring
  rcases Nat.lt_trichotomy (num / den) k with hlt | rfl | hgt
  · have hbelow : (num / den + 1) * den ≤ k * den := Nat.mul_le_mul_right den hlt
    rw [Nat.succ_mul] at hbelow
    have hle : roundHalfEven num den ≤ k := roundHalfEven_le hden (by omega)
    omega
  · unfold roundHalfEven
    dsimp only
    split <;> omega
  · have habove : (k + 1) * den ≤ num / den * den := Nat.mul_le_mul_right den hgt
    have hge : k + 1 ≤ roundHalfEven num den := le_roundHalfEven hden (by omega)
    rw [Nat.succ_mul] at habove
    omega

end HalfEven

private theorem log2_scaled {m k : Nat} (n : Nat) (hlow : twoTo k ≤ m) (hhigh : m < twoTo (k + 1)) :
    (m * twoTo n).log2 = k + n := by
  have hpos : 0 < m * twoTo n := Nat.mul_pos ((twoTo_pos k).trans_le hlow) (twoTo_pos n)
  have hlow' : twoTo (k + n) ≤ m * twoTo n := by
    rw [twoTo_add]
    exact Nat.mul_le_mul_right _ hlow
  have hhigh' : m * twoTo n < twoTo (k + n + 1) := by
    rw [Nat.add_right_comm, twoTo_add]
    exact Nat.mul_lt_mul_of_pos_right hhigh (twoTo_pos n)
  exact (Nat.log2_eq_iff hpos.ne').mpr ⟨hlow', hhigh'⟩

namespace Double

/-- The nearest rank of an integer of `k + 1` bits, with its unit and the place in its block. -/
private theorem nearestRank_of_bits {m k : Nat} (hlow : twoTo k ≤ m) (hhigh : m < twoTo (k + 1)) :
    nearestRank m 1 = (k + 1022) * ranksInBlock +
      roundHalfEven (m * unitsInOne) (twoTo (k + 1022)) := by
  have hlog : (m * unitsInOne).log2 = k + 1074 := log2_scaled 1074 hlow hhigh
  have hdoublings : k + 1074 + 1 - 53 = k + 1022 := by omega
  have hpos : m ≠ 0 := ((twoTo_pos k).trans_le hlow).ne'
  unfold nearestRank
  generalize m * unitsInOne = units at hlog ⊢
  rw [if_neg hpos]
  dsimp only
  rw [Nat.div_one, hlog, hdoublings, Nat.one_mul]

private theorem twoTo_mul_unitsInOne (k : Nat) (n : Nat) :
    twoTo (k + n) * unitsInOne = twoTo (n + 52) * twoTo (k + 1022) := by
  have hexponent : k + n + 1074 = n + 52 + (k + 1022) := by omega
  rw [unitsInOne, ← twoTo_add, ← twoTo_add, hexponent]

private theorem place_bounds {m k : Nat} (hlow : twoTo k ≤ m) (hhigh : m < twoTo (k + 1)) :
    ranksInBlock ≤ roundHalfEven (m * unitsInOne) (twoTo (k + 1022)) ∧
      roundHalfEven (m * unitsInOne) (twoTo (k + 1022)) ≤ 2 * ranksInBlock := by
  have hlow' := Nat.mul_le_mul_right unitsInOne hlow
  have hhigh' := Nat.mul_le_mul_right unitsInOne hhigh.le
  rw [twoTo_mul_unitsInOne k 1] at hhigh'
  have hone := twoTo_mul_unitsInOne k 0
  rw [Nat.add_zero] at hone
  rw [hone] at hlow'
  exact ⟨le_roundHalfEven (twoTo_pos _) hlow', roundHalfEven_le (twoTo_pos _) hhigh'⟩

private theorem half_past_last_place (m e n : Nat) :
    2 * ranksInBlock ≤ roundHalfEven (m * twoTo n) (twoTo (e + (n + 1))) ↔
      twoTo (e + 54) - twoTo e ≤ m := by
  have hlast : 2 * ranksInBlock = (2 * ranksInBlock - 1) + 1 := by decide
  have hcount : 2 * (2 * ranksInBlock - 1) + 1 = twoTo 54 - 1 := by decide
  have hbound : twoTo (e + 54) - twoTo e = (twoTo 54 - 1) * twoTo e := by
    rw [Nat.sub_mul, ← twoTo_add, Nat.one_mul, Nat.add_comm]
  have htwice : 2 * (m * twoTo n) = m * twoTo (n + 1) := by
    rw [twoTo_succ]
    ring
  rw [hlast, succ_le_roundHalfEven_iff (twoTo_pos _) (by decide), hcount, hbound, htwice,
    twoTo_add e, ← Nat.mul_assoc]
  exact Nat.mul_le_mul_right_iff (twoTo_pos _)

private theorem beyond_ranks_iff (m : Nat) :
    2047 * ranksInBlock ≤ nearestRank m 1 ↔ twoTo 1024 - twoTo 970 ≤ m := by
  have hblock : 0 < ranksInBlock := by decide
  have hhalf := twoTo_succ 1023
  simp only [Nat.reduceAdd] at hhalf
  have hsmall : twoTo 970 ≤ twoTo 1023 := twoTo_le (by decide)
  have hpos := twoTo_pos 1023
  rcases Nat.eq_zero_or_pos m with rfl | hm
  · have hzero : nearestRank 0 1 = 0 := if_pos rfl
    rw [hzero]
    omega
  have hlow : twoTo m.log2 ≤ m := Nat.log2_self_le hm.ne'
  have hhigh : m < twoTo (m.log2 + 1) := Nat.lt_log2_self
  obtain ⟨hfrom, hto⟩ := place_bounds hlow hhigh
  rw [nearestRank_of_bits hlow hhigh]
  generalize m.log2 = k at *
  rcases Nat.lt_trichotomy k 1023 with hless | rfl | hmore
  · have hle : twoTo (k + 1) ≤ twoTo 1023 := twoTo_le hless
    have hrank := Nat.mul_le_mul_right ranksInBlock (show k + 1022 ≤ 2044 by omega)
    omega
  · have hplace := half_past_last_place m 970 1074
    simp only [Nat.reduceAdd, unitsInOne] at hplace ⊢
    omega
  · have hle : twoTo 1024 ≤ twoTo k := twoTo_le hmore
    have hrank := Nat.mul_le_mul_right ranksInBlock (show 2046 ≤ k + 1022 by omega)
    omega

/-- An integer has no nearest finite double from halfway between the last one and 2^1024 on. -/
theorem ofInt?_eq_none_iff (n : Int) : ofInt? n = none ↔ twoTo 1024 - twoTo 970 ≤ n.natAbs := by
  have hranks : 2047 * ranksInBlock = 0x7FF0000000000000 := rfl
  rw [← beyond_ranks_iff, hranks]
  unfold ofInt? ofRatio ofRank
  by_cases h : nearestRank n.natAbs 1 < 0x7FF0000000000000
  · rw [dif_pos h]
    simpa using h
  · rw [dif_neg h]
    simpa using h

end Double

end VisibilityRules
