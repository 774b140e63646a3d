import Mathlib
import VisibilityRules.Number.Shortest

/-!
# Ranks and the decimals that read back to them

The doubles of ascending rank ascend strictly, so the intervals of decimals that read back to two
ranks do not meet. The shortest decimal of a positive double reads back to it.
-/

namespace VisibilityRules

theorem tenTo_pos (n : Nat) : 0 < tenTo n := Nat.pow_pos (by decide)

private theorem five_pow_mul_unitsInOne {n : Nat} (h : unitsInOne = twoTo n) :
    Nat.pow 5 n * unitsInOne = tenTo n := by
  rw [h]
  exact (Nat.mul_pow 5 2 n).symm

namespace Double

theorem unitsOfRank_below {rank : Nat} (h : rank < ranksInBlock) :
    unitsOfRank rank = rank := if_pos h

theorem unitsOfRank_block (block : Nat) {place : Nat} (h : place < ranksInBlock) :
    unitsOfRank ((block + 1) * ranksInBlock + place) = (ranksInBlock + place) * twoTo block := by
  have hpos : 0 < ranksInBlock := by decide
  have hge : ¬(block + 1) * ranksInBlock + place < ranksInBlock := by
    rw [Nat.succ_mul]
    omega
  have hdiv : ((block + 1) * ranksInBlock + place) / ranksInBlock = block + 1 := by
    rw [Nat.add_comm, Nat.add_mul_div_right _ _ hpos, Nat.div_eq_of_lt h, Nat.zero_add]
  have hmod : ((block + 1) * ranksInBlock + place) % ranksInBlock = place := by
    rw [Nat.add_comm, Nat.add_mul_mod_self_right, Nat.mod_eq_of_lt h]
  rw [unitsOfRank, if_neg hge, hdiv, hmod, Nat.add_sub_cancel]

theorem rank_cases (rank : Nat) :
    rank < ranksInBlock ∨
      ∃ block place, place < ranksInBlock ∧ rank = (block + 1) * ranksInBlock + place := by
  have hpos : 0 < ranksInBlock := by decide
  by_cases h : rank < ranksInBlock
  · exact .inl h
  · right
    have hquot : 1 ≤ rank / ranksInBlock := (Nat.one_le_div_iff hpos).mpr (by omega)
    refine ⟨rank / ranksInBlock - 1, rank % ranksInBlock, Nat.mod_lt _ hpos, ?_⟩
    rw [Nat.sub_add_cancel hquot, Nat.mul_comm, Nat.div_add_mod]

private theorem unitsOfRank_lt_succ (rank : Nat) : unitsOfRank rank < unitsOfRank (rank + 1) := by
  have hpos : 0 < ranksInBlock := by decide
  rcases rank_cases rank with hlow | ⟨block, place, hplace, rfl⟩
  · rw [unitsOfRank_below hlow]
    rcases Nat.lt_or_ge (rank + 1) ranksInBlock with hnext | hedge
    · rw [unitsOfRank_below hnext]
      exact Nat.lt_succ_self rank
    · have heq : rank + 1 = (0 + 1) * ranksInBlock + 0 := by omega
      rw [heq, unitsOfRank_block 0 hpos]
      simp only [twoTo, Nat.pow_eq, pow_zero]
      omega
  · have hunit := twoTo_pos block
    rw [unitsOfRank_block block hplace]
    rcases Nat.lt_or_ge (place + 1) ranksInBlock with hnext | hedge
    · rw [Nat.add_assoc, unitsOfRank_block block hnext]
      exact Nat.mul_lt_mul_of_pos_right (by omega) hunit
    · -- the last double of a block is followed by the first one of the next block
      have heq : (block + 1) * ranksInBlock + place + 1 = (block + 1 + 1) * ranksInBlock + 0 := by
        rw [Nat.succ_mul (block + 1)]
        omega
      rw [heq, unitsOfRank_block (block + 1) hpos, twoTo_succ]
      calc (ranksInBlock + place) * twoTo block
          < (ranksInBlock + ranksInBlock) * twoTo block :=
            Nat.mul_lt_mul_of_pos_right (by omega) hunit
        _ = (ranksInBlock + 0) * (2 * twoTo block) := by ring

theorem unitsOfRank_strictMono : StrictMono unitsOfRank := strictMono_nat_of_lt_succ unitsOfRank_lt_succ

end Double

namespace Decimal

/-- The number that a decimal stands for. -/
def value (d : Decimal) : ℚ := d.digits * 10 ^ d.exponent

private def doubled (d : Decimal) : ℚ := 2 * d.value * unitsInOne

private def lowEnd (rank : Nat) : ℚ :=
  Double.unitsOfRank (rank - 1) + Double.unitsOfRank rank

private def highEnd (rank : Nat) : ℚ :=
  Double.unitsOfRank rank + Double.unitsOfRank (rank + 1)

private theorem scaled (d : Decimal) :
    (↑(2 * (d.digits * tenTo d.exponent.toNat * unitsInOne)) : ℚ) =
      d.doubled * (tenTo (-d.exponent).toNat : ℕ) := by
  have hten : (10 : ℚ) ^ d.exponent * 10 ^ (-d.exponent).toNat = 10 ^ d.exponent.toNat := by
    rw [← zpow_natCast, ← zpow_natCast, ← zpow_add₀ (by norm_num)]
    congr 1
    omega
  generalize hunits : unitsInOne = units
  have hcast (n : Nat) : ((tenTo n : ℕ) : ℚ) = 10 ^ n := by
    rw [tenTo, Nat.pow_eq]
    push_cast
    rfl
  rw [doubled, value, hunits]
  push_cast
  rw [hcast, hcast, ← hten]
  ring

theorem readsBack_iff (rank : Nat) (d : Decimal) :
    d.readsBack rank ↔
      if rank % 2 = 0 then lowEnd rank ≤ d.doubled ∧ d.doubled ≤ highEnd rank
      else lowEnd rank < d.doubled ∧ d.doubled < highEnd rank := by
  have hpos : (0 : ℚ) < (tenTo (-d.exponent).toNat : ℕ) := by exact_mod_cast tenTo_pos _
  have hlow (units : ℕ) : units * tenTo (-d.exponent).toNat ≤
      2 * (d.digits * tenTo d.exponent.toNat * unitsInOne) ↔ (units : ℚ) ≤ d.doubled := by
    rw [← Nat.cast_le (α := ℚ), scaled, Nat.cast_mul, mul_le_mul_iff_left₀ hpos]
  have hhigh (units : ℕ) : 2 * (d.digits * tenTo d.exponent.toNat * unitsInOne) ≤
      units * tenTo (-d.exponent).toNat ↔ d.doubled ≤ (units : ℚ) := by
    rw [← Nat.cast_le (α := ℚ), scaled, Nat.cast_mul, mul_le_mul_iff_left₀ hpos]
  have hlow' (units : ℕ) : units * tenTo (-d.exponent).toNat <
      2 * (d.digits * tenTo d.exponent.toNat * unitsInOne) ↔ (units : ℚ) < d.doubled := by
    rw [← not_le, hhigh, not_le]
  have hhigh' (units : ℕ) : 2 * (d.digits * tenTo d.exponent.toNat * unitsInOne) <
      units * tenTo (-d.exponent).toNat ↔ d.doubled < (units : ℚ) := by
    rw [← not_le, hlow, not_le]
  unfold readsBack lowEnd highEnd
  dsimp only
  split
  · simp only [Bool.and_eq_true, decide_eq_true_eq, hlow, hhigh, Nat.cast_add]
  · simp only [Bool.and_eq_true, decide_eq_true_eq, hlow', hhigh', Nat.cast_add]

private theorem not_readsBack_both {rank other : Nat} (hlt : rank < other) {d e : Decimal}
    (hvalue : d.value = e.value) (hd : d.readsBack rank) : ¬e.readsBack other := by
  intro he
  rw [readsBack_iff] at hd he
  have heq : d.doubled = e.doubled := by rw [doubled, doubled, hvalue]
  have hmono := Double.unitsOfRank_strictMono
  have hhigh : d.doubled ≤ highEnd rank := by
    split at hd
    · exact hd.2
    · exact hd.2.le
  have hlow : lowEnd other ≤ e.doubled := by
    split at he
    · exact he.1
    · exact he.1.le
  rcases Nat.lt_or_ge (rank + 1) other with hfar | hnear
  · -- a whole double lies between the two
    have hfirst : (Double.unitsOfRank rank : ℚ) < Double.unitsOfRank (other - 1) := by
      exact_mod_cast hmono (by omega)
    have hsecond : (Double.unitsOfRank (rank + 1) : ℚ) < Double.unitsOfRank other := by
      exact_mod_cast hmono hfar
    unfold highEnd at hhigh
    unfold lowEnd at hlow
    linarith
  · -- the two are neighbours and share a midpoint, which belongs to the even one alone
    have hnext : other = rank + 1 := by omega
    have hmid : highEnd rank = lowEnd other := by
      rw [hnext, highEnd, lowEnd, Nat.add_sub_cancel]
    by_cases hpar : rank % 2 = 0
    · rw [if_neg (by omega)] at he
      linarith [he.1]
    · rw [if_neg hpar] at hd
      linarith [hd.2]

theorem readsBack_unique {rank other : Nat} {d e : Decimal} (hvalue : d.value = e.value)
    (hd : d.readsBack rank) (he : e.readsBack other) : rank = other := by
  rcases Nat.lt_trichotomy rank other with hlt | heq | hgt
  · exact absurd he (not_readsBack_both hlt hvalue hd)
  · exact heq
  · exact absurd hd (not_readsBack_both hgt hvalue.symm he)

private theorem doubled_exact {n power : Nat} (hpower : power * unitsInOne = tenTo n)
    (units : Nat) : doubled ⟨units * power, -n⟩ = 2 * units := by
  have hprod : (power : ℚ) * (unitsInOne : ℕ) = (10 : ℚ) ^ n := by
    rw [← Nat.cast_mul, hpower, tenTo, Nat.pow_eq, Nat.cast_pow]
    rfl
  have hten : (10 : ℚ) ^ n ≠ 0 := by positivity
  rw [doubled, value]
  dsimp only
  rw [zpow_neg, zpow_natCast, Nat.cast_mul]
  calc 2 * ((units : ℚ) * power * ((10 : ℚ) ^ n)⁻¹) * (unitsInOne : ℕ)
      = 2 * units * ((power : ℚ) * (unitsInOne : ℕ) * ((10 : ℚ) ^ n)⁻¹) := by ring
    _ = 2 * units := by rw [hprod, mul_inv_cancel₀ hten, mul_one]

private theorem exact_readsBack {n power : Nat} (hpower : power * unitsInOne = tenTo n)
    {rank : Nat} (h : 0 < rank) : readsBack rank ⟨Double.unitsOfRank rank * power, -n⟩ := by
  have hbelow : (Double.unitsOfRank (rank - 1) : ℚ) < Double.unitsOfRank rank := by
    exact_mod_cast Double.unitsOfRank_strictMono (Nat.sub_lt h Nat.one_pos)
  have habove : (Double.unitsOfRank rank : ℚ) < Double.unitsOfRank (rank + 1) := by
    exact_mod_cast Double.unitsOfRank_strictMono (Nat.lt_succ_self rank)
  rw [readsBack_iff, doubled_exact hpower, lowEnd, highEnd]
  split
  · constructor <;> linarith
  · constructor <;> linarith

private theorem readsBack_of_onGrid? {rank : Nat} {exponent : Int} {d : Decimal}
    (h : onGrid? rank exponent = some d) : d.readsBack rank := by
  unfold onGrid? at h
  dsimp only at h
  split at h
  · next hlower hupper =>
    rw [Option.some.injEq] at h
    rw [← h]
    split
    · exact hlower
    · exact hupper
  · next hlower _ => exact Option.some.inj h ▸ hlower
  · next _ hupper => exact Option.some.inj h ▸ hupper
  · simp at h

theorem shortest_readsBack {rank : Nat} (h : 0 < rank) : (shortest rank).readsBack rank := by
  -- the exponent of the least unit stays a variable, so that no power of it is computed
  obtain ⟨n, hn⟩ : ∃ n : Nat, n = 1074 := ⟨1074, rfl⟩
  have hunits : unitsInOne = twoTo n := by rw [hn, unitsInOne]
  have hexponent : (-1074 : Int) = -((1074 : Nat) : Int) := rfl
  unfold shortest
  dsimp only
  rw [hexponent, ← hn]
  cases hfound : (List.range 17).findSome? fun i =>
      onGrid? rank (pointOfRank rank - (i + 1 : Nat)) with
  | none => exact exact_readsBack (five_pow_mul_unitsInOne hunits) h
  | some d =>
    obtain ⟨i, _, hgrid⟩ := List.exists_of_findSome?_eq_some hfound
    exact readsBack_of_onGrid? hgrid

theorem value_pos_of_readsBack {rank : Nat} (h : 0 < rank) {d : Decimal}
    (hd : d.readsBack rank) : 0 < d.value := by
  have hlow : lowEnd rank ≤ d.doubled := by
    rw [readsBack_iff] at hd
    split at hd
    · exact hd.1
    · exact hd.1.le
  have hunits : (0 : ℚ) < Double.unitsOfRank rank := by
    exact_mod_cast (Nat.zero_le _).trans_lt (Double.unitsOfRank_strictMono h)
  have hrest : (0 : ℚ) ≤ Double.unitsOfRank (rank - 1) := Nat.cast_nonneg _
  have hone : (0 : ℚ) < unitsInOne := by exact_mod_cast twoTo_pos 1074
  unfold lowEnd doubled at hlow
  by_contra hneg
  nlinarith [mul_nonneg (sub_nonneg.mpr (not_lt.mp hneg)) hone.le]

end Decimal

end VisibilityRules
