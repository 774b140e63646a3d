import VisibilityRules.Proofs.Number.Line
import VisibilityRules.Proofs.Number.Overflow

/-!
# The nearest double of an integer

No finite double lies nearer to an integer than the one that the integer is rounded to. An integer
that is the value of a double is rounded to that value, as are all integers of at most 53 bits.
-/

namespace VisibilityRules

private theorem roundHalfEven_cases (num den : Nat) :
    roundHalfEven num den = num / den ∧ 2 * (num % den) ≤ den ∨
      roundHalfEven num den = num / den + 1 ∧ den ≤ 2 * (num % den) := by
  unfold roundHalfEven
  dsimp only
  split
  · exact .inl ⟨rfl, by omega⟩
  · exact .inr ⟨rfl, by omega⟩

namespace Double

/-- Up to the first rank of the next block, ranks count units of the block. -/
theorem unitsOfRank_add {block count : Nat} (hhigh : count ≤ 2 * ranksInBlock)
    (hlow : block = 0 ∨ ranksInBlock ≤ count) :
    unitsOfRank (block * ranksInBlock + count) = count * twoTo block := by
  have hpos : 0 < ranksInBlock := by decide
  rcases Nat.lt_or_ge count ranksInBlock with hbelow | hfrom
  · have hzero : block = 0 := hlow.resolve_right (Nat.not_le.mpr hbelow)
    rw [hzero, Nat.zero_mul, Nat.zero_add, unitsOfRank_below hbelow]
    exact (Nat.mul_one count).symm
  rcases Nat.lt_or_eq_of_le hhigh with hless | rfl
  · have hrank : block * ranksInBlock + count =
        (block + 1) * ranksInBlock + (count - ranksInBlock) := by
      rw [Nat.succ_mul]
      omega
    rw [hrank, unitsOfRank_block block (by omega), Nat.add_sub_cancel' hfrom]
  · have hrank : block * ranksInBlock + 2 * ranksInBlock = (block + 1 + 1) * ranksInBlock + 0 := by
      ring
    rw [hrank, unitsOfRank_block (block + 1) hpos, twoTo_succ]
    ring

/-- The block in which an integer is measured, given in units of the least double. -/
private def blockOfUnits (units : Nat) : Nat := units.log2 + 1 - 53

private theorem nearestRank_one (num : Nat) :
    nearestRank num 1 = blockOfUnits (num * unitsInOne) * ranksInBlock +
      roundHalfEven (num * unitsInOne) (twoTo (blockOfUnits (num * unitsInOne))) := by
  by_cases h : num = 0
  · rw [h, Nat.zero_mul]
    rfl
  · unfold nearestRank blockOfUnits
    generalize num * unitsInOne = units
    rw [if_neg h]
    dsimp only
    rw [Nat.div_one, Nat.one_mul]

private theorem quotient_bounds (units : Nat) :
    units / twoTo (blockOfUnits units) < 2 * ranksInBlock ∧
      (blockOfUnits units = 0 ∨ ranksInBlock ≤ units / twoTo (blockOfUnits units)) := by
  have hblock : ranksInBlock = twoTo 52 := rfl
  have hhigh : units < twoTo (units.log2 + 1) := Nat.lt_log2_self
  by_cases hsmall : units.log2 + 1 ≤ 53
  · have hzero : blockOfUnits units = 0 := Nat.sub_eq_zero_of_le hsmall
    have hle : twoTo (units.log2 + 1) ≤ twoTo 53 := twoTo_le hsmall
    rw [hzero]
    exact ⟨by simpa [twoTo, hblock] using hhigh.trans_le hle, .inl rfl⟩
  · have hbits : units.log2 = 52 + blockOfUnits units := by
      unfold blockOfUnits
      omega
    have hlow : twoTo units.log2 ≤ units := by
      refine Nat.log2_self_le ?_
      rintro rfl
      simp at hsmall
    rw [Nat.div_lt_iff_lt_mul (twoTo_pos _), Nat.le_div_iff_mul_le (twoTo_pos _), hblock]
    rw [twoTo_succ, hbits, twoTo_add, ← Nat.mul_assoc] at hhigh
    rw [hbits, twoTo_add] at hlow
    exact ⟨hhigh, .inr hlow⟩

/-- No rank has a double nearer to an integer than its nearest rank has. -/
theorem nearestRank_nearest (num rank : Nat) :
    Nat.dist (unitsOfRank (nearestRank num 1)) (num * unitsInOne) ≤
      Nat.dist (unitsOfRank rank) (num * unitsInOne) := by
  rw [nearestRank_one]
  generalize num * unitsInOne = units
  obtain ⟨hhigh, hlow⟩ := quotient_bounds units
  generalize blockOfUnits units = block at *
  have hlow' : block = 0 ∨ ranksInBlock ≤ units / twoTo block + 1 := hlow.imp_right (by omega)
  -- the doubles on both sides of the integer
  have hleft := unitsOfRank_add hhigh.le hlow
  have hright := unitsOfRank_add (show units / twoTo block + 1 ≤ _ from hhigh) hlow'
  rw [← Nat.add_assoc] at hright
  have hsplit := Nat.div_add_mod' units (twoTo block)
  have hmod := Nat.mod_lt units (twoTo_pos block)
  have hsides : unitsOfRank rank ≤ units / twoTo block * twoTo block ∨
      (units / twoTo block + 1) * twoTo block ≤ unitsOfRank rank := by
    rw [← hleft, ← hright]
    rcases Nat.lt_or_ge (block * ranksInBlock + units / twoTo block) rank with hright | hleft
    · exact .inr (unitsOfRank_strictMono.monotone hright)
    · exact .inl (unitsOfRank_strictMono.monotone hleft)
  rw [Nat.succ_mul] at hsides hright
  rcases roundHalfEven_cases units (twoTo block) with ⟨hround, hhalf⟩ | ⟨hround, hhalf⟩
  · rw [hround, hleft, Nat.dist, Nat.dist]
    omega
  · rw [hround, ← Nat.add_assoc, hright, Nat.dist, Nat.dist]
    omega

/-- An integer that lies at a rank has that rank as its nearest one. -/
theorem nearestRank_of_units {num rank : Nat} (h : unitsOfRank rank = num * unitsInOne) :
    nearestRank num 1 = rank := by
  have hnear := nearestRank_nearest num rank
  rw [h, Nat.dist_self, Nat.le_zero] at hnear
  rw [← unitsOfRank_strictMono.injective.eq_iff, h]
  exact Nat.eq_of_dist_eq_zero hnear

theorem magnitude_nonneg (rank : Nat) : 0 ≤ magnitude rank := by
  rw [magnitude_eq]
  exact mul_nonneg (Nat.cast_nonneg _) unit_pos.le

private theorem magnitude_of_units {rank m : Nat} (h : unitsOfRank rank = m * unitsInOne) :
    magnitude rank = m := by
  rw [magnitude_eq, h, Nat.cast_mul, mul_assoc, unitsInOne_mul_unit, mul_one]

private theorem abs_magnitude_sub (rank m : Nat) :
    |magnitude rank - m| = Nat.dist (unitsOfRank rank) (m * unitsInOne) * unit := by
  have hm : (m : ℝ) = (m * unitsInOne : ℕ) * unit := by
    rw [Nat.cast_mul, mul_assoc, unitsInOne_mul_unit, mul_one]
  rw [magnitude_eq, hm, ← sub_mul, abs_mul, abs_of_pos unit_pos]
  congr 1
  generalize m * unitsInOne = units
  rcases le_total (unitsOfRank rank) units with hle | hle
  · rw [Nat.dist_eq_sub_of_le hle, Nat.cast_sub hle, abs_sub_comm, abs_of_nonneg]
    exact sub_nonneg.mpr (by exact_mod_cast hle)
  · rw [Nat.dist_eq_sub_of_le_right hle, Nat.cast_sub hle, abs_of_nonneg]
    exact sub_nonneg.mpr (by exact_mod_cast hle)

private noncomputable def signed (negative : Bool) (r : ℝ) : ℝ := if negative then -r else r

private theorem cast_natAbs_real (n : Int) : (n.natAbs : ℝ) = |(n : ℝ)| := by
  rw [Nat.cast_natAbs, Int.cast_abs]

private theorem signed_natAbs (n : Int) : signed (n < 0) n.natAbs = n := by
  rw [cast_natAbs_real, signed]
  by_cases h : n < 0
  · have hreal : (n : ℝ) < 0 := by exact_mod_cast h
    rw [if_pos (decide_eq_true h), abs_of_neg hreal, neg_neg]
  · have hreal : (0 : ℝ) ≤ n := by exact_mod_cast not_lt.mp h
    rw [if_neg (by simpa using h), abs_of_nonneg hreal]

private theorem abs_signed_sub (n : Int) (r : ℝ) :
    |signed (n < 0) r - n| = |r - n.natAbs| := by
  rw [← signed_natAbs n]
  unfold signed
  split
  · rw [neg_sub_neg, abs_sub_comm]
  · rfl

private theorem value?_finite (negative : Bool) (rank : Fin 0x7FF0000000000000) :
    (finite negative rank).value? = some ((signed negative (magnitude rank) : ℝ) : EReal) := rfl

private theorem exists_rank_of_value {x : Double} {r : ℝ} (h : x.value? = some (r : EReal)) :
    ∃ rank : Fin 0x7FF0000000000000, |r| = magnitude rank := by
  cases x with
  | nan => simp [value?] at h
  | infinity negative => cases negative <;> simp [value?] at h
  | finite negative rank =>
    rw [value?_finite, Option.some.injEq, EReal.coe_eq_coe_iff] at h
    refine ⟨rank, ?_⟩
    rw [← h, signed]
    split
    · rw [abs_neg, abs_of_nonneg (magnitude_nonneg rank)]
    · exact abs_of_nonneg (magnitude_nonneg rank)

private theorem eq_finite_of_ofInt? {n : Int} {x : Double} (h : ofInt? n = some x) :
    ∃ rank : Fin 0x7FF0000000000000, rank = nearestRank n.natAbs 1 ∧ x = finite (n < 0) rank := by
  unfold ofInt? ofRatio ofRank at h
  by_cases hrank : nearestRank n.natAbs 1 < 0x7FF0000000000000
  · rw [dif_pos hrank] at h
    exact ⟨⟨_, hrank⟩, rfl, (Option.some.inj h).symm⟩
  · rw [dif_neg hrank] at h
    cases h

/-- An integer that becomes a double becomes one of the finite doubles nearest to it. -/
theorem ofInt?_nearest {n : Int} {x : Double} (h : ofInt? n = some x) :
    ∃ r : ℝ, x.value? = some (r : EReal) ∧
      ∀ (y : Double) (s : ℝ), y.value? = some (s : EReal) → |r - n| ≤ |s - n| := by
  obtain ⟨rank, hrank, rfl⟩ := eq_finite_of_ofInt? h
  refine ⟨_, value?_finite _ _, ?_⟩
  intro y s hy
  obtain ⟨other, hother⟩ := exists_rank_of_value hy
  have hnear : (Nat.dist (unitsOfRank rank) (n.natAbs * unitsInOne) : ℝ) ≤
      Nat.dist (unitsOfRank other) (n.natAbs * unitsInOne) := by
    rw [hrank]
    exact_mod_cast nearestRank_nearest n.natAbs other
  calc |signed (n < 0) (magnitude rank) - n|
      = Nat.dist (unitsOfRank rank) (n.natAbs * unitsInOne) * unit := by
        rw [abs_signed_sub, abs_magnitude_sub]
    _ ≤ Nat.dist (unitsOfRank other) (n.natAbs * unitsInOne) * unit :=
        mul_le_mul_of_nonneg_right hnear unit_pos.le
    _ = |(|s|) - (|(n : ℝ)|)| := by
        rw [hother, ← cast_natAbs_real, abs_magnitude_sub]
    _ ≤ |s - n| := abs_abs_sub_abs_le s n

theorem ofInt?_of_value {n : Int} {x : Double} (h : x.value? = some ((n : ℝ) : EReal)) :
    ∃ y, ofInt? n = some y ∧ y.value? = some ((n : ℝ) : EReal) := by
  obtain ⟨rank, hrank⟩ := exists_rank_of_value h
  have hnear : nearestRank n.natAbs 1 = rank := by
    apply nearestRank_of_units
    apply Nat.eq_of_dist_eq_zero
    have hzero : (Nat.dist (unitsOfRank rank) (n.natAbs * unitsInOne) : ℝ) * unit = 0 := by
      rw [← abs_magnitude_sub, ← hrank]
      rw [cast_natAbs_real, sub_self, abs_zero]
    exact_mod_cast (mul_eq_zero.mp hzero).resolve_right unit_pos.ne'
  refine ⟨finite (n < 0) rank, ?_, ?_⟩
  · unfold ofInt? ofRatio ofRank
    rw [hnear, dif_pos rank.isLt]
  · rw [value?_finite, ← hrank, ← cast_natAbs_real, signed_natAbs]

private theorem exists_rank_of_le {m : Nat} (h : m ≤ 2 * ranksInBlock) :
    ∃ rank < 0x7FF0000000000000, unitsOfRank rank = m * unitsInOne := by
  have hranks : ranksInBlock = 0x10000000000000 := rfl
  rcases Nat.lt_or_ge m ranksInBlock with hsmall | hlarge
  · rcases Nat.eq_zero_or_pos m with rfl | hm
    · exact ⟨0, by decide, by rw [Nat.zero_mul]; rfl⟩
    -- the leading bit of the integer is moved to the leading bit of a significand
    have hbits : m.log2 < 52 := (Nat.log2_lt hm.ne').mpr hsmall
    have hlow : twoTo m.log2 ≤ m := Nat.log2_self_le hm.ne'
    have hhigh : m ≤ twoTo (m.log2 + 1) := Nat.lt_log2_self.le
    have hshift (n : Nat) : twoTo (m.log2 + n) * twoTo (52 - m.log2) = twoTo (n + 52) := by
      rw [← twoTo_add]
      congr 1
      omega
    have hcount : ranksInBlock ≤ m * twoTo (52 - m.log2) := by
      calc ranksInBlock = twoTo m.log2 * twoTo (52 - m.log2) := (hshift 0).symm
        _ ≤ m * twoTo (52 - m.log2) := Nat.mul_le_mul_right _ hlow
    have hcount' : m * twoTo (52 - m.log2) ≤ 2 * ranksInBlock := by
      calc m * twoTo (52 - m.log2) ≤ twoTo (m.log2 + 1) * twoTo (52 - m.log2) :=
            Nat.mul_le_mul_right _ hhigh
        _ = 2 * ranksInBlock := hshift 1
    refine ⟨(m.log2 + 1022) * ranksInBlock + m * twoTo (52 - m.log2), ?_, ?_⟩
    · rw [hranks] at hcount' ⊢
      omega
    · have hexponent : 52 - m.log2 + (m.log2 + 1022) = 1074 := by omega
      rw [unitsOfRank_add hcount' (.inr hcount), Nat.mul_assoc, ← twoTo_add, hexponent, unitsInOne]
  · refine ⟨1074 * ranksInBlock + m, ?_, unitsOfRank_add h (.inr hlarge)⟩
    rw [hranks] at h ⊢
    omega

/-- An integer of at most 53 bits, and the next one, is the value of a double. -/
theorem exists_value_of_natAbs_le {n : Int} (h : n.natAbs ≤ 2 * ranksInBlock) :
    ∃ x : Double, x.value? = some ((n : ℝ) : EReal) := by
  obtain ⟨rank, hrank, hunits⟩ := exists_rank_of_le h
  refine ⟨finite (n < 0) ⟨rank, hrank⟩, ?_⟩
  rw [value?_finite, magnitude_of_units hunits, signed_natAbs]

end Double

namespace Number

/-- The double nearest to a number, unless that lies beyond the finite doubles. -/
def nearest? : Number → Option Double
  | int n => Double.ofInt? n
  | double x => some x

/-- No double lies nearer to a real number than its nearest one. -/
theorem nearest?_nearest {a : Number} {r : ℝ} (ha : a.value? = some (r : EReal)) {x : Double}
    (hx : a.nearest? = some x) : ∃ s : ℝ, x.value? = some (s : EReal) ∧
      ∀ (y : Double) (t : ℝ), y.value? = some (t : EReal) → |s - r| ≤ |t - r| := by
  cases a with
  | int n =>
    have hr : (n : ℝ) = r := EReal.coe_eq_coe_iff.mp (Option.some.inj ha)
    exact hr ▸ Double.ofInt?_nearest hx
  | double y =>
    cases hx
    refine ⟨r, ha, fun z t _ => ?_⟩
    rw [sub_self, abs_zero]
    exact abs_nonneg _

/-- Whether a double stands for the same as a number. -/
def IsDouble (a : Number) : Prop := ∃ x : Double, x.value? = a.value?

theorem isDouble_of_natAbs_le {n : Int} (h : n.natAbs ≤ 2 ^ 53) : (int n).IsDouble :=
  Double.exists_value_of_natAbs_le h

theorem IsDouble.of_equals {a b : Number} (ha : a.IsDouble) (h : a.Equals b) : b.IsDouble := by
  obtain ⟨x, hx⟩ := ha
  obtain ⟨r, har, hbr⟩ := h
  exact ⟨x, by rw [hx, har, hbr]⟩

theorem IsDouble.nearest? {a : Number} (h : a.IsDouble) :
    ∃ x, a.nearest? = some x ∧ x.value? = a.value? := by
  cases a with
  | int n =>
    obtain ⟨x, hx⟩ := h
    exact Double.ofInt?_of_value hx
  | double x => exact ⟨x, rfl, rfl⟩

end Number

end VisibilityRules
