import Mathlib
import VisibilityRules.Number.Basic
import VisibilityRules.Proofs.Number.Spacing

/-!
# Numbers on the real line

A double is read as in its binary interchange format, and an integer as itself. Two numbers are the
same, or stand in an order relation, exactly if these extended reals are equal or stand in that
relation; no comparison of numbers rounds.
-/

namespace VisibilityRules

namespace Double

/-- The real number of a rank, whose upper bits are an exponent field and whose lower 52 bits are
the fraction. -/
noncomputable def magnitude (rank : Nat) : ℝ :=
  let field : Nat := rank / 2 ^ 52
  let fraction : Nat := rank % 2 ^ 52
  if field = 0 then fraction * 2 ^ (-1074 : ℤ) else (2 ^ 52 + fraction) * 2 ^ ((field : ℤ) - 1075)

/-- The extended real that a double stands for, which only NaN lacks. -/
noncomputable def value? : Double → Option EReal
  | nan => none
  | infinity negative => some (if negative then ⊥ else ⊤)
  | finite negative rank =>
    some ((if negative then -magnitude rank else magnitude rank : ℝ) : EReal)

noncomputable def unit : ℝ := 2 ^ (-1074 : ℤ)

theorem unit_pos : 0 < unit := by
  unfold unit
  positivity

private theorem twoTo_mul_unit (n : Nat) : twoTo n * unit = 2 ^ ((n : ℤ) - 1074) := by
  have htwo : (twoTo n : ℝ) = 2 ^ (n : ℤ) := by
    rw [twoTo, Nat.pow_eq, Nat.cast_pow, zpow_natCast]
    rfl
  rw [htwo, unit, ← zpow_add₀ (by norm_num)]
  rfl

theorem unitsInOne_mul_unit : unitsInOne * unit = 1 := by
  rw [unitsInOne, twoTo_mul_unit]
  norm_num

theorem magnitude_eq (rank : Nat) : magnitude rank = unitsOfRank rank * unit := by
  have hpos : 0 < ranksInBlock := by decide
  have hblock : 2 ^ 52 = ranksInBlock := rfl
  have hcast : (2 ^ 52 : ℝ) = (ranksInBlock : ℕ) := by
    rw [← hblock]
    norm_num
  unfold magnitude
  rw [hblock, hcast]
  dsimp only
  rcases rank_cases rank with hlow | ⟨block, place, hplace, rfl⟩
  · rw [Nat.div_eq_of_lt hlow, Nat.mod_eq_of_lt hlow, if_pos rfl, unitsOfRank_below hlow, unit]
  · have hfield : ((block + 1) * ranksInBlock + place) / ranksInBlock = block + 1 := by
      rw [Nat.add_comm, Nat.add_mul_div_right _ _ hpos, Nat.div_eq_of_lt hplace, Nat.zero_add]
    have hfraction : ((block + 1) * ranksInBlock + place) % ranksInBlock = place := by
      rw [Nat.add_comm, Nat.add_mul_mod_self_right, Nat.mod_eq_of_lt hplace]
    have hexponent : ((block + 1 : ℕ) : ℤ) - 1075 = (block : ℤ) - 1074 := by omega
    rw [hfield, hfraction, if_neg block.succ_ne_zero, hexponent, ← twoTo_mul_unit,
      unitsOfRank_block block hplace]
    push_cast
    ring

end Double

namespace Place

noncomputable def value : Place → EReal
  | bottom => ⊥
  | units n => ((n * Double.unit : ℝ) : EReal)
  | top => ⊤

theorem value_units_lt_iff (m n : Int) : (units m).value < (units n).value ↔ m < n := by
  rw [value, value, EReal.coe_lt_coe_iff, mul_lt_mul_iff_left₀ Double.unit_pos, Int.cast_lt]

theorem below_iff (p q : Place) : p.below q ↔ p.value < q.value := by
  cases p <;> cases q
  case units.units m n => rw [value_units_lt_iff, below, decide_eq_true_iff]
  case bottom.units n => exact ⟨fun _ => EReal.bot_lt_coe _, fun _ => rfl⟩
  case units.top n => exact ⟨fun _ => EReal.coe_lt_top _, fun _ => rfl⟩
  all_goals simp [below, value]

theorem value_injective : Function.Injective value := by
  intro p q h
  have hbelow : ¬p.below q := by simp [below_iff, h]
  have habove : ¬q.below p := by simp [below_iff, h]
  cases p <;> cases q <;> simp_all [below]
  omega

end Place

namespace Number

/-- The extended real that a number stands for. -/
noncomputable def value? : Number → Option EReal
  | int n => some ((n : ℝ) : EReal)
  | double x => x.value?

theorem value?_eq (a : Number) : a.value? = a.place?.map Place.value := by
  cases a with
  | int n =>
    have hn : ((n * unitsInOne : ℤ) : ℝ) * Double.unit = n := by
      push_cast
      rw [mul_assoc, Double.unitsInOne_mul_unit, mul_one]
    rw [value?, place?, Place.ofInt, Option.map_some, Place.value, hn]
  | double x =>
    cases x with
    | nan => rfl
    | infinity negative => cases negative <;> rfl
    | finite negative rank =>
      simp only [value?, place?, Double.value?, Double.place?, Option.map_some, Place.value,
        Double.magnitude_eq]
      cases negative <;> simp

/-- Whether two numbers stand for the same extended real. NaN equals nothing. -/
def Equals (a b : Number) : Prop := ∃ x, a.value? = some x ∧ b.value? = some x

theorem Equals.symm {a b : Number} (h : a.Equals b) : b.Equals a := by
  obtain ⟨x, ha, hb⟩ := h
  exact ⟨x, hb, ha⟩

theorem Equals.trans {a b c : Number} (h : a.Equals b) (h' : b.Equals c) : a.Equals c := by
  obtain ⟨x, ha, hb⟩ := h
  obtain ⟨y, hb', hc⟩ := h'
  have hxy : x = y := Option.some.inj (hb.symm.trans hb')
  exact ⟨x, ha, hxy ▸ hc⟩

theorem equals_self_iff (a : Number) : a.Equals a ↔ a ≠ .double .nan := by
  cases a with
  | int n => exact ⟨fun _ => by simp, fun _ => ⟨_, rfl, rfl⟩⟩
  | double x =>
    cases x with
    | nan => simp [Equals, value?, Double.value?]
    | infinity negative => exact ⟨fun _ => by simp, fun _ => ⟨_, rfl, rfl⟩⟩
    | finite negative rank => exact ⟨fun _ => by simp, fun _ => ⟨_, rfl, rfl⟩⟩

theorem same_iff (a b : Number) : a.same b ↔ a.Equals b := by
  unfold same Equals
  rw [value?_eq, value?_eq]
  cases a.place? <;> cases b.place? <;> simp [Place.value_injective.eq_iff, eq_comm]

end Number

end VisibilityRules
