import VisibilityRules.Proofs.Number.Nearest
import VisibilityRules.Proofs.Value.Overflow
import VisibilityRules.Proofs.Value.Partwise

/-!
# What loose equality coerces

Loose equality of two numbers is numeric equality as long as both are doubles. An integer between
two doubles is taken for the nearest one, and an integer beyond all of them fails. Among values that
are neither truth values nor texts, these are all the pairs on which the two equalities differ.
-/

namespace VisibilityRules

def Number.toValue : Number → Value
  | .int n => .int n
  | .double x => .double x

/-- Whether two different numbers have the same nearest double. -/
def Number.Blurred (a b : Number) : Prop :=
  ¬a.Equals b ∧ ∃ x y, a.nearest? = some x ∧ b.nearest? = some y ∧ (double x).Equals (.double y)

namespace Value

@[simp] theorem number?_toValue (a : Number) : a.toValue.number? = some a := by
  cases a <;> rfl

theorem eq_toValue_of_number? {v : Value} {a : Number} (h : v.number? = some a) :
    v = a.toValue := by
  cases v with
  | int n => cases h; rfl
  | double x => cases h; rfl
  | _ => simp [number?] at h

theorem isHuge_toValue_iff (a : Number) : a.toValue.isHuge ↔ a.nearest? = none := by
  cases a with
  | int n => exact isHuge_int_iff n
  | double x => simp [Number.toValue, isHuge, Number.nearest?]

/-- Whether a value is of a kind that loose equality turns into a number. -/
def isConverted : Value → Bool
  | .bool _ => true
  | .text _ => true
  | _ => false

theorem toDouble?_eq_some_iff {v : Value} (hv : v.isConverted = false) (x : Double) :
    v.toDouble? = .ok (some x) ↔ ∃ a, v.number? = some a ∧ a.nearest? = some x := by
  cases v with
  | bool | text => simp [isConverted] at hv
  | int n => cases h : Double.ofInt? n <;> simp [toDouble?, number?, Number.nearest?, h]
  | _ => simp [toDouble?, number?, Number.nearest?]

/-- The doubles that two values count as, where both of them count as one. -/
def doubles (v w : Value) : Except Fault (Option (Double × Double)) :=
  v.toDouble?.bind fun a => w.toDouble?.map fun b => a.bind fun x => b.map fun y => (x, y)

theorem asDoubles_eq (relation : Number → Number → Bool) (v w : Value) :
    asDoubles relation v w =
      (doubles v w).map fun pair => pair.any fun p => relation (.double p.1) (.double p.2) := by
  unfold asDoubles doubles
  cases v.toDouble? with
  | error f => rfl
  | ok a =>
    cases w.toDouble? with
    | error f => rfl
    | ok b => cases a <;> cases b <;> rfl

theorem doubles_eq_some_iff (v w : Value) (x y : Double) :
    doubles v w = .ok (some (x, y)) ↔
      v.toDouble? = .ok (some x) ∧ w.toDouble? = .ok (some y) := by
  unfold doubles
  cases v.toDouble? with
  | error f => simp [Except.bind]
  | ok a =>
    cases w.toDouble? with
    | error f => simp [Except.bind, Except.map]
    | ok b => cases a <;> cases b <;> simp [Except.bind, Except.map]

theorem asDoubles_eq_true_iff (relation : Number → Number → Bool) (v w : Value) :
    asDoubles relation v w = .ok true ↔ ∃ x y, v.toDouble? = .ok (some x) ∧
      w.toDouble? = .ok (some y) ∧ relation (.double x) (.double y) := by
  simp only [asDoubles_eq, ← and_assoc, ← doubles_eq_some_iff]
  rcases doubles v w with f | _ | ⟨x, y⟩
  · simp [Except.map]
  · simp [Except.map]
  · simp [Except.map]

theorem strictEqual_numbers_iff {v w : Value} {a b : Number} (ha : v.number? = some a)
    (hb : w.number? = some b) : strictEqual v w ↔ a.Equals b := by
  rw [← Number.same_iff, eq_toValue_of_number? ha, eq_toValue_of_number? hb]
  cases a <;> cases b <;> rfl

private theorem asDoubles_of_isAbsent {v w : Value} (h : v.isAbsent || w.isAbsent)
    (relation : Number → Number → Bool) : asDoubles relation v w ≠ .ok true := by
  rw [Ne, asDoubles_eq_true_iff]
  rintro ⟨x, y, hx, hy, _⟩
  rcases Bool.or_eq_true_iff.mp h with h | h
  · cases v <;> simp_all [isAbsent, toDouble?]
  · cases w <;> simp_all [isAbsent, toDouble?]

/-- Two values that are not strictly equal are loosely equal if one of them is a number or a truth
value and both count as the same double. -/
theorem looseEqual_eq_true_iff {v w : Value} (h : strictEqual v w = false) :
    looseEqual v w = .ok true ↔
      (v.isCoercive || w.isCoercive) ∧ asDoubles Number.same v w = .ok true := by
  unfold looseEqual
  rw [h, if_neg Bool.false_ne_true]
  by_cases habsent : v.isAbsent || w.isAbsent
  · rw [if_pos habsent]
    simp [asDoubles_of_isAbsent habsent]
  · rw [if_neg habsent]
    by_cases hcoercive : v.isCoercive || w.isCoercive
    · rw [if_pos hcoercive]
      simp only [hcoercive, true_and]
    · rw [if_neg hcoercive]
      simp [hcoercive]

/-- Where neither value is converted, the doubles of two values are the same if both are numbers
with the same nearest double. -/
private theorem asDoubles_same_iff {v w : Value} (hv : v.isConverted = false)
    (hw : w.isConverted = false) : asDoubles Number.same v w = .ok true ↔
      ∃ a b x y, v.number? = some a ∧ w.number? = some b ∧ a.nearest? = some x ∧
        b.nearest? = some y ∧ (Number.double x).Equals (.double y) := by
  rw [asDoubles_eq_true_iff]
  simp only [toDouble?_eq_some_iff hv, toDouble?_eq_some_iff hw, Number.same_iff]
  constructor
  · rintro ⟨x, y, ⟨a, ha, hx⟩, ⟨b, hb, hy⟩, hsame⟩
    exact ⟨a, b, x, y, ha, hb, hx, hy, hsame⟩
  · rintro ⟨a, b, x, y, ha, hb, hx, hy, hsame⟩
    exact ⟨x, y, ⟨a, ha, hx⟩, ⟨b, hb, hy⟩, hsame⟩

private theorem isCoercive_of_number? {v : Value} {a : Number} (h : v.number? = some a) :
    v.isCoercive := by
  cases v <;> simp_all [number?, isCoercive, count?]

/-- Without truth values and texts, loose equality holds beyond strict equality only for numbers
with the same nearest double. -/
theorem looseEqual_iff_blurred {v w : Value} (hv : v.isConverted = false)
    (hw : w.isConverted = false) (h : strictEqual v w = false) : looseEqual v w = .ok true ↔
      ∃ a b, v.number? = some a ∧ w.number? = some b ∧ a.Blurred b := by
  rw [looseEqual_eq_true_iff h, asDoubles_same_iff hv hw]
  constructor
  · rintro ⟨_, a, b, x, y, ha, hb, hx, hy, hsame⟩
    refine ⟨a, b, ha, hb, ?_, x, y, hx, hy, hsame⟩
    rw [← strictEqual_numbers_iff ha hb, h]
    exact Bool.false_ne_true
  · rintro ⟨a, b, ha, hb, _, x, y, hx, hy, hsame⟩
    exact ⟨by rw [isCoercive_of_number? ha, Bool.true_or], a, b, x, y, ha, hb, hx, hy, hsame⟩

/-- Without truth values and texts, the two equalities answer differently exactly if loose equality
fails for an integer beyond the finite doubles, or confuses two numbers with the same nearest
double. -/
theorem looseEqual_ne_strictEqual_iff {v w : Value} (hv : v.isConverted = false)
    (hw : w.isConverted = false) : looseEqual v w ≠ .ok (strictEqual v w) ↔
      looseEqual v w = .error .overflow ∨
        ∃ a b, v.number? = some a ∧ w.number? = some b ∧ a.Blurred b := by
  cases h : strictEqual v w with
  | true =>
    have hloose : looseEqual v w = .ok true := by rw [looseEqual, if_pos h]
    have hclear : ¬∃ a b, v.number? = some a ∧ w.number? = some b ∧ a.Blurred b := by
      rintro ⟨a, b, ha, hb, hne, _⟩
      exact hne ((strictEqual_numbers_iff ha hb).mp h)
    rw [hloose]
    simp only [ne_eq, not_true_eq_false, reduceCtorEq, hclear, or_self]
  | false =>
    rw [← looseEqual_iff_blurred hv hw h]
    cases hloose : looseEqual v w with
    | error f => simp [((looseEqual_eq_error_iff v w f).mp hloose).1]
    | ok holds => simp

section Numbers

variable (a b : Number)

theorem isConverted_toValue : a.toValue.isConverted = false := by
  cases a <;> rfl

theorem isAbsent_toValue : a.toValue.isAbsent = false := by
  cases a <;> rfl

theorem strictEqual_toValue_iff : strictEqual a.toValue b.toValue ↔ a.Equals b :=
  strictEqual_numbers_iff (number?_toValue a) (number?_toValue b)

theorem looseEqual_toValue_iff : looseEqual a.toValue b.toValue = .ok true ↔
    a.Equals b ∨ a.Blurred b := by
  by_cases h : strictEqual a.toValue b.toValue
  · have hequals := (strictEqual_toValue_iff a b).mp h
    rw [looseEqual, if_pos h]
    simp [hequals]
  · have hne := mt (strictEqual_toValue_iff a b).mpr h
    rw [looseEqual_iff_blurred (isConverted_toValue a) (isConverted_toValue b) (by simpa using h)]
    simp [hne]

theorem looseEqual_toValue_eq_error_iff (f : Fault) :
    looseEqual a.toValue b.toValue = .error f ↔
      f = .overflow ∧ ¬a.Equals b ∧ (a.toValue.isHuge ∨ b.toValue.isHuge) := by
  rw [looseEqual_eq_error_iff, ← strictEqual_toValue_iff, isAbsent_toValue, isAbsent_toValue]
  simp [and_comm]

/-- The two equalities agree on two numbers that are equal, or that become different doubles. -/
theorem looseEqual_toValue_eq_iff :
    looseEqual a.toValue b.toValue = .ok (strictEqual a.toValue b.toValue) ↔
      a.Equals b ∨ ¬(a.toValue.isHuge ∨ b.toValue.isHuge) ∧ ¬a.Blurred b := by
  have hdiffer := looseEqual_ne_strictEqual_iff (isConverted_toValue a) (isConverted_toValue b)
  have hclear : a.Blurred b → ¬a.Equals b := fun h => h.1
  have hblurred : (∃ m n, a.toValue.number? = some m ∧ b.toValue.number? = some n ∧ m.Blurred n) ↔
      a.Blurred b := by simp
  rw [looseEqual_toValue_eq_error_iff, hblurred] at hdiffer
  rw [← not_iff_not, ← ne_eq, hdiffer]
  tauto

end Numbers

theorem not_isHuge_of_isDouble {a : Number} (h : a.IsDouble) : ¬a.toValue.isHuge := by
  obtain ⟨x, hx, _⟩ := h.nearest?
  rw [isHuge_toValue_iff, hx]
  simp

end Value

theorem Number.IsDouble.not_blurred {a b : Number} (ha : a.IsDouble) (hb : b.IsDouble) :
    ¬a.Blurred b := by
  rintro ⟨hne, x, y, hx, hy, r, hxr, hyr⟩
  obtain ⟨x', hx', hax⟩ := ha.nearest?
  obtain ⟨y', hy', hby⟩ := hb.nearest?
  cases Option.some.inj (hx.symm.trans hx')
  cases Option.some.inj (hy.symm.trans hy')
  exact hne ⟨r, hax ▸ hxr, hby ▸ hyr⟩

/-- Equality of numbers. Strict equality is equality of the numbers that two values stand for. Loose
equality holds if they are equal or have the same nearest double, and it fails if they differ and
one of them is an integer beyond the finite doubles; its negation says the opposite. So the two
equalities agree on two numbers unless these differ and become the same double or none at all. They
agree on all numbers that are doubles, with every integer up to 2^53 among them; and no double lies
nearer to a number than its nearest one. Among values that are neither truth values nor texts, they
differ nowhere else but where a number beyond the doubles faces a container. -/
theorem Operator.equality_of_numbers (a b : Number) :
    let v := a.toValue
    let w := b.toValue
    (strictEqual.compare v w = .ok true ↔ a.Equals b) ∧
      (looseEqual.compare v w = .ok true ↔ a.Equals b ∨ a.Blurred b) ∧
      (∀ f, looseEqual.compare v w = .error f ↔
        f = .overflow ∧ ¬a.Equals b ∧ (v.isHuge ∨ w.isHuge)) ∧
      looseNotEqual.compare v w = (looseEqual.compare v w).map (!·) ∧
      (looseEqual.compare v w = strictEqual.compare v w ↔
        a.Equals b ∨ ¬(v.isHuge ∨ w.isHuge) ∧ ¬a.Blurred b) ∧
      (a.IsDouble → b.IsDouble → looseEqual.compare v w = strictEqual.compare v w) ∧
      (∀ n : Int, a = .int n → n.natAbs ≤ 2 ^ 53 → a.IsDouble) ∧
      (∀ (r : ℝ) (x : Double), a.value? = some (r : EReal) → a.nearest? = some x →
        ∃ s : ℝ, x.value? = some (s : EReal) ∧
          ∀ (y : Double) (t : ℝ), y.value? = some (t : EReal) → |s - r| ≤ |t - r|) ∧
      ∀ left right : Value, left.isConverted = false → right.isConverted = false →
        (looseEqual.compare left right ≠ strictEqual.compare left right ↔
          (left.isHuge ∨ right.isHuge) ∧ Value.strictEqual left right = false ∧
              (left.isAbsent || right.isAbsent) = false ∨
            ∃ m n, left.number? = some m ∧ right.number? = some n ∧ m.Blurred n) := by
  refine ⟨?_, Value.looseEqual_toValue_iff a b, Value.looseEqual_toValue_eq_error_iff a b, rfl,
    Value.looseEqual_toValue_eq_iff a b, ?_, ?_, fun r x ha hx => Number.nearest?_nearest ha hx,
    ?_⟩
  · rw [← Value.strictEqual_toValue_iff]
    simp [compare]
  · intro ha hb
    refine (Value.looseEqual_toValue_eq_iff a b).mpr (.inr ⟨?_, ha.not_blurred hb⟩)
    rintro (hhuge | hhuge)
    · exact Value.not_isHuge_of_isDouble ha hhuge
    · exact Value.not_isHuge_of_isDouble hb hhuge
  · rintro n rfl hn
    exact Number.isDouble_of_natAbs_le hn
  · intro v w hv hw
    refine (Value.looseEqual_ne_strictEqual_iff hv hw).trans (or_congr_left ?_)
    rw [Value.looseEqual_eq_error_iff]
    simp only [true_and]

theorem Operator.two_to_53_in_both_kinds :
    ((9007199254740992 : Int).natAbs ≤ 2 ^ 53 ∧
        (Number.double (.finite false 0x4340000000000000)).IsDouble) ∧
      looseEqual.compare (.int 9007199254740992) (.double (.finite false 0x4340000000000000)) =
        strictEqual.compare (.int 9007199254740992) (.double (.finite false 0x4340000000000000)) := by
  have hbound : (9007199254740992 : Int).natAbs ≤ 2 ^ 53 := by decide
  have hdouble : (Number.double (.finite false 0x4340000000000000)).IsDouble :=
    ⟨.finite false 0x4340000000000000, rfl⟩
  have hlaws := equality_of_numbers (.int 9007199254740992)
    (.double (.finite false 0x4340000000000000))
  have hint := hlaws.2.2.2.2.2.2.1 9007199254740992 rfl hbound
  exact ⟨⟨hbound, hdouble⟩, hlaws.2.2.2.2.2.1 hint hdouble⟩

/-- Loose equality takes 2^53 + 1 for 2^53, and cannot tell 2^1024 from 1. -/
theorem Operator.looseEqual_blurs_integers :
    strictEqual.compare (.int 9007199254740993) (.int 9007199254740992) = .ok false ∧
      looseEqual.compare (.int 9007199254740993) (.int 9007199254740992) = .ok true ∧
      looseEqual.compare (.int (2 ^ 1024)) (.int 1) = .error .overflow := by
  decide +kernel

end VisibilityRules
