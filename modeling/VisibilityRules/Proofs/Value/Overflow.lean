import VisibilityRules.Comparison
import VisibilityRules.Proofs.Number.Overflow
import VisibilityRules.Proofs.Run

/-!
# Comparisons that overflow

The only failure of a comparison is the overflow of an integer that has to become a double. That
takes an integer beyond the finite doubles on one side, and an operator that coerces: loose equality
where strict equality and absence leave the answer open, and an order relation where one side is
neither a number nor a truth value.
-/

namespace VisibilityRules

namespace Value

/-- Whether a value is an integer beyond the finite doubles. -/
def isHuge : Value → Bool
  | .int n => twoTo 1024 - twoTo 970 ≤ n.natAbs
  | _ => false

theorem isHuge_int_iff (n : Int) : (int n).isHuge ↔ Double.ofInt? n = none := by
  rw [isHuge, decide_eq_true_iff, Double.ofInt?_eq_none_iff]

theorem toDouble?_eq_error_iff (v : Value) (f : Fault) :
    v.toDouble? = .error f ↔ f = .overflow ∧ v.isHuge := by
  cases v with
  | int n =>
    rw [isHuge_int_iff]
    unfold toDouble?
    cases h : Double.ofInt? n <;> simp [h, eq_comm]
  | _ => simp [toDouble?, isHuge]

theorem asDoubles_eq_error_iff (relation : Number → Number → Bool) (left right : Value)
    (f : Fault) :
    asDoubles relation left right = .error f ↔ f = .overflow ∧ (left.isHuge ∨ right.isHuge) := by
  unfold asDoubles
  rw [Outcome.bind_eq_error_iff, toDouble?_eq_error_iff]
  simp only [Outcome.map_eq_error_iff, toDouble?_eq_error_iff]
  constructor
  · rintro (⟨hf, hleft⟩ | ⟨_, _, hf, hright⟩)
    · exact ⟨hf, .inl hleft⟩
    · exact ⟨hf, .inr hright⟩
  · rintro ⟨hf, hhuge⟩
    by_cases hleft : left.isHuge
    · exact .inl ⟨hf, hleft⟩
    · right
      cases h : left.toDouble? with
      | error e => exact absurd ((toDouble?_eq_error_iff left e).mp h).2 hleft
      | ok a => exact ⟨a, rfl, hf, hhuge.resolve_left hleft⟩

theorem isCoercive_of_isHuge {v : Value} (h : v.isHuge) : v.isCoercive := by
  cases v with
  | int n => rfl
  | _ => simp [isHuge] at h

theorem looseEqual_eq_error_iff (left right : Value) (f : Fault) :
    looseEqual left right = .error f ↔ f = .overflow ∧ (left.isHuge ∨ right.isHuge) ∧
      strictEqual left right = false ∧ (left.isAbsent || right.isAbsent) = false := by
  unfold looseEqual
  cases strictEqual left right with
  | true => simp
  | false =>
    cases left.isAbsent || right.isAbsent with
    | true => simp
    | false =>
      simp only [Bool.false_eq_true, if_false, and_true]
      split
      · exact asDoubles_eq_error_iff Number.same left right f
      · next hplain =>
        have hnone : ¬(left.isHuge ∨ right.isHuge) := by
          rintro (hleft | hright)
          · exact hplain (by simp [isCoercive_of_isHuge hleft])
          · exact hplain (by simp [isCoercive_of_isHuge hright])
        simp [hnone]

/-- An integer beyond the finite doubles has an order only with numbers and truth values. -/
theorem ordered?_eq_none_iff_of_isHuge {left right : Value} (h : left.isHuge ∨ right.isHuge)
    (relation : Inequality) :
    ordered? relation left right = none ↔ (left.isCoercive && right.isCoercive) = false := by
  rcases h with h | h
  · cases left with
    | int n => cases right <;> simp [ordered?, isCoercive, count?, number?]
    | _ => simp [isHuge] at h
  · cases right with
    | int n => cases left <;> simp [ordered?, isCoercive, count?, number?]
    | _ => simp [isHuge] at h

theorem related_eq_error_iff (relation : Inequality) (left right : Value) (f : Fault) :
    related relation left right = .error f ↔ f = .overflow ∧ (left.isHuge ∨ right.isHuge) ∧
      (left.isCoercive && right.isCoercive) = false := by
  unfold related
  cases hordered : ordered? relation left right with
  | some holds =>
    simp only [reduceCtorEq, false_iff]
    rintro ⟨_, hhuge, hmixed⟩
    rw [(ordered?_eq_none_iff_of_isHuge hhuge relation).mpr hmixed] at hordered
    contradiction
  | none =>
    dsimp only
    rw [asDoubles_eq_error_iff]
    refine and_congr_right fun _ => (and_iff_left_of_imp fun hhuge => ?_).symm
    exact (ordered?_eq_none_iff_of_isHuge hhuge relation).mp hordered

end Value

namespace Operator

def inequality? : Operator → Option Inequality
  | less => some .less
  | lessEqual => some .lessEqual
  | greater => some .greater
  | greaterEqual => some .greaterEqual
  | _ => none

/-- Whether an operator turns an integer beyond the finite doubles into a double. -/
def overflows (op : Operator) (left right : Value) : Bool :=
  (left.isHuge || right.isHuge) &&
    match op with
    | looseEqual | looseNotEqual =>
      !Value.strictEqual left right && !(left.isAbsent || right.isAbsent)
    | less | lessEqual | greater | greaterEqual => !(left.isCoercive && right.isCoercive)
    | _ => false

theorem compare_of_inequality {op : Operator} {relation : Inequality}
    (h : op.inequality? = some relation) (left right : Value) :
    op.compare left right = Value.related relation left right := by
  cases op <;> cases h <;> rfl

theorem compare_eq_error_iff (op : Operator) (left right : Value) (f : Fault) :
    op.compare left right = .error f ↔ f = .overflow ∧ op.overflows left right := by
  cases op with
  | looseEqual => simp [compare, overflows, Value.looseEqual_eq_error_iff]
  | looseNotEqual =>
    simp [compare, overflows, Outcome.map_eq_error_iff, Value.looseEqual_eq_error_iff]
  | less | lessEqual | greater | greaterEqual =>
    rw [compare, Value.related_eq_error_iff]
    simp only [overflows, Bool.and_eq_true, Bool.or_eq_true, Bool.not_eq_true']
  | strictEqual | strictNotEqual | isIn | notIn | contains | notContains => simp [compare, overflows]

end Operator

end VisibilityRules
