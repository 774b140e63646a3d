import VisibilityRules.Proofs.Document.Grammar
import VisibilityRules.Proofs.Value.Overflow

/-!
# When a comparison fails

A comparison is given two values and any third value for its operator: the symbol of an operator
names it, and everything else names strict equality, if the notice can show it. Else it fails only
by an overflow, and the pairs of values on which each operator overflows are stated here without
going through its definition.
-/

namespace VisibilityRules

theorem Value.isAbsent_iff (v : Value) : v.isAbsent ↔ v = .null ∨ v = .missing := by
  cases v <;> simp [isAbsent]

theorem Value.isHuge_iff (v : Value) : v.isHuge ↔ ∃ n, v = .int n ∧ Double.ofInt? n = none := by
  cases v with
  | int n => simp [isHuge_int_iff]
  | _ => simp [isHuge]

namespace Operator

theorem DenotedBy.mem_iff {op : Operator} {v : Value} (h : op.DenotedBy (some v))
    {ops : List Operator} (hops : strictEqual ∉ ops) :
    op ∈ ops ↔ v ∈ ops.map fun other => .text other.symbol := by
  rw [List.mem_map]
  constructor
  · intro hop
    refine ⟨op, hop, ?_⟩
    rcases h with hsymbol | ⟨rfl, _⟩
    · exact (Option.some.inj hsymbol).symm
    · exact absurd hop hops
  · rintro ⟨other, hother, rfl⟩
    rwa [h.unique (.inl rfl)]

theorem overflows_iff (op : Operator) (left right : Value) :
    op.overflows left right ↔ (left.isHuge ∨ right.isHuge) ∧
      (op ∈ [looseEqual, looseNotEqual] ∧ Value.strictEqual left right = false ∧
          left.isAbsent = false ∧ right.isAbsent = false ∨
        op ∈ [less, lessEqual, greater, greaterEqual] ∧
          (left.count? = none ∨ right.count? = none)) := by
  unfold overflows
  rw [Bool.and_eq_true, Bool.or_eq_true]
  refine and_congr_right fun _ => ?_
  cases op with
  | looseEqual | looseNotEqual => simp
  | less | lessEqual | greater | greaterEqual => simp [Value.isCoercive]
  | _ => simp

private theorem outcome_of_denotedBy {op : Operator} {operator : Value}
    (h : op.DenotedBy (some operator)) (left right : Value) :
    ((read operator).bind fun op => Run.ofExcept (op.compare left right)).outcome =
      op.compare left right := by
  rw [Run.outcome_bind, read_eq_ok_iff.mpr h]
  rfl

/-- A comparison fails only by an overflow, or because the notice of an unknown operator cannot show
an integer beyond the digit limit. An overflow takes an integer beyond the doubles on one side, and
either loose equality or its negation between values that are not strictly equal, both of them
present and not null; or an order relation where one side is neither a number nor a truth value.
With every other operator, and with everything within the digit limit that is no operator, a
comparison has an answer. -/
theorem compare_fails_iff (operator left right : Value) :
    let run : Run Fault Bool := (read operator).bind fun op => Run.ofExcept (op.compare left right)
    let loose : List Value := [.text "==", .text "!="]
    let order : List Value := [.text "<", .text "<=", .text ">", .text ">="]
    (∀ f, run.outcome = .error f ↔ f = .overflow ∧ (left.isHuge ∨ right.isHuge) ∧
        (operator ∈ loose ∧ Value.strictEqual left right = false ∧
            (∀ v ∈ [left, right], v ≠ .null ∧ v ≠ .missing) ∨
          operator ∈ order ∧ ∃ v ∈ [left, right], v.count? = none) ∨
      f = .longInteger ∧ operator.withinDigitLimit = false) ∧
      ((∃ holds, run.outcome = .ok holds) ∨ operator ∈ loose ∨ operator ∈ order ∨
        operator.withinDigitLimit = false) ∧
      ∀ v : Value, v.isHuge ↔ ∃ n, v = .int n ∧ Double.ofInt? n = none := by
  intro run loose order
  have hpresent (v : Value) : v.isAbsent = false ↔ v ≠ .null ∧ v ≠ .missing := by
    rw [← Bool.not_eq_true, Value.isAbsent_iff, not_or]
  have hfails : ∀ f, run.outcome = .error f ↔ f = .overflow ∧ (left.isHuge ∨ right.isHuge) ∧
        (operator ∈ loose ∧ Value.strictEqual left right = false ∧
            (∀ v ∈ [left, right], v ≠ .null ∧ v ≠ .missing) ∨
          operator ∈ order ∧ ∃ v ∈ [left, right], v.count? = none) ∨
      f = .longInteger ∧ operator.withinDigitLimit = false := by
    intro f
    cases hwithin : operator.withinDigitLimit with
    | true =>
      obtain ⟨op, hdenoted⟩ := exists_denotedBy fun v hv => by
        rw [← Option.some.inj hv]
        exact hwithin
      have hrun : run.outcome = op.compare left right := outcome_of_denotedBy hdenoted left right
      have hloose : op ∈ [looseEqual, looseNotEqual] ↔ operator ∈ loose :=
        hdenoted.mem_iff (by decide)
      have horder : op ∈ [less, lessEqual, greater, greaterEqual] ↔ operator ∈ order :=
        hdenoted.mem_iff (by decide)
      rw [hrun, compare_eq_error_iff, overflows_iff, hloose, horder, hpresent, hpresent]
      simp
    | false =>
      have hrun : run.outcome = .error .longInteger :=
        congrArg Run.outcome (Run.bind_of_error (read_eq_error_iff.mpr ⟨rfl, hwithin⟩) _)
      have htexts : ∀ v ∈ loose ++ order, v.withinDigitLimit := by
        simp [loose, order, Value.withinDigitLimit]
      have hnone : operator ∉ loose ++ order := by
        intro hmem
        rw [htexts operator hmem] at hwithin
        contradiction
      rw [List.mem_append, not_or] at hnone
      rw [hrun]
      simp [hnone, @eq_comm _ f]
  refine ⟨hfails, ?_, Value.isHuge_iff⟩
  by_cases hanswers : ∃ holds, run.outcome = .ok holds
  · exact .inl hanswers
  · rw [Outcome.answers_iff, not_not] at hanswers
    obtain ⟨f, hf⟩ := hanswers
    rcases (hfails f).mp hf with ⟨_, _, hoperator⟩ | ⟨_, hlong⟩
    · exact .inr (hoperator.imp And.left fun h => .inl h.1)
    · exact .inr (.inr (.inr hlong))

/-- Inside a list, an integer beyond the doubles overflows nothing. -/
example : less.compare (.list [.int (twoTo 1024)]) (.list [.text "wide"]) = .ok false := by
  decide +kernel

end Operator

end VisibilityRules
