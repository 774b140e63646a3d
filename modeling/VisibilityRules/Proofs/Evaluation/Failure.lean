import VisibilityRules.Proofs.Evaluation.ShortCircuit
import VisibilityRules.Proofs.Value.Overflow
import VisibilityRules.Shorthand

/-!
# When an evaluation fails

An evaluation fails in two ways only. A name goes into a list by a sub-key of digits that is no
index: one of the digits has no place in decimal numerals, or there are too many of them. Or an
integer beyond the finite doubles is compared with something that makes it a double, which
shorthand conditions never do. Everywhere else there is an answer, and data that an operator has no
use for make their leaf false.
-/

namespace VisibilityRules

/-! ### Sub-keys -/

/-- Whether a sub-key consists of digits and is still no index of a list. -/
def IsBadIndex (key : String) : Prop :=
  (∀ c ∈ key.toList, Text.isDigitLike c) ∧
    ((∃ c ∈ key.toList, Text.digitValue? c = none) ∨ digitLimit < key.toList.length)

private theorem readIndex_fails_iff (key : String) : (∃ f, readIndex key = .error f) ↔
    (∃ c ∈ key.toList, Text.digitValue? c = none) ∨ digitLimit < key.toList.length := by
  have hle := (List.takeWhile_prefix (l := key.toList)
    fun c => (Text.digitValue? c).isSome).length_le
  unfold readIndex
  by_cases hdecimal : ∃ c ∈ key.toList, Text.digitValue? c = none
  · -- the digits end before the key does, so one of the two failures comes up
    have hlt : (key.toList.takeWhile fun c => (Text.digitValue? c).isSome).length <
        key.toList.length := by
      refine lt_of_le_of_ne hle fun heq => ?_
      have hself := (List.takeWhile_prefix _).eq_of_length heq
      obtain ⟨c, hc, hnone⟩ := hdecimal
      have hsome := List.takeWhile_eq_self_iff.mp hself c hc
      simp [hnone] at hsome
    simp only [hlt, if_true, hdecimal, true_or, iff_true]
    split
    · exact ⟨_, rfl⟩
    · exact ⟨_, rfl⟩
  · have hself : (key.toList.takeWhile fun c => (Text.digitValue? c).isSome) = key.toList := by
      refine List.takeWhile_eq_self_iff.mpr fun c hc => ?_
      by_contra hnone
      exact hdecimal ⟨c, hc, by simpa using hnone⟩
    simp only [hself, lt_irrefl, if_false, hdecimal, false_or]
    by_cases hlimit : digitLimit < key.toList.length
    · simp [hlimit]
    · simp [hlimit]

private theorem Value.part_fails_iff (key : String) (v : Value) :
    (∃ f, v.part key = .error f) ↔ ∃ items, v = .list items ∧ IsBadIndex key := by
  cases v with
  | list items =>
    simp only [part, list.injEq, exists_eq_left', IsBadIndex, List.all_eq_true]
    by_cases hdigits : ∀ c ∈ key.toList, Text.isDigitLike c
    · rw [if_pos hdigits, and_iff_right hdigits]
      simp only [Outcome.map_eq_error_iff]
      exact readIndex_fails_iff key
    · simp [hdigits]
  | _ => simp [part]

namespace Settings

/-- Whether a name goes into a list by a sub-key of digits that is no index. -/
def BadIndexAt (settings : Settings) (name : TermName) : Prop :=
  ∃ key items, name.part = some key ∧ Table.get? settings name.setting = some (.list items) ∧
    IsBadIndex key

theorem lookup_fails_iff (settings : Settings) (name : TermName) :
    (∃ f, settings.lookup name = .error f) ↔ settings.BadIndexAt name := by
  unfold lookup BadIndexAt
  cases hpart : name.part with
  | none => simp
  | some key =>
    by_cases hempty : key = ""
    · subst hempty
      simp [IsBadIndex]
    · simp only [hempty, if_false, Option.some.injEq, Value.part_fails_iff]
      cases Table.get? settings name.setting <;> simp

end Settings

/-! ### Data without use -/

namespace Value

def isList : Value → Bool
  | .list _ => true
  | _ => false

/-- Whether a value counts as a double in a comparison, be it one that overflows. -/
def isNumeric (v : Value) : Bool :=
  match v.toDouble? with
  | .ok none => false
  | _ => true

theorem asDoubles_of_not_numeric {left right : Value}
    (h : (left.isNumeric && right.isNumeric) = false) {relation : Number → Number → Bool}
    {holds : Bool} (hrun : asDoubles relation left right = .ok holds) : holds = false := by
  unfold asDoubles at hrun
  unfold isNumeric at h
  cases hleft : left.toDouble? with
  | error f => simp [hleft, Except.bind] at hrun
  | ok a =>
    cases hright : right.toDouble? with
    | error f => simp [hleft, hright, Except.bind, Except.map] at hrun
    | ok b =>
      simp only [hleft, hright, Except.bind, Except.map, Except.ok.injEq] at h hrun
      cases a <;> cases b <;> simp_all

end Value

namespace Operator

/-- Whether an operator has no use for two values: membership in what is no list, and an order
between values that have none of their own and do not both count as doubles. -/
def isUnfit (op : Operator) (left right : Value) : Bool :=
  match op, op.inequality? with
  | isIn, _ | notIn, _ => !right.isList
  | contains, _ | notContains, _ => !left.isList
  | _, some relation =>
    (Value.ordered? relation left right).isNone && !(left.isNumeric && right.isNumeric)
  | _, none => false

theorem compare_of_isUnfit {op : Operator} {left right : Value} (h : op.isUnfit left right)
    {holds : Bool} (hrun : op.compare left right = .ok holds) : holds = false := by
  have horder : ∀ relation, op.inequality? = some relation →
      Value.ordered? relation left right = none →
      (left.isNumeric && right.isNumeric) = false → holds = false := by
    intro relation hop hnone hplain
    rw [compare_of_inequality hop, Value.related, hnone] at hrun
    exact Value.asDoubles_of_not_numeric hplain hrun
  cases op with
  | isIn | notIn =>
    cases right <;> simp_all [isUnfit, compare, Value.listed, Value.unlisted, Value.isList]
  | contains | notContains =>
    cases left <;> simp_all [isUnfit, compare, Value.listed, Value.unlisted, Value.isList]
  | less | lessEqual | greater | greaterEqual =>
    simp only [isUnfit, inequality?, Bool.and_eq_true, Option.isNone_iff_eq_none,
      Bool.not_eq_true'] at h
    exact horder _ rfl h.1 h.2
  | looseEqual | looseNotEqual | strictEqual | strictNotEqual => simp [isUnfit, inequality?] at h

end Operator

/-! ### Leaves -/

namespace Clause

variable {settings : Settings} {leaf : Clause}

inductive Fails (settings : Settings) (leaf : Clause) : Prop where
  /-- its name goes into a list by a sub-key that is no index -/
  | lookup (bad : settings.BadIndexAt (.of leaf.name))
  /-- its comparison overflows -/
  | comparison {value : Value} (found : settings.lookup (.of leaf.name) = .ok value)
    (present : value.isMissing = false) (overflow : leaf.operator.overflows value leaf.value)

/-- What a leaf finds and has no use for. -/
inductive IsUnusual (settings : Settings) (leaf : Clause) : Prop where
  /-- no value at all -/
  | missing (found : settings.lookup (.of leaf.name) = .ok .missing)
  /-- a value that its operator does not compare with the expected one -/
  | unfit {value : Value} (found : settings.lookup (.of leaf.name) = .ok value)
    (unfit : leaf.operator.isUnfit value leaf.value)

theorem result_fails_iff : (∃ f, leaf.result settings = .error f) ↔ leaf.Fails settings := by
  unfold result
  simp only [Outcome.bind_eq_error_iff]
  constructor
  · rintro ⟨f, hlookup | ⟨value, hvalue, hcompare⟩⟩
    · exact .lookup ((Settings.lookup_fails_iff settings _).mp ⟨f, hlookup⟩)
    · by_cases hmissing : value.isMissing
      · simp [hmissing] at hcompare
      · simp only [hmissing, Bool.false_eq_true, if_false] at hcompare
        exact .comparison hvalue (by simpa using hmissing)
          ((Operator.compare_eq_error_iff _ _ _ _).mp hcompare).2
  · rintro (hbad | ⟨hvalue, hpresent, hoverflow⟩)
    · obtain ⟨f, hlookup⟩ := (Settings.lookup_fails_iff settings _).mpr hbad
      exact ⟨f, .inl hlookup⟩
    · refine ⟨.overflow, .inr ⟨_, hvalue, ?_⟩⟩
      simp only [hpresent, Bool.false_eq_true, if_false]
      exact (Operator.compare_eq_error_iff _ _ _ _).mpr ⟨rfl, hoverflow⟩

theorem result_of_isUnusual (h : leaf.IsUnusual settings) (hanswers : ¬leaf.Fails settings) :
    leaf.result settings = .ok false := by
  obtain ⟨holds, hholds⟩ := (Outcome.answers_iff _).mpr (mt result_fails_iff.mp hanswers)
  rw [hholds]
  cases h with
  | missing found =>
    rw [result, found] at hholds
    exact hholds.symm
  | unfit found unfit =>
    rw [result, found, Except.bind] at hholds
    split at hholds
    · exact hholds.symm
    · rw [Operator.compare_of_isUnfit unfit hholds]

end Clause

/-! ### Conditions -/

theorem ConditionSet.check_answers_iff (nesting : Nesting) (settings : Settings)
    (set : ConditionSet) : (∃ holds, (set.check nesting settings).outcome = .ok holds) ↔
      ∀ c ∈ set.walk nesting (Clause.result settings), ¬c.Fails settings := by
  simp only [Outcome.answers_iff, outcome_check_eq_error_iff, ← Clause.result_fails_iff]
  constructor
  · rintro hnone c hc ⟨f, hf⟩
    exact hnone ⟨f, c, hc, hf⟩
  · rintro hall ⟨f, c, hc, hf⟩
    exact hall c hc ⟨f, hf⟩

namespace Shorthand

variable (settings : Settings)

/-- The entries that a check of a shorthand condition visits. -/
def walk : Table Value → Table Value
  | [] => []
  | e :: rest =>
    e :: match (checkEntry settings e.1 e.2).outcome with
      | .ok true => walk rest
      | _ => []

theorem walk_prefix (condition : Table Value) : walk settings condition <+: condition := by
  induction condition with
  | nil => exact List.prefix_refl _
  | cons e rest ih =>
    rw [walk]
    split
    · exact (List.prefix_cons_inj e).mpr ih
    · exact (List.prefix_cons_inj e).mpr List.nil_prefix

theorem overflows_infer (expected : Value) (negated : Bool) (current left right : Value) :
    (Operator.infer expected negated current).overflows left right = false := by
  unfold Operator.infer
  split <;> split <;> simp [Operator.overflows]

theorem outcome_checkEntry (key : String) (expected : Value) :
    (checkEntry settings key expected).outcome =
      (settings.lookup (.of (splitKey key).1)).bind fun value =>
        if value.isMissing then .ok false
        else (Operator.infer expected (splitKey key).2 value).compare value expected := by
  have hread := TermName.outcome_read (ε := Fault) (splitKey key).1
  simp only [checkEntry, Run.monad_bind_def]
  rw [Run.bind_of_ok hread, Run.outcome_bind, Run.ofExcept_def]
  congr 1
  funext value
  by_cases hmissing : value.isMissing
  · simp [hmissing]
  · simp only [hmissing, Bool.false_eq_true, if_false, Operator.apply]
    cases (Operator.infer expected (splitKey key).2 value).compare value expected <;> rfl

theorem checkEntry_fails_iff (key : String) (expected : Value) :
    (∃ f, (checkEntry settings key expected).outcome = .error f) ↔
      settings.BadIndexAt (.of (splitKey key).1) := by
  rw [← Settings.lookup_fails_iff]
  refine exists_congr fun f => ?_
  rw [outcome_checkEntry, Outcome.bind_eq_error_iff, or_iff_left]
  rintro ⟨value, -, hcompare⟩
  split at hcompare
  · contradiction
  · have hoverflow := ((Operator.compare_eq_error_iff _ _ _ _).mp hcompare).2
    rw [overflows_infer] at hoverflow
    contradiction

theorem check_answers_iff (condition : Table Value) :
    (∃ holds, (check settings condition).outcome = .ok holds) ↔
      ∀ e ∈ walk settings condition, ¬settings.BadIndexAt (.of (splitKey e.1).1) := by
  induction condition with
  | nil => simp [check, walk, Run.pure]
  | cons e rest ih =>
    have hentry := checkEntry_fails_iff settings e.1 e.2
    rw [check, walk, Run.outcome_bind, List.forall_mem_cons, ← hentry, ← Outcome.answers_iff]
    cases (checkEntry settings e.1 e.2).outcome with
    | error f => simp [Except.bind]
    | ok holds =>
      cases holds with
      | false => simp [Except.bind, Run.pure]
      | true => simpa [Except.bind] using ih

end Shorthand

/-- A condition set is answered exactly if no leaf that its check visits fails, and a shorthand
condition exactly if no entry that its check visits has a sub-key that is no index. A leaf that
finds nothing, or nothing that its operator has a use for, is false unless it fails. -/
theorem evaluation_answers_iff (nesting : Nesting) (settings : Settings) :
    (∀ set : ConditionSet, (∃ holds, (set.check nesting settings).outcome = .ok holds) ↔
      ∀ c ∈ set.walk nesting (Clause.result settings), ¬c.Fails settings) ∧
    (∀ condition : Table Value,
      (∃ holds, (Shorthand.check settings condition).outcome = .ok holds) ↔
      ∀ e ∈ Shorthand.walk settings condition,
        ¬settings.BadIndexAt (.of (Shorthand.splitKey e.1).1)) ∧
    ∀ leaf : Clause, leaf.IsUnusual settings → ¬leaf.Fails settings →
      leaf.result settings = .ok false :=
  ⟨ConditionSet.check_answers_iff nesting settings, Shorthand.check_answers_iff settings,
    fun _ => Clause.result_of_isUnusual⟩

theorem huge_size_answered :
    let settings : Settings := [("size", .int (twoTo 1024))]
    let greater : Clause := ⟨"size", .int 5, .greater, none⟩
    let equal : Clause := ⟨"size", .text "1", .looseEqual, none⟩
    let outside : Clause := ⟨"size", .text "12", .notIn, none⟩
    (∃ holds, (ConditionSet.check .and settings ⟨.or, [.leaf greater, .leaf equal]⟩).outcome =
      .ok holds) ∧
    (∃ holds, (Shorthand.check settings [("size", .text "1")]).outcome = .ok holds) ∧
    outside.result settings = .ok false := by
  intro settings greater equal outside
  obtain ⟨hset, hshorthand, hunusual⟩ := evaluation_answers_iff .and settings
  have hfound : settings.lookup (.of "size") = .ok (.int (twoTo 1024)) := by
    rw [show TermName.of "size" = ⟨"size", none⟩ by decide +kernel]
    rfl
  have hindex : ¬settings.BadIndexAt (.of "size") := by
    rw [← Settings.lookup_fails_iff, hfound]
    nofun
  refine ⟨(hset _).mpr fun c hc => ?_, (hshorthand _).mpr fun e he => ?_, hunusual outside ?_ ?_⟩
  · -- the first leaf holds, so the second is not visited
    have hgreater : greater.result settings = .ok true := by decide +kernel
    simp only [ConditionSet.walk, Term.walkOf, Term.walk, Term.result, hgreater,
      Relation.settledBy, Relation.neutral] at hc
    obtain rfl : c = greater := by simpa using hc
    rw [← Clause.result_fails_iff, hgreater]
    nofun
  · have hsize := List.mem_singleton.mp ((Shorthand.walk_prefix settings _).subset he)
    have hkey : (Shorthand.splitKey "size").1 = "size" := by decide +kernel
    rw [hsize, hkey]
    exact hindex
  · exact .unfit hfound rfl
  · rintro (hbad | ⟨-, -, hoverflow⟩)
    · exact hindex hbad
    · simp [outside, Operator.overflows] at hoverflow

private theorem not_answers_of_not_succeeded {ε α : Type} {run : Run ε α}
    (h : run.succeeded = false) : ¬∃ a, run.outcome = .ok a := by
  rw [← Run.succeeded_iff, h]
  exact Bool.false_ne_true

/-- Both conditions and shorthand conditions can fail on data. -/
theorem evaluation_fails_on_data :
    (¬∀ (nesting : Nesting) (settings : Settings) (set : ConditionSet),
      ∃ holds, (set.check nesting settings).outcome = .ok holds) ∧
    ¬∀ (settings : Settings) (condition : Table Value),
      ∃ holds, (Shorthand.check settings condition).outcome = .ok holds := by
  constructor
  · intro h
    obtain ⟨holds, hholds⟩ := h .and [("size", .int (twoTo 1024))]
      ⟨.and, [.leaf ⟨"size", .text "1", .looseEqual, none⟩]⟩
    have hfails : (ConditionSet.check .and [("size", .int (twoTo 1024))]
      ⟨.and, [.leaf ⟨"size", .text "1", .looseEqual, none⟩]⟩).succeeded = false := by decide +kernel
    exact not_answers_of_not_succeeded hfails ⟨holds, hholds⟩
  · intro h
    obtain ⟨holds, hholds⟩ := h [("items", .list [])] [("items[²]", .null)]
    have hfails : (Shorthand.check [("items", .list [])] [("items[²]", .null)]).succeeded =
        false := by decide +kernel
    exact not_answers_of_not_succeeded hfails ⟨holds, hholds⟩

end VisibilityRules
