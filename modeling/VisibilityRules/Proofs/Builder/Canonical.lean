import VisibilityRules.Proofs.Builder.Trace
import VisibilityRules.Proofs.Schema.Reading

/-!
# The sets that builders build

Builders build canonical sets only, and every canonical set: replaying its terms as calls, each leaf
by the method of its operator and each group by a group of calls, gives the set back.
-/

namespace VisibilityRules

open Builder

/-! ### Canonical sets -/

/-- A term that only uses what its kind needs: a leaf has no relation and compares with a list where
it asks for membership, a group has a relation at most. -/
inductive Term.Canonical : Term → Prop
  | leaf {name value operator}
      (listed : operator = .isIn ∨ operator = .notIn → ∃ items, value = .list items) :
      Canonical (.leaf { name, value, operator })
  | group {relation terms} (inner : ∀ t ∈ terms, Canonical t) : Canonical (.group { relation } terms)

def ConditionSet.Canonical (set : ConditionSet) : Prop := ∀ t ∈ set.terms, t.Canonical

def Operator.method : Operator → Method
  | looseEqual => .equals
  | looseNotEqual => .notEquals
  | strictNotEqual => .notStrictlyEquals
  | isIn => .isIn
  | notIn => .notIn
  | contains => .contains
  | notContains => .notContains
  | less => .lessThan
  | lessEqual => .lessThanOrEqual
  | greater => .greaterThan
  | greaterEqual => .greaterThanOrEqual
  | strictEqual => .strictlyEquals

theorem Operator.operator_method (op : Operator) : op.method.operator = op := by
  cases op <;> rfl

namespace Term

mutual
def replay : Term → Call
  | leaf c => c.operator.method.call (.text c.name) c.value
  | group c terms => .group (.ofText? (c.relation.map Relation.word)) (replays terms)
def replays : List Term → List Call
  | [] => []
  | t :: rest => t.replay :: replays rest
end

end Term

theorem Relation.ofValue_eq_or_iff {v : Value} : ofValue v = .or ↔ v = .text "or" := by
  cases v <;> simp [ofValue]

/-! ### Replaying terms -/

namespace Builder

theorem expected_eq_self {op : Operator} {value : Value}
    (listed : op = .isIn ∨ op = .notIn → ∃ items, value = .list items) :
    expected op value = .ok value := by
  unfold expected
  split
  · obtain ⟨items, rfl⟩ := listed (.inl rfl)
    rfl
  · obtain ⟨items, rfl⟩ := listed (.inr rfl)
    rfl
  · rfl

mutual
theorem Performs.replay {place : Place} {relation : Relation} {terms last : List Term}
    {rest : List Call} {log : List (Place × ConditionSet)} (t : Term) (h : t.Canonical)
    (next : Performs place relation (terms ++ [t]) rest last log) :
    Performs place relation terms (t.replay :: rest) last log := by
  cases t with
  | leaf c =>
    cases h with
    | leaf listed =>
      rw [Term.replay, Method.call, Operator.operator_method]
      exact .compare (expected_eq_self listed) next
  | group c terms =>
    cases h with
    | @group own _ inner =>
      rw [Term.replay, ← List.append_nil (Term.replays terms)]
      refine .group (.replays terms inner .done) ?_
      rwa [Relation.ofValue?_word]
theorem Performs.replays {place : Place} {relation : Relation} {terms last : List Term}
    {rest : List Call} {log : List (Place × ConditionSet)} (ts : List Term)
    (h : ∀ t ∈ ts, t.Canonical) (next : Performs place relation (terms ++ ts) rest last log) :
    Performs place relation terms (Term.replays ts ++ rest) last log := by
  cases ts with
  | nil => simpa [Term.replays] using next
  | cons t ts =>
    rw [List.append_cons] at next
    obtain ⟨hfirst, hothers⟩ := List.forall_mem_cons.mp h
    exact .replay t hfirst (.replays ts hothers next)
end

theorem run_replays {set : ConditionSet} (h : set.Canonical) :
    run (.text set.relation.word) (Term.replays set.terms) = Run.pure [set] := by
  have hperforms : Performs [] (.ofValue (.text set.relation.word)) []
      (Term.replays set.terms ++ [.build]) set.terms [([], set)] := by
    rw [Relation.ofValue_word]
    exact .replays set.terms h (.build .done)
  exact hperforms.run_eq

/-! ### What gets built -/

theorem listed_of_expected {op : Operator} {given value : Value}
    (h : expected op given = .ok value) :
    op = .isIn ∨ op = .notIn → ∃ items, value = .list items := by
  have hlist (members : Except Failure (List Value)) (hmap : members.map Value.list = .ok value) :
      ∃ items, value = .list items := by
    cases members with
    | error f => cases hmap
    | ok items =>
      cases hmap
      exact ⟨items, rfl⟩
  rintro (rfl | rfl)
  · exact hlist _ h
  · exact hlist _ h

theorem canonical_concat {terms : List Term} {t : Term} (h : ∀ t ∈ terms, t.Canonical)
    (ht : t.Canonical) : ∀ u ∈ terms ++ [t], u.Canonical :=
  List.forall_mem_append.mpr ⟨h, List.forall_mem_singleton.mpr ht⟩

/-- A builder that starts out with canonical terms goes on to have only such terms and to build only
such sets. -/
theorem Performs.canonical {place : Place} {relation : Relation} {terms last : List Term}
    {cs : List Call} {log : List (Place × ConditionSet)}
    (h : Performs place relation terms cs last log) (hterms : ∀ t ∈ terms, t.Canonical) :
    (∀ t ∈ last, t.Canonical) ∧ ∀ e ∈ log, e.2.Canonical := by
  induction h with
  | done => exact ⟨hterms, fun _ h => nomatch h⟩
  | compare expects _ ih => exact ih (canonical_concat hterms (.leaf (listed_of_expected expects)))
  | group _ _ ihwithin ih =>
    obtain ⟨hcollected, hearly⟩ := ihwithin (fun _ h => nomatch h)
    obtain ⟨hlast, hlate⟩ := ih (canonical_concat hterms (.group hcollected))
    exact ⟨hlast, List.forall_mem_append.mpr ⟨hearly, hlate⟩⟩
  | build _ ih =>
    obtain ⟨hlast, hlate⟩ := ih hterms
    exact ⟨hlast, List.forall_mem_cons.mpr ⟨hterms, hlate⟩⟩

/-- Replaying a canonical set builds it. Conversely, calls that complete build canonical sets only.
Those of the builder itself are disjunctions exactly if its relation is the word for that, those
from inside groups are conjunctions; and what a builder built earlier begins what it built later. -/
theorem builds_exactly_canonical :
    (∀ set : ConditionSet, set.Canonical →
      run (.text set.relation.word) (Term.replays set.terms) = Run.pure [set]) ∧
    ∀ (relation : Value) (cs : List Call) (built : List ConditionSet),
      (run relation cs).outcome = .ok built →
        ∃ last log, Performs [] (.ofValue relation) [] (cs ++ [.build]) last log ∧
          log.map Prod.snd = built ∧
          (∀ e ∈ log, e.2.Canonical ∧
            (e.1 = [] → (e.2.relation = .or ↔ relation = .text "or")) ∧
            (e.1 ≠ [] → e.2.relation = .and)) ∧
          log.Pairwise fun earlier later =>
            earlier.1 = later.1 → earlier.2.terms <+: later.2.terms := by
  refine ⟨fun set h => run_replays h, fun relation cs built hrun => ?_⟩
  obtain ⟨last, log, hbuilt, h⟩ := run_eq_ok_iff.mp hrun
  refine ⟨last, log, h, hbuilt, fun e he => ⟨?_, ?_, ?_⟩, h.pairwise_prefix⟩
  · exact (h.canonical fun _ h => nomatch h).2 e he
  · intro hplace
    rcases h.origin e he with ⟨-, hrelation, -⟩ | ⟨i, inward, hinward, -, -⟩
    · rw [hrelation, Relation.ofValue_eq_or_iff]
    · exact absurd (hplace.symm.trans hinward) (by simp)
  · intro hplace
    rcases h.origin e he with ⟨hown, -, -⟩ | ⟨_, _, -, -, hrelation⟩
    · exact absurd hown hplace
    · exact hrelation

theorem boxed_then_wide :
    let boxed : Term := .leaf { name := "layout", value := .text "boxed", operator := .looseEqual }
    let wide : Term :=
      .leaf { name := "width", value := .list [.text "wide"], operator := .isIn }
    let set : ConditionSet := ⟨.or, [boxed, .group { relation := some .or } [wide]]⟩
    let cs : List Call :=
      [Method.equals.call (.text "layout") (.text "boxed"), .build,
        .group (.text "or") [Method.isIn.call (.text "width") (.list [.text "wide"])]]
    (set.Canonical ∧ run (.text "or") (Term.replays set.terms) = Run.pure [set]) ∧
      (run (.text "or") cs).outcome = .ok [⟨.or, [boxed]⟩, set] ∧
      ∃ last log, Performs [] .or [] (cs ++ [.build]) last log ∧
        log.map Prod.snd = [⟨.or, [boxed]⟩, set] ∧
        log.Pairwise fun earlier later =>
          earlier.1 = later.1 → earlier.2.terms <+: later.2.terms := by
  intro boxed wide set cs
  have hboxed : boxed.Canonical := .leaf (by simp)
  have hwide : wide.Canonical := .leaf fun _ => ⟨[.text "wide"], rfl⟩
  have hset : set.Canonical := by
    refine List.forall_mem_cons.mpr ⟨hboxed, List.forall_mem_singleton.mpr (.group ?_)⟩
    exact List.forall_mem_singleton.mpr hwide
  have hrun : (run (.text "or") cs).outcome = .ok [⟨.or, [boxed]⟩, set] := rfl
  obtain ⟨last, log, hperforms, hbuilt, -, hprefix⟩ := builds_exactly_canonical.2 _ _ _ hrun
  exact ⟨⟨hset, builds_exactly_canonical.1 set hset⟩, hrun, last, log, hperforms, hbuilt, hprefix⟩

end Builder

end VisibilityRules
