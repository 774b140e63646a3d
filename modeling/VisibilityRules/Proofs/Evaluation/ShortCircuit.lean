import Mathlib
import VisibilityRules.Proofs.Evaluation.Basic

/-!
# Short-circuit evaluation

A condition set means a Boolean formula over its leaves, and a check walks the leaves from left to
right only as far as the formula needs. Both the formula and the walk are defined here on the tree
alone; the main statement says that a check is the runs of the walked leaves one behind another,
that it answers the formula, and that it fails exactly where a walked leaf fails.
-/

namespace VisibilityRules

/-- Whether a group is a disjunction: that takes the option and the relation of the group. -/
def Nesting.isDisjunction (nesting : Nesting) (group : Clause) : Bool :=
  nesting = .term && group.relation = some .or

/-- Whether the result of a term settles the terms under a relation. -/
def Relation.settledBy (relation : Relation) : Except Fault Bool → Bool
  | .ok holds => holds ≠ relation.neutral
  | .error _ => true

namespace Term

mutual
/-- The truth value of a term under truth values of its leaves. -/
def formula (nesting : Nesting) (holds : Clause → Bool) : Term → Bool
  | leaf c => holds c
  | group c terms =>
    if nesting.isDisjunction c then disjunction nesting holds terms
    else conjunction nesting holds terms
def conjunction (nesting : Nesting) (holds : Clause → Bool) : List Term → Bool
  | [] => true
  | t :: rest => formula nesting holds t && conjunction nesting holds rest
def disjunction (nesting : Nesting) (holds : Clause → Bool) : List Term → Bool
  | [] => false
  | t :: rest => formula nesting holds t || disjunction nesting holds rest
end

mutual
/-- The result of a term under results of its leaves. -/
def result (nesting : Nesting) (leafResult : Clause → Except Fault Bool) : Term → Except Fault Bool
  | leaf c => leafResult c
  | group c terms => resultOf nesting leafResult (nesting.relationOf c) terms
/-- The result of the first term that settles the relation, or the default. -/
def resultOf (nesting : Nesting) (leafResult : Clause → Except Fault Bool) (relation : Relation) :
    List Term → Except Fault Bool
  | [] => .ok relation.neutral
  | t :: rest =>
    if relation.settledBy (result nesting leafResult t) then result nesting leafResult t
    else resultOf nesting leafResult relation rest
end

mutual
/-- The leaves that a walk through a term visits, from left to right. -/
def walk (nesting : Nesting) (leafResult : Clause → Except Fault Bool) : Term → List Clause
  | leaf c => [c]
  | group c terms => walkOf nesting leafResult (nesting.relationOf c) terms
/-- The leaves of the terms up to the first that settles the relation. -/
def walkOf (nesting : Nesting) (leafResult : Clause → Except Fault Bool) (relation : Relation) :
    List Term → List Clause
  | [] => []
  | t :: rest =>
    walk nesting leafResult t ++
      if relation.settledBy (result nesting leafResult t) then []
      else walkOf nesting leafResult relation rest
end

mutual
/-- A term without the fields that no check looks at: the relation of a leaf, and all fields of a
group but its relation. -/
def essence : Term → Term
  | leaf c => leaf { c with relation := none }
  | group c terms => group { relation := c.relation } (essenceOf terms)
def essenceOf : List Term → List Term
  | [] => []
  | t :: rest => essence t :: essenceOf rest
end

end Term

namespace ConditionSet

def formula (nesting : Nesting) (holds : Clause → Bool) (set : ConditionSet) : Bool :=
  match set.relation with
  | .and => Term.conjunction nesting holds set.terms
  | .or => Term.disjunction nesting holds set.terms

def walk (nesting : Nesting) (leafResult : Clause → Except Fault Bool) (set : ConditionSet) :
    List Clause :=
  Term.walkOf nesting leafResult set.relation set.terms

def essence (set : ConditionSet) : ConditionSet := ⟨set.relation, Term.essenceOf set.terms⟩

end ConditionSet

/-- Whether a leaf denotes true: its setting is there, and the comparison says so. -/
def Clause.holds (settings : Settings) (leaf : Clause) : Bool :=
  match leaf.comparand? settings with
  | some (left, right, op) =>
    match op.compare left right with
    | .ok holds => holds
    | .error _ => false
  | none => false

namespace Term

def eventsOf (settings : Settings) (leaves : List Clause) : List Event :=
  leaves.flatMap fun c => (c.check settings).events

-- The tree and its lists of terms are gone through together, as the walk itself does.
mutual
private theorem check_eq_walk (nesting : Nesting) (settings : Settings) : ∀ t : Term,
    check nesting settings t =
      ⟨eventsOf settings (walk nesting (Clause.result settings) t),
        result nesting (Clause.result settings) t⟩
  | leaf c => by
    simp only [check, walk, result, eventsOf, List.flatMap_cons, List.flatMap_nil, List.append_nil]
    exact Run.ext rfl (Clause.outcome_check settings c)
  | group c terms => by
    rw [check_group, walk, result]
    exact checkOf_eq_walk nesting settings (nesting.relationOf c) terms
private theorem checkOf_eq_walk (nesting : Nesting) (settings : Settings) (relation : Relation) :
    ∀ terms : List Term,
    checkOf nesting settings relation terms =
      ⟨eventsOf settings (walkOf nesting (Clause.result settings) relation terms),
        resultOf nesting (Clause.result settings) relation terms⟩
  | [] => checkOf_nil nesting settings relation
  | t :: rest => by
    have hhead := check_eq_walk nesting settings t
    have htail := checkOf_eq_walk nesting settings relation rest
    rw [checkOf_cons, hhead, walkOf, resultOf]
    cases result nesting (Clause.result settings) t with
    | error e => simp [Run.bind_error, Relation.settledBy]
    | ok holds =>
      rw [Run.bind_ok]
      by_cases h : holds = relation.neutral
      · simp [h, Relation.settledBy, htail, eventsOf]
      · simp [h, Relation.settledBy]
end

mutual
private theorem walk_sublist_leaves (nesting : Nesting) (f : Clause → Except Fault Bool) :
    ∀ t : Term, (walk nesting f t).Sublist (leaves t)
  | leaf c => by
    rw [walk, leaves]
  | group c terms => by
    rw [walk, leaves]
    exact walkOf_sublist_leavesOf nesting f (nesting.relationOf c) terms
private theorem walkOf_sublist_leavesOf (nesting : Nesting) (f : Clause → Except Fault Bool)
    (relation : Relation) : ∀ terms : List Term, (walkOf nesting f relation terms).Sublist
      (leavesOf terms)
  | [] => by
    rw [walkOf, leavesOf]
  | t :: rest => by
    rw [walkOf, leavesOf]
    apply (walk_sublist_leaves nesting f t).append
    split
    · exact List.nil_sublist _
    · exact walkOf_sublist_leavesOf nesting f relation rest
end

-- A failure ends every relation on the way up, so it reaches the top.
mutual
private theorem result_eq_error_iff (nesting : Nesting) (f : Clause → Except Fault Bool)
    (e : Fault) : ∀ t : Term,
    result nesting f t = .error e ↔ ∃ c ∈ walk nesting f t, f c = .error e
  | leaf c => by
    simp [result, walk]
  | group c terms => by
    rw [result, walk]
    exact resultOf_eq_error_iff nesting f e (nesting.relationOf c) terms
private theorem resultOf_eq_error_iff (nesting : Nesting) (f : Clause → Except Fault Bool)
    (e : Fault) (relation : Relation) : ∀ terms : List Term,
    resultOf nesting f relation terms = .error e ↔
      ∃ c ∈ walkOf nesting f relation terms, f c = .error e
  | [] => by
    simp [resultOf, walkOf]
  | t :: rest => by
    have hhead := result_eq_error_iff nesting f e t
    have htail := resultOf_eq_error_iff nesting f e relation rest
    rw [resultOf, walkOf]
    by_cases hs : relation.settledBy (result nesting f t)
    · simpa [hs] using hhead
    · have hok : result nesting f t ≠ .error e := by
        intro he
        rw [he] at hs
        exact hs rfl
      have hnone : ¬ ∃ c ∈ walk nesting f t, f c = .error e := fun h => hok (hhead.mpr h)
      simp only [hs, Bool.false_eq_true, if_false, List.mem_append, htail]
      constructor
      · rintro ⟨c, hc, he⟩
        exact ⟨c, .inr hc, he⟩
      · rintro ⟨c, hc | hc, he⟩
        · exact absurd ⟨c, hc, he⟩ hnone
        · exact ⟨c, hc, he⟩
end

private theorem relationOf_eq_or_iff (nesting : Nesting) (c : Clause) :
    nesting.relationOf c = .or ↔ nesting.isDisjunction c = true := by
  unfold Nesting.relationOf Nesting.isDisjunction
  cases nesting <;> cases c.relation <;> simp

def combination (nesting : Nesting) (holds : Clause → Bool) (relation : Relation)
    (terms : List Term) : Bool :=
  match relation with
  | .and => conjunction nesting holds terms
  | .or => disjunction nesting holds terms

mutual
private theorem result_eq_formula (nesting : Nesting) {f : Clause → Except Fault Bool}
    {holds : Clause → Bool} : ∀ t : Term, (∀ c ∈ leaves t, f c = .ok (holds c)) →
    result nesting f t = .ok (formula nesting holds t)
  | leaf c, h => by
    rw [result, formula]
    exact h c (by simp [leaves])
  | group c terms, h => by
    rw [leaves] at h
    rw [result, formula, resultOf_eq_combination nesting (nesting.relationOf c) terms h]
    have hdis := relationOf_eq_or_iff nesting c
    cases hr : nesting.relationOf c <;> simp_all [combination]
private theorem resultOf_eq_combination (nesting : Nesting) {f : Clause → Except Fault Bool}
    {holds : Clause → Bool} (relation : Relation) : ∀ terms : List Term,
    (∀ c ∈ leavesOf terms, f c = .ok (holds c)) →
    resultOf nesting f relation terms = .ok (combination nesting holds relation terms)
  | [], _ => by
    cases relation <;> rfl
  | t :: rest, h => by
    have hhead := result_eq_formula nesting t fun c hc => h c (by simp [leavesOf, hc])
    have htail := resultOf_eq_combination nesting relation rest fun c hc =>
      h c (by simp [leavesOf, hc])
    rw [resultOf, hhead, htail]
    cases relation <;> cases hb : formula nesting holds t <;>
      simp [Relation.settledBy, Relation.neutral, combination, conjunction, disjunction, hb]
end

-- Results of leaves beyond the walk are never asked for.
mutual
private theorem walk_congr (nesting : Nesting) {f g : Clause → Except Fault Bool} : ∀ t : Term,
    (∀ c ∈ walk nesting f t, g c = f c) →
    walk nesting g t = walk nesting f t ∧ result nesting g t = result nesting f t
  | leaf c, h => by
    simp only [walk, result, true_and]
    exact h c (by simp [walk])
  | group c terms, h => by
    rw [walk] at h
    simp only [walk, result]
    exact walkOf_congr nesting (nesting.relationOf c) terms h
private theorem walkOf_congr (nesting : Nesting) {f g : Clause → Except Fault Bool}
    (relation : Relation) : ∀ terms : List Term,
    (∀ c ∈ walkOf nesting f relation terms, g c = f c) →
    walkOf nesting g relation terms = walkOf nesting f relation terms ∧
      resultOf nesting g relation terms = resultOf nesting f relation terms
  | [], _ => by
    simp only [walkOf, resultOf, and_self]
  | t :: rest, h => by
    rw [walkOf] at h
    obtain ⟨hw, hr⟩ := walk_congr nesting t fun c hc => h c (List.mem_append_left _ hc)
    simp only [walkOf, resultOf, hw, hr]
    by_cases hs : relation.settledBy (result nesting f t)
    · simp only [hs, if_true, and_self]
    · simp only [hs, Bool.false_eq_true, if_false] at h ⊢
      obtain ⟨hw', hr'⟩ := walkOf_congr nesting relation rest fun c hc =>
        h c (List.mem_append_right _ hc)
      exact ⟨by rw [hw'], hr'⟩
end

mutual
private theorem check_essence (nesting : Nesting) (settings : Settings) : ∀ t : Term,
    check nesting settings (essence t) = check nesting settings t
  | leaf c => by
    rw [essence, check, check]
    rfl
  | group c terms => by
    rw [essence, check_group, check_group]
    exact checkOf_essenceOf nesting settings (nesting.relationOf c) terms
private theorem checkOf_essenceOf (nesting : Nesting) (settings : Settings) (relation : Relation) :
    ∀ terms : List Term,
    checkOf nesting settings relation (essenceOf terms) = checkOf nesting settings relation terms
  | [] => by
    rw [essenceOf]
  | t :: rest => by
    rw [essenceOf, checkOf_cons, checkOf_cons, check_essence nesting settings t,
      checkOf_essenceOf nesting settings relation rest]
end

end Term

theorem Clause.result_eq_holds {settings : Settings} {c : Clause}
    (h : ∃ b, c.result settings = .ok b) : c.result settings = .ok (c.holds settings) := by
  obtain ⟨b, hb⟩ := h
  rw [hb]
  unfold Clause.result at hb
  unfold Clause.holds Clause.comparand?
  cases hl : settings.lookup (.of c.name) with
  | error e => simp [hl, Except.bind] at hb
  | ok value =>
    simp only [hl, Except.bind] at hb
    by_cases hm : value.isMissing
    · simp only [hm, if_true, Except.ok.injEq] at hb ⊢
      exact hb.symm
    · simp only [hm, Bool.false_eq_true, if_false] at hb ⊢
      rw [hb]

private theorem comparisons_leafRuns (settings : Settings) (leaves : List Clause) :
    (leaves.flatMap fun c => (c.check settings).events).filterMap Run.compared? =
      (leaves.filterMap (Clause.comparand? settings)).filterMap Clause.answer? := by
  induction leaves with
  | nil => rfl
  | cons c rest ih =>
    have hc := Clause.comparisons_check settings c
    rw [Run.comparisons_eq] at hc
    rw [List.flatMap_cons, List.filterMap_append, ih, hc, List.filterMap_cons]
    cases Clause.comparand? settings c with
    | none => rfl
    | some q =>
      rw [Option.bind_some, List.filterMap_cons]
      cases Clause.answer? q <;> rfl

namespace ConditionSet

theorem check_eq_walk (nesting : Nesting) (settings : Settings) (set : ConditionSet) :
    set.check nesting settings =
      ⟨Term.eventsOf settings (set.walk nesting (Clause.result settings)),
        Term.resultOf nesting (Clause.result settings) set.relation set.terms⟩ :=
  Term.checkOf_eq_walk nesting settings set.relation set.terms

theorem outcome_check_eq_error_iff (nesting : Nesting) (settings : Settings) (set : ConditionSet)
    (e : Fault) : (set.check nesting settings).outcome = .error e ↔
      ∃ c ∈ set.walk nesting (Clause.result settings), c.result settings = .error e := by
  rw [check_eq_walk]
  exact Term.resultOf_eq_error_iff nesting _ e set.relation set.terms

theorem mem_leaves_of_mem_walk {nesting : Nesting} {f : Clause → Except Fault Bool}
    {set : ConditionSet} {c : Clause} (h : c ∈ set.walk nesting f) : c ∈ Term.leavesOf set.terms :=
  (Term.walkOf_sublist_leavesOf nesting f set.relation set.terms).subset h

theorem walk_congr {nesting : Nesting} {f g : Clause → Except Fault Bool} {set : ConditionSet}
    (h : ∀ c ∈ Term.leavesOf set.terms, g c = f c) : set.walk nesting g = set.walk nesting f :=
  (Term.walkOf_congr nesting set.relation set.terms fun c hc =>
    h c (mem_leaves_of_mem_walk hc)).1

private theorem check_of_walked {nesting : Nesting} {settings other : Settings}
    {set : ConditionSet} (h : ∀ c ∈ set.walk nesting (Clause.result settings),
      c.check other = c.check settings) :
    set.check nesting other = set.check nesting settings := by
  have hresult : ∀ c ∈ set.walk nesting (Clause.result settings),
      c.result other = c.result settings := by
    intro c hc
    rw [← Clause.outcome_check, ← Clause.outcome_check, h c hc]
  obtain ⟨hwalk, hres⟩ := Term.walkOf_congr nesting set.relation set.terms hresult
  rw [check_eq_walk, check_eq_walk, walk, hwalk, hres]
  exact Run.ext (List.flatMap_congr fun c hc => by rw [h c hc]) rfl

private theorem check_of_essence {set other : ConditionSet} (h : other.essence = set.essence)
    (nesting : Nesting) (settings : Settings) :
    other.check nesting settings = set.check nesting settings := by
  obtain ⟨hrel, hterms⟩ := ConditionSet.mk.inj h
  rw [check_eq, check_eq, hrel, ← Term.checkOf_essenceOf nesting settings set.relation other.terms,
    hterms, Term.checkOf_essenceOf]

/-- A check answers the formula of the set where no leaf fails. In general it is the runs of the
walked leaves in order: it compares those whose setting is there, fails with a walked leaf that
fails and only then, and depends neither on the other leaves nor on fields outside the essence. -/
theorem check_shortCircuit (nesting : Nesting) (settings : Settings) (set : ConditionSet) :
    let run := set.check nesting settings
    let walked := set.walk nesting (Clause.result settings)
    ((∀ c ∈ Term.leavesOf set.terms, ∃ b, c.result settings = .ok b) →
      run.outcome = .ok (set.formula nesting (Clause.holds settings))) ∧
    walked.Sublist (Term.leavesOf set.terms) ∧
    run.events = walked.flatMap (fun c => (c.check settings).events) ∧
    run.comparisons = (walked.filterMap (Clause.comparand? settings)).filterMap Clause.answer? ∧
    (∀ e, run.outcome = .error e ↔ ∃ c ∈ walked, c.result settings = .error e) ∧
    (∀ other : Settings, (∀ c ∈ walked, c.check other = c.check settings) →
      set.check nesting other = run) ∧
    (∀ other : ConditionSet, other.essence = set.essence → other.check nesting settings = run) := by
  intro run walked
  have hrun : run = ⟨Term.eventsOf settings walked,
      Term.resultOf nesting (Clause.result settings) set.relation set.terms⟩ :=
    check_eq_walk nesting settings set
  refine ⟨?_, ?_, ?_, ?_, ?_, ?_, ?_⟩
  · intro hok
    have hf := Term.resultOf_eq_combination nesting set.relation set.terms
      fun c hc => Clause.result_eq_holds (hok c hc)
    rw [hrun, hf]
    rfl
  · exact Term.walkOf_sublist_leavesOf nesting _ set.relation set.terms
  · rw [hrun]
    rfl
  · rw [hrun, Run.comparisons_eq]
    exact comparisons_leafRuns settings walked
  · intro e
    rw [hrun]
    exact Term.resultOf_eq_error_iff nesting _ e set.relation set.terms
  · exact fun other hother => check_of_walked hother
  · exact fun other hessence => check_of_essence hessence nesting settings

end ConditionSet

end VisibilityRules
