import VisibilityRules.Proofs.Evaluation.ShortCircuit

/-!
# Flat condition sets

A check below a conjunction goes through a group as if the leaves of the group stood there
themselves, since conjunction in short-circuit order is associative. So a set needs at most one
level of groups: none under a conjunction, and under a disjunction one group of leaves in the place
of each group. This takes groups that are conjunctions, as all groups are unless both the option for
nested groups and the relation of a group say otherwise.
-/

namespace VisibilityRules

namespace Term

mutual
/-- Whether some group of a term carries the relation of a disjunction. -/
def carriesOr : Term → Bool
  | leaf _ => false
  | group c terms => c.relation = some .or || anyCarriesOr terms
def anyCarriesOr : List Term → Bool
  | [] => false
  | t :: rest => carriesOr t || anyCarriesOr rest
end

/-- A group as a group of its leaves; a leaf as it is. -/
def flattened : Term → Term
  | leaf c => leaf c
  | group _ terms => group {} ((leavesOf terms).map leaf)

end Term

namespace ConditionSet

def carriesOr (set : ConditionSet) : Bool := Term.anyCarriesOr set.terms

/-- The set of all leaves for a conjunction, that of the flattened terms for a disjunction. -/
def flattened (set : ConditionSet) : ConditionSet :=
  match set.relation with
  | .and => ⟨.and, (Term.leavesOf set.terms).map .leaf⟩
  | .or => ⟨.or, set.terms.map Term.flattened⟩

end ConditionSet

private theorem Nesting.relationOf_eq_and {nesting : Nesting} {c : Clause}
    (h : nesting = .and ∨ c.relation ≠ some .or) : nesting.relationOf c = .and := by
  unfold relationOf
  split
  · next relation hrelation =>
    rcases h with hand | hor
    · contradiction
    · rw [hrelation] at hor
      cases relation with
      | and => rfl
      | or => contradiction
  · rfl

/-- The leaves that a walk visits, and what the walk comes to. -/
abbrev Visit := List Clause × Except Fault Bool

/-- One walk behind another: the second starts only if the first does not settle the relation. -/
def Relation.andThen (relation : Relation) (v w : Visit) : Visit :=
  if relation.settledBy v.2 then v else (v.1 ++ w.1, w.2)

theorem Relation.andThen_assoc (relation : Relation) (u v w : Visit) :
    relation.andThen (relation.andThen u v) w = relation.andThen u (relation.andThen v w) := by
  unfold andThen
  by_cases hu : relation.settledBy u.2
  · simp [hu]
  · by_cases hv : relation.settledBy v.2 <;> simp [hu, hv]

theorem Relation.not_settledBy_neutral (relation : Relation) :
    ¬relation.settledBy (.ok relation.neutral) := by
  simp [settledBy]

theorem Relation.eq_neutral_of_not_settledBy {relation : Relation} {result : Except Fault Bool}
    (h : ¬relation.settledBy result) : result = .ok relation.neutral := by
  unfold settledBy at h
  cases result with
  | error e => simp at h
  | ok holds => simpa using h

namespace Term

section Visits

variable {nesting : Nesting} {f : Clause → Except Fault Bool}

private theorem not_carriesOr_group {c : Clause} {terms : List Term} :
    ¬carriesOr (group c terms) ↔ c.relation ≠ some .or ∧ ¬anyCarriesOr terms := by
  simp [carriesOr]

private theorem not_anyCarriesOr_iff {terms : List Term} :
    ¬anyCarriesOr terms ↔ ∀ t ∈ terms, ¬carriesOr t := by
  induction terms with
  | nil => simp [anyCarriesOr]
  | cons t rest ih => simp_all [anyCarriesOr]

/-- The walk through a term. -/
def visit (nesting : Nesting) (f : Clause → Except Fault Bool) (t : Term) : Visit :=
  (walk nesting f t, result nesting f t)

/-- The walk through terms under a relation. -/
def visitOf (nesting : Nesting) (f : Clause → Except Fault Bool) (relation : Relation)
    (terms : List Term) : Visit :=
  (walkOf nesting f relation terms, resultOf nesting f relation terms)

theorem visit_group (c : Clause) (terms : List Term) :
    visit nesting f (group c terms) = visitOf nesting f (nesting.relationOf c) terms := by
  rw [visit, walk, result]
  rfl

theorem visitOf_cons (relation : Relation) (t : Term) (rest : List Term) :
    visitOf nesting f relation (t :: rest) =
      relation.andThen (visit nesting f t) (visitOf nesting f relation rest) := by
  rw [visitOf, walkOf, resultOf, Relation.andThen, visit]
  by_cases hs : relation.settledBy (result nesting f t) <;> simp [hs, visitOf]

theorem visitOf_append (relation : Relation) (xs ys : List Term) :
    visitOf nesting f relation (xs ++ ys) =
      relation.andThen (visitOf nesting f relation xs) (visitOf nesting f relation ys) := by
  induction xs with
  | nil => simp [visitOf, walkOf, resultOf, Relation.andThen, Relation.not_settledBy_neutral]
  | cons t rest ih => rw [List.cons_append, visitOf_cons, visitOf_cons, ih, Relation.andThen_assoc]

theorem visitOf_singleton (relation : Relation) (t : Term) :
    visitOf nesting f relation [t] = visit nesting f t := by
  rw [visitOf_cons, Relation.andThen]
  split
  · rfl
  · next h =>
    rw [visitOf, walkOf, resultOf, List.append_nil, ← Relation.eq_neutral_of_not_settledBy h]

/-- Terms with the same walks in the same places can stand for one another. -/
theorem visitOf_map_congr {α : Type} {other : Nesting} {g h : α → Term} (relation : Relation)
    {xs : List α} (hsame : ∀ x ∈ xs, visit nesting f (g x) = visit other f (h x)) :
    visitOf nesting f relation (xs.map g) = visitOf other f relation (xs.map h) := by
  induction xs with
  | nil => rfl
  | cons x rest ih =>
    have hhead := hsame x List.mem_cons_self
    have hrest := ih fun y hy => hsame y (List.mem_cons_of_mem _ hy)
    rw [List.map_cons, List.map_cons, visitOf_cons, visitOf_cons, hhead, hrest]

-- Below a conjunction a group is its leaves, so a term and a list of terms go hand in hand.
mutual
private theorem visit_eq_leaves : ∀ t : Term, nesting = .and ∨ ¬carriesOr t →
    visit nesting f t = visitOf nesting f .and ((leaves t).map leaf)
  | leaf c, _ => (visitOf_singleton .and (leaf c)).symm
  | group c terms, h => by
    have hor := h.imp_right fun h => (not_carriesOr_group.mp h).1
    have hterms := h.imp_right fun h => (not_carriesOr_group.mp h).2
    rw [visit_group, Nesting.relationOf_eq_and hor, leaves]
    exact visitAll_eq_leaves terms hterms
private theorem visitAll_eq_leaves : ∀ terms : List Term, nesting = .and ∨ ¬anyCarriesOr terms →
    visitOf nesting f .and terms = visitOf nesting f .and ((leavesOf terms).map leaf)
  | [], _ => rfl
  | t :: rest, h => by
    have hall := h.imp_right not_anyCarriesOr_iff.mp
    have hhead := hall.imp_right fun h => h t List.mem_cons_self
    have hrest := hall.imp_right fun h =>
      not_anyCarriesOr_iff.mpr fun u hu => h u (List.mem_cons_of_mem _ hu)
    rw [visitOf_cons, leavesOf, List.map_append, visitOf_append, visit_eq_leaves t hhead,
      visitAll_eq_leaves rest hrest]
end

private theorem visit_flattened (t : Term) (h : nesting = .and ∨ ¬carriesOr t) :
    visit nesting f t = visit nesting f t.flattened := by
  cases t with
  | leaf c => rfl
  | group c terms =>
    have hplain : nesting.relationOf {} = .and := Nesting.relationOf_eq_and (.inr nofun)
    rw [visit_eq_leaves _ h, flattened, visit_group, hplain, leaves]

private theorem visit_nesting (t : Term) (h : ¬carriesOr t) :
    visit .term f t = visit .and f t := by
  rw [visit_eq_leaves t (.inr h), visit_eq_leaves t (.inl rfl)]
  -- a leaf does not look at the option
  exact visitOf_map_congr .and fun c _ => rfl

end Visits

end Term

namespace ConditionSet

private theorem visit_flattened {nesting : Nesting} {set : ConditionSet}
    (h : nesting = .and ∨ ¬set.carriesOr) (f : Clause → Except Fault Bool) :
    Term.visitOf nesting f set.relation set.terms =
      Term.visitOf nesting f set.flattened.relation set.flattened.terms := by
  obtain ⟨relation, terms⟩ := set
  cases relation with
  | and => exact Term.visitAll_eq_leaves terms h
  | or =>
    have hterms := h.imp_right Term.not_anyCarriesOr_iff.mp
    have hcongr := Term.visitOf_map_congr (g := id) (h := Term.flattened) (f := f) .or
      fun t ht => Term.visit_flattened t (hterms.imp_right fun h => h t ht)
    rw [List.map_id] at hcongr
    exact hcongr

private theorem visit_nesting {set : ConditionSet} (h : ¬set.carriesOr)
    (f : Clause → Except Fault Bool) :
    Term.visitOf .term f set.relation set.terms = Term.visitOf .and f set.relation set.terms := by
  have hterms := Term.not_anyCarriesOr_iff.mp h
  have hcongr := Term.visitOf_map_congr (g := id) (h := id) (f := f) set.relation
    fun t ht => Term.visit_nesting t (hterms t ht)
  rw [List.map_id] at hcongr
  exact hcongr

private theorem check_eq_of_visit_eq {nesting other : Nesting} {settings : Settings}
    {set set' : ConditionSet}
    (h : Term.visitOf nesting (Clause.result settings) set.relation set.terms =
      Term.visitOf other (Clause.result settings) set'.relation set'.terms) :
    set.check nesting settings = set'.check other settings ∧
      set.walk nesting (Clause.result settings) = set'.walk other (Clause.result settings) := by
  obtain ⟨hwalk, hresult⟩ := Prod.mk.inj h
  refine ⟨?_, hwalk⟩
  rw [check_eq_walk, check_eq_walk, walk, walk, hwalk, hresult]

/-- Where every group is a conjunction, a set and its flattened set have the same run and visit the
same leaves in the same order: the same result or failure after the same comparisons. So the option
for nested groups does not show on sets none of whose groups carries the relation of a
disjunction. -/
theorem check_eq_check_flattened (settings : Settings) (set : ConditionSet) :
    (∀ nesting : Nesting, nesting = .and ∨ ¬set.carriesOr →
      set.check nesting settings = set.flattened.check nesting settings ∧
      set.walk nesting (Clause.result settings) =
        set.flattened.walk nesting (Clause.result settings)) ∧
    (¬set.carriesOr →
      set.check .term settings = set.check .and settings ∧
      set.walk .term (Clause.result settings) = set.walk .and (Clause.result settings)) :=
  ⟨fun _ h => check_eq_of_visit_eq (visit_flattened h _),
    fun h => check_eq_of_visit_eq (visit_nesting h _)⟩

theorem nested_conjunctions_flat :
    let item (name : String) : Term := .leaf ⟨name, .int 1, .less, none⟩
    let set : ConditionSet :=
      ⟨.or, [.group ⟨"", .null, .strictEqual, some .and⟩ [item "a", .group {} [item "b"]], item "c"]⟩
    let flat : ConditionSet := ⟨.or, [.group {} [item "a", item "b"], item "c"]⟩
    ¬set.carriesOr ∧ ∀ settings, set.check .and settings = flat.check .term settings := by
  intro item set flat
  have hplain : ¬set.carriesOr := by decide
  refine ⟨hplain, fun settings => ?_⟩
  have hflat := (check_eq_check_flattened settings set).1 .term (.inr hplain)
  have hoption := (check_eq_check_flattened settings set).2 hplain
  exact hoption.1.symm.trans hflat.1

end ConditionSet

end VisibilityRules
