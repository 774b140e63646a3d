import VisibilityRules.Dependency
import VisibilityRules.Proofs.Run

/-!
# What an extraction finds

An extraction goes down the terms of rules and takes along what it has found so far. It meets the
names of the leaves from left to right, and what it finds are the settings that these names refer
to.
-/

namespace VisibilityRules.Dependency

def leafNames (rules : List Rule) : List String :=
  rules.flatMap fun r => (Term.leavesOf r.conditions.terms).map Clause.name

section Lawful

variable {m : Type → Type} [Monad m] [LawfulMonad m] (resolve : String → m (Option String))

-- The names found so far change from term to term, so they come behind the terms here.
mutual
private theorem extract_eq_foldlM : ∀ (t : Term) (found : List String),
    extract resolve found t = ((Term.leaves t).map Clause.name).foldlM (collect resolve) found
  | .leaf c, found => by
    rw [extract, Term.leaves, List.map_singleton, List.foldlM_cons]
    exact (bind_pure _).symm
  | .group _ terms, found => by
    rw [extract, Term.leaves]
    exact extractAll_eq_foldlM terms found
private theorem extractAll_eq_foldlM : ∀ (terms : List Term) (found : List String),
    extractAll resolve found terms =
      ((Term.leavesOf terms).map Clause.name).foldlM (collect resolve) found
  | [], _ => by
    rw [extractAll, Term.leavesOf]
    rfl
  | t :: rest, found => by
    rw [extractAll, Term.leavesOf, List.map_append, List.foldlM_append, extract_eq_foldlM t found]
    exact bind_congr (extractAll_eq_foldlM rest)
end

/-- An extraction from rules is a fold over the names of their leaves. -/
theorem extractRules_eq_foldlM (rules : List Rule) :
    extractRules resolve rules = (leafNames rules).foldlM (collect resolve) [] := by
  have hrules (found : List String) :
      rules.foldlM (fun found r => extractAll resolve found r.conditions.terms) found =
        (leafNames rules).foldlM (collect resolve) found := by
    induction rules generalizing found with
    | nil => rfl
    | cons r rest ih =>
      rw [leafNames, List.flatMap_cons, List.foldlM_append, List.foldlM_cons, extractAll_eq_foldlM]
      exact bind_congr ih
  exact hrules []

theorem foldlM_collect_of_pure {setting? : String → Option String}
    (hresolve : ∀ s, resolve s = pure (setting? s)) (names found : List String) :
    names.foldlM (collect resolve) found = pure (found ++ names.filterMap setting?) := by
  induction names generalizing found with
  | nil => rw [List.foldlM_nil, List.filterMap_nil, List.append_nil]
  | cons s rest ih =>
    rw [List.foldlM_cons, collect, hresolve, map_pure, pure_bind, ih, List.filterMap_cons]
    cases setting? s <;> simp

end Lawful

theorem baseNames_eq (rules : List Rule) :
    baseNames rules = (leafNames rules).filterMap baseName? := by
  rw [baseNames, extractRules_eq_foldlM, foldlM_collect_of_pure _ (fun _ => rfl), Id.run_pure,
    List.nil_append]

section Runs

variable {ε : Type} {resolve : String → Run ε (Option String)}

theorem outcome_foldlM_collect {setting? : String → Option String}
    (hresolve : ∀ s, (resolve s).outcome = .ok (setting? s)) (names found : List String) :
    (names.foldlM (collect resolve) found).outcome = .ok (found ++ names.filterMap setting?) := by
  rw [Run.outcome_foldlM]
  exact foldlM_collect_of_pure (fun s => (resolve s).outcome) hresolve names found

theorem only_foldlM_collect {p : Event → Prop} (hresolve : ∀ s, (resolve s).Only p)
    (names found : List String) : (names.foldlM (collect resolve) found).Only p := by
  induction names generalizing found with
  | nil => exact Run.only_pure _
  | cons s rest ih => exact ((hresolve s).map _).bind ih

end Runs

end VisibilityRules.Dependency
