import VisibilityRules.Builder
import VisibilityRules.Proofs.Run

/-!
# What becomes of calls

A relation says what calls on a builder lead to: the terms it has in the end, and a log of the sets
that get built, each with the place of its builder. The calls complete exactly if the relation holds
for some log, and then the sets of the log are what was built.
-/

namespace VisibilityRules.Builder

/-- The place of a builder: for each group around it, where that group stands among its
neighbours. -/
abbrev Place := List Nat

/-- What calls lead to on the builder at a place with a relation and the terms so far: the terms in
the end, and the sets that were built on the way, each with the place of its builder. -/
inductive Performs :
    Place → Relation → List Term → List Call → List Term → List (Place × ConditionSet) → Prop
  | done {place relation terms} : Performs place relation terms [] terms []
  | compare {place relation terms op name given value rest last log}
      (expects : expected op given = .ok value)
      (next : Performs place relation (terms ++ [.leaf { name, value, operator := op }]) rest
        last log) :
      Performs place relation terms (.compare op (.text name) given :: rest) last log
  | group {place relation terms groupRelation inner collected early rest last log}
      (within : Performs (place ++ [terms.length]) .and [] inner collected early)
      (next : Performs place relation
        (terms ++ [.group { relation := Relation.ofValue? groupRelation } collected]) rest last log) :
      Performs place relation terms (.group groupRelation inner :: rest) last (early ++ log)
  | build {place relation terms rest last log} (next : Performs place relation terms rest last log) :
      Performs place relation terms (.build :: rest) last ((place, ⟨relation, terms⟩) :: log)

variable {place : Place} {relation : Relation} {terms last collected : List Term}
  {cs rest : List Call} {log : List (Place × ConditionSet)} {built : List ConditionSet}

/-! ### The relation and the calls -/

theorem call_compare {op : Operator} {given value : Value} (expects : expected op given = .ok value)
    (relation : Relation) (terms : List Term) (name : String) :
    call relation terms (.compare op (.text name) given) =
      Run.pure (terms ++ [.leaf { name, value, operator := op }], []) := by
  rw [call, expects]
  rfl

theorem call_group {inner : List Call} (h : calls .and [] inner = Run.pure (collected, built))
    (relation : Relation) (terms : List Term) (groupRelation : Value) :
    call relation terms (.group groupRelation inner) =
      Run.pure (terms ++ [.group { relation := Relation.ofValue? groupRelation } collected],
        built) := by
  rw [call, h]
  rfl

theorem calls_of_call {c : Call} (h : call relation terms c = Run.pure (collected, built))
    (rest : List Call) :
    calls relation terms (c :: rest) =
      (calls relation collected rest).bind fun p => Run.pure (p.1, built ++ p.2) := by
  rw [calls, h, Run.pure_bind]

theorem Performs.calls_eq (h : Performs place relation terms cs last log) :
    calls relation terms cs = Run.pure (last, log.map Prod.snd) := by
  induction h with
  | done => rfl
  | @compare _ relation terms _ name _ _ _ _ _ expects _ ih =>
    rw [calls_of_call (call_compare expects relation terms name), ih]
    rfl
  | @group _ relation terms groupRelation _ _ _ _ _ _ _ _ ihwithin ih =>
    rw [calls_of_call (call_group ihwithin relation terms groupRelation), ih, Run.pure_bind,
      List.map_append]
  | build _ ih =>
    rw [calls_of_call (by rw [call]), ih]
    rfl

mutual
/-- Where a call completes, what happens next goes on from what it leaves behind. -/
theorem performs_cons_of_call (place : Place) {relation : Relation} {terms collected : List Term}
    {built : List ConditionSet} (c : Call)
    (h : (call relation terms c).outcome = .ok (collected, built)) :
    ∃ early, early.map Prod.snd = built ∧ ∀ {rest last log},
      Performs place relation collected rest last log →
        Performs place relation terms (c :: rest) last (early ++ log) := by
  cases c with
  | compare op name given =>
    rw [call, Run.outcome_bind_eq_ok_iff] at h
    obtain ⟨value, expects, h⟩ := h
    cases name with
    | text s =>
      cases h
      exact ⟨[], rfl, .compare expects⟩
    | _ => cases h
  | group groupRelation inner =>
    rw [call, Run.outcome_bind_eq_ok_iff] at h
    obtain ⟨⟨innermost, early⟩, hinner, h⟩ := h
    cases h
    obtain ⟨log, hlog, hwithin⟩ := performs_of_calls (place ++ [terms.length]) inner hinner
    exact ⟨log, hlog, .group hwithin⟩
  | build =>
    rw [call] at h
    cases h
    exact ⟨[(place, ⟨relation, terms⟩)], rfl, .build⟩
theorem performs_of_calls (place : Place) {relation : Relation} {terms last : List Term}
    {built : List ConditionSet} (cs : List Call)
    (h : (calls relation terms cs).outcome = .ok (last, built)) :
    ∃ log, log.map Prod.snd = built ∧ Performs place relation terms cs last log := by
  cases cs with
  | nil =>
    rw [calls] at h
    cases h
    exact ⟨[], rfl, .done⟩
  | cons c rest =>
    rw [calls, Run.outcome_bind_eq_ok_iff] at h
    obtain ⟨⟨collected, first⟩, hcall, h⟩ := h
    rw [Run.outcome_bind_eq_ok_iff] at h
    obtain ⟨⟨last, more⟩, hrest, h⟩ := h
    cases h
    obtain ⟨early, hearly, hcons⟩ := performs_cons_of_call place c hcall
    obtain ⟨log, hlog, hperforms⟩ := performs_of_calls place rest hrest
    exact ⟨early ++ log, by rw [List.map_append, hearly, hlog], hcons hperforms⟩
end

theorem Performs.run_eq {relation : Value}
    (h : Performs [] (.ofValue relation) [] (cs ++ [.build]) last log) :
    run relation cs = Run.pure (log.map Prod.snd) := by
  rw [run, h.calls_eq]
  rfl

/-- Calls complete exactly if they lead somewhere, and then the log has what they built. -/
theorem run_eq_ok_iff {relation : Value} :
    (run relation cs).outcome = .ok built ↔
      ∃ last log, log.map Prod.snd = built ∧
        Performs [] (.ofValue relation) [] (cs ++ [.build]) last log := by
  constructor
  · rw [run, Run.outcome_bind_eq_ok_iff]
    rintro ⟨⟨last, _⟩, hcalls, h⟩
    cases h
    exact ⟨last, performs_of_calls [] _ hcalls⟩
  · rintro ⟨last, log, rfl, h⟩
    rw [h.run_eq]
    rfl

/-! ### What the log tells -/

/-- Each logged set is from the builder itself, and then goes on from its terms so far, or from
inside a group that is still to come. -/
theorem Performs.origin (h : Performs place relation terms cs last log) :
    ∀ e ∈ log, (e.1 = place ∧ e.2.relation = relation ∧ terms <+: e.2.terms) ∨
      ∃ i inward, e.1 = place ++ i :: inward ∧ terms.length ≤ i ∧ e.2.relation = .and := by
  induction h with
  | done => exact fun _ h => nomatch h
  | compare _ _ ih =>
    intro e he
    rcases ih e he with ⟨hplace, hrelation, hterms⟩ | ⟨i, inward, hplace, hi, hrelation⟩
    · exact .inl ⟨hplace, hrelation, (List.prefix_append _ _).trans hterms⟩
    · exact .inr ⟨i, inward, hplace, Nat.le_trans (by simp) hi, hrelation⟩
  | @group place relation terms _ _ _ _ _ _ _ _ _ ihwithin ih =>
    intro e he
    rcases List.mem_append.mp he with hearly | hlate
    · rcases ihwithin e hearly with ⟨hplace, hrelation, _⟩ | ⟨i, inward, hplace, _, hrelation⟩
      · exact .inr ⟨terms.length, [], hplace, Nat.le_refl _, hrelation⟩
      · exact .inr ⟨terms.length, i :: inward, by simp [hplace], Nat.le_refl _, hrelation⟩
    · rcases ih e hlate with ⟨hplace, hrelation, hterms⟩ | ⟨i, inward, hplace, hi, hrelation⟩
      · exact .inl ⟨hplace, hrelation, (List.prefix_append _ _).trans hterms⟩
      · exact .inr ⟨i, inward, hplace, Nat.le_trans (by simp) hi, hrelation⟩
  | build _ ih =>
    refine List.forall_mem_cons.mpr ⟨.inl ⟨rfl, rfl, List.prefix_rfl⟩, ih⟩

/-- Of two sets from one builder, the terms of the earlier one begin those of the later one. -/
theorem Performs.pairwise_prefix (h : Performs place relation terms cs last log) :
    log.Pairwise fun earlier later =>
      earlier.1 = later.1 → earlier.2.terms <+: later.2.terms := by
  induction h with
  | done => exact .nil
  | compare _ _ ih => exact ih
  | @group place relation terms _ _ _ _ _ _ _ within next ihwithin ih =>
    refine List.pairwise_append.mpr ⟨ihwithin, ih, fun e he d hd hsame => ?_⟩
    -- what the group builds stands further in than what comes from around it and after it
    obtain ⟨inward, hwithin⟩ : ∃ inward, e.1 = place ++ terms.length :: inward := by
      rcases within.origin e he with ⟨hplace, -, -⟩ | ⟨i, inward, hplace, -, -⟩
      · exact ⟨[], hplace⟩
      · exact ⟨i :: inward, by simp [hplace]⟩
    rcases next.origin d hd with ⟨hplace, -, -⟩ | ⟨i, inward', hplace, hi, -⟩
    · simp [hwithin, hplace] at hsame
    · simp [hwithin, hplace] at hsame hi
      omega
  | build next ih =>
    refine List.pairwise_cons.mpr ⟨fun later hlater hsame => ?_, ih⟩
    rcases next.origin later hlater with ⟨-, -, hterms⟩ | ⟨i, inward, hplace, -, -⟩
    · exact hterms
    · simp [hplace] at hsame

end VisibilityRules.Builder
