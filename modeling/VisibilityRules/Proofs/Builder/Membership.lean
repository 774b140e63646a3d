import VisibilityRules.Proofs.Builder.Trace
import VisibilityRules.Proofs.Document.Grammar
import VisibilityRules.Proofs.Evaluation.Basic
import VisibilityRules.Proofs.Value.EqualityLaws

/-!
# Ways to say that a setting is one of several values

A disjunction of strict equalities, a membership, and a membership from a builder ask the same of a
setting, and two other sets ask for the opposite. Equalities look from the setting at each of the
values, memberships from each of the values at the setting, so the agreement rests on the symmetry
of strict equality.
-/

namespace VisibilityRules

/-- The set that compares one setting with each of the given values by the same operator. -/
def ConditionSet.comparing (relation : Relation) (name : String) (op : Operator)
    (vs : List Value) : ConditionSet :=
  ⟨relation, vs.map fun v => .leaf ⟨name, v, op, none⟩⟩

/-! ### What gets built -/

namespace Builder

/-- A call on a builder that adds the given leaf. -/
inductive Adds : Call → Clause → Prop
  | compare {op : Operator} {name : String} {given value : Value}
      (expects : expected op given = .ok value) :
      Adds (.compare op (.text name) given) ⟨name, value, op, none⟩

theorem Adds.call {c : Call} {leaf : Clause} (h : Adds c leaf) (relation : Relation)
    (terms : List Term) : call relation terms c = Run.pure (terms ++ [.leaf leaf], []) := by
  cases h with
  | compare expects => exact call_compare expects relation terms _

theorem calls_append_of_adds {cs : List Call} {leaves : List Clause} (h : List.Forall₂ Adds cs leaves)
    (relation : Relation) (terms : List Term) (rest : List Call) :
    calls relation terms (cs ++ rest) = calls relation (terms ++ leaves.map .leaf) rest := by
  induction h generalizing terms with
  | nil => simp
  | @cons c leaf cs leaves hc _ ih =>
    calc calls relation terms (c :: (cs ++ rest))
        = calls relation (terms ++ [.leaf leaf]) (cs ++ rest) := by
          rw [calls_of_call (hc.call relation terms)]
          exact Run.bind_pure _
      _ = calls relation (terms ++ (leaf :: leaves).map .leaf) rest := by
          rw [ih, List.append_assoc]
          rfl

theorem run_of_adds {cs : List Call} {leaves : List Clause} (h : List.Forall₂ Adds cs leaves)
    (relation : Value) : run relation cs = Run.pure [⟨.ofValue relation, leaves.map .leaf⟩] := by
  rw [run, calls_append_of_adds h]
  rfl

theorem run_comparing {op : Operator} {vs : List Value} (h : ∀ v ∈ vs, expected op v = .ok v)
    (relation : Value) (name : String) :
    run relation (vs.map fun v => .compare op (.text name) v) =
      Run.pure [.comparing (.ofValue relation) name op vs] := by
  have hadds : List.Forall₂ Adds (vs.map fun v => .compare op (.text name) v)
      (vs.map fun v => ⟨name, v, op, none⟩) := by
    rw [List.forall₂_map_left_iff, List.forall₂_map_right_iff, List.forall₂_same]
    exact fun v hv => .compare (h v hv)
  rw [run_of_adds hadds, List.map_map]
  rfl

end Builder

namespace ConditionSet

theorem alternatives_text (name : String) (vs : List Value) :
    alternatives (.text name) vs =
      Run.pure (vs.map fun v => .leaf ⟨name, v, .strictEqual, none⟩) := by
  induction vs with
  | nil => rfl
  | cons v rest ih =>
    rw [alternatives, ih]
    rfl

theorem oneOf_list (name : String) (vs : List Value) :
    oneOf (.text name) (.list vs) = Run.pure (comparing .or name .strictEqual vs) := by
  have hmembers : Run.ofExcept (Value.list vs).memberList = (Run.pure vs : Run Failure _) := rfl
  rw [oneOf, hmembers, Run.pure_bind, alternatives_text, Run.pure_bind]
  rfl

theorem single_symbol (name : String) (value : Value) (op : Operator) :
    single (.text name) value (.text op.symbol) = Run.pure (comparing .and name op [value]) := by
  rw [single, Reading.operator, Operator.read_symbol]
  rfl

/-! ### What it answers -/

/-- Where each comparison has an answer, the set answers their conjunction or disjunction; a setting
that is missing makes all of them false. -/
theorem outcome_check_comparing {settings : Settings} {name : String} {value : Value}
    (hfound : settings.lookup (.of name) = .ok value) (op : Operator) {answer : Value → Bool}
    (hanswer : ∀ v, op.compare value v = .ok (answer v)) (nesting : Nesting) (relation : Relation)
    (vs : List Value) :
    ((comparing relation name op vs).check nesting settings).outcome =
      .ok (match relation with
        | .and => vs.all fun v => !value.isMissing && answer v
        | .or => vs.any fun v => !value.isMissing && answer v) := by
  have hleaves : ∀ c ∈ vs.map fun v => (⟨name, v, op, none⟩ : Clause),
      c.result settings = .ok (!value.isMissing && answer c.value) := by
    rw [List.forall_mem_map]
    exact fun v _ => Clause.result_of_found ⟨name, v, op, none⟩ hfound (hanswer v)
  have hcheck := outcome_check_leaves hleaves nesting relation
  rw [List.map_map] at hcheck
  rw [comparing, ← Function.comp_def, hcheck]
  cases relation <;> simp [Relation.combine, Function.comp_def]

end ConditionSet

/-! ### Keys that are not repeated -/

theorem Value.UniqueKeys.getD {o : Option Value} (h : ∀ v, o = some v → v.UniqueKeys) :
    (o.getD .missing).UniqueKeys := by
  cases o with
  | none => exact .missing
  | some v => exact h v rfl

theorem Value.UniqueKeys.part {v w : Value} {key : String} (hv : v.UniqueKeys)
    (h : v.part key = .ok w) : w.UniqueKeys := by
  cases v with
  | map entries =>
    cases h
    exact .getD fun member hget => hv.of_mem_map (Table.mem_of_get?_eq_some hget)
  | list items =>
    rw [Value.part] at h
    split at h
    · cases hindex : readIndex key with
      | error f => simp [hindex, Except.map] at h
      | ok i =>
        rw [hindex] at h
        cases h
        exact .getD fun member hget => hv.of_mem_list (List.mem_of_getElem? hget)
    · cases h
      exact .missing
  | _ =>
    cases h
    exact hv

theorem Settings.uniqueKeys_of_lookup {settings : Settings} {name : TermName} {value : Value}
    (hsettings : (Value.map settings).UniqueKeys) (h : settings.lookup name = .ok value) :
    value.UniqueKeys := by
  have hwhole : ((Table.get? settings name.setting).getD .missing).UniqueKeys :=
    .getD fun member hget => hsettings.of_mem_map (Table.mem_of_get?_eq_some hget)
  unfold lookup at h
  split at h
  · cases h
    exact hwhole
  · split at h
    · cases h
      exact hwhole
    · exact hwhole.part h

theorem Value.among_eq_any {items : List Value} {v : Value} (hitems : (Value.list items).UniqueKeys)
    (hv : v.UniqueKeys) : among items v = items.any (strictEqual v) := by
  rw [among, Bool.eq_iff_iff, List.any_eq_true, List.any_eq_true]
  refine exists_congr fun item => and_congr_right fun hitem => ?_
  rw [strictEqual_comm (hitems.of_mem_list hitem) hv]

/-! ### Agreement -/

/-- Three ways to say that a setting is one of several values: a disjunction of equalities, a
membership, and a membership from a builder. They answer alike: that the setting is there and
strictly equal to one of the values. Where it is there, both the non-membership and the conjunction
of inequalities say the opposite; where it is missing, the non-membership does not hold either. -/
theorem ConditionSet.membership_three_ways (nesting : Nesting) (settings : Settings)
    (name : String) (vs : List Value) (value : Value)
    (hsettings : (Value.map settings).UniqueKeys) (hvs : (Value.list vs).UniqueKeys)
    (hfound : settings.lookup (.of name) = .ok value) :
    ∃ alternatives member fluent outside apart : ConditionSet,
      (oneOf (.text name) (.list vs)).outcome = .ok alternatives ∧
      (single (.text name) (.list vs) (.text "in")).outcome = .ok member ∧
      (Builder.run (.text "and") [.compare .isIn (.text name) (.list vs)]).outcome = .ok [fluent] ∧
      (Builder.run (.text "and") [.compare .notIn (.text name) (.list vs)]).outcome =
        .ok [outside] ∧
      (Builder.run (.text "and") (vs.map fun v => .compare .strictNotEqual (.text name) v)).outcome =
        .ok [apart] ∧
      ∃ holds, (∀ set ∈ [alternatives, member, fluent],
          (set.check nesting settings).outcome = .ok holds) ∧
        (value ≠ .missing → (holds ↔ ∃ v ∈ vs, Value.strictEqual value v) ∧
          ∀ set ∈ [outside, apart], (set.check nesting settings).outcome = .ok (!holds)) ∧
        (value = .missing → holds = false ∧
          (outside.check nesting settings).outcome = .ok false) := by
  have hmember : single (.text name) (.list vs) (.text "in") =
      Run.pure (comparing .and name .isIn [.list vs]) := single_symbol name (.list vs) .isIn
  have hfluent : Builder.run (.text "and") [.compare .isIn (.text name) (.list vs)] =
      Run.pure [comparing .and name .isIn [.list vs]] :=
    Builder.run_comparing (List.forall_mem_singleton.mpr rfl) (.text "and") name
  have houtside : Builder.run (.text "and") [.compare .notIn (.text name) (.list vs)] =
      Run.pure [comparing .and name .notIn [.list vs]] :=
    Builder.run_comparing (List.forall_mem_singleton.mpr rfl) (.text "and") name
  have hapart : Builder.run (.text "and")
        (vs.map fun v => .compare .strictNotEqual (.text name) v) =
      Run.pure [comparing .and name .strictNotEqual vs] :=
    Builder.run_comparing (fun _ _ => rfl) (.text "and") name
  rw [oneOf_list, hmember, hfluent, houtside, hapart]
  refine ⟨_, _, _, _, _, rfl, rfl, rfl, rfl, rfl, !value.isMissing && vs.any value.strictEqual, ?_⟩
  -- the answers of the four sets, with membership turned round into equality with the setting
  have hamong := Value.among_eq_any hvs (Settings.uniqueKeys_of_lookup hsettings hfound)
  have hequal := outcome_check_comparing hfound .strictEqual (fun _ => rfl) nesting .or vs
  have hisIn := outcome_check_comparing hfound .isIn (fun _ => rfl) nesting .and [.list vs]
  have hnotIn := outcome_check_comparing hfound .notIn (fun _ => rfl) nesting .and [.list vs]
  have hunequal := outcome_check_comparing hfound .strictNotEqual (fun _ => rfl) nesting .and vs
  simp only [← List.and_any_distrib_left] at hequal
  simp only [List.all_cons, List.all_nil, Bool.and_true, Value.listed, hamong] at hisIn
  simp only [List.all_cons, List.all_nil, Bool.and_true, Value.unlisted, hamong] at hnotIn
  refine ⟨by simp [hequal, hisIn], fun hpresent => ?_, ?_⟩
  · have hmissing : value.isMissing = false := by
      rwa [← Bool.not_eq_true, Value.isMissing_iff]
    simp only [hmissing, Bool.not_false, Bool.true_and, ← List.not_any_eq_all_not]
      at hnotIn hunequal ⊢
    exact ⟨List.any_eq_true, by simp [hnotIn, hunequal]⟩
  · rintro rfl
    exact ⟨rfl, hnotIn⟩

theorem ConditionSet.width_among_values :
    let width : Value := .double (.finite false 0x3FF0000000000000)
    let settings : Settings := [("width", width)]
    let vs : List Value := [.bool true, .list [], .int 1]
    ((Value.map settings).UniqueKeys ∧ (Value.list vs).UniqueKeys ∧
        settings.lookup (.of "width") = .ok width ∧ width ≠ .missing) ∧
      ∃ alternatives outside : ConditionSet,
        (oneOf (.text "width") (.list vs)).outcome = .ok alternatives ∧
        (Builder.run (.text "and") [.compare .notIn (.text "width") (.list vs)]).outcome =
          .ok [outside] ∧
        ∃ holds, (alternatives.check .and settings).outcome = .ok holds ∧
          (holds ↔ ∃ v ∈ vs, Value.strictEqual width v) ∧
          (outside.check .and settings).outcome = .ok (!holds) := by
  intro width settings vs
  have hsettings : (Value.map settings).UniqueKeys :=
    .map (by decide) (by simp [settings, width, Value.UniqueKeys.double])
  have hvs : (Value.list vs).UniqueKeys :=
    .list (by simp [vs, Value.UniqueKeys.bool, Value.UniqueKeys.int, Value.UniqueKeys.list])
  have hfound : settings.lookup (.of "width") = .ok width :=
    Settings.lookup_bare (by decide +kernel) settings
  obtain ⟨alternatives, _, _, outside, _, hone, _, _, hout, _, holds, hasked, hpresent, _⟩ :=
    membership_three_ways .and settings "width" vs width hsettings hvs hfound
  obtain ⟨hmeaning, hopposite⟩ := hpresent nofun
  exact ⟨⟨hsettings, hvs, hfound, nofun⟩, alternatives, outside, hone, hout, holds,
    hasked alternatives (by simp), hmeaning, hopposite outside (by simp)⟩

end VisibilityRules
