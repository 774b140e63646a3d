import VisibilityRules.Proofs.Cache.Transparency
import VisibilityRules.Proofs.Registry.History

/-!
# What a failure leaves behind

An operation that fails leaves the registry as it was. The registration of a whole table is no
single operation in this sense: it stops at the entry that fails, and what it has done by then is to
register the entries before it one by one.
-/

namespace VisibilityRules.Registry

namespace Operation

/-- The registrations of the entries of a table, one operation for each. -/
def registrations (entries : Table (Table Value)) : List Operation :=
  entries.map fun e => .register (namedRecord e.1 e.2)

/-- Why the entry of a control cannot be registered. -/
inductive Rejects (control : String) : Value → Failure → Prop
  | invalid {entries : Table Value} {issues : List Issue}
      (reading : (Reading.rule (namedRecord control entries)).outcome = .error issues) :
      Rejects control (.map entries) (.invalid issues)
  | notMapping {v : Value} (kind : ∀ entries, v ≠ .map entries) :
      Rejects control v (.notMapping v.kindName)

end Operation

open Operation

theorem controlState_of_error {r : Registry} {control : String} {settings : Settings} {e : Failure}
    (h : (r.controlState control settings).1.outcome = .error e) :
    (r.controlState control settings).2 = r := by
  by_cases henabled : r.config.cacheEnabled
  · cases hkey : (r.cacheKey control settings).outcome with
    | error failure => rw [controlState_of_no_key henabled hkey]
    | ok key =>
      cases hfind : r.cache.find? control key with
      | some state => rw [controlState_of_find? henabled hkey hfind]
      | none =>
        rw [controlState_of_not_find? henabled hkey hfind] at h ⊢
        rw [Outcome.map_eq_error_iff.mp h]
  · rw [controlState_of_disabled henabled]

private theorem added_of_error {r : Registry} {op : Operation} {e : Failure}
    (h : (r.perform op).1.outcome = .error e) (hop : ∀ conditions, op ≠ .registerAll conditions) :
    op.added = [] := by
  cases op with
  | register v =>
    cases hread : (Reading.rule v).outcome with
    | ok rule =>
      rw [perform, registerValue_of_ok r hread] at h
      cases h
    | error issues => simp only [added, hread]
  | registerAll conditions => exact absurd rfl (hop conditions)
  | load source =>
    cases hread : source.rules.outcome with
    | ok rules =>
      rw [perform, Run.outcome_map, outcome_load, hread] at h
      cases h
    | error failure => simp only [added, hread]
  | _ => rfl

theorem perform_of_error {r : Registry} {op : Operation} {e : Failure}
    (h : (r.perform op).1.outcome = .error e) (hop : ∀ conditions, op ≠ .registerAll conditions) :
    (r.perform op).2 = r := by
  have hadded := added_of_error h hop
  rw [perform_snd]
  cases op with
  | clearControl => cases h
  | setSettings | reset =>
    simp only [perform, setSettings, reset, Run.outcome_map, StateCache.outcome_clear] at h
    cases h
  | controlState control settings =>
    rw [perform, Run.outcome_map, Outcome.map_eq_error_iff] at h
    exact controlState_of_error h
  | _ => simp only [hadded, List.foldl_nil]

private theorem perform_register_of_ok (r : Registry) {v : Value} {rule : Rule}
    (h : (Reading.rule v).outcome = .ok rule) :
    (r.perform (.register v)).1.outcome = .ok .done ∧ (r.perform (.register v)).2 = r.add rule := by
  rw [perform, registerValue_of_ok r h]
  exact ⟨rfl, rfl⟩

theorem registerAll_of_error {r : Registry} {conditions : Table Value} {e : Failure}
    (h : (r.registerAll conditions).1.outcome = .error e) :
    ∃ before control v rest,
      conditions = Table.mapValues Value.map before ++ (control, v) :: rest ∧
      (∀ run ∈ r.runs (registrations before), run.outcome = .ok .done) ∧
      Rejects control v e ∧ (r.registerAll conditions).2 = r.after (registrations before) := by
  induction conditions generalizing r with
  | nil => cases h
  | cons entry rest ih =>
    obtain ⟨control, v⟩ := entry
    cases v with
    | map entries =>
      cases hread : (Reading.rule (namedRecord control entries)).outcome with
      | ok rule =>
        obtain ⟨houtcome, hsnd⟩ := registerAll_cons_of_ok r rest hread
        -- the state after the first entry is the one that its own registration leaves
        obtain ⟨hdone, hadded⟩ := perform_register_of_ok r hread
        rw [houtcome] at h
        obtain ⟨before, failing, v, more, hrest, hbefore, hrejects, hafter⟩ := ih h
        refine ⟨(control, entries) :: before, failing, v, more, ?_, ?_, hrejects, ?_⟩
        · rw [hrest]
          rfl
        · rw [registrations, List.map_cons, runs, hadded, List.forall_mem_cons]
          exact ⟨hdone, hbefore⟩
        · rw [hsnd, hafter, registrations, registrations, List.map_cons, after, after,
            List.foldl_cons, hadded]
      | error issues =>
        obtain ⟨houtcome, hsnd⟩ := registerAll_cons_of_error r rest hread
        rw [houtcome] at h
        cases h
        exact ⟨[], control, _, rest, rfl, by simp [registrations, runs], .invalid hread, hsnd⟩
    | _ =>
      cases h
      exact ⟨[], control, _, rest, rfl, by simp [registrations, runs], .notMapping (by simp), rfl⟩

/-- A failed operation changes nothing, in whatever state the registry is. The registration of a
table that fails at an entry leaves what the registrations of the entries before it leave, which all
succeed. -/
theorem failure_keeps_registry (r : Registry) (op : Operation) (e : Failure) :
    (r.perform op).1.outcome = .error e →
      match op with
      | .registerAll conditions =>
        ∃ before control v rest,
          conditions = Table.mapValues Value.map before ++ (control, v) :: rest ∧
          (∀ run ∈ r.runs (registrations before), run.outcome = .ok .done) ∧
          Rejects control v e ∧ (r.perform op).2 = r.after (registrations before)
      | _ => (r.perform op).2 = r := by
  intro h
  cases op with
  | registerAll conditions =>
    rw [perform, Run.outcome_map, Outcome.map_eq_error_iff] at h
    exact registerAll_of_error h
  | _ => exact perform_of_error h (by simp)

/-- A table whose second entry is no mapping, and a file that does not exist. -/
theorem title_entry_and_absent_file_fail :
    let r := (new none none).after [hideWhere "panel" "mode" (.int 1)]
    let shown : Table Value := [("conditions", .map []), ("action", .text "show")]
    let conditions := [("panel", Value.map shown), ("title", .int 3), ("footer", .map shown)]
    (r.perform (.registerAll conditions)).1.outcome = .error (.notMapping "int") ∧
      (∃ before control v rest,
        conditions = Table.mapValues Value.map before ++ (control, v) :: rest ∧
        (∀ run ∈ r.runs (registrations before), run.outcome = .ok .done) ∧
        Rejects control v (.notMapping "int") ∧
        (r.perform (.registerAll conditions)).2 = r.after (registrations before)) ∧
      (r.perform (.load (.file none))).1.outcome = .error .noFile ∧
      (r.perform (.load (.file none))).2 = r :=
  ⟨rfl, failure_keeps_registry _ (.registerAll _) _ rfl, rfl,
    failure_keeps_registry _ (.load (.file none)) _ rfl⟩

end VisibilityRules.Registry
