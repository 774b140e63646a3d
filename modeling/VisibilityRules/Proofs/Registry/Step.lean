import VisibilityRules.Proofs.Cache.State
import VisibilityRules.Registry.Operation

/-!
# One step of a registry

What an operation does to the options, the rules and the settings of a registry. The rules that an
operation adds are read off the operation alone; no state of the registry enters into them.
-/

namespace VisibilityRules.Registry

/-- The rules in the records of a table up to the first record that fails. -/
def readRules : Table Value → List Rule
  | [] => []
  | (control, v) :: rest =>
    match v with
    | .map entries =>
      match (Reading.rule (namedRecord control entries)).outcome with
      | .ok rule => rule :: readRules rest
      | .error _ => []
    | _ => []

namespace Operation

def added : Operation → List Rule
  | .register v =>
    match (Reading.rule v).outcome with
    | .ok rule => [rule]
    | .error _ => []
  | .registerAll conditions => readRules conditions
  | .load source =>
    match source.rules.outcome with
    | .ok rules => rules
    | .error _ => []
  | _ => []

def forgets (control : String) : Operation → Bool
  | .clearControl dropped => dropped = control
  | .reset => true
  | _ => false

def settingsAfter (before : Settings) : Operation → Settings
  | .setSettings given => given
  | .reset => []
  | _ => before

/-- The operation that hides a control where the setting of a name is strictly equal to a value. -/
def hideWhere (control name : String) (value : Value) : Operation :=
  .register (.map [("control_name", .text control),
    ("conditions", .map [("terms", .list [.map [("name", .text name), ("value", value)]])]),
    ("action", .text "hide")])

theorem added_hideWhere (control name : String) (value : Value) :
    (hideWhere control name value).added =
      [⟨control, ⟨.and, [.leaf ⟨name, value, .strictEqual, none⟩]⟩, .hide⟩] := rfl

end Operation

theorem registerValue_of_ok (r : Registry) {v : Value} {rule : Rule}
    (h : (Reading.rule v).outcome = .ok rule) :
    r.registerValue v =
      (⟨(Reading.rule v).events ++ [(r.add rule).addedNotice rule], .ok ()⟩, r.add rule) := by
  unfold registerValue
  dsimp only
  rw [Run.outcome_mapError_of_ok h]
  rfl

theorem registerValue_of_error (r : Registry) {v : Value} {issues : List Issue}
    (h : (Reading.rule v).outcome = .error issues) :
    r.registerValue v = (⟨(Reading.rule v).events, .error (.invalid issues)⟩, r) := by
  unfold registerValue
  dsimp only
  rw [Run.outcome_mapError_of_error h]
  rfl

section RegisterAll

variable (r : Registry) {control : String} {entries : Table Value} (rest : Table Value)

theorem registerAll_cons_of_ok {rule : Rule}
    (h : (Reading.rule (namedRecord control entries)).outcome = .ok rule) :
    (r.registerAll ((control, .map entries) :: rest)).1.outcome =
        ((r.add rule).registerAll rest).1.outcome ∧
      (r.registerAll ((control, .map entries) :: rest)).2 = ((r.add rule).registerAll rest).2 := by
  simp only [registerAll, registerValue_of_ok r h, and_self]

theorem registerAll_cons_of_error {issues : List Issue}
    (h : (Reading.rule (namedRecord control entries)).outcome = .error issues) :
    (r.registerAll ((control, .map entries) :: rest)).1.outcome = .error (.invalid issues) ∧
      (r.registerAll ((control, .map entries) :: rest)).2 = r := by
  simp only [registerAll, registerValue_of_error r h, and_self]

end RegisterAll

private theorem registerAll_snd (r : Registry) (conditions : Table Value) :
    (r.registerAll conditions).2 = (readRules conditions).foldl add r := by
  induction conditions generalizing r with
  | nil => rfl
  | cons e rest ih =>
    obtain ⟨control, v⟩ := e
    cases v with
    | map entries =>
      rw [readRules]
      cases h : (Reading.rule (namedRecord control entries)).outcome with
      | ok rule => rw [(registerAll_cons_of_ok r rest h).2, ih, List.foldl_cons]
      | error issues => rw [(registerAll_cons_of_error r rest h).2, List.foldl_nil]
    | _ => rfl

theorem addAll_snd (r : Registry) (rules : List Rule) :
    (r.addAll rules).2 = rules.foldl add r := by
  induction rules generalizing r with
  | nil => rfl
  | cons rule rest ih => rw [addAll, List.foldl_cons, ← ih]

theorem outcome_load (r : Registry) (source : Source) :
    (r.load source).1.outcome = source.rules.outcome.map List.length := by
  cases h : source.rules.outcome <;> simp only [load, h, Except.map]

theorem load_snd (r : Registry) (source : Source) :
    (r.load source).2 = (Operation.added (.load source)).foldl add r := by
  cases h : source.rules.outcome with
  | ok rules => simp only [load, Operation.added, h, addAll_snd]
  | error failure => simp only [load, Operation.added, h, List.foldl_nil]

theorem controlState_snd (r : Registry) (control : String) (settings : Settings) :
    ∃ cache, (r.controlState control settings).2 = { r with cache := cache } := by
  have hcompute (key : Option String) :
      ∃ cache, (r.computeState control settings key).2 = { r with cache := cache } := by
    unfold computeState
    dsimp only
    split
    · exact ⟨_, rfl⟩
    · exact ⟨r.cache, rfl⟩
  unfold controlState
  split
  · dsimp only
    split
    · exact ⟨r.cache, rfl⟩
    · exact hcompute _
    · exact ⟨r.cache, rfl⟩
  · exact hcompute _

/-- All that an operation can do to a registry: add rules one by one, drop rules, replace settings,
or answer the query of a state. -/
theorem perform_snd (r : Registry) (op : Operation) :
    (r.perform op).2 =
      match op with
      | .clearControl control => r.clearControl control
      | .setSettings settings => { r with settings := settings, cache := .empty }
      | .reset => { r with rules := [], cache := .empty, settings := [] }
      | .controlState control settings => (r.controlState control (settings.getD r.settings)).2
      | op => op.added.foldl add r := by
  cases op with
  | register v =>
    cases h : (Reading.rule v).outcome with
    | ok rule =>
      simp only [perform, Operation.added, h, registerValue_of_ok r h, List.foldl_cons,
        List.foldl_nil]
    | error issues =>
      simp only [perform, Operation.added, h, registerValue_of_error r h, List.foldl_nil]
  | registerAll conditions => exact registerAll_snd r conditions
  | load source => exact load_snd r source
  | _ => rfl

/-! ### Options and settings -/

private theorem foldl_add_frame (r : Registry) (rules : List Rule) :
    (rules.foldl add r).config = r.config ∧ (rules.foldl add r).nesting = r.nesting ∧
      (rules.foldl add r).settings = r.settings := by
  induction rules generalizing r with
  | nil => exact ⟨rfl, rfl, rfl⟩
  | cons rule rest ih => exact ih (r.add rule)

theorem perform_frame (r : Registry) (op : Operation) :
    (r.perform op).2.config = r.config ∧ (r.perform op).2.nesting = r.nesting ∧
      (r.perform op).2.settings = op.settingsAfter r.settings := by
  rw [perform_snd]
  cases op with
  | register | registerAll | load => exact foldl_add_frame r _
  | controlState control settings =>
    obtain ⟨cache, hcache⟩ := controlState_snd r control (settings.getD r.settings)
    dsimp only
    rw [hcache]
    exact ⟨rfl, rfl, rfl⟩
  | _ => exact ⟨rfl, rfl, rfl⟩

@[simp] theorem config_perform (r : Registry) (op : Operation) :
    (r.perform op).2.config = r.config := (perform_frame r op).1

@[simp] theorem nesting_perform (r : Registry) (op : Operation) :
    (r.perform op).2.nesting = r.nesting := (perform_frame r op).2.1

theorem settings_perform (r : Registry) (op : Operation) :
    (r.perform op).2.settings = op.settingsAfter r.settings := (perform_frame r op).2.2

/-! ### Rules -/

theorem rulesOf_add (r : Registry) (rule : Rule) (control : String) :
    (r.add rule).rulesOf control =
      r.rulesOf control ++ [rule].filter (·.control = control) := by
  unfold add rulesOf
  by_cases h : rule.control = control
  · subst h
    simp
  · simp [h, Table.get?_put_of_ne _ _ (Ne.symm h)]

theorem rulesOf_foldl_add (r : Registry) (rules : List Rule) (control : String) :
    (rules.foldl add r).rulesOf control =
      r.rulesOf control ++ rules.filter (·.control = control) := by
  induction rules generalizing r with
  | nil => simp
  | cons rule rest ih =>
    rw [List.foldl_cons, ih, rulesOf_add, List.append_assoc, ← List.filter_append,
      List.singleton_append]

theorem find?_foldl_add (r : Registry) (rules : List Rule) (control key : String) :
    (rules.foldl add r).cache.find? control key =
      if rules.any (·.control = control) then none else r.cache.find? control key := by
  induction rules generalizing r with
  | nil => rfl
  | cons rule rest ih =>
    rw [List.foldl_cons, ih, add, StateCache.find?_discard, List.any_cons]
    by_cases h : rule.control = control
    · simp [h]
    · simp [h, Ne.symm h]

theorem rulesOf_clearControl (r : Registry) (dropped control : String) :
    (r.clearControl dropped).rulesOf control =
      if dropped = control then [] else r.rulesOf control := by
  unfold clearControl rulesOf
  by_cases h : dropped = control
  · subst h
    simp
  · simp [h, Table.get?_remove_of_ne _ (Ne.symm h)]

/-- The rules of a control after an operation: none if it drops them, else those before it and
behind them the ones that it adds for the control. -/
theorem rulesOf_perform (r : Registry) (op : Operation) (control : String) :
    (r.perform op).2.rulesOf control =
      if op.forgets control then []
      else r.rulesOf control ++ op.added.filter (·.control = control) := by
  rw [perform_snd]
  cases op with
  | register | registerAll | load =>
    rw [rulesOf_foldl_add]
    rfl
  | clearControl dropped =>
    rw [rulesOf_clearControl]
    simp [Operation.forgets, Operation.added]
  | controlState name settings =>
    obtain ⟨cache, hcache⟩ := controlState_snd r name (settings.getD r.settings)
    simp [hcache, rulesOf, Operation.forgets, Operation.added]
  | _ => simp [rulesOf, Table.get?, Operation.forgets, Operation.added]

end VisibilityRules.Registry
