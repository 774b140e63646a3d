import VisibilityRules.Proofs.Evaluation.ShortCircuit
import VisibilityRules.Registry.Operation

/-!
# Who reports a hit

A run that was answered from the cache says so in its events. Reading a record, evaluating a
condition and changing a registry report other things, so only requests for the state of a control
can report a hit.
-/

namespace VisibilityRules

namespace Run

variable {ε α β : Type}

def hit? : Event → Option String
  | .noticed (.cacheHit control) => some control
  | _ => none

/-- The controls whose states a run reports as found in the cache. -/
def hits (x : Run ε α) : List String := x.events.filterMap hit?

@[simp] theorem hits_map (f : α → β) (x : Run ε α) : (f <$> x).hits = x.hits := rfl

@[simp] theorem comparisons_map (f : α → β) (x : Run ε α) :
    (f <$> x).comparisons = x.comparisons := rfl

end Run

def Event.NoHit (e : Event) : Prop := Run.hit? e = none

theorem Run.hits_eq_nil_iff {ε α : Type} {x : Run ε α} : x.hits = [] ↔ x.Only Event.NoHit :=
  List.filterMap_eq_nil_iff

theorem Run.Only.hits_eq_nil {ε α : Type} {x : Run ε α} (h : x.Only Event.NoHit) : x.hits = [] :=
  Run.hits_eq_nil_iff.mpr h

/-! ### Reading -/

theorem Operator.only_read (v : Value) : (read v).Only Event.NoHit := by
  have hunknown (given : Value) : (unknown given).Only Event.NoHit := by
    unfold unknown
    split
    · intro e he
      rw [List.mem_singleton.mp he]
      rfl
    · exact Run.only_fail _
  cases v with
  | null => exact Run.only_pure _
  | text s =>
    rw [read]
    split
    · exact Run.only_pure _
    · exact hunknown _
  | _ => exact hunknown _

namespace Reading

variable {α β : Type} {p : Event → Prop}

theorem only_issue (problem : Problem) : (issue problem : Reading α).Only p := Run.only_fail _

theorem only_apply {f : Reading (α → β)} {x : Reading α} (hf : f.Only p) (hx : x.Only p) :
    (apply f x).Only p := Run.Only.append hf hx _

theorem only_either {x y : Reading α} (hx : x.Only p) (hy : y.Only p) : (either x y).Only p :=
  Run.Only.append hx hy _

theorem only_field {entries : Table Value} {name : String} {read : Value → Reading α}
    {absent : Reading α} (hread : ∀ v, (read v).Only p) (habsent : absent.Only p) :
    (field entries name read absent).Only p := by
  unfold field
  split
  · exact (hread _).mapError _
  · exact habsent

theorem only_required {entries : Table Value} {name : String} {read : Value → Reading α}
    (hread : ∀ v, (read v).Only p) : (required entries name read).Only p :=
  only_field hread ((only_issue _).mapError _)

theorem only_text (v : Value) : (text v).Only p := by
  cases v with
  | text s => exact Run.only_pure s
  | _ => exact only_issue _

theorem only_operator (v : Value) : (operator v).Only Event.NoHit := (Operator.only_read v).mapError _

theorem only_action (v : Value) : (action v).Only p := by
  unfold action choice
  split
  · split
    · exact Run.only_pure _
    · split
      · exact Run.only_pure _
      · exact only_issue _
  · exact only_issue _

mutual
private theorem only_term : ∀ v : Value, (term v).Only Event.NoHit
  | .map entries => by
    rw [term]
    exact only_apply (only_apply (only_apply (only_apply
      (only_field only_text (Run.only_pure _)) (Run.only_pure _))
      (only_field only_operator (Run.only_pure _))) (only_termsField entries)) (Run.only_pure _)
  | .missing | .null | .bool _ | .int _ | .double _ | .text _ | .list _ | .tuple _ => by
    unfold term
    exact only_issue _
private theorem only_termsField : ∀ entries : List (String × Value),
    (termsField entries).Only Event.NoHit
  | [] => by
    rw [termsField]
    exact Run.only_pure _
  | (name, v) :: rest => by
    unfold termsField
    split
    · apply Run.Only.mapError
      split
      · exact Run.only_pure _
      · next items => exact (only_termsFrom 0 items).map _
      · next items => exact (only_termsFrom 0 items).map _
      · exact only_issue _
    · exact only_termsField rest
private theorem only_termsFrom (index : Nat) : ∀ items : List Value,
    (termsFrom index items).Only Event.NoHit
  | [] => by
    rw [termsFrom]
    exact Run.only_pure _
  | v :: rest => by
    rw [termsFrom]
    exact only_apply (((only_term v).mapError _).map _) (only_termsFrom (index + 1) rest)
end

private theorem only_conditionSet (v : Value) : (conditionSet v).Only Event.NoHit := by
  have hterms (v : Value) : (terms v).Only Event.NoHit := by
    cases v with
    | list items | tuple items => exact only_termsFrom 0 items
    | _ => exact only_issue _
  cases v with
  | map entries => exact only_apply (Run.only_pure _) (only_field hterms (Run.only_pure _))
  | _ => exact only_issue _

private theorem only_entry (v : Value) : (entry v).Only Event.NoHit := by
  cases v with
  | map entries =>
    exact only_apply ((only_required only_conditionSet).map _) (only_required only_action)
  | _ => exact only_issue _

theorem only_rule (v : Value) : (rule v).Only Event.NoHit := by
  cases v with
  | map entries =>
    exact only_apply (only_apply ((only_required only_text).map _)
      (only_required only_conditionSet)) (only_required only_action)
  | _ => exact only_issue _

private theorem only_entriesFrom (index : Nat) (items : List Value) :
    (entriesFrom index items).Only Event.NoHit := by
  induction items generalizing index with
  | nil => exact Run.only_pure _
  | cons v rest ih => exact only_apply (((only_entry v).mapError _).map _) (ih (index + 1))

private theorem only_oneOrMore (v : Value) : (oneOrMore v).Only Event.NoHit := by
  have hentries : (entries v).Only Event.NoHit := by
    cases v with
    | list items | tuple items => exact only_entriesFrom 0 items
    | _ => exact only_issue _
  exact only_either (hentries.mapError _) (((only_entry v).map _).mapError _)

private theorem only_documentRules (sections : Table Value) :
    (documentRules sections).Only Event.NoHit := by
  induction sections with
  | nil => exact Run.only_pure _
  | cons e rest ih => exact only_apply (((only_oneOrMore e.2).mapError _).map _) ih

end Reading

theorem Source.only_rules (source : Source) : source.rules.Only Event.NoHit := by
  unfold Source.rules
  split
  · next v _ =>
    apply Run.Only.mapError
    cases v with
    | map sections => exact Reading.only_documentRules sections
    | _ => exact Reading.only_issue _
  · exact Run.only_fail _

/-! ### Evaluating -/

/-- Whether an event is the notice that a name cannot be read. -/
def Event.OnName (e : Event) : Prop := ∃ name, e = .noticed (.unparseableName name)

theorem Event.OnName.noHit {e : Event} (h : e.OnName) : e.NoHit := by
  obtain ⟨name, rfl⟩ := h
  rfl

theorem TermName.only_read {ε : Type} (s : String) :
    (TermName.read s : Run ε TermName).Only Event.OnName := by
  unfold TermName.read
  split
  · exact Run.only_pure _
  · intro e he
    exact ⟨s, List.mem_singleton.mp he⟩

theorem Clause.only_check (settings : Settings) (leaf : Clause) :
    (leaf.check settings).Only Event.NoHit := by
  rw [check_eq]
  apply Run.Only.append
  · exact (TermName.only_read leaf.name).mono fun _ => Event.OnName.noHit
  · intro e he
    obtain ⟨a, _, rfl⟩ := List.mem_map.mp he
    rfl

theorem ConditionSet.only_check (nesting : Nesting) (settings : Settings) (set : ConditionSet) :
    (set.check nesting settings).Only Event.NoHit := by
  intro e he
  rw [check_eq_walk] at he
  obtain ⟨leaf, _, hleaf⟩ := List.mem_flatMap.mp he
  exact leaf.only_check settings e hleaf

namespace Registry

private theorem only_firstVerdict (nesting : Nesting) (settings : Settings) (rules : List Rule) :
    (firstVerdict nesting settings rules).Only Event.NoHit := by
  have htriggered (rule : Rule) : (triggered rule).Only Event.NoHit := by
    unfold triggered
    split
    · exact Run.only_pure _
    · exact Run.only_fail _
  induction rules with
  | nil => exact Run.only_pure _
  | cons rule rest ih =>
    apply ((rule.conditions.only_check nesting settings).mapError _).bind
    intro holds
    cases holds with
    | true => exact htriggered rule
    | false => exact ih

theorem only_verdict (r : Registry) (control : String) (settings : Settings) :
    (r.verdict control settings).Only Event.NoHit := by
  unfold verdict
  split
  · exact Run.only_pure _
  · exact only_firstVerdict _ _ _

private theorem only_visibleControls (r : Registry) (settings : Settings) (controls : List String) :
    (r.visibleControls settings controls).Only Event.NoHit := by
  induction controls with
  | nil => exact Run.only_pure _
  | cons control rest ih =>
    apply (r.only_verdict control settings).bind
    intro v
    apply ih.bind
    intro others
    exact Run.only_pure _

private theorem only_anyVisible (r : Registry) (settings : Settings) (controls : List String) :
    (r.anyVisible settings controls).Only Event.NoHit := by
  induction controls with
  | nil => exact Run.only_pure _
  | cons control rest ih =>
    apply (r.only_verdict control settings).bind
    intro v
    split
    · exact Run.only_pure _
    · exact ih

/-! ### Changing a registry -/

private theorem noHit_addedNotice (r : Registry) (rule : Rule) : (r.addedNotice rule).NoHit := rfl

private theorem only_registerValue (r : Registry) (v : Value) :
    (r.registerValue v).1.Only Event.NoHit := by
  have hread := Reading.only_rule v
  unfold registerValue
  dsimp only
  split
  · exact Run.Only.append hread (by simp [register, noHit_addedNotice]) _
  · exact hread

private theorem only_registerAll (r : Registry) (conditions : Table Value) :
    (r.registerAll conditions).1.Only Event.NoHit := by
  induction conditions generalizing r with
  | nil => exact Run.only_pure _
  | cons e rest ih =>
    obtain ⟨control, v⟩ := e
    cases v with
    | map entries =>
      have hfirst := only_registerValue r (namedRecord control entries)
      rw [registerAll]
      dsimp only
      split
      · exact Run.Only.append hfirst (ih _) _
      · exact hfirst
    | _ => exact Run.only_fail _

private theorem only_load (r : Registry) (source : Source) :
    (r.load source).1.Only Event.NoHit := by
  have hadded (r : Registry) (rules : List Rule) : ∀ e ∈ (r.addAll rules).1, e.NoHit := by
    induction rules generalizing r with
    | nil => simp [addAll]
    | cons rule rest ih =>
      rw [addAll, List.forall_mem_cons]
      exact ⟨noHit_addedNotice _ rule, ih _⟩
  have hread := source.only_rules
  unfold load
  dsimp only
  split
  · apply Run.Only.append (List.forall_mem_append.mpr ⟨hread, hadded _ _⟩)
    intro e he
    rw [List.mem_singleton.mp he]
    rfl
  · exact hread

private theorem only_clear {ε : Type} (cache : StateCache) :
    (cache.clear : Run ε StateCache).Only Event.NoHit := by
  unfold StateCache.clear
  split
  · exact Run.only_pure _
  · intro e he
    rw [List.mem_singleton.mp he]
    rfl

/-- Only a request for the state of a control can report a hit. -/
theorem hits_perform {r : Registry} {op : Operation}
    (h : ∀ control given, op ≠ .controlState control given) : (r.perform op).1.hits = [] := by
  apply Run.Only.hits_eq_nil
  cases op with
  | register v => exact only_registerValue r v
  | registerAll conditions => exact only_registerAll r conditions
  | load source => exact only_load r source
  | setSettings | reset => exact only_clear r.cache
  | verdict control given => exact r.only_verdict control (given.getD r.settings)
  | controlState control given => exact absurd rfl (h control given)
  | visibleControls controls given => exact only_visibleControls r (given.getD r.settings) controls
  | anyVisible controls given => exact only_anyVisible r (given.getD r.settings) controls
  | _ => exact Run.only_pure _

end Registry

end VisibilityRules
