import VisibilityRules.Run

/-!
# Equations of runs

How events and outcomes go through the operations on runs, where an outcome is a failure, and what
the events of a run have in common. Proofs about runs use these equations and never unfold a run.
-/

namespace VisibilityRules

namespace Outcome

variable {ε α β : Type}

theorem answers_iff (x : Except ε α) : (∃ a, x = .ok a) ↔ ¬∃ e, x = .error e := by
  cases x <;> simp

theorem map_eq_error_iff {x : Except ε α} {f : α → β} {e : ε} :
    x.map f = .error e ↔ x = .error e := by
  cases x <;> simp [Except.map]

theorem bind_eq_ok_iff {x : Except ε α} {f : α → Except ε β} {b : β} :
    x.bind f = .ok b ↔ ∃ a, x = .ok a ∧ f a = .ok b := by
  cases x <;> simp [Except.bind]

theorem bind_eq_error_iff {x : Except ε α} {f : α → Except ε β} {e : ε} :
    x.bind f = .error e ↔ x = .error e ∨ ∃ a, x = .ok a ∧ f a = .error e := by
  cases x <;> simp [Except.bind]

theorem mapError_bind {φ : Type} (g : ε → φ) (x : Except ε α) (f : α → Except ε β) :
    (x.bind f).mapError g = (x.mapError g).bind fun a => (f a).mapError g := by
  cases x <;> rfl

end Outcome

namespace Run

variable {ε φ α β : Type}

@[ext] theorem ext {x y : Run ε α} (events : x.events = y.events)
    (outcome : x.outcome = y.outcome) : x = y := by
  cases x
  cases y
  simp_all

@[simp] theorem pure_def (a : α) : (pure a : Run ε α) = ⟨[], .ok a⟩ := rfl

@[simp] theorem ofExcept_def (o : Except ε α) : ofExcept o = ⟨[], o⟩ := rfl

@[simp] theorem monad_bind_def (x : Run ε α) (f : α → Run ε β) : x >>= f = x.bind f := rfl

theorem id_map (x : Run ε α) : id <$> x = x := by
  cases x with
  | mk events outcome => cases outcome <;> rfl

theorem bind_pure_comp (f : α → β) (x : Run ε α) : (x >>= fun a => pure (f a)) = f <$> x := by
  cases x with
  | mk events outcome => cases outcome <;> simp [Run.bind, Functor.map, Run.map, Except.map]

instance : LawfulMonad (Run ε) :=
  LawfulMonad.mk' _ id_map pure_bind bind_assoc (fun _ _ => rfl) (fun _ _ => rfl) (fun _ _ => rfl)
    bind_pure_comp

@[simp] theorem outcome_map (f : α → β) (x : Run ε α) :
    (f <$> x).outcome = x.outcome.map f := rfl

@[simp] theorem events_mapError (f : ε → φ) (x : Run ε α) : (x.mapError f).events = x.events := rfl

@[simp] theorem outcome_mapError (f : ε → φ) (x : Run ε α) :
    (x.mapError f).outcome = x.outcome.mapError f := rfl

theorem outcome_mapError_of_ok {f : ε → φ} {x : Run ε α} {a : α} (h : x.outcome = .ok a) :
    (x.mapError f).outcome = .ok a := by
  rw [outcome_mapError, h]
  rfl

theorem outcome_mapError_of_error {f : ε → φ} {x : Run ε α} {e : ε} (h : x.outcome = .error e) :
    (x.mapError f).outcome = .error (f e) := by
  rw [outcome_mapError, h]
  rfl

theorem bind_ok (events : List Event) (a : α) (f : α → Run ε β) :
    (Run.mk events (.ok a)).bind f = ⟨events ++ (f a).events, (f a).outcome⟩ := rfl

theorem bind_error (events : List Event) (e : ε) (f : α → Run ε β) :
    (Run.mk events (.error e)).bind f = ⟨events, .error e⟩ := rfl

theorem outcome_bind (x : Run ε α) (f : α → Run ε β) :
    (x.bind f).outcome = x.outcome.bind fun a => (f a).outcome := by
  cases x with
  | mk events outcome => cases outcome <;> rfl

theorem bind_of_ok {x : Run ε α} {a : α} (h : x.outcome = .ok a) (f : α → Run ε β) :
    x.bind f = ⟨x.events ++ (f a).events, (f a).outcome⟩ := by
  cases x with
  | mk events outcome =>
    cases h
    rfl

theorem bind_of_error {x : Run ε α} {e : ε} (h : x.outcome = .error e) (f : α → Run ε β) :
    x.bind f = ⟨x.events, .error e⟩ := by
  cases x with
  | mk events outcome =>
    cases h
    rfl

theorem outcome_bind_eq_ok_iff {x : Run ε α} {f : α → Run ε β} {b : β} :
    (x.bind f).outcome = .ok b ↔ ∃ a, x.outcome = .ok a ∧ (f a).outcome = .ok b := by
  rw [outcome_bind, Outcome.bind_eq_ok_iff]

theorem outcome_foldlM (f : β → α → Run ε β) (b : β) (as : List α) :
    (as.foldlM f b).outcome = as.foldlM (fun b a => (f b a).outcome) b := by
  induction as generalizing b with
  | nil => rfl
  | cons a rest ih =>
    rw [List.foldlM_cons, List.foldlM_cons, monad_bind_def, outcome_bind]
    exact congrArg (f b a).outcome.bind (funext ih)

theorem succeeded_iff {x : Run ε α} : x.succeeded ↔ ∃ a, x.outcome = .ok a := by
  unfold succeeded
  cases x.outcome <;> simp

/-- Whether all events of a run have a property. -/
def Only (p : Event → Prop) (x : Run ε α) : Prop := ∀ e ∈ x.events, p e

section Only

variable {p q : Event → Prop} {x : Run ε α}

theorem only_pure (a : α) : (pure a : Run ε α).Only p := by simp [Only]

theorem only_fail (e : ε) : (fail e : Run ε α).Only p := by simp [Only, fail]

theorem only_ofExcept (o : Except ε α) : (ofExcept o).Only p := by simp [Only]

theorem Only.map (h : x.Only p) (f : α → β) : (f <$> x).Only p := h

theorem Only.mapError (h : x.Only p) (f : ε → φ) : (x.mapError f).Only p := h

theorem Only.mono (h : x.Only p) (hpq : ∀ e, p e → q e) : x.Only q := fun e he => hpq e (h e he)

theorem Only.append {before after : List Event} (hbefore : ∀ e ∈ before, p e)
    (hafter : ∀ e ∈ after, p e) (outcome : Except ε α) :
    (Run.mk (before ++ after) outcome).Only p := by
  intro e he
  rcases List.mem_append.mp he with hmem | hmem
  · exact hbefore e hmem
  · exact hafter e hmem

theorem Only.bind {f : α → Run ε β} (hx : x.Only p) (hf : ∀ a, (f a).Only p) :
    (x.bind f).Only p := by
  cases h : x.outcome with
  | ok a =>
    rw [bind_of_ok h]
    exact Only.append hx (hf a) _
  | error failure =>
    rw [bind_of_error h]
    exact hx

end Only

def compared? : Event → Option (Operator × Bool)
  | .noticed _ => none
  | .compared op holds => some (op, holds)

theorem comparisons_eq (x : Run ε α) : x.comparisons = x.events.filterMap compared? := rfl

end Run

end VisibilityRules
