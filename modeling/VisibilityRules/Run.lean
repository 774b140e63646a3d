import VisibilityRules.Notice
import VisibilityRules.Operator

/-!
# Runs

A run is what an operation leaves behind: the events in order, and either its answer or the failure
that ended it. Events are the notices and the leaf comparisons that were made.
-/

namespace VisibilityRules

inductive Event where
  | noticed (notice : Notice)
  | compared (operator : Operator) (holds : Bool)

/-- The events of an operation and its outcome. -/
structure Run (ε α : Type) where
  events : List Event
  outcome : Except ε α

namespace Run

variable {ε φ α β : Type}

protected def pure (a : α) : Run ε α := ⟨[], .ok a⟩

def fail (e : ε) : Run ε α := ⟨[], .error e⟩

def ofExcept (outcome : Except ε α) : Run ε α := ⟨[], outcome⟩

def notice (n : Notice) : Run ε Unit := ⟨[.noticed n], .ok ()⟩

/-- Goes on with the answer of a run; a failure ends both. -/
protected def bind (x : Run ε α) (f : α → Run ε β) : Run ε β :=
  match x.outcome with
  | .ok a => ⟨x.events ++ (f a).events, (f a).outcome⟩
  | .error e => ⟨x.events, .error e⟩

protected def map (f : α → β) (x : Run ε α) : Run ε β := ⟨x.events, x.outcome.map f⟩

instance : Monad (Run ε) where
  pure := Run.pure
  bind := Run.bind
  map := Run.map

def mapError (f : ε → φ) (x : Run ε α) : Run φ α := ⟨x.events, x.outcome.mapError f⟩

def succeeded (x : Run ε α) : Bool :=
  match x.outcome with
  | .ok _ => true
  | .error _ => false

def notices (x : Run ε α) : List Notice :=
  x.events.filterMap fun
    | .noticed n => some n
    | .compared .. => none

def comparisons (x : Run ε α) : List (Operator × Bool) :=
  x.events.filterMap fun
    | .noticed _ => none
    | .compared op holds => some (op, holds)

theorem pure_bind (a : α) (f : α → Run ε β) : (Run.pure a).bind f = f a := by
  simp [Run.pure, Run.bind]

theorem bind_pure (x : Run ε α) : x.bind Run.pure = x := by
  cases x with
  | mk events outcome => cases outcome <;> simp [Run.pure, Run.bind]

theorem bind_assoc {γ : Type} (x : Run ε α) (f : α → Run ε β) (g : β → Run ε γ) :
    (x.bind f).bind g = x.bind fun a => (f a).bind g := by
  cases x with
  | mk events outcome =>
    cases outcome with
    | error e => rfl
    | ok a =>
      simp only [Run.bind]
      cases h : (f a).outcome <;> simp

end Run

end VisibilityRules
