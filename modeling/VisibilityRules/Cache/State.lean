import VisibilityRules.Run
import VisibilityRules.Verdict

/-!
# The state cache

A cache keeps states of controls on two levels: by control, then by the key of the settings that the
state was computed from.
-/

namespace VisibilityRules

structure StateCache where
  controls : Table (Table ControlState)

namespace StateCache

def empty : StateCache := ⟨[]⟩

def find? (cache : StateCache) (control key : String) : Option ControlState :=
  (Table.get? cache.controls control).bind fun states => Table.get? states key

def get {ε : Type} (cache : StateCache) (control key : String) : Run ε (Option ControlState) :=
  match cache.find? control key with
  | some state => ⟨[.noticed (.cacheHit control)], .ok (some state)⟩
  | none => pure none

def put (cache : StateCache) (control key : String) (state : ControlState) : StateCache :=
  ⟨Table.put cache.controls control
    (Table.put ((Table.get? cache.controls control).getD []) key state)⟩

def discard (cache : StateCache) (control : String) : StateCache :=
  ⟨Table.remove cache.controls control⟩

def size (cache : StateCache) : Nat :=
  cache.controls.foldr (fun e n => e.2.length + n) 0

/-- Drops all states and reports how many there were, unless no control has any. -/
def clear {ε : Type} (cache : StateCache) : Run ε StateCache :=
  match cache.controls with
  | [] => pure empty
  | _ => ⟨[.noticed (.cacheCleared cache.size)], .ok empty⟩

inductive Operation where
  | get (control key : String)
  | put (control key : String) (state : ControlState)
  | discard (control : String)
  | clear

/-- Performs an operation: the run with the state that was found, and the cache afterwards. -/
def perform {ε : Type} (cache : StateCache) : Operation → Run ε (Option ControlState) × StateCache
  | .get control key => (cache.get control key, cache)
  | .put control key state => (pure none, cache.put control key state)
  | .discard control => (pure none, cache.discard control)
  | .clear => ((fun _ => none) <$> cache.clear, empty)

end StateCache

end VisibilityRules
