import VisibilityRules.Cache.Key
import VisibilityRules.Cache.State
import VisibilityRules.Configuration
import VisibilityRules.Dependency
import VisibilityRules.Document

/-!
# Registries

A registry holds the rules of each control in order of registration, the active settings, and the
states it has computed. The first rule whose conditions hold decides on a control; a control without
such a rule is visible.
-/

namespace VisibilityRules

/-- The rules of an editing session, its settings and its cached states. -/
structure Registry where
  config : Configuration
  /-- how nested groups are evaluated -/
  nesting : Nesting
  rules : Table (List Rule) := []
  cache : StateCache := .empty
  settings : Settings := []

namespace Registry

/-- A new registry. Without options of its own it takes those of the evaluator; without an evaluator
it evaluates by its own options. -/
def new (evaluator config : Option Configuration) : Registry :=
  let own := config.getD (evaluator.getD {})
  { config := own, nesting := (evaluator.getD own).nesting }

def rulesOf (r : Registry) (control : String) : List Rule := (Table.get? r.rules control).getD []

/-- Puts a rule behind those of its control. States of the control are dropped: they predate it. -/
def add (r : Registry) (rule : Rule) : Registry :=
  { r with
    rules := Table.put r.rules rule.control (r.rulesOf rule.control ++ [rule])
    cache := r.cache.discard rule.control }

def addedNotice (r : Registry) (rule : Rule) : Event :=
  .noticed (.registered rule.action.word (r.rulesOf rule.control).length rule.control)

def register (r : Registry) (rule : Rule) : Run Failure Unit × Registry :=
  let after := r.add rule
  (⟨[after.addedNotice rule], .ok ()⟩, after)

def registerValue (r : Registry) (v : Value) : Run Failure Unit × Registry :=
  let reading := (Reading.rule v).mapError Failure.invalid
  match reading.outcome with
  | .ok rule =>
    let (run, after) := r.register rule
    (⟨reading.events ++ run.events, run.outcome⟩, after)
  | .error failure => (⟨reading.events, .error failure⟩, r)

/-- The record of a rule for a control, whose own fields win. -/
def namedRecord (control : String) (entries : Table Value) : Value :=
  .map (Table.merge [("control_name", .text control)] entries)

/-- Adds one rule for each control in order. The first failure ends this; rules added before
stay. -/
def registerAll (r : Registry) : Table Value → Run Failure Unit × Registry
  | [] => (pure (), r)
  | (control, .map entries) :: rest =>
    let (run, after) := r.registerValue (namedRecord control entries)
    match run.outcome with
    | .ok () =>
      let (more, last) := after.registerAll rest
      (⟨run.events ++ more.events, more.outcome⟩, last)
    | .error failure => (⟨run.events, .error failure⟩, after)
  | (_, v) :: _ => (.fail (.notMapping v.kindName), r)

def addAll (r : Registry) : List Rule → List Event × Registry
  | [] => ([], r)
  | rule :: rest =>
    let after := r.add rule
    let (events, last) := after.addAll rest
    (after.addedNotice rule :: events, last)

/-- Adds the rules of a document and counts them. A document that cannot be read adds nothing. -/
def load (r : Registry) (source : Source) : Run Failure Nat × Registry :=
  let reading := source.rules
  match reading.outcome with
  | .ok rules =>
    let (events, after) := r.addAll rules
    let controls := (distinct (rules.map Rule.control)).length
    (⟨reading.events ++ events ++ [.noticed (.loaded rules.length controls)], .ok rules.length⟩,
      after)
  | .error failure => (⟨reading.events, .error failure⟩, r)

def clearControl (r : Registry) (control : String) : Registry :=
  { r with rules := Table.remove r.rules control, cache := r.cache.discard control }

def setSettings (r : Registry) (settings : Settings) : Run Failure Unit × Registry :=
  ((fun _ => ()) <$> r.cache.clear, { r with settings := settings, cache := .empty })

def reset (r : Registry) : Run Failure Unit × Registry :=
  ((fun _ => ()) <$> r.cache.clear, { r with rules := [], cache := .empty, settings := [] })

def triggered (rule : Rule) : Run Failure Verdict :=
  if rule.conditions.toValue.hasJson then
    pure
      { visible := rule.action = .show
        reason := some ("Condition \"" ++ rule.action.word ++ "\" triggered")
        trigger := some (String.ofList rule.conditions.toValue.json) }
  else .fail .unwritable

def firstVerdict (nesting : Nesting) (settings : Settings) :
    List Rule → Run Failure Verdict
  | [] => pure { visible := true, reason := some "No conditions matched, default visible" }
  | rule :: rest =>
    ((rule.conditions.check nesting settings).mapError Failure.fault).bind fun holds =>
      if holds then triggered rule else firstVerdict nesting settings rest

def verdict (r : Registry) (control : String) (settings : Settings) :
    Run Failure Verdict :=
  match r.rulesOf control with
  | [] => pure { visible := true, reason := some "No conditions defined" }
  | rules => firstVerdict r.nesting settings rules

def cacheKey (r : Registry) (control : String) (settings : Settings) :
    Run Failure String :=
  match r.config.cacheStrategy with
  | .snapshot => Run.ofExcept (settings.snapshotKey.mapError .fault)
  | .dependencies =>
    (Dependency.evaluated (r.rulesOf control)).bind fun names =>
      Run.ofExcept ((settings.dependenciesKey names).mapError .fault)

/-- Computes the state of a control and keeps it under a key, if there is one. -/
def computeState (r : Registry) (control : String) (settings : Settings)
    (key : Option String) : Run Failure ControlState × Registry :=
  let run := Verdict.state <$> r.verdict control settings
  match run.outcome, key with
  | .ok state, some key => (run, { r with cache := r.cache.put control key state })
  | _, _ => (run, r)

/-- The state of a control under given settings, from the cache where that is enabled. -/
def controlState (r : Registry) (control : String) (settings : Settings) :
    Run Failure ControlState × Registry :=
  if r.config.cacheEnabled then
    let lookup := (r.cacheKey control settings).bind fun key =>
      (fun hit => (key, hit)) <$> r.cache.get control key
    match lookup.outcome with
    | .ok (_, some state) => (⟨lookup.events, .ok state⟩, r)
    | .ok (key, none) =>
      let (run, after) := r.computeState control settings (some key)
      (⟨lookup.events ++ run.events, run.outcome⟩, after)
    | .error failure => (⟨lookup.events, .error failure⟩, r)
  else r.computeState control settings none

def visibleControls (r : Registry) (settings : Settings) :
    List String → Run Failure (List String)
  | [] => pure []
  | control :: rest => do
    let v ← r.verdict control settings
    let others ← r.visibleControls settings rest
    pure (if v.visible then control :: others else others)

def anyVisible (r : Registry) (settings : Settings) : List String → Run Failure Bool
  | [] => pure false
  | control :: rest =>
    (r.verdict control settings).bind fun v =>
      if v.visible then pure true else r.anyVisible settings rest

def dependencyTree (r : Registry) : Table (List String) := Dependency.tree r.rules

def dependentsOf (r : Registry) (setting : String) : List String :=
  (Table.get? (Dependency.invert r.dependencyTree) setting).getD []

def ruleCount (r : Registry) : Nat := r.rules.foldr (fun e n => e.2.length + n) 0

def statistics (r : Registry) : Statistics where
  controls := r.rules.length
  conditions := r.ruleCount
  cached := r.cache.size
  average :=
    if r.rules.length = 0 then .zero false else .ofRatio false r.ruleCount r.rules.length

end Registry

end VisibilityRules
