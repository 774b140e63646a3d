import VisibilityRules.Registry.Basic

/-!
# Operations on registries

Everything that can be asked of a registry, as data, with one function that performs it. An
operation yields a run with its answer and the registry afterwards.
-/

namespace VisibilityRules.Registry

/-- What can be asked of a registry. Where settings are not given, the active ones count. -/
inductive Operation where
  | register (condition : Value)
  | registerAll (conditions : Table Value)
  | load (source : Source)
  | clearControl (control : String)
  | rulesOf (control : String)
  | setSettings (settings : Settings)
  | settings
  | reset
  | verdict (control : String) (settings : Option Settings)
  | controlState (control : String) (settings : Option Settings)
  | visibleControls (controls : List String) (settings : Option Settings)
  | anyVisible (controls : List String) (settings : Option Settings)
  | dependencyTree
  | dependentsOf (setting : String)

inductive Answer where
  | done
  | count (n : Nat)
  | rules (rules : List Rule)
  | settings (settings : Settings)
  | verdict (v : Verdict)
  | state (s : ControlState)
  | names (names : List String)
  | truth (b : Bool)
  | tree (tree : Table (List String))

def perform (r : Registry) : Operation → Run Failure Answer × Registry
  | .register v =>
    let (run, after) := r.registerValue v
    ((fun _ => .done) <$> run, after)
  | .registerAll conditions =>
    let (run, after) := r.registerAll conditions
    ((fun _ => .done) <$> run, after)
  | .load source =>
    let (run, after) := r.load source
    (.count <$> run, after)
  | .clearControl control => (pure .done, r.clearControl control)
  | .rulesOf control => (pure (.rules (r.rulesOf control)), r)
  | .setSettings settings =>
    let (run, after) := r.setSettings settings
    ((fun _ => .done) <$> run, after)
  | .settings => (pure (.settings r.settings), r)
  | .reset =>
    let (run, after) := r.reset
    ((fun _ => .done) <$> run, after)
  | .verdict control settings => (.verdict <$> r.verdict control (settings.getD r.settings), r)
  | .controlState control settings =>
    let (run, after) := r.controlState control (settings.getD r.settings)
    (.state <$> run, after)
  | .visibleControls controls settings =>
    (.names <$> r.visibleControls (settings.getD r.settings) controls, r)
  | .anyVisible controls settings =>
    (.truth <$> r.anyVisible (settings.getD r.settings) controls, r)
  | .dependencyTree => (pure (.tree r.dependencyTree), r)
  | .dependentsOf setting => (pure (.names (r.dependentsOf setting)), r)

def after (r : Registry) (operations : List Operation) : Registry :=
  operations.foldl (fun r op => (r.perform op).2) r

def runs (r : Registry) : List Operation → List (Run Failure Answer)
  | [] => []
  | op :: rest => (r.perform op).1 :: runs (r.perform op).2 rest

end VisibilityRules.Registry
