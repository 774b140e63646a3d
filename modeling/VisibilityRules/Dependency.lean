import VisibilityRules.Condition.Basic
import VisibilityRules.TermName

/-!
# Dependencies

The settings that rules depend on. There are two readings of a term name: the part before its first
bracket, which the dependency tree shows, and the setting that an evaluation looks up.
-/

namespace VisibilityRules

namespace Dependency

section Extraction

variable {m : Type → Type} [Monad m] (resolve : String → m (Option String))

/-- Puts the setting that a name refers to behind those found so far, unless it refers to none. -/
def collect (found : List String) (name : String) : m (List String) :=
  (fun setting? => found ++ setting?.toList) <$> resolve name

mutual
/-- Puts the settings that the leaves of a term refer to behind those found so far. -/
def extract (found : List String) : Term → m (List String)
  | .leaf c => collect resolve found c.name
  | .group _ terms => extractAll found terms
def extractAll (found : List String) : List Term → m (List String)
  | [] => pure found
  | t :: rest => do
    let more ← extract found t
    extractAll more rest
end

/-- The settings that rules refer to, with repetitions. -/
def extractRules (rules : List Rule) : m (List String) :=
  rules.foldlM (fun found r => extractAll resolve found r.conditions.terms) []

end Extraction

/-- The parts of the leaf names before a bracket, with repetitions. -/
def baseNames (rules : List Rule) : List String :=
  (extractRules (m := Id) (fun s => pure (baseName? s)) rules).run

def ofRules (rules : List Rule) : List String := distinct (baseNames rules)

/-- The settings that an evaluation of rules looks up. -/
def evaluated {ε : Type} (rules : List Rule) : Run ε (List String) :=
  distinct <$> extractRules (fun s => (fun name => some name.setting) <$> TermName.read s) rules

/-- The base names that each control depends on; controls without any are left out. -/
def tree (rules : Table (List Rule)) : Table (List String) :=
  rules.filterMap fun (control, rs) =>
    match ofRules rs with
    | [] => none
    | names => some (control, names)

def addDependent (control : String) (dependents : Table (List String)) (setting : String) :
    Table (List String) :=
  Table.put dependents setting ((Table.get? dependents setting).getD [] ++ [control])

/-- The controls that depend on each setting, given the settings that each control depends on. -/
def invert (tree : Table (List String)) : Table (List String) :=
  tree.foldl (fun dependents e => e.2.foldl (addDependent e.1) dependents) []

end Dependency

end VisibilityRules
