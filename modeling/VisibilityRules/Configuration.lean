import VisibilityRules.Evaluation
import VisibilityRules.Failure
import VisibilityRules.Schema.Scalar
import VisibilityRules.Text.Case

/-!
# Configuration

The options of the engine: they come from a record or from environment variables, where words are
taken in any case and with blanks around them.
-/

namespace VisibilityRules

/-- Which settings a cache key covers: all of them, or those that the rules of a control read. -/
inductive CacheStrategy where
  | snapshot
  | dependencies
deriving DecidableEq, Repr

def CacheStrategy.word : CacheStrategy → String
  | .snapshot => "snapshot"
  | .dependencies => "dependencies"

structure Configuration where
  cacheEnabled : Bool := true
  cacheStrategy : CacheStrategy := .snapshot
  nesting : Nesting := .and
  logLevel : String := "WARNING"
deriving DecidableEq, Repr

def levelNumbers : Table Nat :=
  [("CRITICAL", 50), ("FATAL", 50), ("ERROR", 40), ("WARN", 30), ("WARNING", 30), ("INFO", 20),
    ("DEBUG", 10), ("NOTSET", 0)]

/-- The constants that the log offers for its levels, in the order in which it defines them. -/
def levelConstants : Table Nat :=
  [("CRITICAL", 50), ("FATAL", 50), ("ERROR", 40), ("WARNING", 30), ("WARN", 30), ("INFO", 20),
    ("DEBUG", 10), ("NOTSET", 0)]

def Reading.configuration : Value → Reading Configuration
  | .map entries =>
    apply
      (apply
        (apply
          (Configuration.mk <$> field entries "cache_enabled" bool (pure true))
          (field entries "cache_strategy" (choice CacheStrategy.word .snapshot .dependencies)
            (pure .snapshot)))
        (field entries "nested_relation" (choice Nesting.word .and .term) (pure .and)))
      (field entries "log_level" text (pure "WARNING"))
  | _ => issue (.notRecord "EngineConfig")

namespace Configuration

def toValue (c : Configuration) : Value :=
  .map [("cache_enabled", .bool c.cacheEnabled), ("cache_strategy", .text c.cacheStrategy.word),
    ("nested_relation", .text c.nesting.word), ("log_level", .text c.logLevel)]

def variableStem : String := "CONTROL_CONDITIONS_"

/-- The value of an environment variable without blanks around it and in lower case. -/
def lowerOption (raw : String) : List Char := Text.lowerWord (Text.trim Text.isBlank raw.toList)

def upperOption (raw : String) : List Char := Text.upperWord (Text.trim Text.isBlank raw.toList)

def boolWord? (raw : String) : Option Bool :=
  if ["1", "true", "yes", "on"].any (·.toList = lowerOption raw) then some true
  else if ["0", "false", "no", "off"].any (·.toList = lowerOption raw) then some false
  else none

def choiceWord? {α : Type} (word : α → String) (first second : α) (raw : String) : Option α :=
  if lowerOption raw = (word first).toList then some first
  else if lowerOption raw = (word second).toList then some second
  else none

def levelWord? (raw : String) : Option String :=
  (levelNumbers.find? fun e => e.1.toList = upperOption raw).map Prod.fst

/-- What the text of an environment variable stands for, or the default if the variable is absent. A
text that stands for nothing is refused. -/
def ofVariable {α : Type} (env : Table String) (name : String) (default : α)
    (meaning? : String → Option α) (refusal : String → ConfigFault) : Except ConfigFault α :=
  match Table.get? env name with
  | none => .ok default
  | some raw =>
    match meaning? raw with
    | some a => .ok a
    | none => .error (refusal raw)

def boolVariable (env : Table String) (name : String) (default : Bool) :
    Except ConfigFault Bool :=
  ofVariable env name default boolWord? (.notBool name)

/-- One of two options in an environment variable; the first is the default. -/
def choiceVariable {α : Type} (env : Table String) (name : String)
    (word : α → String) (first second : α) : Except ConfigFault α :=
  ofVariable env name first (choiceWord? word first second)
    (.notAmong name (word first) (word second))

def levelVariable (env : Table String) (name default : String) :
    Except ConfigFault String :=
  ofVariable env name default levelWord? (.notLevel name)

/-- The configuration that the environment variables give; the first fault ends the reading. -/
def ofEnvironment (env : Table String) : Except ConfigFault Configuration := do
  let cacheEnabled ← boolVariable env (variableStem ++ "CACHE_ENABLED") true
  let cacheStrategy ←
    choiceVariable env (variableStem ++ "CACHE_STRATEGY") CacheStrategy.word .snapshot .dependencies
  let nesting ← choiceVariable env (variableStem ++ "NESTED_RELATION") Nesting.word .and .term
  let logLevel ← levelVariable env (variableStem ++ "LOG_LEVEL") "WARNING"
  return { cacheEnabled, cacheStrategy, nesting, logLevel }

def logFormat : String := "%(asctime)s - %(levelname)s - %(message)s"

/-- The number that the log is set up with: the constant under the name of the configured level. -/
def levelNumber (c : Configuration) : Except ConfigFault Nat :=
  match Table.get? levelConstants c.logLevel with
  | some n => .ok n
  | none => .error (.unknownLevel c.logLevel)

end Configuration

end VisibilityRules
