import VisibilityRules.Condition.Written
import VisibilityRules.Schema.Scalar

/-!
# Verdicts and states

The verdict on the visibility of a control, the state of a control that a cache keeps, and the
counts that a registry reports, each with its record and its reading.
-/

namespace VisibilityRules

structure Verdict where
  visible : Bool
  reason : Option String := none
  trigger : Option String := none
deriving DecidableEq, Repr

structure ControlState where
  visible : Bool
  enabled : Bool
  data : Option (Table Value) := none

structure Statistics where
  controls : Int
  conditions : Int
  cached : Int
  average : Double

def Verdict.toValue (v : Verdict) : Value :=
  .map [("visible", .bool v.visible), ("reason", .ofText? v.reason),
    ("trigger_condition", .ofText? v.trigger)]

def Verdict.state (v : Verdict) : ControlState :=
  ⟨v.visible, v.visible,
    some [("reason", .ofText? v.reason), ("trigger_condition", .ofText? v.trigger)]⟩

def ControlState.toValue (s : ControlState) : Value :=
  .map [("visible", .bool s.visible), ("enabled", .bool s.enabled),
    ("data", (s.data.map Value.map).getD .null)]

def Statistics.toValue (s : Statistics) : Value :=
  .map [("total_controls", .int s.controls), ("total_conditions", .int s.conditions),
    ("cache_size", .int s.cached), ("average_conditions_per_control", .double s.average)]

namespace Reading

def verdict : Value → Reading Verdict
  | .map entries =>
    apply
      (apply (Verdict.mk <$> required entries "visible" bool)
        (field entries "reason" optionalText (pure none)))
      (field entries "trigger_condition" optionalText (pure none))
  | _ => issue (.notRecord "VisibilityResult")

def controlState : Value → Reading ControlState
  | .map entries =>
    apply
      (apply (ControlState.mk <$> required entries "visible" bool)
        (required entries "enabled" bool))
      (field entries "data" optionalMapping (pure none))
  | _ => issue (.notRecord "ControlState")

def statistics : Value → Reading Statistics
  | .map entries =>
    apply
      (apply
        (apply (Statistics.mk <$> required entries "total_controls" integer)
          (required entries "total_conditions" integer))
        (required entries "cache_size" integer))
      (required entries "average_conditions_per_control" number)
  | _ => issue (.notRecord "RegistryStats")

end Reading

end VisibilityRules
