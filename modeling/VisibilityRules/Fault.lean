import VisibilityRules.Text.Quoted

/-!
# Faults of an evaluation

The few ways in which comparing or looking up a value can fail.
-/

namespace VisibilityRules

inductive Fault where
  /-- an integer beyond the last finite double had to become a double -/
  | overflow
  /-- a sub-key of digits is no decimal numeral -/
  | indexText (key : String)
  /-- a numeral has more digits than the limit allows -/
  | tooManyDigits (count : Nat)
  /-- an integer with more digits than the limit allows had to be written -/
  | longInteger
deriving DecidableEq, Repr

/-- The greatest number of digits that an integer numeral may have. -/
def digitLimit : Nat := 4300

/-- The text of a fault. A long sub-key is cut after 200 characters of its quoted form. -/
def Fault.message : Fault → String
  | overflow => "int too large to convert to float"
  | indexText key =>
    "invalid literal for int() with base 10: " ++ String.ofList ((Text.quoted key).take 200)
  | tooManyDigits count =>
    "Exceeds the limit (" ++ toString digitLimit
      ++ " digits) for integer string conversion: value has " ++ toString count
      ++ " digits; use sys.set_int_max_str_digits() to increase the limit"
  | longInteger =>
    "Exceeds the limit (" ++ toString digitLimit
      ++ " digits) for integer string conversion; use sys.set_int_max_str_digits() to increase the limit"

end VisibilityRules
