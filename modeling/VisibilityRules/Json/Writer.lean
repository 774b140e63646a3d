import VisibilityRules.Json.Quoted
import VisibilityRules.Value.Literal

/-!
# Compact JSON

Values as JSON without blanks. Entries keep their order, tuples are written as lists, and doubles
that are no numbers of JSON are null.
-/

namespace VisibilityRules

/-- Doubles in compact JSON: positional from 10^-5, bare exponents. -/
def Layout.compact : Layout where
  positionalFrom := -5
  plusSign := false
  exponentWidth := 1

namespace Value

/-- All characters but the control characters below the blank stand for themselves. -/
def isPlainInJson (c : Char) : Bool := 0x20 ≤ c.toNat

mutual
def json : Value → List Char
  | .missing => "null".toList
  | .null => "null".toList
  | .bool b => (if b then "true" else "false").toList
  | .int n => Text.intText n
  | .double x =>
    match x with
    | .finite .. => Layout.compact.write "null" "null" x
    | _ => "null".toList
  | .text s => Json.quoted isPlainInJson s
  | .list items => '[' :: separated [','] (jsons items) ++ [']']
  | .tuple items => '[' :: separated [','] (jsons items) ++ [']']
  | .map entries => '{' :: separated [','] (jsonEntries entries) ++ ['}']
def jsons : List Value → List (List Char)
  | [] => []
  | item :: rest => json item :: jsons rest
def jsonEntries : List (String × Value) → List (List Char)
  | [] => []
  | (key, item) :: rest => (Json.quoted isPlainInJson key ++ ':' :: json item) :: jsonEntries rest
end

mutual
/-- Whether a value has a JSON form; the absence of a setting has none. -/
def hasJson : Value → Bool
  | .missing => false
  | .list items => allHaveJson items
  | .tuple items => allHaveJson items
  | .map entries => entriesHaveJson entries
  | _ => true
def allHaveJson : List Value → Bool
  | [] => true
  | item :: rest => hasJson item && allHaveJson rest
def entriesHaveJson : List (String × Value) → Bool
  | [] => true
  | (_, item) :: rest => hasJson item && entriesHaveJson rest
end

end Value

end VisibilityRules
