import VisibilityRules.Number.Layout
import VisibilityRules.Text.Quoted
import VisibilityRules.Value.Basic

/-!
# Values in messages

How messages show a value: words for the constants, quoted texts, and containers in brackets. A
tuple of one item keeps a comma behind it.
-/

namespace VisibilityRules

/-- Doubles in messages and cache keys: positional from 10^-4, signed exponents of two digits. -/
def Layout.message : Layout where
  positionalFrom := -4
  plusSign := true
  exponentWidth := 2

namespace Value

def separated (separator : List Char) : List (List Char) → List Char
  | [] => []
  | [piece] => piece
  | piece :: rest => piece ++ separator ++ separated separator rest

mutual
def literal : Value → List Char
  | .missing => "MISSING".toList
  | .null => "None".toList
  | .bool b => (if b then "True" else "False").toList
  | .int n => Text.intText n
  | .double x => Layout.message.write "nan" "inf" x
  | .text s => Text.quoted s
  | .list items => '[' :: separated [',', ' '] (literals items) ++ [']']
  | .tuple items =>
    match literals items with
    | [only] => '(' :: only ++ [',', ')']
    | pieces => '(' :: separated [',', ' '] pieces ++ [')']
  | .map entries => '{' :: separated [',', ' '] (literalEntries entries) ++ ['}']
def literals : List Value → List (List Char)
  | [] => []
  | item :: rest => literal item :: literals rest
def literalEntries : List (String × Value) → List (List Char)
  | [] => []
  | (key, item) :: rest => (Text.quoted key ++ ':' :: ' ' :: literal item) :: literalEntries rest
end

end Value

end VisibilityRules
