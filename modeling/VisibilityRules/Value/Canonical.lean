import VisibilityRules.Json.Quoted
import VisibilityRules.Value.Literal

/-!
# Canonical text of values

The text that stands for a value in cache keys: JSON with each container wrapped under the name of
its kind, the entries of mappings in ascending order of their keys, and ASCII characters only. The
order in which entries arrived does not show.
-/

namespace VisibilityRules.Value

/-- The printable ASCII characters stand for themselves. -/
def isPlainInKey (c : Char) : Bool := 0x20 ≤ c.toNat && c.toNat < 0x7F

def keyQuoted (s : String) : List Char := Json.quoted isPlainInKey s

/-- A piece of text under the name of a kind of container. -/
def wrapped (kind : String) (piece : List Char) : List Char :=
  '{' :: keyQuoted kind ++ ':' :: ' ' :: piece ++ ['}']

/-- Entries with their written values, in ascending order of their keys. -/
def writtenEntries (entries : List (String × List Char)) : List Char :=
  '{' :: separated [',', ' ']
    ((Table.sorted entries).map fun e => keyQuoted e.1 ++ ':' :: ' ' :: e.2) ++ ['}']

mutual
def canonical : Value → List Char
  | .missing => keyQuoted "MISSING"
  | .null => "null".toList
  | .bool b => (if b then "true" else "false").toList
  | .int n => Text.intText n
  | .double x => Layout.message.write "NaN" "Infinity" x
  | .text s => keyQuoted s
  | .list items => wrapped "list" ('[' :: separated [',', ' '] (canonicals items) ++ [']'])
  | .tuple items => wrapped "tuple" ('[' :: separated [',', ' '] (canonicals items) ++ [']'])
  | .map entries => wrapped "dict" (writtenEntries (canonicalEntries entries))
def canonicals : List Value → List (List Char)
  | [] => []
  | item :: rest => canonical item :: canonicals rest
def canonicalEntries : List (String × Value) → List (String × List Char)
  | [] => []
  | (key, item) :: rest => (key, canonical item) :: canonicalEntries rest
end

end VisibilityRules.Value
