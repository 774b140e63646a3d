import VisibilityRules.Text.Numeral

/-!
# Quoted text in JSON

A JSON text stands between double quotes. Quote and backslash follow a backslash, five control
characters have a letter, and characters that are not plain are written by their 16-bit units.
-/

namespace VisibilityRules.Json

/-- The letter behind the backslash for a character that has one. -/
def letter? : Char → Option Char
  | '"' => some '"'
  | '\\' => some '\\'
  | '\x08' => some 'b'
  | '\t' => some 't'
  | '\n' => some 'n'
  | '\x0C' => some 'f'
  | '\r' => some 'r'
  | _ => none

def unitForm (unit : Nat) : List Char := '\\' :: 'u' :: Text.hexText 4 unit

/-- A character by its one or two 16-bit units. -/
def unitsForm (c : Char) : List Char :=
  if c.toNat < 0x10000 then unitForm c.toNat
  else
    unitForm (0xD800 + (c.toNat - 0x10000) / 0x400) ++ unitForm (0xDC00 + (c.toNat - 0x10000) % 0x400)

def quotedChar (plain : Char → Bool) (c : Char) : List Char :=
  match letter? c with
  | some l => ['\\', l]
  | none => if plain c then [c] else unitsForm c

/-- A text in JSON, where `plain` tells the characters that stand for themselves. -/
def quoted (plain : Char → Bool) (s : String) : List Char :=
  '"' :: s.toList.flatMap (quotedChar plain) ++ ['"']

end VisibilityRules.Json
