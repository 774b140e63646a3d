import VisibilityRules.Text.Numeral
import VisibilityRules.Text.Printable

/-!
# Quoted text in messages

Messages show a text between single quotes, or between double quotes where it holds a single quote
and no double quote. A backslash stands before the quote in use, before a backslash, and before the
code of a character that is not printable.
-/

namespace VisibilityRules.Text

/-- The code of a character that is not printable: two, four or eight hexadecimal digits. -/
def codeForm (c : Char) : List Char :=
  if c.toNat < 0x100 then '\\' :: 'x' :: hexText 2 c.toNat
  else if c.toNat < 0x10000 then '\\' :: 'u' :: hexText 4 c.toNat
  else '\\' :: 'U' :: hexText 8 c.toNat

def quotedChar (quote c : Char) : List Char :=
  if c = quote ∨ c = '\\' then ['\\', c]
  else if c = '\t' then ['\\', 't']
  else if c = '\n' then ['\\', 'n']
  else if c = '\r' then ['\\', 'r']
  else if isPrintable c then [c]
  else codeForm c

def quoted (s : String) : List Char :=
  let cs := s.toList
  let quote := if cs.contains '\'' && !cs.contains '"' then '"' else '\''
  quote :: cs.flatMap (quotedChar quote) ++ [quote]

end VisibilityRules.Text
