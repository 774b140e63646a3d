import VisibilityRules.Fault

/-!
# Faults of JSON texts

What can be wrong with a JSON text, and where. A place in a text is given by the number of
characters from there to the end; messages show it as a line, a column and an offset from the start.
-/

namespace VisibilityRules.Json

inductive SyntaxProblem where
  | byteOrderMark
  | expectedValue
  | expectedName
  | expectedColon
  | expectedComma
  | extraData
  | unterminatedText
  | controlCharacter
  | badEscape
  | badUnitEscape
deriving DecidableEq, Repr

inductive SyntaxFault where
  /-- a problem, with the number of characters from its place to the end -/
  | problem (p : SyntaxProblem) (remaining : Nat)
  /-- an integer with more digits than the limit allows -/
  | tooManyDigits (count : Nat)
deriving DecidableEq, Repr

def SyntaxProblem.message : SyntaxProblem → String
  | byteOrderMark => "Unexpected UTF-8 BOM (decode using utf-8-sig)"
  | expectedValue => "Expecting value"
  | expectedName => "Expecting property name enclosed in double quotes"
  | expectedColon => "Expecting ':' delimiter"
  | expectedComma => "Expecting ',' delimiter"
  | extraData => "Extra data"
  | unterminatedText => "Unterminated string starting at"
  | controlCharacter => "Invalid control character at"
  | badEscape => "Invalid \\escape"
  | badUnitEscape => "Invalid \\uXXXX escape"

/-- The line, the column and the offset of a place in a text. -/
def position (text : List Char) (remaining : Nat) : Nat × Nat × Nat :=
  let before := text.take (text.length - remaining)
  ((before.filter (· = '\n')).length + 1,
    (before.reverse.takeWhile (· ≠ '\n')).length + 1,
    before.length)

def SyntaxFault.message (text : List Char) : SyntaxFault → String
  | problem p remaining =>
    let (line, column, offset) := position text remaining
    p.message ++ ": line " ++ toString line ++ " column " ++ toString column ++ " (char "
      ++ toString offset ++ ")"
  | tooManyDigits count => (Fault.tooManyDigits count).message

end VisibilityRules.Json
