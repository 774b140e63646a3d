import VisibilityRules.Number.Reading
import VisibilityRules.Fault
import VisibilityRules.Schema.Issue

/-!
# Reading scalars

Texts are taken only from texts. Truth values, integers and numbers are also taken from each other
and from texts, where nothing is lost.
-/

namespace VisibilityRules.Reading

def text : Value → Reading String
  | .text s => pure s
  | _ => issue .notText

def optionalText : Value → Reading (Option String)
  | .null => pure none
  | v => some <$> text v

def choice {α : Type} (word : α → String) (first second : α) (v : Value) : Reading α :=
  match v with
  | .text s =>
    if s = word first then pure first
    else if s = word second then pure second
    else issue (.notAmong (word first) (word second))
  | _ => issue (.notAmong (word first) (word second))

def boolOfWord? (s : String) : Option Bool :=
  let word := s.toList.map Char.toLower
  if ["1", "on", "t", "true", "y", "yes"].any (·.toList = word) then some true
  else if ["0", "off", "f", "false", "n", "no"].any (·.toList = word) then some false
  else none

/-- The number of integers of 64 bits that are not negative. -/
def halfRange : Int := 0x8000000000000000

/-- The truth value that an integer stands for; an integer beyond 64 bits is none at all. -/
def boolOfInt (n : Int) : Reading Bool :=
  if n = 0 then pure false
  else if n = 1 then pure true
  else if -halfRange ≤ n ∧ n < halfRange then issue .unclearBool
  else issue .notBool

def bool : Value → Reading Bool
  | .bool b => pure b
  | .int n => boolOfInt n
  | .double x =>
    match x.toInt? with
    | some n => if n = -halfRange then issue .notBool else boolOfInt n
    | none => issue .notBool
  | .text s =>
    match boolOfWord? s with
    | some b => pure b
    | none => issue .unclearBool
  | _ => issue .notBool

/-- A text of digits without the zeros and underscores in front of its first other digit or of a
minus sign; one of them stays where neither follows. Only a digit or a minus sign may come first. -/
def dropZeros? (cs : List Char) : Option (List Char) :=
  match cs with
  | [] => none
  | '0' :: _ =>
    let skipped := cs.takeWhile fun c => c = '0' || c = '_'
    match cs.dropWhile fun c => c = '0' || c = '_' with
    | [] => skipped.getLast?.map fun c => [c]
    | '.' :: rest => skipped.getLast?.map fun c => c :: '.' :: rest
    | c :: rest => if c.isDigit || c = '-' then some (c :: rest) else none
  | c :: _ => if c.isDigit || c = '-' then some cs else none

/-- A text of digits without a point that one or more zeros, and nothing else, follow. -/
def dropFraction (cs : List Char) : List Char :=
  match cs.dropWhile (· ≠ '.') with
  | '.' :: '0' :: zeros => if zeros.all (· = '0') then cs.takeWhile (· ≠ '.') else cs
  | _ => cs

/-- Whether an underscore comes first, last, or after another one. -/
def hasLooseUnderscore : List Char → Bool
  | [] => false
  | cs => cs.head? = some '_' || cs.getLast? = some '_'
      || (cs.zip (cs.drop 1)).any fun p => p.1 = '_' && p.2 = '_'

/-- A text without its underscores, unless one of them is loose. -/
def dropUnderscores (cs : List Char) : List Char :=
  if hasLooseUnderscore cs then cs else cs.filter (· ≠ '_')

/-- An integer text without a plus sign, and without superfluous zeros in front of its digits. A
minus sign may stand in front of the zeros or behind them. -/
def bareInteger? : List Char → Option (List Char)
  | '+' :: '-' :: _ => none
  | '+' :: cs => dropZeros? cs
  | '-' :: cs => (dropZeros? cs).map ('-' :: ·)
  | cs => dropZeros? cs

/-- Whether a run of digits, counted together with its minus sign, is longer than numerals may
be. -/
def isTooLong (negative : Bool) (digits : List Char) : Bool :=
  digitLimit < digits.length + (if negative then 1 else 0)

/-- Whether a text begins with a numeral that is too long. A zero in front is a numeral by
itself. -/
def isOversized (cs : List Char) : Bool :=
  let (negative, unsigned) :=
    match cs with
    | '-' :: rest => (true, rest)
    | _ => (false, cs)
  unsigned.head? ≠ some '0' && isTooLong negative (unsigned.takeWhile Char.isDigit)

def integerDigits? (cs : List Char) : Option (Bool × List Char) := do
  let bare ← bareInteger? (Text.trim Text.isSpace cs)
  let (negative, digits) := Double.splitSign (dropUnderscores (dropFraction bare))
  if digits = [] ∨ !digits.all Char.isDigit then none
  else if digits.head? = some '0' ∧ digits ≠ ['0'] then none
  else if isTooLong negative digits then none
  else some (negative, digits)

def integer : Value → Reading Int
  | .bool b => pure (if b then 1 else 0)
  | .int n => pure n
  | .double (.finite negative rank) =>
    match (Double.finite negative rank).toInt? with
    | some n => if -halfRange < n ∧ n < halfRange then pure n else issue .oversized
    | none => issue .fractional
  | .double _ => issue .infinite
  | .text s =>
    if isOversized s.toList then issue .oversized
    else match integerDigits? s.toList with
    | some (negative, digits) =>
      pure (if negative then -(Text.natValue digits : Int) else Text.natValue digits)
    | none => issue .unclearInteger
  | _ => issue .notInteger

/-- The number that a text stands for, with blanks around it or with underscores inside. -/
def numberOfText? (s : String) : Option Double :=
  (Double.readNumeral? (Text.trim Text.isSpace s.toList)).or
    (if hasLooseUnderscore s.toList then none
      else Double.readNumeral? (s.toList.filter (· ≠ '_')))

def number : Value → Reading Double
  | .bool b => pure (Double.ofRatio false (if b then 1 else 0) 1)
  | .int n =>
    match Double.ofInt? n with
    | some x => pure x
    | none => issue .notNumber
  | .double x => pure x
  | .text s =>
    match numberOfText? s with
    | some x => pure x
    | none => issue .unclearNumber
  | _ => issue .notNumber

def optionalMapping : Value → Reading (Option (Table Value))
  | .null => pure none
  | .map entries => pure (some entries)
  | _ => issue .notMapping

end VisibilityRules.Reading
