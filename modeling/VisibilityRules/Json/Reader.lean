import VisibilityRules.Json.Syntax
import VisibilityRules.Number.Reading
import VisibilityRules.Value.Basic

/-!
# Reading JSON

A reader of JSON texts that also takes `NaN`, `Infinity` and `-Infinity`. Where an object repeats a
name, the name keeps its first place and gets its last value. Every reader returns what it read and
the rest of the text; a fault tells where it was found by the characters that remained.

A `\u` escape may name half of a surrogate pair only. Texts hold no surrogate code points, so such
an escape is read as the replacement character.
-/

namespace VisibilityRules.Json

def faultAt {α : Type} (p : SyntaxProblem) (rest : List Char) : Except SyntaxFault α :=
  .error (.problem p rest.length)

def isJsonBlank (c : Char) : Bool := c = ' ' || c = '\t' || c = '\n' || c = '\r'

def skipBlanks (cs : List Char) : List Char := cs.dropWhile isJsonBlank

def unitOf? (a b c d : Char) : Option Nat := do
  let a ← Text.hexValue? a
  let b ← Text.hexValue? b
  let c ← Text.hexValue? c
  let d ← Text.hexValue? d
  return ((a * 16 + b) * 16 + c) * 16 + d

def isHighUnit (u : Nat) : Bool := 0xD800 ≤ u && u ≤ 0xDBFF

def isLowUnit (u : Nat) : Bool := 0xDC00 ≤ u && u ≤ 0xDFFF

/-- The character of a single unit. A surrogate has none and is replaced. -/
def charOfUnit (u : Nat) : Char :=
  if isHighUnit u || isLowUnit u then '\uFFFD' else Char.ofNat u

def charOfPair (high low : Nat) : Char :=
  Char.ofNat (0x10000 + (high - 0xD800) * 0x400 + (low - 0xDC00))

def unletter? : Char → Option Char
  | '"' => some '"'
  | '\\' => some '\\'
  | '/' => some '/'
  | 'b' => some '\x08'
  | 'f' => some '\x0C'
  | 'n' => some '\n'
  | 'r' => some '\r'
  | 't' => some '\t'
  | _ => none

def consRead (c : Char) :
    Except SyntaxFault (List Char × List Char) → Except SyntaxFault (List Char × List Char)
  | .ok (cs, rest) => .ok (c :: cs, rest)
  | .error fault => .error fault

/-- The second unit of a pair in an escape right here, if there is one with a character behind
it. -/
def secondUnit? (cs : List Char) : Except SyntaxFault (Option Nat) :=
  match cs with
  | '\\' :: 'u' :: a :: b :: c :: d :: next :: rest =>
    match unitOf? a b c d with
    | none => faultAt .badUnitEscape ('u' :: a :: b :: c :: d :: next :: rest)
    | some unit => .ok (if isLowUnit unit then some unit else none)
  | _ => .ok none

/-- The character of an escape, given what stands behind its backslash, and the number of characters
that the escape takes there. An escape by units needs a character behind it. -/
def readEscape (opening : Nat) : List Char → Except SyntaxFault (Char × Nat)
  | [] => .error (.problem .unterminatedText opening)
  | 'u' :: a :: b :: c :: d :: next :: rest =>
    match unitOf? a b c d with
    | none => faultAt .badUnitEscape ('u' :: a :: b :: c :: d :: next :: rest)
    | some unit =>
      if isHighUnit unit then
        (secondUnit? (next :: rest)).map fun
          | some second => (charOfPair unit second, 11)
          | none => (charOfUnit unit, 5)
      else .ok (charOfUnit unit, 5)
  | 'u' :: rest => faultAt .badUnitEscape ('u' :: rest)
  | l :: rest =>
    match unletter? l with
    | some c => .ok (c, 1)
    | none => faultAt .badEscape ('\\' :: l :: rest)

/-- Reads the text behind an opening quote, after skipping some characters. `opening` counts the
characters from that quote to the end. -/
def readText (opening : Nat) : Nat → List Char → Except SyntaxFault (List Char × List Char)
  | _, [] => .error (.problem .unterminatedText opening)
  | skip + 1, _ :: rest => readText opening skip rest
  | 0, c :: rest =>
    if c = '"' then .ok ([], rest)
    else if c = '\\' then
      match readEscape opening rest with
      | .error fault => .error fault
      | .ok (escaped, skip) => consRead escaped (readText opening skip rest)
    else if c.toNat < 0x20 then faultAt .controlCharacter (c :: rest)
    else consRead c (readText opening 0 rest)

/-- The digits of a fraction behind its point, if there are any, and the rest. -/
def splitFraction : List Char → List Char × List Char
  | '.' :: rest =>
    match rest.takeWhile Char.isDigit with
    | [] => ([], '.' :: rest)
    | digits => (digits, rest.dropWhile Char.isDigit)
  | cs => ([], cs)

/-- The exponent, if there is a whole one, and the rest. -/
def splitExponent (cs : List Char) : Option Int × List Char :=
  match cs with
  | c :: rest =>
    if c = 'e' ∨ c = 'E' then
      let (negative, digits) := Double.splitSign rest
      match digits.takeWhile Char.isDigit with
      | [] => (none, cs)
      | run =>
        (some (if negative then -(Text.natValue run : Int) else Text.natValue run),
          digits.dropWhile Char.isDigit)
    else (none, cs)
  | [] => (none, cs)

/-- The whole digits of a number: a single zero, or digits that start with another one. -/
def splitWhole : List Char → List Char × List Char
  | '0' :: rest => (['0'], rest)
  | cs => (cs.takeWhile Char.isDigit, cs.dropWhile Char.isDigit)

/-- Reads a number: an integer, or a double where there is a fraction or an exponent. -/
def readNumber (cs : List Char) : Except SyntaxFault (Value × List Char) :=
  let (negative, unsigned) :=
    match cs with
    | '-' :: rest => (true, rest)
    | _ => (false, cs)
  let (whole, rest₁) := splitWhole unsigned
  if whole = [] then faultAt .expectedValue cs
  else
    let (part, rest₂) := splitFraction rest₁
    let (exponent, rest₃) := splitExponent rest₂
    if part = [] ∧ exponent = none then
      if digitLimit < whole.length then .error (.tooManyDigits whole.length)
      else .ok (.int (if negative then -(Text.natValue whole : Int) else Text.natValue whole), rest₂)
    else
      .ok (.double (Double.ofDecimal negative (Text.natValue (whole ++ part))
        (exponent.getD 0 - part.length)), rest₃)

mutual
/-- Reads a value that starts right here. The first argument bounds the steps. -/
def readValue : Nat → List Char → Except SyntaxFault (Value × List Char)
  | 0, cs => faultAt .expectedValue cs
  | steps + 1, cs =>
    match cs with
    | '"' :: rest =>
      (readText cs.length 0 rest).map fun (s, rest) => (.text (String.ofList s), rest)
    | '{' :: rest =>
      match skipBlanks rest with
      | '}' :: rest => .ok (.map [], rest)
      | rest => (readEntries steps [] rest).map fun (entries, rest) => (.map entries, rest)
    | '[' :: rest =>
      match skipBlanks rest with
      | ']' :: rest => .ok (.list [], rest)
      | rest => (readItems steps rest).map fun (items, rest) => (.list items, rest)
    | 'n' :: 'u' :: 'l' :: 'l' :: rest => .ok (.null, rest)
    | 't' :: 'r' :: 'u' :: 'e' :: rest => .ok (.bool true, rest)
    | 'f' :: 'a' :: 'l' :: 's' :: 'e' :: rest => .ok (.bool false, rest)
    | 'N' :: 'a' :: 'N' :: rest => .ok (.double .nan, rest)
    | 'I' :: 'n' :: 'f' :: 'i' :: 'n' :: 'i' :: 't' :: 'y' :: rest =>
      .ok (.double (.infinity false), rest)
    | '-' :: 'I' :: 'n' :: 'f' :: 'i' :: 'n' :: 'i' :: 't' :: 'y' :: rest =>
      .ok (.double (.infinity true), rest)
    | _ => readNumber cs
def readItems : Nat → List Char → Except SyntaxFault (List Value × List Char)
  | 0, cs => faultAt .expectedValue cs
  | steps + 1, cs =>
    match readValue steps cs with
    | .error fault => .error fault
    | .ok (v, rest) =>
      match skipBlanks rest with
      | ']' :: rest => .ok ([v], rest)
      | ',' :: rest =>
        (readItems steps (skipBlanks rest)).map fun (items, rest) => (v :: items, rest)
      | rest => faultAt .expectedComma rest
/-- Reads the entries of an object up to its closing brace, behind the entries already read. -/
def readEntries : Nat → Table Value → List Char →
    Except SyntaxFault (Table Value × List Char)
  | 0, _, cs => faultAt .expectedValue cs
  | steps + 1, entries, cs =>
    match cs with
    | '"' :: rest =>
      match readText cs.length 0 rest with
      | .error fault => .error fault
      | .ok (name, rest) =>
        match skipBlanks rest with
        | ':' :: rest =>
          match readValue steps (skipBlanks rest) with
          | .error fault => .error fault
          | .ok (v, rest) =>
            let entries := Table.put entries (String.ofList name) v
            match skipBlanks rest with
            | '}' :: rest => .ok (entries, rest)
            | ',' :: rest => readEntries steps entries (skipBlanks rest)
            | rest => faultAt .expectedComma rest
        | rest => faultAt .expectedColon rest
    | _ => faultAt .expectedName cs
end

def read (text : List Char) : Except SyntaxFault Value :=
  if text.head? = some '\uFEFF' then faultAt .byteOrderMark text
  else
    match readValue (2 * text.length + 2) (skipBlanks text) with
    | .error fault => .error fault
    | .ok (v, rest) =>
      match skipBlanks rest with
      | [] => .ok v
      | rest => faultAt .extraData rest

end VisibilityRules.Json
