import VisibilityRules.Run
import VisibilityRules.Text.WordChar

/-!
# Names in condition terms

A term name such as `image[url]` addresses a setting and possibly a part of it. The setting is the
first longest run of name characters; the part is the run between square brackets right behind it.
-/

namespace VisibilityRules

/-- Word characters and the hyphen make up names. -/
def isNameChar (c : Char) : Bool := Text.isWordChar c || c = '-'

/-- The setting that a term reads, and the part of it. -/
structure TermName where
  setting : String
  part : Option String
deriving DecidableEq, Repr

namespace TermName

/-- The run of name characters between an opening bracket, which comes first, and a closing one. -/
def bracketed? : List Char → Option String
  | '[' :: rest =>
    match rest.takeWhile isNameChar, rest.dropWhile isNameChar with
    | c :: run, ']' :: _ => some (String.ofList (c :: run))
    | _, _ => none
  | _ => none

/-- The name in a text, unless the text holds no name character. -/
def parse? (s : String) : Option TermName :=
  match s.toList.dropWhile (!isNameChar ·) with
  | [] => none
  | c :: rest =>
    some ⟨String.ofList (c :: rest.takeWhile isNameChar), bracketed? (rest.dropWhile isNameChar)⟩

/-- The name in a text. A text without name characters is used whole, with a notice. -/
def read {ε : Type} (s : String) : Run ε TermName :=
  match parse? s with
  | some name => pure name
  | none => do
    Run.notice (.unparseableName s)
    pure ⟨s, none⟩

end TermName

/-- The part of a text before its first opening bracket, unless that is empty. -/
def baseName? (s : String) : Option String :=
  match s.toList.takeWhile (· ≠ '[') with
  | [] => none
  | c :: rest => some (String.ofList (c :: rest))

end VisibilityRules
