/-!
# Case of option words

Option words are ASCII words that are recognised in any case. Beyond ASCII, ten characters have an
upper-case form that consists of ASCII letters, and one has such a lower-case form. Every other
character beyond ASCII keeps at least one character beyond ASCII in either case, so it can stay as
it is: no option word contains it.
-/

namespace VisibilityRules.Text

/-- The upper-case form of a character, where that is ASCII; any other character stays. -/
def upperForm (c : Char) : List Char :=
  match c.toNat with
  | 0xDF => ['S', 'S']
  | 0x131 => ['I']
  | 0x17F => ['S']
  | 0xFB00 => ['F', 'F']
  | 0xFB01 => ['F', 'I']
  | 0xFB02 => ['F', 'L']
  | 0xFB03 => ['F', 'F', 'I']
  | 0xFB04 => ['F', 'F', 'L']
  | 0xFB05 => ['S', 'T']
  | 0xFB06 => ['S', 'T']
  | _ => [c.toUpper]

/-- The lower-case form of a character, where that is ASCII; any other character stays. -/
def lowerForm (c : Char) : Char := if c.toNat = 0x212A then 'k' else c.toLower

/-- A word in upper case, as far as option words can tell. -/
def upperWord (cs : List Char) : List Char := cs.flatMap upperForm

/-- A word in lower case, as far as option words can tell. -/
def lowerWord (cs : List Char) : List Char := cs.map lowerForm

end VisibilityRules.Text
