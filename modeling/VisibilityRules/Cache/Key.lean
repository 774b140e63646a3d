import VisibilityRules.Cache.Sha256
import VisibilityRules.Value.Canonical
import VisibilityRules.Value.Digits

/-!
# Cache keys

A cache key is the digest of the canonical text of settings, either of all of them or of those with
given names. Settings with an integer beyond the digit limit have no key.
-/

namespace VisibilityRules

/-- The first 24 hexadecimal digits of the hash of a text. -/
def digest (text : List Char) : String :=
  let words := Sha256.hash (String.ofList text).toUTF8.toList
  String.ofList ((words.flatMap fun w => Text.hexText 8 w.toNat).take 24)

namespace Settings

/-- The settings with the given names, in the order of the names. -/
def restrict (settings : Settings) (names : List String) : Settings :=
  (distinct names).filterMap fun name => (Table.get? settings name).map fun v => (name, v)

def snapshotText (settings : Settings) : List Char := (Value.map settings).canonical

def snapshotKey (settings : Settings) : Except Fault String :=
  if settings.withinDigitLimit then .ok (digest settings.snapshotText) else .error .longInteger

/-- The key of the settings with the given names; an absent setting stays absent. -/
def dependenciesKey (settings : Settings) (names : List String) : Except Fault String :=
  snapshotKey (restrict settings names)

end Settings

end VisibilityRules
