import Mathlib.Data.List.Forall2
import VisibilityRules.Json.Writer
import VisibilityRules.Proofs.Json.Reader

/-!
# Reading what was written

Compact JSON of a value without doubles, tuples and missing parts is read back as that value. It
stands on one line, so it comes unchanged out of a file.
-/

namespace VisibilityRules

/-- The values that JSON keeps: no doubles, tuples or missing parts, no integer with more digits
than a numeral may have, and no mapping that repeats a key. -/
inductive Value.IsPortable : Value → Prop
  | null : IsPortable .null
  | bool (b : Bool) : IsPortable (.bool b)
  | int {n : Int} (digits : (Text.natText n.natAbs).length ≤ digitLimit) : IsPortable (.int n)
  | text (s : String) : IsPortable (.text s)
  | list {items : List Value} (members : ∀ v ∈ items, IsPortable v) : IsPortable (.list items)
  | map {entries : Table Value} (keys : (Table.keys entries).Nodup)
      (members : ∀ e ∈ entries, IsPortable e.2) : IsPortable (.map entries)

namespace Json

open Value

private theorem jsons_eq (items : List Value) : jsons items = items.map json := by
  induction items with
  | nil => rfl
  | cons item rest ih => rw [jsons, ih, List.map_cons]

private theorem jsonEntries_eq (entries : Table Value) :
    jsonEntries entries =
      (Table.mapValues json entries).map fun e => entryText isPlainInJson [] e.1 e.2 := by
  induction entries with
  | nil => rfl
  | cons e rest ih =>
    rw [jsonEntries, ih, Table.mapValues_cons, List.map_cons, entryText, List.nil_append]

theorem reads_json {v : Value} (h : v.IsPortable) : Reads (json v) v := by
  induction h with
  | null => exact reads_null
  | bool b => exact reads_bool b
  | int digits => exact reads_intText digits
  | text s => exact reads_quoted isSafe_isPlainInJson s
  | list _ ih =>
    rw [json, jsons_eq]
    exact reads_list ih
  | @map entries keys _ ih =>
    have hread : List.Forall₂ (fun e d => e.1 = d.1 ∧ Reads e.2 d.2)
        (Table.mapValues json entries) entries := by
      rw [Table.mapValues, List.forall₂_map_left_iff, List.forall₂_same]
      exact fun e he => ⟨rfl, ih e he⟩
    rw [json, jsonEntries_eq]
    exact reads_objectText isSafe_isPlainInJson (by simp) hread keys

theorem Reads.read_eq {text : List Char} {v : Value} (h : Reads text v)
    (hmark : text.head? ≠ some '\uFEFF') : Json.read text = .ok v := by
  have hread := h.read (2 * text.length + 2) [] (by omega) delimits_nil
  rw [List.append_nil] at hread
  rw [Json.read, if_neg hmark, h.starts.skipBlanks_eq, hread]
  rfl

/-! ### Line ends -/

private theorem return_not_mem_hexText (width n : Nat) : '\r' ∉ Text.hexText width n := by
  have hdigit : ∀ d < 16, Nat.digitChar d ≠ '\r' := by decide
  induction width generalizing n with
  | zero => exact List.not_mem_nil
  | succ width ih =>
    rw [Text.hexText, List.mem_append, List.mem_singleton]
    exact not_or.mpr ⟨ih _, (hdigit _ (Nat.mod_lt n (by decide))).symm⟩

private theorem return_not_mem_unitForm (unit : Nat) : '\r' ∉ unitForm unit := by
  simp [unitForm, return_not_mem_hexText]

private theorem return_not_mem_quotedChar (plain : Char → Bool) (c : Char) :
    '\r' ∉ quotedChar plain c := by
  unfold quotedChar
  cases hletter : letter? c with
  | some l =>
    have hl : l ≠ '\r' := by
      unfold letter? at hletter
      split at hletter <;> cases hletter <;> decide
    simp [hl.symm]
  | none =>
    -- a carriage return has a letter, so it never stands for itself
    have hc : c ≠ '\r' := by
      rintro rfl
      simp [letter?] at hletter
    have hunits : '\r' ∉ unitsForm c := by
      rw [unitsForm]
      split <;> simp [return_not_mem_unitForm]
    by_cases hplain : plain c <;> simp [hplain, hc.symm, hunits]

theorem return_not_mem_quoted (plain : Char → Bool) (s : String) : '\r' ∉ quoted plain s := by
  simp [quoted, return_not_mem_quotedChar]

private theorem return_not_mem_separated (separator : List Char) (hseparator : '\r' ∉ separator)
    {pieces : List (List Char)} (hpieces : ∀ piece ∈ pieces, '\r' ∉ piece) :
    '\r' ∉ separated separator pieces := by
  induction pieces with
  | nil => exact List.not_mem_nil
  | cons piece rest ih =>
    rw [List.forall_mem_cons] at hpieces
    cases rest with
    | nil => exact hpieces.1
    | cons next rest =>
      rw [separated_cons_cons, List.mem_append, List.mem_append, not_or, not_or]
      exact ⟨⟨hpieces.1, hseparator⟩, ih hpieces.2⟩

theorem return_not_mem_objectText (plain : Char → Bool) {gap : List Char} (hgap : '\r' ∉ gap)
    {entries : Table (List Char)} (h : ∀ e ∈ entries, '\r' ∉ e.2) :
    '\r' ∉ objectText plain gap entries := by
  have hentries : ∀ piece ∈ entries.map fun e => entryText plain gap e.1 e.2, '\r' ∉ piece := by
    rw [List.forall_mem_map]
    intro e he
    simp [entryText, return_not_mem_quoted, hgap, h e he]
  have hseparated := return_not_mem_separated (',' :: gap) (by simp [hgap]) hentries
  simp [objectText, hseparated]

theorem return_not_mem_json {v : Value} (h : v.IsPortable) : '\r' ∉ json v := by
  induction h with
  | null => decide
  | bool b => cases b <;> decide
  | @int n _ =>
    intro hmem
    rcases Text.intText_isDigit hmem with h | h <;> exact absurd h (by decide)
  | text s => exact return_not_mem_quoted _ s
  | @list items _ ih =>
    have hseparated := return_not_mem_separated [','] (by decide) (List.forall_mem_map.mpr ih)
    simp [json, jsons_eq, hseparated]
  | @map entries _ _ ih =>
    rw [json, jsonEntries_eq]
    exact return_not_mem_objectText _ (by decide) (List.forall_mem_map.mpr ih)

end Json

end VisibilityRules
