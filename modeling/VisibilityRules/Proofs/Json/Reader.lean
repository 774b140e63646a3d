import Mathlib.Data.List.Forall2
import VisibilityRules.Json.Reader
import VisibilityRules.Json.Writer
import VisibilityRules.Proofs.Table
import VisibilityRules.Proofs.Text.Numeral

/-!
# Texts that are read as values

Quoted texts, integers, lists and mappings as JSON writes them are read as the values they stand
for, whatever comma, bracket, brace or end of text stands behind them. No reader takes more steps
than its text has characters.
-/

namespace VisibilityRules

namespace Json

open Value

/-! ### Texts -/

private theorem readEscape_letter {c l : Char} (h : letter? c = some l) (opening : Nat)
    (rest : List Char) : readEscape opening (l :: rest) = .ok (c, 1) := by
  unfold letter? at h
  split at h <;> cases h <;> rfl

private theorem hexValue?_digitChar : ∀ d < 16, Text.hexValue? (Nat.digitChar d) = some d := by
  decide

private theorem unitOf?_digits {n : Nat} (hn : n < 0x10000) :
    unitOf? (Nat.digitChar (n / 16 / 16 / 16 % 16)) (Nat.digitChar (n / 16 / 16 % 16))
      (Nat.digitChar (n / 16 % 16)) (Nat.digitChar (n % 16)) = some n := by
  have hvalue (m : Nat) : Text.hexValue? (Nat.digitChar (m % 16)) = some (m % 16) :=
    hexValue?_digitChar _ (Nat.mod_lt _ (by decide))
  simp only [unitOf?, hvalue, Option.bind_eq_bind, Option.bind_some, Option.pure_def,
    Option.some.injEq]
  omega

private theorem readEscape_unit {n : Nat} (hn : n < 0x10000) (hhigh : isHighUnit n = false)
    (hlow : isLowUnit n = false) (opening : Nat) (next : Char) (rest : List Char) :
    readEscape opening ('u' :: (Text.hexText 4 n ++ next :: rest)) = .ok (Char.ofNat n, 5) := by
  have hsingle : charOfUnit n = Char.ofNat n := by
    rw [charOfUnit, hhigh, hlow]
    rfl
  simp only [Text.hexText, List.nil_append, List.cons_append, readEscape, unitOf?_digits hn, hhigh,
    hsingle]
  rfl

private theorem readEscape_pair {high low : Nat} (hhigh : isHighUnit high = true)
    (hlow : isLowUnit low = true) (opening : Nat) (next : Char) (rest : List Char) :
    readEscape opening ('u' :: (Text.hexText 4 high ++ (unitForm low ++ next :: rest))) =
      .ok (charOfPair high low, 11) := by
  have hhigh_lt : high < 0x10000 := by simp [isHighUnit] at hhigh; omega
  have hlow_lt : low < 0x10000 := by simp [isLowUnit] at hlow; omega
  simp only [unitForm, Text.hexText, List.nil_append, List.cons_append, readEscape, secondUnit?,
    unitOf?_digits hhigh_lt, unitOf?_digits hlow_lt, hhigh, hlow]
  rfl

/-- What a character by its units gives back, with any text behind it that is not empty. -/
private theorem readText_unitsForm (opening : Nat) (c next : Char) (rest : List Char) :
    readText opening 0 (unitsForm c ++ next :: rest) =
      consRead c (readText opening 0 (next :: rest)) := by
  by_cases hc : c.toNat < 0x10000
  · obtain ⟨hhigh, hlow⟩ : isHighUnit c.toNat = false ∧ isLowUnit c.toNat = false := by
      have hvalid : c.toNat < 0xD800 ∨ 0xDFFF < c.toNat := by
        rcases c.valid with h | h
        · exact .inl h
        · exact .inr h.1
      simp only [isHighUnit, isLowUnit, Bool.and_eq_false_iff, decide_eq_false_iff_not]
      omega
    rw [unitsForm, if_pos hc, unitForm, List.cons_append, List.cons_append, readText,
      if_neg (by decide), if_pos rfl, readEscape_unit hc hhigh hlow, Char.ofNat_toNat]
    rfl
  -- beyond 16 bits a character is a pair of units, which one escape takes together
  · have hlt : c.toNat < 0x110000 := by
      rcases c.valid with h | h
      · exact Nat.lt_trans h (by decide)
      · exact h.2
    have hhigh : isHighUnit (0xD800 + (c.toNat - 0x10000) / 0x400) = true := by
      simp only [isHighUnit, Bool.and_eq_true, decide_eq_true_eq]
      omega
    have hlow : isLowUnit (0xDC00 + (c.toNat - 0x10000) % 0x400) = true := by
      simp only [isLowUnit, Bool.and_eq_true, decide_eq_true_eq]
      omega
    have hpair : charOfPair (0xD800 + (c.toNat - 0x10000) / 0x400)
        (0xDC00 + (c.toNat - 0x10000) % 0x400) = c := by
      have hvalue : 0x10000 + (0xD800 + (c.toNat - 0x10000) / 0x400 - 0xD800) * 0x400 +
          (0xDC00 + (c.toNat - 0x10000) % 0x400 - 0xDC00) = c.toNat := by omega
      rw [charOfPair, hvalue, Char.ofNat_toNat]
    rw [unitsForm, if_neg hc, List.append_assoc, unitForm, List.cons_append, List.cons_append,
      readText, if_neg (by decide), if_pos rfl, readEscape_pair hhigh hlow, hpair]
    rfl

/-- A choice of characters that stand for themselves is safe if it has no control characters. -/
def IsSafe (plain : Char → Bool) : Prop := ∀ c, plain c → 0x20 ≤ c.toNat

theorem isSafe_isPlainInJson : IsSafe Value.isPlainInJson := fun _ => of_decide_eq_true

section Quoted

variable {plain : Char → Bool} (hplain : IsSafe plain)

include hplain

private theorem readText_quotedChar (opening : Nat) (c next : Char) (rest : List Char) :
    readText opening 0 (quotedChar plain c ++ next :: rest) =
      consRead c (readText opening 0 (next :: rest)) := by
  unfold quotedChar
  cases hletter : letter? c with
  | some l =>
    simp only [List.cons_append, List.nil_append]
    rw [readText, if_neg (by decide), if_pos rfl, readEscape_letter hletter]
    rfl
  | none =>
    obtain ⟨hquote, hslash⟩ : c ≠ '"' ∧ c ≠ '\\' := by
      constructor <;> rintro rfl <;> simp [letter?] at hletter
    by_cases hc : plain c
    · have hcontrol : ¬c.toNat < 0x20 := Nat.not_lt.mpr (hplain c hc)
      simp only [hc, if_true, List.cons_append, List.nil_append]
      rw [readText, if_neg hquote, if_neg hslash, if_neg hcontrol]
    · simp only [hc, Bool.false_eq_true, if_false]
      exact readText_unitsForm opening c next rest

theorem readText_quoted (opening : Nat) (cs rest : List Char) :
    readText opening 0 (cs.flatMap (quotedChar plain) ++ '"' :: rest) = .ok (cs, rest) := by
  induction cs with
  | nil => rfl
  | cons c cs ih =>
    rw [List.flatMap_cons, List.append_assoc]
    obtain ⟨next, more, hmore⟩ : ∃ next more,
        cs.flatMap (quotedChar plain) ++ '"' :: rest = next :: more :=
      List.exists_cons_of_ne_nil (by simp)
    rw [hmore, readText_quotedChar hplain, ← hmore, ih, consRead]

end Quoted

/-! ### Numbers -/

/-- What can stand behind a value: nothing, or a character that ends a value. -/
def Delimits (rest : List Char) : Prop := ∀ c ∈ rest.head?, c = ',' ∨ c = ']' ∨ c = '}'

theorem delimits_nil : Delimits [] := by simp [Delimits]

theorem delimits_cons {c : Char} (h : c = ',' ∨ c = ']' ∨ c = '}') (rest : List Char) :
    Delimits (c :: rest) := by
  simpa [Delimits] using h

private theorem Delimits.not_number {rest : List Char} (h : Delimits rest) {c : Char}
    (hc : c ∈ rest.head?) : ¬c.isDigit ∧ c ≠ '.' ∧ ¬(c = 'e' ∨ c = 'E') := by
  rcases h c hc with rfl | rfl | rfl <;> decide

private theorem splitWhole_natText (n : Nat) {rest : List Char} (h : Delimits rest) :
    splitWhole (Text.natText n ++ rest) = (Text.natText n, rest) := by
  rcases Nat.eq_zero_or_pos n with rfl | hpos
  · rfl
  · obtain ⟨c, digits, hcons, hc⟩ := Text.natText_head hpos
    obtain ⟨hwhole, hrest⟩ := Text.span_digits (fun c => Text.natText_isDigit (n := n) (c := c))
      fun c hc => (h.not_number hc).1
    rw [splitWhole, hwhole, hrest]
    rw [hcons]
    simpa using hc

private theorem splitFraction_delimiter {rest : List Char} (h : Delimits rest) :
    splitFraction rest = ([], rest) := by
  cases rest with
  | nil => rfl
  | cons c rest =>
    have hc : c ≠ '.' := (h.not_number rfl).2.1
    rw [splitFraction]
    simpa using hc

private theorem splitExponent_delimiter {rest : List Char} (h : Delimits rest) :
    splitExponent rest = (none, rest) := by
  cases rest with
  | nil => rfl
  | cons c rest => rw [splitExponent, if_neg (h.not_number rfl).2.2]

theorem readNumber_intText {n : Int} (hn : (Text.natText n.natAbs).length ≤ digitLimit)
    {rest : List Char} (h : Delimits rest) :
    readNumber (Text.intText n ++ rest) = .ok (.int n, rest) := by
  cases n with
  | ofNat m =>
    have hlimit : ¬digitLimit < (Text.natText m).length := Nat.not_lt.mpr hn
    have hunsigned : ∀ more, Text.natText m ++ rest ≠ '-' :: more := by
      obtain ⟨c, digits, hcons⟩ := List.exists_cons_of_ne_nil (Text.natText_ne_nil m)
      have hc : c.isDigit := Text.natText_isDigit (n := m) (hcons ▸ List.mem_cons_self)
      rintro more hminus
      rw [hcons] at hminus
      rw [(List.cons.inj hminus).1] at hc
      exact absurd hc (by decide)
    rw [Text.intText, readNumber]
    · simp [splitWhole_natText m h, splitFraction_delimiter h, splitExponent_delimiter h, hlimit,
        Text.natText_ne_nil]
    · exact hunsigned
  | negSucc m =>
    have hlimit : ¬digitLimit < (Text.natText (m + 1)).length := Nat.not_lt.mpr hn
    simp [Text.intText, readNumber, splitWhole_natText (m + 1) h, splitFraction_delimiter h,
      splitExponent_delimiter h, hlimit, Text.natText_ne_nil, Int.negSucc_eq]

/-! ### Scalars -/

/-- Whether a text starts with something that is neither blank nor a closing bracket or brace. -/
def Starts (cs : List Char) : Prop :=
  ∃ c rest, cs = c :: rest ∧ ¬isJsonBlank c ∧ c ≠ ']' ∧ c ≠ '}'

theorem Starts.append {cs : List Char} (h : Starts cs) (rest : List Char) :
    Starts (cs ++ rest) := by
  obtain ⟨c, more, rfl, hblank, hc⟩ := h
  exact ⟨c, more ++ rest, rfl, hblank, hc⟩

theorem Starts.skipBlanks_eq {cs : List Char} (h : Starts cs) : skipBlanks cs = cs := by
  obtain ⟨c, rest, rfl, hblank, _⟩ := h
  exact List.dropWhile_cons_of_neg hblank

theorem Starts.skipBlanks_gap {cs gap : List Char} (h : Starts cs)
    (hgap : ∀ c ∈ gap, isJsonBlank c) : skipBlanks (gap ++ cs) = cs := by
  rw [skipBlanks, List.dropWhile_append_of_pos hgap]
  exact h.skipBlanks_eq

/-- Whether a text is read as a value, whatever delimiter stands behind it, in as many steps as it
has characters. -/
structure Reads (text : List Char) (v : Value) : Prop where
  starts : Starts text
  read : ∀ n rest, text.length ≤ n → Delimits rest → readValue n (text ++ rest) = .ok (v, rest)

private theorem Starts.reads {text : List Char} {v : Value} (starts : Starts text)
    (read : ∀ n rest, text.length ≤ n + 1 → Delimits rest →
      readValue (n + 1) (text ++ rest) = .ok (v, rest)) : Reads text v := by
  refine ⟨starts, ?_⟩
  intro n rest hn hrest
  obtain ⟨c, more, rfl, _⟩ := starts
  cases n with
  | zero => simp at hn
  | succ n => exact read n rest hn hrest

theorem reads_null : Reads "null".toList .null :=
  Starts.reads ⟨'n', _, rfl, by decide⟩ fun _ _ _ _ => rfl

theorem reads_bool (b : Bool) : Reads (if b then "true" else "false").toList (.bool b) := by
  cases b
  · exact Starts.reads ⟨'f', _, rfl, by decide⟩ fun _ _ _ _ => rfl
  · exact Starts.reads ⟨'t', _, rfl, by decide⟩ fun _ _ _ _ => rfl

theorem reads_quoted {plain : Char → Bool} (hplain : IsSafe plain) (s : String) :
    Reads (quoted plain s) (.text s) := by
  refine Starts.reads ⟨'"', _, rfl, by decide⟩ ?_
  intro n rest _ _
  simp only [quoted, List.cons_append, List.append_assoc, List.nil_append, readValue,
    readText_quoted hplain, Except.map, String.ofList_toList]

private theorem not_isJsonBlank_of_isDigit {c : Char} (h : c.isDigit) : ¬isJsonBlank c := by
  intro hblank
  simp only [isJsonBlank, Bool.or_eq_true, decide_eq_true_eq] at hblank
  rcases hblank with ((rfl | rfl) | rfl) | rfl <;> exact absurd h (by decide)

private theorem starts_intText (n : Int) : Starts (Text.intText n) := by
  obtain ⟨c, rest, hcons⟩ := List.exists_cons_of_ne_nil (Text.intText_ne_nil n)
  refine ⟨c, rest, hcons, ?_⟩
  rcases Text.intText_isDigit (n := n) (hcons ▸ List.mem_cons_self) with hdigit | rfl
  · refine ⟨not_isJsonBlank_of_isDigit hdigit, ?_, ?_⟩ <;> rintro rfl <;>
      exact absurd hdigit (by decide)
  · decide

/-- Digits, with or without a minus sign, open nothing but a number. -/
private theorem readValue_number {cs : List Char} {c : Char} {rest : List Char}
    (hcs : cs = c :: rest) (hc : c.isDigit ∨ c = '-' ∧ ∀ more, rest ≠ 'I' :: more) (n : Nat) :
    readValue (n + 1) cs = readNumber cs := by
  have hhead (d : Char) (hd : ¬(d.isDigit ∨ d = '-')) (more : List Char) : cs ≠ d :: more := by
    rintro rfl
    rw [(List.cons.inj hcs).1] at hd
    exact hd (hc.imp_right And.left)
  have hminus (more : List Char) : cs ≠ '-' :: 'I' :: more := by
    rintro rfl
    obtain ⟨rfl, hrest⟩ := List.cons.inj hcs
    rcases hc with hdigit | ⟨_, hnot⟩
    · exact absurd hdigit (by decide)
    · exact hnot _ hrest.symm
  rw [readValue]
  all_goals first | exact fun more => hhead _ (by decide) _ | exact fun more => hminus _

private theorem natText_cons (n : Nat) : ∃ c digits, Text.natText n = c :: digits ∧ c.isDigit := by
  obtain ⟨c, digits, hcons⟩ := List.exists_cons_of_ne_nil (Text.natText_ne_nil n)
  exact ⟨c, digits, hcons, Text.natText_isDigit (n := n) (hcons ▸ List.mem_cons_self)⟩

private theorem readValue_intText (k : Int) (n : Nat) (rest : List Char) :
    readValue (n + 1) (Text.intText k ++ rest) = readNumber (Text.intText k ++ rest) := by
  cases k with
  | ofNat m =>
    obtain ⟨c, digits, hcons, hc⟩ := natText_cons m
    rw [Text.intText, hcons]
    exact readValue_number rfl (.inl hc) n
  | negSucc m =>
    obtain ⟨c, digits, hcons, hc⟩ := natText_cons (m + 1)
    rw [Text.intText, hcons]
    refine readValue_number rfl (.inr ⟨rfl, ?_⟩) n
    rintro more hletter
    rw [(List.cons.inj hletter).1] at hc
    exact absurd hc (by decide)

theorem reads_intText {k : Int} (hk : (Text.natText k.natAbs).length ≤ digitLimit) :
    Reads (Text.intText k) (.int k) := by
  refine (starts_intText k).reads ?_
  intro n rest _ hrest
  rw [readValue_intText, readNumber_intText hk hrest]

/-! ### Lists -/

theorem separated_cons_cons (separator piece next : List Char) (rest : List (List Char)) :
    separated separator (piece :: next :: rest) =
      piece ++ separator ++ separated separator (next :: rest) := by
  simp [separated]

private theorem starts_separated (separator : List Char) {piece : List Char} (h : Starts piece)
    (rest : List (List Char)) : Starts (separated separator (piece :: rest)) := by
  cases rest with
  | nil => exact h
  | cons next rest =>
    rw [separated_cons_cons, List.append_assoc]
    exact h.append _

private theorem readItems_last {n : Nat} {cs rest : List Char} {v : Value}
    (h : readValue n cs = .ok (v, ']' :: rest)) : readItems (n + 1) cs = .ok ([v], rest) := by
  rw [readItems, h]
  rfl

private theorem readItems_more {n : Nat} {cs more : List Char} {v : Value}
    (h : readValue n cs = .ok (v, ',' :: more)) (hmore : Starts more) :
    readItems (n + 1) cs = (readItems n more).map fun (items, rest) => (v :: items, rest) := by
  rw [readItems, h]
  change (readItems n (skipBlanks more)).map _ = _
  rw [hmore.skipBlanks_eq]

private theorem readValue_list {n : Nat} {cs : List Char} (h : Starts cs) :
    readValue (n + 1) ('[' :: cs) =
      (readItems n cs).map fun (items, rest) => (.list items, rest) := by
  rw [readValue, h.skipBlanks_eq]
  obtain ⟨c, rest, rfl, _, hc, _⟩ := h
  split
  · next hclosed => exact absurd (List.cons.inj hclosed).1 hc
  · rfl

private theorem readItems_separated {text : Value → List Char} (v : Value) (items : List Value)
    (hread : ∀ w ∈ v :: items, Reads (text w) w) (n : Nat) (rest : List Char)
    (hn : (separated [','] ((v :: items).map text)).length ≤ n) :
    readItems (n + 1) (separated [','] ((v :: items).map text) ++ ']' :: rest) =
      .ok (v :: items, rest) := by
  have hv := hread v List.mem_cons_self
  induction items generalizing v n with
  | nil => exact readItems_last (hv.read n _ hn (delimits_cons (by simp) rest))
  | cons w items ih =>
    simp only [List.map_cons, separated_cons_cons, List.length_append, List.length_singleton]
      at hn ih ⊢
    -- the comma pays for the step that reads the next item
    obtain ⟨n, rfl⟩ : ∃ m, n = m + 1 := ⟨n - 1, by omega⟩
    have hw := hread w (by simp)
    have hrest := ih w (fun u hu => hread u (List.mem_cons_of_mem _ hu)) n (by omega) hw
    have hstart := (starts_separated [','] hw.starts (items.map text)).append (']' :: rest)
    have hfirst := hv.read (n + 1)
      (',' :: (separated [','] (text w :: items.map text) ++ ']' :: rest)) (by omega)
      (delimits_cons (by simp) _)
    rw [List.append_assoc, List.append_assoc, List.singleton_append,
      readItems_more hfirst hstart, hrest]
    rfl

theorem reads_list {text : Value → List Char} {items : List Value}
    (hread : ∀ v ∈ items, Reads (text v) v) :
    Reads ('[' :: separated [','] (items.map text) ++ [']']) (.list items) := by
  refine Starts.reads ⟨'[', _, rfl, by decide⟩ ?_
  intro n rest hn _
  cases items with
  | nil => rfl
  | cons v items =>
    have hv := hread v List.mem_cons_self
    have hstart := (starts_separated [','] hv.starts (items.map text)).append (']' :: rest)
    simp only [List.length_append, List.length_cons, List.length_nil] at hn
    obtain ⟨n, rfl⟩ : ∃ m, n = m + 1 := ⟨n - 1, by omega⟩
    rw [List.cons_append, List.cons_append, List.append_assoc, List.singleton_append,
      List.map_cons, readValue_list hstart, ← List.map_cons,
      readItems_separated v items hread n rest (by omega)]
    rfl

/-! ### Mappings -/

private theorem readValue_object {n : Nat} {cs : List Char} (h : Starts cs) :
    readValue (n + 1) ('{' :: cs) =
      (readEntries n [] cs).map fun (entries, rest) => (.map entries, rest) := by
  rw [readValue, h.skipBlanks_eq]
  obtain ⟨c, rest, rfl, _, _, hc⟩ := h
  split
  · next hclosed => exact absurd (List.cons.inj hclosed).1 hc
  · rfl

/-- An entry of a mapping with blanks before its value. -/
def entryText (plain : Char → Bool) (gap : List Char) (key : String) (text : List Char) :
    List Char := quoted plain key ++ ':' :: (gap ++ text)

/-- A mapping with the texts of its values, and with blanks behind its colons and commas. -/
def objectText (plain : Char → Bool) (gap : List Char) (entries : Table (List Char)) : List Char :=
  '{' :: separated (',' :: gap) (entries.map fun e => entryText plain gap e.1 e.2) ++ ['}']

/-- What is read behind an entry: a closing brace, or a comma and further entries. -/
private def readBehindEntry (n : Nat) (entries : Table Value) (rest : List Char) :
    Except SyntaxFault (Table Value × List Char) :=
  match skipBlanks rest with
  | '}' :: rest => .ok (entries, rest)
  | ',' :: rest => readEntries n entries (skipBlanks rest)
  | rest => faultAt .expectedComma rest

private theorem not_mem_keys_of_nodup {before after : Table Value} {e : String × Value}
    (h : (Table.keys (before ++ e :: after)).Nodup) : e.1 ∉ Table.keys before := by
  rw [Table.keys, List.map_append, List.map_cons] at h
  intro hmem
  exact (List.nodup_append.mp h).2.2 _ hmem _ List.mem_cons_self rfl

section Entries

variable {plain : Char → Bool} (hplain : IsSafe plain) {gap : List Char}
  (hgap : ∀ c ∈ gap, isJsonBlank c)

private theorem starts_entryText (key : String) (text : List Char) :
    Starts (entryText plain gap key text) := ⟨'"', _, rfl, by decide⟩

include hplain hgap

private theorem readEntries_entry {n : Nat} {before : Table Value} {e : String × List Char}
    {d : String × Value} {rest : List Char} (h : e.1 = d.1 ∧ Reads e.2 d.2)
    (hkey : d.1 ∉ Table.keys before) (hn : (entryText plain gap e.1 e.2).length ≤ n)
    (hrest : Delimits rest) :
    readEntries (n + 1) before (entryText plain gap e.1 e.2 ++ rest) =
      readBehindEntry n (before ++ [d]) rest := by
  obtain ⟨hkeys, hread⟩ := h
  have hcolon (more : List Char) : skipBlanks (':' :: more) = ':' :: more := rfl
  have hskip : skipBlanks (gap ++ (e.2 ++ rest)) = e.2 ++ rest :=
    (hread.starts.append rest).skipBlanks_gap hgap
  have hvalue := hread.read n rest (by simp [entryText] at hn; omega) hrest
  simp only [entryText, quoted, List.cons_append, List.append_assoc, List.nil_append, readEntries,
    readText_quoted hplain, hcolon, hskip, hvalue, String.ofList_toList, hkeys,
    Table.put_of_not_mem hkey]
  rfl

/-- The entries of a mapping are read up to its closing brace, behind the entries already read. -/
private theorem readEntries_separated (before : Table Value) {e : String × List Char}
    {d : String × Value} {written : Table (List Char)} {entries : Table Value}
    (hfirst : e.1 = d.1 ∧ Reads e.2 d.2)
    (hread : List.Forall₂ (fun e d => e.1 = d.1 ∧ Reads e.2 d.2) written entries)
    (hkeys : (Table.keys (before ++ d :: entries)).Nodup) (n : Nat) (rest : List Char)
    (hn : (separated (',' :: gap)
      ((e :: written).map fun e => entryText plain gap e.1 e.2)).length ≤ n) :
    readEntries (n + 1) before
        (separated (',' :: gap) ((e :: written).map fun e => entryText plain gap e.1 e.2)
          ++ '}' :: rest) = .ok (before ++ d :: entries, rest) := by
  have hkey : d.1 ∉ Table.keys before := not_mem_keys_of_nodup hkeys
  -- the entries read so far grow, and no key among them comes again
  induction hread generalizing before e d n with
  | nil => exact readEntries_entry hplain hgap hfirst hkey hn (delimits_cons (by simp) _)
  | @cons e' d' written entries hnext hread ih =>
    simp only [List.map_cons, separated_cons_cons, List.length_append, List.length_cons] at hn ih ⊢
    obtain ⟨n, rfl⟩ : ∃ m, n = m + 1 := ⟨n - 1, by omega⟩
    have hkeys' : (Table.keys ((before ++ [d]) ++ d' :: entries)).Nodup := by
      rwa [List.append_assoc]
    have hrest := ih _ hnext hkeys' n (by omega) (not_mem_keys_of_nodup hkeys')
    have hstart : Starts (separated (',' :: gap) (entryText plain gap e'.1 e'.2 ::
        written.map fun e => entryText plain gap e.1 e.2) ++ '}' :: rest) :=
      (starts_separated _ (starts_entryText e'.1 e'.2) _).append _
    rw [List.append_assoc, List.append_assoc, List.cons_append,
      readEntries_entry hplain hgap hfirst hkey (by omega) (delimits_cons (by simp) _)]
    change readEntries (n + 1) (before ++ [d]) (skipBlanks _) = _
    rw [hstart.skipBlanks_gap hgap, hrest, List.append_assoc]
    rfl

theorem reads_objectText {written : Table (List Char)} {entries : Table Value}
    (hread : List.Forall₂ (fun e d => e.1 = d.1 ∧ Reads e.2 d.2) written entries)
    (hkeys : (Table.keys entries).Nodup) :
    Reads (objectText plain gap written) (.map entries) := by
  refine Starts.reads ⟨'{', _, rfl, by decide⟩ ?_
  intro n rest hn _
  cases hread with
  | nil => rfl
  | @cons e d written entries hfirst hread =>
    simp only [objectText, List.length_append, List.length_cons, List.length_nil] at hn
    obtain ⟨n, rfl⟩ : ∃ m, n = m + 1 := ⟨n - 1, by omega⟩
    have hentries :=
      readEntries_separated hplain hgap [] hfirst hread hkeys n rest (by omega)
    have hstart : Starts (separated (',' :: gap) ((e :: written).map fun e =>
        entryText plain gap e.1 e.2) ++ '}' :: rest) :=
      (starts_separated _ (starts_entryText e.1 e.2) _).append _
    rw [objectText, List.cons_append, List.cons_append, List.append_assoc, List.singleton_append,
      readValue_object hstart, hentries]
    rfl

end Entries

end Json

end VisibilityRules
