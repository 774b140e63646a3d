import Mathlib
import VisibilityRules.Json.Writer
import VisibilityRules.Proofs.Json.Quoted
import VisibilityRules.Proofs.Number.Layout
import VisibilityRules.Proofs.Value.NormalForm
import VisibilityRules.Value.Canonical

/-!
# Canonical texts tell values apart

Two values with the same canonical text have the same normal form, and a value has the text of its
normal form. The text of a value ends where it ends: what follows inside another value is a comma or
a closing bracket, and no text of a value could go on with one of these.
-/

namespace VisibilityRules.Value

open Text

/-! ### Texts by kind -/

theorem canonical_int (n : Int) : canonical (int n) = intText n := rfl

theorem canonical_double (x : Double) :
    canonical (double x) = Layout.message.write "NaN" "Infinity" x := rfl

theorem canonical_text (s : String) : canonical (text s) = keyQuoted s := rfl

theorem canonicals_cons (item : Value) (rest : List Value) :
    canonicals (item :: rest) = canonical item :: canonicals rest := rfl

theorem canonicalEntries_cons (e : String × Value) (rest : Table Value) :
    canonicalEntries (e :: rest) = (e.1, canonical e.2) :: canonicalEntries rest := rfl

theorem canonicals_eq (items : List Value) : canonicals items = items.map canonical := by
  induction items with
  | nil => rfl
  | cons item rest ih => rw [canonicals_cons, ih, List.map_cons]

theorem canonicalEntries_eq (entries : Table Value) :
    canonicalEntries entries = Table.mapValues canonical entries := by
  induction entries with
  | nil => rfl
  | cons e rest ih => rw [canonicalEntries_cons, ih, Table.mapValues_cons]

theorem canonical_list (items : List Value) :
    canonical (.list items) =
      wrapped "list" ('[' :: separated [',', ' '] (items.map canonical) ++ [']']) := by
  rw [← canonicals_eq]
  rfl

theorem canonical_tuple (items : List Value) :
    canonical (.tuple items) =
      wrapped "tuple" ('[' :: separated [',', ' '] (items.map canonical) ++ [']']) := by
  rw [← canonicals_eq]
  rfl

theorem canonical_map (entries : Table Value) :
    canonical (.map entries) =
      wrapped "dict" (writtenEntries (Table.mapValues canonical entries)) := by
  rw [← canonicalEntries_eq]
  rfl

private theorem canonical_sorted (entries : Table Value) :
    canonical (.map entries) = wrapped "dict" ('{' :: separated [',', ' ']
      ((Table.sorted entries).map fun e => keyQuoted e.1 ++ ':' :: ' ' :: canonical e.2) ++
        ['}']) := by
  rw [canonical_map, writtenEntries, Table.sorted_mapValues, Table.mapValues, List.map_map]
  rfl

/-! ### Where a text ends -/

/-- Whether a text can stand behind a value: nothing, a comma or a closing bracket comes first. -/
private def Ends (rest : List Char) : Prop := ∀ c ∈ rest.head?, c = ',' ∨ c = '}' ∨ c = ']'

private theorem ends_nil : Ends [] := by simp [Ends]

private theorem ends_cons {c : Char} (h : c = ',' ∨ c = '}' ∨ c = ']') (rest : List Char) :
    Ends (c :: rest) := by
  intro d hd
  rw [← Option.some.inj hd]
  exact h

private theorem not_isBareChar {c : Char} (h : c = ',' ∨ c = '}' ∨ c = ']') : ¬IsBareChar c := by
  rcases h with rfl | rfl | rfl <;> unfold IsBareChar <;> decide

private theorem bare_append_inj {as bs r s : List Char} (ha : ∀ c ∈ as, IsBareChar c)
    (hb : ∀ c ∈ bs, IsBareChar c) (hr : Ends r) (hs : Ends s) (h : as ++ r = bs ++ s) :
    as = bs ∧ r = s := by
  induction as generalizing bs with
  | nil =>
    cases bs with
    | nil => exact ⟨rfl, h⟩
    | cons b bs =>
      rw [List.nil_append] at h
      have hstop := hr b (by rw [h]; rfl)
      exact absurd (hb b List.mem_cons_self) (not_isBareChar hstop)
  | cons a as ih =>
    cases bs with
    | nil =>
      rw [List.nil_append] at h
      have hstop := hs a (by rw [← h]; rfl)
      exact absurd (ha a List.mem_cons_self) (not_isBareChar hstop)
    | cons b bs =>
      obtain ⟨hhead, htail⟩ := List.cons.inj h
      obtain ⟨hrest, hend⟩ := ih (fun c hc => ha c (List.mem_cons_of_mem _ hc))
        (fun c hc => hb c (List.mem_cons_of_mem _ hc)) htail
      rw [hhead, hrest]
      exact ⟨rfl, hend⟩

/-! ### Constants and numbers -/

/-- The values that are written without quotes and brackets. -/
private def isBare : Value → Bool
  | null => true
  | bool _ => true
  | int _ => true
  | double _ => true
  | _ => false

private theorem canonical_chars {v : Value} (h : isBare v) : ∀ c ∈ canonical v, IsBareChar c := by
  cases v with
  | null => exact isBareChar_of_all "null".toList (by decide)
  | bool b =>
    cases b
    · exact isBareChar_of_all "false".toList (by decide)
    · exact isBareChar_of_all "true".toList (by decide)
  | int n =>
    intro c hc
    rcases intText_isDigit hc with hdigit | rfl
    · exact .of_isDigit hdigit
    · exact .inr (.inr (.inl rfl))
  | double x => exact Layout.write_chars Layout.message x
  | _ => exact absurd h (by simp [isBare])

/-- Constants start with a small letter, numbers do not. -/
private def startsLower (cs : List Char) : Bool := cs.head?.any Char.isLower

private theorem startsLower_int (n : Int) : startsLower (canonical (int n)) = false := by
  obtain ⟨c, rest, hcons⟩ := List.exists_cons_of_ne_nil (intText_ne_nil n)
  have hc : ¬c.isLower := by
    rcases intText_isDigit (n := n) (hcons ▸ List.mem_cons_self) with hdigit | rfl
    · exact not_isLower_of_isDigit hdigit
    · decide
  rw [canonical_int, hcons]
  simpa [startsLower] using hc

private theorem startsLower_double (x : Double) : startsLower (canonical (double x)) = false := by
  obtain ⟨c, rest, hcons, hc⟩ := Layout.write_head Layout.message x
  rw [canonical_double, hcons]
  simpa [startsLower] using hc

private theorem canonical_int_ne_double (n : Int) (x : Double) :
    canonical (int n) ≠ canonical (double x) := by
  obtain ⟨c, hmem, hc⟩ := Layout.exists_nonInteger_char Layout.message x
  intro h
  rw [canonical_int, canonical_double] at h
  rw [← h] at hmem
  exact hc (intText_isDigit hmem)

private theorem constant_of_startsLower {v : Value} (hv : isBare v)
    (h : startsLower (canonical v) = true) : v = null ∨ v = bool false ∨ v = bool true := by
  cases v with
  | null => exact .inl rfl
  | bool b => cases b <;> simp
  | int n => rw [startsLower_int] at h; contradiction
  | double x => rw [startsLower_double] at h; contradiction
  | _ => exact absurd hv (by simp [isBare])

private theorem number_of_not_startsLower {v : Value} (hv : isBare v)
    (h : startsLower (canonical v) = false) : (∃ n, v = int n) ∨ ∃ x, v = double x := by
  cases v with
  | null => exact absurd h (by decide)
  | bool b => cases b <;> exact absurd h (by decide)
  | int n => exact .inl ⟨n, rfl⟩
  | double x => exact .inr ⟨x, rfl⟩
  | _ => exact absurd hv (by simp [isBare])

private theorem canonical_bare_inj {v w : Value} (hv : isBare v) (hw : isBare w)
    (h : canonical v = canonical w) : v = w := by
  cases hlower : startsLower (canonical v) with
  | true =>
    obtain rfl | rfl | rfl := constant_of_startsLower hv hlower <;>
    obtain rfl | rfl | rfl := constant_of_startsLower hw (h ▸ hlower) <;>
    first | rfl | exact absurd h (by decide)
  | false =>
    obtain ⟨m, rfl⟩ | ⟨x, rfl⟩ := number_of_not_startsLower hv hlower
    · obtain ⟨n, rfl⟩ | ⟨y, rfl⟩ := number_of_not_startsLower hw (h ▸ hlower)
      · rw [intText_injective h]
      · exact absurd h (canonical_int_ne_double m y)
    · obtain ⟨n, rfl⟩ | ⟨y, rfl⟩ := number_of_not_startsLower hw (h ▸ hlower)
      · exact absurd h.symm (canonical_int_ne_double n x)
      · rw [Layout.write_injective Layout.message h]

/-! ### First characters -/

/-- The character that opens the text of a value, unless the value stands bare. -/
private def opening? : Value → Option Char
  | missing => some '"'
  | text _ => some '"'
  | list _ => some '{'
  | tuple _ => some '{'
  | map _ => some '{'
  | _ => none

private theorem not_isBareChar_opening {v : Value} {c : Char} (h : opening? v = some c) :
    ¬IsBareChar c := by
  have hc : c = '"' ∨ c = '{' := by
    unfold opening? at h
    split at h <;> cases h <;> simp
  rcases hc with rfl | rfl <;> unfold IsBareChar <;> decide

private theorem isBare_of_opening? {v : Value} (h : opening? v = none) : isBare v := by
  cases v <;> first | rfl | exact absurd h (by simp [opening?])

private theorem canonical_ne_nil_of_isBare {v : Value} (h : isBare v) : canonical v ≠ [] := by
  cases v with
  | null => decide
  | bool b => cases b <;> decide
  | int n => exact intText_ne_nil n
  | double x =>
    obtain ⟨c, rest, hcons, _⟩ := Layout.write_head Layout.message x
    rw [canonical_double, hcons]
    exact List.cons_ne_nil c rest
  | _ => exact absurd h (by simp [isBare])

private theorem canonical_head (v : Value) :
    ∃ c rest, canonical v = c :: rest ∧
      (opening? v = some c ∨ opening? v = none ∧ IsBareChar c) := by
  cases h : opening? v with
  | none =>
    obtain ⟨c, rest, hcons⟩ :=
      List.exists_cons_of_ne_nil (canonical_ne_nil_of_isBare (isBare_of_opening? h))
    exact ⟨c, rest, hcons, .inr ⟨rfl, canonical_chars (isBare_of_opening? h) c
      (hcons ▸ List.mem_cons_self)⟩⟩
  | some c =>
    cases v with
    | missing | text =>
      cases h
      exact ⟨'"', _, rfl, .inl rfl⟩
    | list | tuple | map =>
      cases h
      exact ⟨'{', _, rfl, .inl rfl⟩
    | _ => exact absurd h (by simp [opening?])

private theorem opening?_eq {v w : Value} {r s : List Char}
    (h : canonical v ++ r = canonical w ++ s) : opening? v = opening? w := by
  obtain ⟨c, cs, hv, hc⟩ := canonical_head v
  obtain ⟨d, ds, hw, hd⟩ := canonical_head w
  rw [hv, hw] at h
  have heq : c = d := (List.cons.inj h).1
  rcases hc with hc | ⟨hc, hbare⟩
  · rcases hd with hd | ⟨hd, hbare'⟩
    · rw [hc, hd, heq]
    · exact absurd (heq ▸ hbare') (not_isBareChar_opening hc)
  · rcases hd with hd | ⟨hd, _⟩
    · exact absurd (heq ▸ hbare) (not_isBareChar_opening hd)
    · rw [hc, hd]

/-- The text of a value starts with none of the characters that can follow on a value. -/
private theorem canonical_ne_stop (v : Value) {c : Char} (h : c = ',' ∨ c = '}' ∨ c = ']')
    (r s : List Char) : canonical v ++ r ≠ c :: s := by
  obtain ⟨d, ds, hv, hd⟩ := canonical_head v
  intro heq
  rw [hv] at heq
  have hcd : d = c := (List.cons.inj heq).1
  rcases hd with hopen | ⟨_, hbare⟩
  · have hnot : opening? v ≠ some c := by
      cases v <;> rcases h with rfl | rfl | rfl <;> simp [opening?]
    exact hnot (hcd ▸ hopen)
  · exact not_isBareChar h (hcd ▸ hbare)

/-! ### Containers -/

private theorem wrapped_append_inj {kind other : String} {piece piece' r s : List Char}
    (h : wrapped kind piece ++ r = wrapped other piece' ++ s) :
    kind = other ∧ piece ++ '}' :: r = piece' ++ '}' :: s := by
  simp only [wrapped, List.cons_append, List.append_assoc, List.nil_append, List.cons.injEq,
    true_and] at h
  obtain ⟨hkind, hrest⟩ := Json.prefixFree_quoted isPlainInKey _ _ _ _ h
  exact ⟨hkind, (List.cons.inj (List.cons.inj hrest).2).2⟩

private theorem canonical_container {v : Value} (h : opening? v = some '{') :
    ∃ piece, canonical v = wrapped v.kindName piece := by
  cases v with
  | list | tuple | map => exact ⟨_, rfl⟩
  | _ => exact absurd h (by simp [opening?])

private theorem kindName_eq {v w : Value} {r s : List Char}
    (h : canonical v ++ r = canonical w ++ s) (hv : opening? v = some '{') :
    v.kindName = w.kindName := by
  obtain ⟨piece, hpiece⟩ := canonical_container hv
  obtain ⟨piece', hpiece'⟩ := canonical_container ((opening?_eq h).symm.trans hv)
  rw [hpiece, hpiece'] at h
  exact (wrapped_append_inj h).1

section Separated

variable {α : Type} {f : α → List Char} {same : α → α → Prop} {stop : Char}

/-- What stands behind the first of several pieces. -/
private def tailOf (f : α → List Char) (stop : Char) (r : List Char) : List α → List Char
  | [] => stop :: r
  | x :: xs => ',' :: ' ' :: (separated [',', ' '] ((x :: xs).map f) ++ stop :: r)

private theorem separated_cons (x : α) (xs : List α) (r : List Char) :
    separated [',', ' '] ((x :: xs).map f) ++ stop :: r = f x ++ tailOf f stop r xs := by
  cases xs with
  | nil => rfl
  | cons y ys => simp [separated, tailOf]

private theorem ends_tailOf (hstop : stop = '}' ∨ stop = ']') (r : List Char) (xs : List α) :
    Ends (tailOf f stop r xs) := by
  cases xs with
  | nil => exact ends_cons (.inr hstop) r
  | cons x xs => exact ends_cons (.inl rfl) _

/-- Pieces that can be told from what stands behind them can be told in a row. -/
private theorem separated_append_inj (hstop : stop = '}' ∨ stop = ']')
    (hhead : ∀ a c, c = ',' ∨ c = '}' ∨ c = ']' → ∀ r s, f a ++ r ≠ c :: s) {xs ys : List α}
    (h : ∀ x ∈ xs, ∀ y ∈ ys, ∀ r s, Ends r → Ends s → f x ++ r = f y ++ s → same x y ∧ r = s)
    {r s : List Char}
    (heq : separated [',', ' '] (xs.map f) ++ stop :: r =
      separated [',', ' '] (ys.map f) ++ stop :: s) :
    List.Forall₂ same xs ys ∧ r = s := by
  have hcomma : stop ≠ ',' := by rcases hstop with rfl | rfl <;> decide
  induction xs generalizing ys with
  | nil =>
    cases ys with
    | nil => exact ⟨.nil, (List.cons.inj heq).2⟩
    | cons y ys =>
      rw [separated_cons] at heq
      exact absurd heq.symm (hhead y stop (.inr hstop) _ r)
  | cons x xs ih =>
    cases ys with
    | nil =>
      rw [separated_cons] at heq
      exact absurd heq (hhead x stop (.inr hstop) _ s)
    | cons y ys =>
      rw [separated_cons, separated_cons] at heq
      obtain ⟨hxy, htail⟩ := h x List.mem_cons_self y List.mem_cons_self _ _
        (ends_tailOf hstop r xs) (ends_tailOf hstop s ys) heq
      have hrest : ∀ x' ∈ xs, ∀ y' ∈ ys, ∀ r s, Ends r → Ends s → f x' ++ r = f y' ++ s →
          same x' y' ∧ r = s :=
        fun x' hx y' hy => h x' (List.mem_cons_of_mem _ hx) y' (List.mem_cons_of_mem _ hy)
      cases xs with
      | nil =>
        cases ys with
        | nil => exact ⟨.cons hxy .nil, (List.cons.inj htail).2⟩
        | cons y' ys => exact absurd (List.cons.inj htail).1 hcomma
      | cons x' xs =>
        cases ys with
        | nil => exact absurd (List.cons.inj htail).1.symm hcomma
        | cons y' ys =>
          obtain ⟨hall, hend⟩ := ih hrest (List.cons.inj (List.cons.inj htail).2).2
          exact ⟨.cons hxy hall, hend⟩

end Separated

/-- The text of a value does not show in which order the entries of its mappings arrived. -/
theorem canonical_normal (v : Value) : canonical (normal v) = canonical v := by
  induction v using memberInduction with
  | missing | null | bool | int | double | text => rfl
  | list items ih | tuple items ih =>
    have hitems : items.map (canonical ∘ normal) = items.map canonical := List.map_congr_left ih
    simp only [normal_list, normal_tuple, canonical_list, canonical_tuple, List.map_map, hitems]
  | map entries ih =>
    have hentries : (Table.sorted entries).map (fun e => keyQuoted e.1 ++ ':' :: ' ' ::
        canonical (normal e.2)) =
          (Table.sorted entries).map fun e => keyQuoted e.1 ++ ':' :: ' ' :: canonical e.2 := by
      apply List.map_congr_left
      intro e he
      rw [ih e ((Table.sorted_perm entries).mem_iff.mp he)]
    rw [normal_map, canonical_sorted, canonical_sorted, Table.sorted_mapValues,
      (Table.ascending_sorted entries).sorted_eq, Table.mapValues, List.map_map, ← hentries]
    rfl

theorem allHaveJson_iff (items : List Value) : allHaveJson items ↔ ∀ v ∈ items, v.hasJson := by
  induction items with
  | nil => simp [allHaveJson]
  | cons item rest ih => simp [allHaveJson, ih]

theorem entriesHaveJson_iff (entries : Table Value) :
    entriesHaveJson entries ↔ ∀ e ∈ entries, e.2.hasJson := by
  induction entries with
  | nil => simp [entriesHaveJson]
  | cons e rest ih => simp [entriesHaveJson, ih]

/-- What the text of a value says about another value with a text that begins alike. -/
private def Told (v : Value) : Prop :=
  v.hasJson → ∀ w, w.hasJson → ∀ r s, Ends r → Ends s → canonical v ++ r = canonical w ++ s →
    normal v = normal w ∧ r = s

private theorem told_of_isBare {v : Value} (hv : isBare v) : Told v := by
  intro _ w _ r s hr hs h
  have hopen : opening? v = none := by
    cases v <;> first | rfl | exact absurd hv (by simp [isBare])
  have hw : isBare w := isBare_of_opening? ((opening?_eq h).symm.trans hopen)
  obtain ⟨htext, hrest⟩ := bare_append_inj (canonical_chars hv) (canonical_chars hw) hr hs h
  rw [canonical_bare_inj hv hw htext]
  exact ⟨rfl, hrest⟩

private theorem map_normal_of_forall₂ {xs ys : List Value}
    (h : List.Forall₂ (fun v w => normal v = normal w) xs ys) : xs.map normal = ys.map normal := by
  induction h with
  | nil => rfl
  | cons hhead _ ih => rw [List.map_cons, List.map_cons, hhead, ih]

private theorem items_append_inj {xs ys : List Value} (ih : ∀ v ∈ xs, Told v)
    (hx : allHaveJson xs) (hy : allHaveJson ys) {r s : List Char}
    (h : '[' :: separated [',', ' '] (xs.map canonical) ++ [']'] ++ '}' :: r =
      '[' :: separated [',', ' '] (ys.map canonical) ++ [']'] ++ '}' :: s) :
    xs.map normal = ys.map normal ∧ r = s := by
  rw [allHaveJson_iff] at hx hy
  simp only [List.cons_append, List.append_assoc, List.nil_append, List.cons.injEq,
    true_and] at h
  obtain ⟨hall, hend⟩ := separated_append_inj (.inr rfl)
    (fun v c hc => canonical_ne_stop v hc)
    (fun v hv w hw r s hr hs heq => ih v hv (hx v hv) w (hy w hw) r s hr hs heq) h
  exact ⟨map_normal_of_forall₂ hall, (List.cons.inj hend).2⟩

private def writtenEntry (e : String × Value) : List Char :=
  keyQuoted e.1 ++ ':' :: ' ' :: canonical e.2

private theorem writtenEntry_ne_stop (e : String × Value) (c : Char)
    (h : c = ',' ∨ c = '}' ∨ c = ']') (r s : List Char) : writtenEntry e ++ r ≠ c :: s := by
  intro heq
  have hquote : '"' = c := (List.cons.inj heq).1
  rcases h with rfl | rfl | rfl <;> exact absurd hquote (by decide)

private def sameEntry (e d : String × Value) : Prop := e.1 = d.1 ∧ normal e.2 = normal d.2

private theorem mapValues_normal_of_forall₂ {xs ys : Table Value}
    (h : List.Forall₂ sameEntry xs ys) :
    Table.mapValues normal xs = Table.mapValues normal ys := by
  induction h with
  | nil => rfl
  | cons hhead _ ih => rw [Table.mapValues_cons, Table.mapValues_cons, hhead.1, hhead.2, ih]

private theorem entries_append_inj {xs ys : Table Value} (ih : ∀ e ∈ xs, Told e.2)
    (hx : entriesHaveJson xs) (hy : entriesHaveJson ys) {r s : List Char}
    (h : separated [',', ' '] (xs.map writtenEntry) ++ '}' :: r =
      separated [',', ' '] (ys.map writtenEntry) ++ '}' :: s) :
    Table.mapValues normal xs = Table.mapValues normal ys ∧ r = s := by
  rw [entriesHaveJson_iff] at hx hy
  have hentry : ∀ e ∈ xs, ∀ d ∈ ys, ∀ r s, Ends r → Ends s →
      writtenEntry e ++ r = writtenEntry d ++ s → sameEntry e d ∧ r = s := by
    intro e he d hd r s hr hs heq
    simp only [writtenEntry, List.append_assoc, List.cons_append] at heq
    obtain ⟨hkey, hrest⟩ := Json.prefixFree_quoted isPlainInKey _ _ _ _ heq
    obtain ⟨hvalue, hend⟩ := ih e he (hx e he) d.2 (hy d hd) r s hr hs
      (List.cons.inj (List.cons.inj hrest).2).2
    exact ⟨⟨hkey, hvalue⟩, hend⟩
  obtain ⟨hall, hend⟩ := separated_append_inj (.inl rfl) writtenEntry_ne_stop hentry h
  exact ⟨mapValues_normal_of_forall₂ hall, hend⟩

private theorem entriesHaveJson_sorted {entries : Table Value} (h : entriesHaveJson entries) :
    entriesHaveJson (Table.sorted entries) := by
  rw [entriesHaveJson_iff] at h ⊢
  exact fun e he => h e ((Table.sorted_perm entries).mem_iff.mp he)

private theorem told (v : Value) : Told v := by
  induction v using memberInduction with
  | missing => exact fun h => absurd h (by simp [hasJson])
  | null | bool | int | double => exact told_of_isBare rfl
  | text a =>
    intro _ w _ r s _ _ h
    have hopen := opening?_eq h
    cases w with
    | text b =>
      rw [canonical_text, canonical_text] at h
      obtain ⟨htext, hrest⟩ := Json.prefixFree_quoted isPlainInKey _ _ _ _ h
      rw [htext]
      exact ⟨rfl, hrest⟩
    | missing => contradiction
    | _ => exact absurd hopen (by simp [opening?])
  | list xs ih =>
    intro hv w hw r s _ _ h
    have hkind := kindName_eq h rfl
    cases w with
    | list ys =>
      rw [canonical_list, canonical_list] at h
      obtain ⟨_, hpiece⟩ := wrapped_append_inj h
      obtain ⟨hitems, hrest⟩ := items_append_inj ih hv hw hpiece
      rw [normal_list, normal_list, hitems]
      exact ⟨rfl, hrest⟩
    | _ => exact absurd hkind (by simp [kindName])
  | tuple xs ih =>
    intro hv w hw r s _ _ h
    have hkind := kindName_eq h rfl
    cases w with
    | tuple ys =>
      rw [canonical_tuple, canonical_tuple] at h
      obtain ⟨_, hpiece⟩ := wrapped_append_inj h
      obtain ⟨hitems, hrest⟩ := items_append_inj ih hv hw hpiece
      rw [normal_tuple, normal_tuple, hitems]
      exact ⟨rfl, hrest⟩
    | _ => exact absurd hkind (by simp [kindName])
  | map xs ih =>
    intro hv w hw r s _ _ h
    have hkind := kindName_eq h rfl
    cases w with
    | map ys =>
      rw [canonical_sorted, canonical_sorted] at h
      obtain ⟨_, hpiece⟩ := wrapped_append_inj h
      simp only [List.cons_append, List.append_assoc, List.nil_append, List.cons.injEq,
        true_and] at hpiece
      have hsorted : ∀ e ∈ Table.sorted xs, Told e.2 :=
        fun e he => ih e ((Table.sorted_perm xs).mem_iff.mp he)
      obtain ⟨hentries, hrest⟩ := entries_append_inj hsorted (entriesHaveJson_sorted hv)
        (entriesHaveJson_sorted hw) hpiece
      rw [normal_map, normal_map, hentries]
      exact ⟨rfl, (List.cons.inj hrest).2⟩
    | _ => exact absurd hkind (by simp [kindName])

theorem normal_eq_of_canonical_eq {v w : Value} (hv : v.hasJson) (hw : w.hasJson)
    (h : canonical v = canonical w) : normal v = normal w :=
  (told v hv w hw [] [] ends_nil ends_nil (by rw [h])).1

end VisibilityRules.Value
