import Mathlib
import VisibilityRules.Number.Layout
import VisibilityRules.Number.Reading
import VisibilityRules.Proofs.Number.Spacing
import VisibilityRules.Proofs.Text.Numeral

/-!
# What written doubles stand for

The text of a positive double is a numeral whose value is that of the shortest decimal, wherever its
point stands. So two doubles that are written alike are the same, signs of zeros included.
-/

namespace VisibilityRules

open Text

namespace Layout

private def AllDigits (cs : List Char) : Prop := ∀ c ∈ cs, c.isDigit

private theorem AllDigits.append {cs ds : List Char} (hc : AllDigits cs) (hd : AllDigits ds) :
    AllDigits (cs ++ ds) := by
  intro c hmem
  rcases List.mem_append.mp hmem with h | h
  · exact hc c h
  · exact hd c h

private theorem AllDigits.take {cs : List Char} (h : AllDigits cs) (n : Nat) :
    AllDigits (cs.take n) := fun c hc => h c (List.mem_of_mem_take hc)

private theorem AllDigits.drop {cs : List Char} (h : AllDigits cs) (n : Nat) :
    AllDigits (cs.drop n) := fun c hc => h c (List.mem_of_mem_drop hc)

private theorem allDigits_zeros (count : Nat) : AllDigits (List.replicate count '0') := by
  intro c hc
  rw [List.eq_of_mem_replicate hc]
  decide

private theorem allDigits_natText (n : Nat) : AllDigits (natText n) := fun _ => natText_isDigit

private def exponentOf (cs : List Char) : Int := (Double.readExponent? cs).getD 0

/-- The decimal that an unsigned numeral stands for. -/
def numeral (cs : List Char) : Decimal :=
  match cs.dropWhile Char.isDigit with
  | '.' :: more =>
    ⟨natValue (cs.takeWhile Char.isDigit ++ more.takeWhile Char.isDigit),
      exponentOf (more.dropWhile Char.isDigit) - (more.takeWhile Char.isDigit).length⟩
  | rest => ⟨natValue (cs.takeWhile Char.isDigit), exponentOf rest⟩

private theorem numeral_with_point {whole part rest : List Char} (hw : AllDigits whole)
    (hp : AllDigits part) (hr : ∀ c ∈ rest.head?, ¬c.isDigit) :
    numeral (whole ++ '.' :: (part ++ rest)) =
      ⟨natValue (whole ++ part), exponentOf rest - part.length⟩ := by
  have hpoint : ∀ c ∈ ('.' :: (part ++ rest)).head?, ¬c.isDigit := by simp
  obtain ⟨hwhole, htail⟩ := span_digits hw hpoint
  obtain ⟨hpart, hrest⟩ := span_digits hp hr
  rw [numeral, hwhole, htail]
  simp only [hpart, hrest]

private theorem numeral_without_point {whole rest : List Char} (hw : AllDigits whole)
    (hr : ∀ c ∈ rest.head?, ¬c.isDigit ∧ c ≠ '.') :
    numeral (whole ++ rest) = ⟨natValue whole, exponentOf rest⟩ := by
  obtain ⟨hwhole, htail⟩ := span_digits hw fun c hc => (hr c hc).1
  rw [numeral, hwhole, htail]
  split
  · exact absurd rfl (hr '.' rfl).2
  · rfl

private theorem value_point {whole part : List Char} (hw : AllDigits whole)
    (hp : AllDigits part) :
    (numeral (whole ++ '.' :: part)).value =
      natValue (whole ++ part) * (10 : ℚ) ^ (-(part.length : Int)) := by
  have hnone : ∀ c ∈ ([] : List Char).head?, ¬c.isDigit := by simp
  have hnumeral := numeral_with_point hw hp hnone
  rw [List.append_nil] at hnumeral
  rw [hnumeral, Decimal.value]
  congr 2
  change (0 : Int) - _ = _
  omega

/-! ### Positional writing -/

private theorem value_positional {digits : List Char} (hd : AllDigits digits) (point : Int) :
    (numeral (positional digits point)).value =
      natValue digits * (10 : ℚ) ^ (point - digits.length) := by
  unfold positional
  split
  · next hpoint =>
    have hvalue := value_point (allDigits_zeros 1)
      ((allDigits_zeros (-point).toNat).append hd)
    rw [← List.append_assoc, ← List.replicate_add, natValue_zeros_append, List.length_append,
      List.length_replicate] at hvalue
    refine hvalue.trans ?_
    congr 2
    omega
  · split
    · next hpoint hlong =>
      obtain ⟨count, hcount⟩ : ∃ count : Nat, point = digits.length + count :=
        ⟨point.toNat - digits.length, by omega⟩
      have hzeros : point.toNat - digits.length = count := by omega
      have hvalue := value_point (hd.append (allDigits_zeros count)) (allDigits_zeros 1)
      rw [natValue_append_zeros, natValue_append_zeros] at hvalue
      rw [hzeros]
      refine hvalue.trans ?_
      rw [hcount, List.length_replicate, add_sub_cancel_left, zpow_natCast]
      push_cast
      field_simp
    · next hpoint hshort =>
      have hvalue := value_point (hd.take point.toNat) (hd.drop point.toNat)
      rw [List.take_append_drop, List.length_drop] at hvalue
      refine hvalue.trans ?_
      congr 2
      omega

/-! ### Exponents -/

private theorem splitSign_digits {digits : List Char} (hd : AllDigits digits) :
    Double.splitSign digits = (false, digits) := by
  cases digits with
  | nil => rfl
  | cons c rest =>
    have hc : c.isDigit := hd c List.mem_cons_self
    unfold Double.splitSign
    split
    · next h => exact absurd ((List.cons.inj h).1 ▸ hc) (by decide)
    · next h => exact absurd ((List.cons.inj h).1 ▸ hc) (by decide)
    · rfl

private def exponentDigits (layout : Layout) (exponent : Int) : List Char :=
  List.replicate (layout.exponentWidth - (natText exponent.natAbs).length) '0' ++
    natText exponent.natAbs

private theorem allDigits_exponentDigits (layout : Layout) (exponent : Int) :
    AllDigits (layout.exponentDigits exponent) :=
  (allDigits_zeros _).append (allDigits_natText _)

private def writtenExponent (layout : Layout) (exponent : Int) : List Char :=
  (if exponent < 0 then ['-'] else if layout.plusSign then ['+'] else []) ++
    layout.exponentDigits exponent

private theorem splitSign_writtenExponent (layout : Layout) (exponent : Int) :
    Double.splitSign (layout.writtenExponent exponent) =
      (decide (exponent < 0), layout.exponentDigits exponent) := by
  unfold writtenExponent
  by_cases hneg : exponent < 0
  · simp only [hneg, if_true, decide_true]
    rfl
  · simp only [hneg, if_false, decide_false]
    by_cases hplus : layout.plusSign
    · rw [if_pos hplus]
      rfl
    · rw [if_neg hplus, List.nil_append]
      exact splitSign_digits (allDigits_exponentDigits layout exponent)

private theorem exponentOf_written (layout : Layout) (exponent : Int) :
    exponentOf ('e' :: layout.writtenExponent exponent) = exponent := by
  have hall := List.all_eq_true.mpr (allDigits_exponentDigits layout exponent)
  have hne : layout.exponentDigits exponent ≠ [] :=
    List.append_ne_nil_of_right_ne_nil _ (natText_ne_nil _)
  have hvalue : natValue (layout.exponentDigits exponent) = exponent.natAbs := by
    rw [exponentDigits, natValue_zeros_append, natValue_natText]
  rw [exponentOf, Double.readExponent?, if_pos (.inl rfl), splitSign_writtenExponent]
  dsimp only
  rw [if_neg (by simp [hne, hall]), hvalue, Option.getD_some]
  split
  · next hneg =>
    have hlt : exponent < 0 := of_decide_eq_true hneg
    omega
  · next hneg =>
    have hge : ¬exponent < 0 := fun h => hneg (decide_eq_true h)
    omega

/-! ### Scientific writing -/

private theorem scientific_eq (layout : Layout) (digits : List Char) (exponent : Int) :
    layout.scientific digits exponent =
      digits.take 1 ++ ((if digits.length ≤ 1 then [] else '.' :: digits.drop 1) ++
        'e' :: layout.writtenExponent exponent) := by
  simp [scientific, writtenExponent, exponentDigits]

private theorem value_scientific (layout : Layout) {digits : List Char} (hd : AllDigits digits)
    (hne : digits ≠ []) (exponent : Int) :
    (numeral (layout.scientific digits exponent)).value =
      natValue digits * (10 : ℚ) ^ (exponent + 1 - digits.length) := by
  have hlen : 1 ≤ digits.length := List.length_pos_iff.mpr hne
  have hletter : ∀ c ∈ ('e' :: layout.writtenExponent exponent).head?, ¬c.isDigit ∧ c ≠ '.' := by
    simp
  rw [scientific_eq]
  split
  · next hshort =>
    rw [List.nil_append, numeral_without_point (hd.take 1) hletter, exponentOf_written,
      List.take_of_length_le hshort, Decimal.value]
    congr 2
    dsimp only
    omega
  · rw [List.cons_append, numeral_with_point (hd.take 1) (hd.drop 1) fun c hc => (hletter c hc).1,
      exponentOf_written, List.take_append_drop, Decimal.value, List.length_drop]
    congr 2
    dsimp only
    omega

/-! ### Significant digits -/

private theorem strip_zeros (cs : List Char) :
    ∃ count, cs = (cs.reverse.dropWhile (· = '0')).reverse ++ List.replicate count '0' := by
  have hsplit := List.takeWhile_append_dropWhile (p := (· = '0')) (l := cs.reverse)
  have hzeros : cs.reverse.takeWhile (· = '0') =
      List.replicate (cs.reverse.takeWhile (· = '0')).length '0' :=
    List.eq_replicate_iff.mpr ⟨rfl, fun c hc => by simpa using List.mem_takeWhile_imp hc⟩
  refine ⟨(cs.reverse.takeWhile (· = '0')).length, ?_⟩
  have hrev := congrArg List.reverse hsplit
  rw [List.reverse_reverse, List.reverse_append, hzeros, List.reverse_replicate] at hrev
  exact hrev.symm

private theorem significant_spec {d : Decimal} (h : 0 < d.value) :
    AllDigits (significant d).1 ∧ (significant d).1 ≠ [] ∧
      natValue (significant d).1 * (10 : ℚ) ^ ((significant d).2 - (significant d).1.length) =
        d.value := by
  obtain ⟨count, hcount⟩ := strip_zeros (natText d.digits)
  have hsig : (significant d).1 = ((natText d.digits).reverse.dropWhile (· = '0')).reverse := rfl
  have hpoint : (significant d).2 = (natText d.digits).length + d.exponent := rfl
  rw [← hsig] at hcount
  have hlength := congrArg List.length hcount
  rw [List.length_append, List.length_replicate] at hlength
  have hdigits : d.digits = 10 ^ count * natValue (significant d).1 := by
    rw [← natValue_append_zeros, ← hcount, natValue_natText]
  refine ⟨?_, ?_, ?_⟩
  · intro c hc
    apply allDigits_natText d.digits
    rw [hcount]
    exact List.mem_append_left _ hc
  · intro hnil
    rw [hnil] at hdigits
    rw [Decimal.value, hdigits] at h
    simp [natValue] at h
  · have hexp : (significant d).2 - (significant d).1.length = count + d.exponent := by
      rw [hpoint, hlength]
      push_cast
      ring
    rw [hexp, zpow_add₀ (by norm_num), zpow_natCast, Decimal.value, hdigits]
    push_cast
    ring

/-! ### Written doubles -/

/-- The text of a finite double without its sign. -/
def magnitude (layout : Layout) (rank : Nat) : List Char :=
  if rank = 0 then ['0', '.', '0']
  else
    let (digits, point) := significant (Decimal.shortest rank)
    if layout.positionalFrom ≤ point - 1 ∧ point - 1 < 16 then positional digits point
    else layout.scientific digits (point - 1)

private theorem shortest_value_pos {rank : Nat} (h : rank ≠ 0) : 0 < (Decimal.shortest rank).value :=
  Decimal.value_pos_of_readsBack (Nat.pos_of_ne_zero h)
    (Decimal.shortest_readsBack (Nat.pos_of_ne_zero h))

/-- The text of a positive double stands for its shortest decimal. -/
theorem value_magnitude (layout : Layout) {rank : Nat} (h : rank ≠ 0) :
    (numeral (layout.magnitude rank)).value = (Decimal.shortest rank).value := by
  obtain ⟨hdigits, hne, hvalue⟩ := significant_spec (shortest_value_pos h)
  rw [magnitude, if_neg h]
  dsimp only
  split
  · rw [value_positional hdigits, hvalue]
  · rw [value_scientific layout hdigits hne, sub_add_cancel, hvalue]

private theorem value_magnitude_zero (layout : Layout) :
    (numeral (layout.magnitude 0)).value = 0 := by
  have hzero : layout.magnitude 0 = List.replicate 1 '0' ++ '.' :: List.replicate 1 '0' := rfl
  have hvalue : natValue (List.replicate 1 '0' ++ List.replicate 1 '0') = 0 := by decide
  rw [hzero, value_point (allDigits_zeros 1) (allDigits_zeros 1), hvalue, Nat.cast_zero, zero_mul]

theorem magnitude_injective (layout : Layout) : Function.Injective layout.magnitude := by
  have hpos {rank : Nat} (h : rank ≠ 0) : 0 < (numeral (layout.magnitude rank)).value := by
    rw [value_magnitude layout h]
    exact shortest_value_pos h
  intro rank other h
  by_cases hrank : rank = 0
  · by_contra hne
    have hother := hpos fun hzero => hne (hrank.trans hzero.symm)
    rw [← h, hrank, value_magnitude_zero] at hother
    exact lt_irrefl _ hother
  · have hother : other ≠ 0 := by
      intro hzero
      have hrankpos := hpos hrank
      rw [h, hzero, value_magnitude_zero] at hrankpos
      exact lt_irrefl _ hrankpos
    have hvalue : (Decimal.shortest rank).value = (Decimal.shortest other).value := by
      rw [← value_magnitude layout hrank, ← value_magnitude layout hother, h]
    exact Decimal.readsBack_unique hvalue
      (Decimal.shortest_readsBack (Nat.pos_of_ne_zero hrank))
      (Decimal.shortest_readsBack (Nat.pos_of_ne_zero hother))

/-! ### Characters of written doubles -/

private theorem AllDigits.isBareChar {cs : List Char} (h : AllDigits cs) :
    ∀ c ∈ cs, IsBareChar c := fun c hc => .of_isDigit (h c hc)

/-- Whether a text is a run of digits with a point or the letter of an exponent behind it. -/
private def IsSplit (cs : List Char) : Prop :=
  ∃ whole mark tail, cs = whole ++ mark :: tail ∧ AllDigits whole ∧ whole ≠ [] ∧
    (mark = '.' ∨ mark = 'e') ∧ ∀ c ∈ tail, IsBareChar c

private theorem isSplit_positional {digits : List Char} (hd : AllDigits digits)
    (hne : digits ≠ []) (point : Int) : IsSplit (positional digits point) := by
  unfold positional
  split
  · exact ⟨['0'], '.', _, rfl, allDigits_zeros 1, List.cons_ne_nil _ _, .inl rfl,
      ((allDigits_zeros _).append hd).isBareChar⟩
  · split
    · exact ⟨digits ++ List.replicate _ '0', '.', ['0'], rfl, hd.append (allDigits_zeros _),
        List.append_ne_nil_of_left_ne_nil hne _, .inl rfl, (allDigits_zeros 1).isBareChar⟩
    · next hpoint hshort =>
      have htake : digits.take point.toNat ≠ [] := by
        rw [Ne, List.take_eq_nil_iff]
        rintro (hzero | hnil)
        · omega
        · exact hne hnil
      exact ⟨digits.take point.toNat, '.', digits.drop point.toNat, rfl,
        hd.take _, htake, .inl rfl, (hd.drop _).isBareChar⟩

private theorem writtenExponent_chars (layout : Layout) (exponent : Int) :
    ∀ c ∈ layout.writtenExponent exponent, IsBareChar c := by
  intro c hc
  rcases List.mem_append.mp hc with hsign | hdigit
  · right; right
    split at hsign
    · exact .inl (List.mem_singleton.mp hsign)
    · split at hsign
      · exact .inr (List.mem_singleton.mp hsign)
      · exact absurd hsign List.not_mem_nil
  · exact (allDigits_exponentDigits layout exponent).isBareChar c hdigit

private theorem isSplit_scientific (layout : Layout) {digits : List Char} (hd : AllDigits digits)
    (hne : digits ≠ []) (exponent : Int) : IsSplit (layout.scientific digits exponent) := by
  have htake : digits.take 1 ≠ [] := by simp [hne]
  have hexponent := writtenExponent_chars layout exponent
  rw [scientific_eq]
  split
  · exact ⟨digits.take 1, 'e', _, rfl, hd.take 1, htake, .inr rfl, hexponent⟩
  · refine ⟨digits.take 1, '.', digits.drop 1 ++ 'e' :: layout.writtenExponent exponent, rfl,
      hd.take 1, htake, .inl rfl, ?_⟩
    intro c hc
    rcases List.mem_append.mp hc with hdrop | hmem
    · exact (hd.drop 1).isBareChar c hdrop
    · rcases List.mem_cons.mp hmem with rfl | hrest
      · exact .inl (by decide)
      · exact hexponent c hrest

private theorem isSplit_magnitude (layout : Layout) (rank : Nat) :
    IsSplit (layout.magnitude rank) := by
  unfold magnitude
  split
  · exact ⟨['0'], '.', ['0'], rfl, allDigits_zeros 1, List.cons_ne_nil _ _, .inl rfl,
      (allDigits_zeros 1).isBareChar⟩
  · next hrank =>
    obtain ⟨hdigits, hne, _⟩ := significant_spec (shortest_value_pos hrank)
    dsimp only
    split
    · exact isSplit_positional hdigits hne _
    · exact isSplit_scientific layout hdigits hne _

private theorem magnitude_head (layout : Layout) (rank : Nat) :
    ∃ c rest, layout.magnitude rank = c :: rest ∧ c.isDigit := by
  obtain ⟨whole, mark, tail, heq, hdigits, hne, _⟩ := isSplit_magnitude layout rank
  obtain ⟨c, rest, hcons⟩ := List.exists_cons_of_ne_nil hne
  refine ⟨c, rest ++ mark :: tail, ?_, hdigits c (hcons ▸ List.mem_cons_self)⟩
  rw [heq, hcons, List.cons_append]

private theorem magnitude_mark (layout : Layout) (rank : Nat) :
    '.' ∈ layout.magnitude rank ∨ 'e' ∈ layout.magnitude rank := by
  obtain ⟨whole, mark, tail, heq, _, _, hmark, _⟩ := isSplit_magnitude layout rank
  have hmem : mark ∈ layout.magnitude rank := by
    rw [heq]
    exact List.mem_append_right _ List.mem_cons_self
  rcases hmark with rfl | rfl
  · exact .inl hmem
  · exact .inr hmem

private theorem magnitude_chars (layout : Layout) (rank : Nat) :
    ∀ c ∈ layout.magnitude rank, IsBareChar c := by
  obtain ⟨whole, mark, tail, heq, hdigits, _, hmark, htail⟩ := isSplit_magnitude layout rank
  intro c hc
  rw [heq] at hc
  rcases List.mem_append.mp hc with hwhole | hmem
  · exact .of_isDigit (hdigits c hwhole)
  · rcases List.mem_cons.mp hmem with rfl | hrest
    · rcases hmark with rfl | rfl
      · exact .inr (.inl rfl)
      · exact .inl (by decide)
    · exact htail c hrest

private def isNegative : Double → Bool
  | .nan => false
  | .infinity negative => negative
  | .finite negative _ => negative

private def unsigned (layout : Layout) : Double → List Char
  | .nan => "NaN".toList
  | .infinity _ => "Infinity".toList
  | .finite _ rank => layout.magnitude rank

private theorem write_eq (layout : Layout) (x : Double) :
    layout.write "NaN" "Infinity" x =
      (if isNegative x then ['-'] else []) ++ layout.unsigned x := by
  cases x <;> rfl

private theorem unsigned_head (layout : Layout) (x : Double) :
    ∃ c rest, layout.unsigned x = c :: rest ∧ c ≠ '-' := by
  cases x with
  | nan => exact ⟨'N', ['a', 'N'], rfl, by decide⟩
  | infinity negative => exact ⟨'I', "nfinity".toList, rfl, by decide⟩
  | finite negative rank =>
    obtain ⟨c, rest, heq, hc⟩ := magnitude_head layout rank
    refine ⟨c, rest, heq, ?_⟩
    rintro rfl
    exact absurd hc (by decide)

private theorem sign_append_inj {layout : Layout} {x y : Double}
    (h : (if isNegative x then ['-'] else []) ++ layout.unsigned x =
      (if isNegative y then ['-'] else []) ++ layout.unsigned y) :
    isNegative x = isNegative y ∧ layout.unsigned x = layout.unsigned y := by
  obtain ⟨c, rest, hx, hc⟩ := unsigned_head layout x
  obtain ⟨d, more, hy, hd⟩ := unsigned_head layout y
  cases hsx : isNegative x <;> cases hsy : isNegative y
  · simpa [hsx, hsy] using h
  · rw [hsx, hsy, hx] at h
    exact absurd (List.cons.inj h).1 hc
  · rw [hsx, hsy, hy] at h
    exact absurd (List.cons.inj h).1.symm hd
  · simpa [hsx, hsy] using h

private theorem magnitude_ne_cons (layout : Layout) (rank : Nat) {c : Char} (rest : List Char)
    (h : ¬c.isDigit) : layout.magnitude rank ≠ c :: rest := by
  obtain ⟨d, more, heq, hd⟩ := magnitude_head layout rank
  rw [heq]
  intro hcons
  exact h ((List.cons.inj hcons).1 ▸ hd)

theorem write_injective (layout : Layout) :
    Function.Injective (layout.write "NaN" "Infinity") := by
  intro x y h
  rw [write_eq, write_eq] at h
  obtain ⟨hsign, htext⟩ := sign_append_inj h
  have hword : "NaN".toList ≠ "Infinity".toList := by decide
  have hnan (rank : Nat) : layout.magnitude rank ≠ "NaN".toList :=
    magnitude_ne_cons layout rank ['a', 'N'] (by decide)
  have hinfinity (rank : Nat) : layout.magnitude rank ≠ "Infinity".toList :=
    magnitude_ne_cons layout rank "nfinity".toList (by decide)
  cases x with
  | nan =>
    cases y with
    | nan => rfl
    | infinity => exact absurd htext hword
    | finite _ rank => exact absurd htext.symm (hnan rank)
  | infinity negative =>
    cases y with
    | nan => exact absurd htext.symm hword
    | infinity other => rw [show negative = other from hsign]
    | finite _ rank => exact absurd htext.symm (hinfinity rank)
  | finite negative rank =>
    cases y with
    | nan => exact absurd htext (hnan rank)
    | infinity => exact absurd htext (hinfinity rank)
    | finite other place =>
      have hrank : rank = place := Fin.ext (magnitude_injective layout htext)
      rw [show negative = other from hsign, hrank]

theorem write_chars (layout : Layout) (x : Double) :
    ∀ c ∈ layout.write "NaN" "Infinity" x, IsBareChar c := by
  have hunsigned : ∀ c ∈ layout.unsigned x, IsBareChar c := by
    cases x with
    | nan => exact isBareChar_of_all "NaN".toList (by decide)
    | infinity => exact isBareChar_of_all "Infinity".toList (by decide)
    | finite _ rank => exact magnitude_chars layout rank
  intro c hc
  rw [write_eq] at hc
  rcases List.mem_append.mp hc with hsign | hmem
  · split at hsign
    · exact .inr (.inr (.inl (List.mem_singleton.mp hsign)))
    · exact absurd hsign List.not_mem_nil
  · exact hunsigned c hmem

theorem write_head (layout : Layout) (x : Double) :
    ∃ c rest, layout.write "NaN" "Infinity" x = c :: rest ∧ ¬c.isLower := by
  have hunsigned : ∃ c rest, layout.unsigned x = c :: rest ∧ ¬c.isLower := by
    cases x with
    | nan => exact ⟨'N', ['a', 'N'], rfl, by decide⟩
    | infinity => exact ⟨'I', "nfinity".toList, rfl, by decide⟩
    | finite _ rank =>
      obtain ⟨c, rest, heq, hc⟩ := magnitude_head layout rank
      exact ⟨c, rest, heq, not_isLower_of_isDigit hc⟩
  obtain ⟨c, rest, heq, hc⟩ := hunsigned
  rw [write_eq]
  split
  · exact ⟨'-', layout.unsigned x, rfl, by decide⟩
  · exact ⟨c, rest, heq, hc⟩

theorem exists_nonInteger_char (layout : Layout) (x : Double) :
    ∃ c ∈ layout.write "NaN" "Infinity" x, ¬(c.isDigit ∨ c = '-') := by
  have hunsigned : ∃ c ∈ layout.unsigned x, ¬(c.isDigit ∨ c = '-') := by
    cases x with
    | nan => exact ⟨'N', List.mem_cons_self, by decide⟩
    | infinity negative => exact ⟨'I', List.mem_cons_self, by decide⟩
    | finite negative rank =>
      rcases magnitude_mark layout rank with hpoint | hletter
      · exact ⟨'.', hpoint, by decide⟩
      · exact ⟨'e', hletter, by decide⟩
  obtain ⟨c, hmem, hc⟩ := hunsigned
  rw [write_eq]
  exact ⟨c, List.mem_append_right _ hmem, hc⟩

end Layout

end VisibilityRules
