import VisibilityRules.Builder
import VisibilityRules.Proofs.Evaluation.ShortCircuit
import VisibilityRules.Proofs.TermName.Reading

/-!
# What a responsive condition reads

A responsive condition puts a suffix behind the name of a setting and asks for the value there or
under the plain name. Behind a plain name the suffix makes the name of another setting. Behind a
name with a part it comes after the closing bracket, where names are no longer read, so both leaves
of the condition ask for the same.
-/

namespace VisibilityRules

/-- The text of a name: its setting, and its part in square brackets. -/
def TermName.written : TermName → String
  | ⟨setting, none⟩ => setting
  | ⟨setting, some key⟩ => setting ++ "[" ++ key ++ "]"

/-- Whether a name leads to a value that is strictly equal to the given one. -/
def Settings.Meets (settings : Settings) (name : TermName) (v : Value) : Prop :=
  ∃ value, settings.lookup name = .ok value ∧ value ≠ .missing ∧ Value.strictEqual value v

theorem Settings.meets_iff_of_found {settings : Settings} {name : TermName} {value : Value}
    (h : settings.lookup name = .ok value) (v : Value) :
    settings.Meets name v ↔ (!value.isMissing && Value.strictEqual value v) = true := by
  simp [Meets, h, Value.isMissing_iff, ← Bool.not_eq_true]

/-! ### Names with a suffix -/

namespace TermName

theorem of_of_parse? {s : String} {name : TermName} (h : parse? s = some name) : of s = name := by
  rw [of, h]
  rfl

variable {setting suffix : String}

theorem IsRun.append (hsetting : IsRun setting.toList) (hsuffix : ∀ c ∈ suffix.toList, isNameChar c) :
    IsRun (setting ++ suffix).toList := by
  rw [String.toList_append]
  exact ⟨List.append_ne_nil_of_left_ne_nil hsetting.1 _,
    List.forall_mem_append.mpr ⟨hsetting.2, hsuffix⟩⟩

theorem of_bare_append (hsetting : IsRun setting.toList)
    (hsuffix : ∀ c ∈ suffix.toList, isNameChar c) :
    of (written ⟨setting, none⟩ ++ suffix) = ⟨setting ++ suffix, none⟩ :=
  of_of_parse? (parse?_bare (hsetting.append hsuffix))

theorem of_part_append {key : String} (hsetting : IsRun setting.toList) (hkey : IsRun key.toList)
    (suffix : String) : of (written ⟨setting, some key⟩ ++ suffix) = ⟨setting, some key⟩ :=
  of_of_parse? (parse?_with_part hsetting hkey suffix)

theorem of_written (hsetting : IsRun setting.toList) {part : Option String}
    (hpart : ∀ key ∈ part, IsRun key.toList) : of (written ⟨setting, part⟩) = ⟨setting, part⟩ := by
  cases part with
  | none => exact of_of_parse? (parse?_bare hsetting)
  | some key =>
    rw [← String.append_empty (s := written _)]
    exact of_part_append hsetting (hpart key rfl) ""

end TermName

/-! ### The condition -/

theorem Clause.holds_strictEqual {settings : Settings} {name : String} {value : Value}
    (h : settings.lookup (.of name) = .ok value) (v : Value) :
    let leaf : Clause := ⟨name, v, .strictEqual, none⟩
    leaf.result settings = .ok (leaf.holds settings) ∧
      (leaf.holds settings ↔ settings.Meets (.of name) v) := by
  intro leaf
  have hresult := Clause.result_of_found leaf h rfl
  have hholds := Clause.result_eq_holds ⟨_, hresult⟩
  rw [hresult, Except.ok.injEq] at hholds
  rw [hresult, ← hholds]
  exact ⟨rfl, (Settings.meets_iff_of_found h v).symm⟩

namespace ConditionSet

theorem responsive_text (base suffix : String) (v : Value) :
    responsive (.text base) (.text suffix) v =
      Run.pure ⟨.or, [.leaf ⟨base ++ suffix, v, .strictEqual, none⟩,
        .leaf ⟨base, v, .strictEqual, none⟩]⟩ := rfl

/-- Where both names can be looked up, the condition asks whether one of them leads to the value. -/
theorem check_responsive_iff (nesting : Nesting) {settings : Settings} {base suffix : String}
    {variant plain : Value} (hvariant : settings.lookup (.of (base ++ suffix)) = .ok variant)
    (hplain : settings.lookup (.of base) = .ok plain) (v : Value) : ∃ set holds,
      (responsive (.text base) (.text suffix) v).outcome = .ok set ∧
        (set.check nesting settings).outcome = .ok holds ∧
        (holds ↔ settings.Meets (.of (base ++ suffix)) v ∨ settings.Meets (.of base) v) := by
  obtain ⟨hfirst, hmeets⟩ := Clause.holds_strictEqual hvariant v
  obtain ⟨hsecond, hmeets'⟩ := Clause.holds_strictEqual hplain v
  have hcheck := outcome_check_leaves
    (List.forall_mem_cons.mpr ⟨hfirst, List.forall_mem_singleton.mpr hsecond⟩) nesting .or
  refine ⟨_, _, by rw [responsive_text]; rfl, hcheck, ?_⟩
  rw [← hmeets, ← hmeets']
  simp [Relation.combine]

/-- A responsive condition on a plain name holds if the setting with the suffix or the one without
it has the given value. On a name with a part it looks at the one without the suffix only, so it
parts from "with or without the suffix" exactly where the setting with the suffix alone has the
value. -/
theorem responsive_reads_variant_of_plain_name (nesting : Nesting) (settings : Settings)
    (setting suffix : String) (part : Option String) (v : Value)
    (hsetting : TermName.IsRun setting.toList) (hpart : ∀ key ∈ part, TermName.IsRun key.toList)
    (hsuffix : ∀ c ∈ suffix.toList, isNameChar c)
    (hfound : ∃ value, settings.lookup ⟨setting, part⟩ = .ok value) :
    let variant := settings.Meets ⟨setting ++ suffix, part⟩ v
    let plain := settings.Meets ⟨setting, part⟩ v
    ∃ set holds,
      (responsive (.text (TermName.written ⟨setting, part⟩)) (.text suffix) v).outcome = .ok set ∧
        (set.check nesting settings).outcome = .ok holds ∧
        (part = none → (holds ↔ variant ∨ plain)) ∧
        (part ≠ none → (holds ↔ plain)) ∧
        ((holds ↔ variant ∨ plain) ↔ part = none ∨ plain ∨ ¬variant) := by
  intro variant plain
  obtain ⟨value, hvalue⟩ := hfound
  have hbase := TermName.of_written hsetting hpart
  cases part with
  | none =>
    have hname := TermName.of_bare_append hsetting hsuffix
    have hvariant : ∃ value, settings.lookup ⟨setting ++ suffix, none⟩ = .ok value := ⟨_, rfl⟩
    obtain ⟨other, hother⟩ := hvariant
    obtain ⟨set, holds, hset, hcheck, hholds⟩ := check_responsive_iff nesting
      (by rw [hname]; exact hother) (by rw [hbase]; exact hvalue) v
    rw [hname, hbase] at hholds
    exact ⟨set, holds, hset, hcheck, fun _ => hholds, fun hne => absurd rfl hne,
      fun _ => .inl rfl, fun _ => hholds⟩
  | some key =>
    -- the suffix is behind the bracket, so both leaves have one name
    have hname := TermName.of_part_append hsetting (hpart key rfl) suffix
    obtain ⟨set, holds, hset, hcheck, hholds⟩ := check_responsive_iff nesting
      (by rw [hname]; exact hvalue) (by rw [hbase]; exact hvalue) v
    rw [hname, hbase, or_self] at hholds
    refine ⟨set, holds, hset, hcheck, nofun, fun _ => hholds, ?_⟩
    rw [hholds]
    change (plain ↔ variant ∨ plain) ↔ _
    tauto

theorem align_mobile_or_align :
    let settings : Settings := [("align_mobile", .text "left"), ("align", .text "right")]
    (TermName.IsRun "align".toList ∧ (∀ c ∈ "_mobile".toList, isNameChar c) ∧
        settings.lookup ⟨"align", none⟩ = .ok (.text "right")) ∧
      ∃ set holds, (responsive (.text "align") (.text "_mobile") (.text "left")).outcome = .ok set ∧
        (set.check .and settings).outcome = .ok holds ∧
        (holds ↔ settings.Meets ⟨"align_mobile", none⟩ (.text "left") ∨
          settings.Meets ⟨"align", none⟩ (.text "left")) := by
  intro settings
  have hrun : TermName.IsRun "align".toList := by decide +kernel
  have hsuffix : TermName.IsRun "_mobile".toList := by decide +kernel
  have hfound : settings.lookup ⟨"align", none⟩ = .ok (.text "right") := rfl
  obtain ⟨set, holds, hset, hcheck, hplain, -⟩ := responsive_reads_variant_of_plain_name .and
    settings "align" "_mobile" none (.text "left") hrun nofun hsuffix.2 ⟨_, hfound⟩
  exact ⟨⟨hrun, hsuffix.2, hfound⟩, set, holds, hset, hcheck, hplain rfl⟩

/-- The variant of a setting is not read where the name has a part. -/
theorem responsive_misses_variant_with_part :
    ¬∀ (nesting : Nesting) (settings : Settings) (setting suffix : String) (part : Option String)
        (v : Value), TermName.IsRun setting.toList → (∀ key ∈ part, TermName.IsRun key.toList) →
      suffix ≠ "" → (∀ c ∈ suffix.toList, Text.isWordChar c) →
      (∃ value, settings.lookup ⟨setting ++ suffix, part⟩ = .ok value) →
      (∃ value, settings.lookup ⟨setting, part⟩ = .ok value) →
      ∃ set holds,
        (responsive (.text (TermName.written ⟨setting, part⟩)) (.text suffix) v).outcome = .ok set ∧
          (set.check nesting settings).outcome = .ok holds ∧
          (holds ↔ settings.Meets ⟨setting ++ suffix, part⟩ v ∨
            settings.Meets ⟨setting, part⟩ v) := by
  intro h
  let settings : Settings := [("image_mobile", .map [("url", .text "x")])]
  have hsuffix : ∀ c ∈ "_mobile".toList, Text.isWordChar c :=
    List.all_eq_true.mp (by decide +kernel)
  obtain ⟨set, holds, hset, hcheck, hholds⟩ := h .and settings "image" "_mobile" (some "url")
    (.text "x") (by decide +kernel) (by decide +kernel) (by decide) hsuffix
    ⟨.text "x", rfl⟩ ⟨.missing, rfl⟩
  have hread : set = ⟨.or, [.leaf ⟨"image[url]_mobile", .text "x", .strictEqual, none⟩,
      .leaf ⟨"image[url]", .text "x", .strictEqual, none⟩]⟩ := (Except.ok.inj hset).symm
  have hfalse : (set.check .and settings).outcome.toOption = some false := by
    rw [hread]
    decide +kernel
  rw [hcheck] at hfalse
  have htrue : holds := hholds.mpr (.inl ⟨.text "x", rfl, nofun, rfl⟩)
  have hnot : holds = false := Option.some.inj hfalse
  exact Bool.false_ne_true (hnot ▸ htrue)

end ConditionSet

end VisibilityRules
