import VisibilityRules.Condition.Written
import VisibilityRules.Proofs.Document.Grammar
import VisibilityRules.Proofs.Json.RoundTrip
import VisibilityRules.Proofs.Value.Canonical
import VisibilityRules.Registry.Basic

/-!
# Reading back the trigger of a verdict

The text that a verdict reports as its trigger, put into a document as the conditions of an entry,
is read as the condition set that was triggered.
-/

namespace VisibilityRules

/-! ### Records of conditions -/

namespace Reading

theorem operator_symbol (op : Operator) : operator (.text op.symbol) = pure op := by
  rw [operator, Operator.read_symbol]
  rfl

private theorem term_recordOf {c : Clause} {v : Value} {ts : Option (List Term)}
    (h : groupTerms v = pure ts) :
    term (Term.recordOf c v) = pure (assembleTerm c.name c.value c.operator ts c.relation) := by
  simp only [Term.recordOf, term, termsField_eq, field, Table.get?, String.reduceEq, if_true,
    if_false, operator_symbol, h, text, Option.map_some, Relation.ofValue?_word]
  rfl

mutual
theorem term_toValue : (t : Term) → term t.toValue = pure t
  | .leaf c => term_recordOf (v := .null) rfl
  | .group c ts => by
    have hts : groupTerms (.list (Term.toValues ts)) = pure (some ts) := by
      rw [groupTerms, terms, termsFrom_toValues ts]
      · rfl
      · simp
    exact term_recordOf hts
theorem termsFrom_toValues : (ts : List Term) → (index : Nat) →
    termsFrom index (Term.toValues ts) = pure ts
  | [], _ => rfl
  | t :: rest, index => by
    rw [Term.toValues, termsFrom, term_toValue t, termsFrom_toValues rest]
    rfl
end

theorem conditionSet_toValue (set : ConditionSet) : conditionSet set.toValue = pure set := by
  simp only [ConditionSet.toValue, conditionSet, field, Table.get?, String.reduceEq, if_true,
    if_false, Option.map_some, Relation.ofValue_word, terms, termsFrom_toValues]
  rfl

theorem action_word (a : Action) : action (.text a.word) = pure a := by
  cases a <;> rfl

theorem entry_toValue (e : Entry) : entry e.toValue = pure e := by
  simp only [Entry.toValue, entry, required, field, Table.get?, String.reduceEq, if_true, if_false,
    conditionSet_toValue, action_word]
  rfl

/-- A document that gives one control one entry is read as one rule, without any notice. -/
theorem document_entry (control : String) (e : Entry) :
    document (.map [(control, e.toValue)]) = pure [⟨control, e.conditions, e.action⟩] := by
  have hone : oneOrMore e.toValue = pure [e] := by
    rw [oneOrMore, entry_toValue, Entry.toValue]
    rfl
  rw [document, documentRules, hone, documentRules]
  rfl

end Reading

/-! ### Conditions that JSON keeps -/

/-- Whether the values of a term are portable, those of its terms included. -/
inductive Term.IsPortable : Term → Prop
  | leaf {c : Clause} (value : c.value.IsPortable) : IsPortable (.leaf c)
  | group {c : Clause} {ts : List Term} (value : c.value.IsPortable)
      (members : ∀ t ∈ ts, IsPortable t) : IsPortable (.group c ts)

def ConditionSet.IsPortable (set : ConditionSet) : Prop := ∀ t ∈ set.terms, t.IsPortable

private theorem Term.toValues_eq (ts : List Term) : toValues ts = ts.map toValue := by
  induction ts with
  | nil => rfl
  | cons t rest ih => rw [toValues, ih, List.map_cons]

private theorem isPortable_recordOf {c : Clause} {v : Value} (hc : c.value.IsPortable)
    (hv : v.IsPortable) : (Term.recordOf c v).IsPortable := by
  have hrelation : (Value.ofText? (c.relation.map Relation.word)).IsPortable := by
    cases c.relation with
    | none => exact .null
    | some relation => exact .text _
  refine .map (by simp [Table.keys]) ?_
  simp [hc, hv, hrelation, Value.IsPortable.text]

theorem Term.IsPortable.toValue {t : Term} (h : t.IsPortable) : t.toValue.IsPortable := by
  induction h with
  | leaf value => exact isPortable_recordOf value .null
  | group value _ ih =>
    refine isPortable_recordOf value (.list ?_)
    rw [Term.toValues_eq]
    exact List.forall_mem_map.mpr ih

theorem ConditionSet.IsPortable.toValue {set : ConditionSet} (h : set.IsPortable) :
    set.toValue.IsPortable := by
  have hterms : (Value.list (Term.toValues set.terms)).IsPortable := by
    rw [Term.toValues_eq]
    exact .list (List.forall_mem_map.mpr fun t ht => (h t ht).toValue)
  refine .map (by simp [Table.keys]) ?_
  simp [hterms, Value.IsPortable.text]

theorem Value.IsPortable.hasJson {v : Value} (h : v.IsPortable) : v.hasJson := by
  induction h with
  | list _ ih => exact (allHaveJson_iff _).mpr ih
  | map _ _ ih => exact (entriesHaveJson_iff _).mpr ih
  | _ => rfl

/-! ### Documents with a trigger -/

/-- The document that gives a control one entry, where the conditions are given as JSON. Names are
quoted with the given choice of characters that stand for themselves. -/
def documentText (plain : Char → Bool) (control trigger : String) (action : Action) : String :=
  String.ofList (Json.objectText plain [' '] [(control,
    Json.objectText plain [' '] [("conditions", trigger.toList),
      ("action", Json.quoted plain action.word)])])

theorem Source.lineFeeds_of_no_return {cs : List Char} (h : '\r' ∉ cs) : lineFeeds cs = cs := by
  fun_induction lineFeeds cs with
  | case1 => rfl
  | case2 => simp at h
  | case3 => simp at h
  | case4 c rest _ _ ih => rw [ih (fun hmem => h (List.mem_cons_of_mem _ hmem))]

theorem Source.toValue_of_reads {text : List Char} {v : Value} (h : Json.Reads text v)
    (hline : '\r' ∉ text) (hmark : text.head? ≠ some '\uFEFF') :
    (file (some (String.ofList text))).toValue = .ok v := by
  simp only [toValue, String.toList_ofList, lineFeeds_of_no_return hline, h.read_eq hmark]
  rfl

/-- The text that a verdict reports for the conditions of a rule. -/
def ConditionSet.triggerText (set : ConditionSet) : String := String.ofList set.toValue.json

section Trigger

variable {plain : Char → Bool} {set : ConditionSet} (control : String) (action : Action)

private theorem isJsonBlank_gap : ∀ c ∈ [' '], Json.isJsonBlank c := by simp [Json.isJsonBlank]

private theorem reads_documentText (hplain : Json.IsSafe plain) (hset : set.IsPortable) :
    Json.Reads (documentText plain control set.triggerText action).toList
      (.map [(control, Entry.toValue ⟨set, action⟩)]) := by
  have hentry : Json.Reads (Json.objectText plain [' '] [("conditions", set.toValue.json),
      ("action", Json.quoted plain action.word)]) (Entry.toValue ⟨set, action⟩) := by
    refine Json.reads_objectText hplain isJsonBlank_gap (.cons ⟨rfl, ?_⟩ (.cons ⟨rfl, ?_⟩ .nil))
      (by simp [Table.keys])
    · exact Json.reads_json hset.toValue
    · exact Json.reads_quoted hplain action.word
  rw [documentText, String.toList_ofList, ConditionSet.triggerText, String.toList_ofList]
  exact Json.reads_objectText hplain isJsonBlank_gap (.cons ⟨rfl, hentry⟩ .nil)
    (List.nodup_singleton control)

private theorem return_not_mem_documentText (hset : set.IsPortable) :
    '\r' ∉ (documentText plain control set.triggerText action).toList := by
  have hentry : '\r' ∉ Json.objectText plain [' '] [("conditions", set.toValue.json),
      ("action", Json.quoted plain action.word)] := by
    refine Json.return_not_mem_objectText plain (by decide) ?_
    simp [Json.return_not_mem_json hset.toValue, Json.return_not_mem_quoted]
  rw [documentText, String.toList_ofList, ConditionSet.triggerText, String.toList_ofList]
  exact Json.return_not_mem_objectText plain (by decide) (by simpa using hentry)

theorem Source.rules_documentText (hplain : Json.IsSafe plain) (hset : set.IsPortable) :
    (file (some (documentText plain control set.triggerText action))).rules =
      pure [⟨control, set, action⟩] := by
  have hmark : (documentText plain control set.triggerText action).toList.head? ≠
      some '\uFEFF' := by
    rw [documentText, String.toList_ofList]
    simp [Json.objectText]
  have hvalue := toValue_of_reads (reads_documentText control action hplain hset)
    (return_not_mem_documentText control action hset) hmark
  rw [String.ofList_toList] at hvalue
  rw [rules, hvalue]
  change (Reading.document (.map [(control, Entry.toValue ⟨set, action⟩)])).mapError _ = _
  rw [Reading.document_entry]
  rfl

end Trigger

/-- A trigger tells the conditions it comes from. The verdict of a rule reports it; in a file that
gives any control one entry with these conditions it is read as them, without a notice; and no other
conditions with portable values have the same trigger. -/
theorem ConditionSet.triggerText_faithful (plain : Char → Bool) (hplain : Json.IsSafe plain)
    (control : String) (set : ConditionSet) (action : Action) (hset : set.IsPortable) :
    (Registry.triggered ⟨control, set, action⟩).outcome =
        .ok
          { visible := action = .show
            reason := some ("Condition \"" ++ action.word ++ "\" triggered")
            trigger := some set.triggerText } ∧
      (Source.file (some (documentText plain control set.triggerText action))).rules =
        ⟨[], .ok [⟨control, set, action⟩]⟩ ∧
      ∀ other : ConditionSet, other.IsPortable → other.triggerText = set.triggerText →
        other = set := by
  have hread := Source.rules_documentText control action hplain hset
  refine ⟨?_, hread, ?_⟩
  · rw [Registry.triggered, if_pos hset.toValue.hasJson]
    rfl
  · rintro other hother htext
    have hread' := Source.rules_documentText control action hplain hother
    rw [htext, hread, Run.pure_def, Run.pure_def, Run.mk.injEq, Except.ok.injEq, List.cons.injEq,
      Rule.mk.injEq] at hread'
    exact hread'.2.1.2.1.symm

/-- A disjunction with a text of awkward characters, an empty group and a term that has no value. -/
theorem ConditionSet.triggerText_faithful_awkward :
    let set : ConditionSet := ⟨.or, [.leaf { name := "mode", value := .text "a\"\\\r\n😀" },
      .group { value := .list [.int (-5), .bool true] } [], .leaf { operator := .isIn }]⟩
    (Json.IsSafe Value.isPlainInJson ∧ set.IsPortable) ∧
      (Registry.triggered ⟨"panel", set, .hide⟩).outcome =
          .ok
            { visible := false
              reason := some "Condition \"hide\" triggered"
              trigger := some set.triggerText } ∧
        (Source.file (some
            (documentText Value.isPlainInJson "panel" set.triggerText .hide))).rules =
          ⟨[], .ok [⟨"panel", set, .hide⟩]⟩ ∧
        ∀ other : ConditionSet, other.IsPortable → other.triggerText = set.triggerText →
          other = set := by
  intro set
  have hset : set.IsPortable := by
    have hgroup : (Value.list [.int (-5), .bool true]).IsPortable := by
      refine .list ?_
      simp [Value.IsPortable.bool, Value.IsPortable.int (n := -5) (by decide)]
    simp [IsPortable, set, Term.IsPortable.leaf, Term.IsPortable.group, hgroup,
      Value.IsPortable.text, Value.IsPortable.null]
  exact ⟨⟨Json.isSafe_isPlainInJson, hset⟩,
    triggerText_faithful _ Json.isSafe_isPlainInJson "panel" set .hide hset⟩

end VisibilityRules
