import Mathlib.Data.List.Forall2
import VisibilityRules.Proofs.Schema.Reading
import VisibilityRules.Proofs.Value.Digits

/-!
# The grammar of documents

Which values are documents of conditions, said by what stands in their fields, and which rules a
document denotes. The main statement is that reading takes exactly the documents, as far as they are
within the digit limit, and gives exactly the rules that they denote.
-/

namespace VisibilityRules

/-! ### Documents -/

namespace Value

/-- Whether a value is a list or a tuple of the given items. -/
def IsSequence (v : Value) (items : List Value) : Prop := v = .list items ∨ v = .tuple items

/-- A term is a mapping whose name, if there is one, is a text. Without terms, or with null for
them, it is a leaf; otherwise its terms are a sequence of terms. All other fields are free. -/
inductive IsTerm : Value → Prop
  | leaf {entries : Table Value}
      (name : ∀ v, Table.get? entries "name" = some v → ∃ s, v = .text s)
      (terms : Table.get? entries "terms" = none ∨ Table.get? entries "terms" = some .null) :
      IsTerm (.map entries)
  | group {entries : Table Value} {v : Value} {items : List Value}
      (name : ∀ v, Table.get? entries "name" = some v → ∃ s, v = .text s)
      (terms : Table.get? entries "terms" = some v) (sequence : v.IsSequence items)
      (members : ∀ item ∈ items, IsTerm item) : IsTerm (.map entries)

/-- A set is a mapping whose terms, if they are there, are a sequence of terms. -/
def IsConditionSet (v : Value) : Prop :=
  ∃ entries, v = .map entries ∧ ∀ w, Table.get? entries "terms" = some w →
    ∃ items, w.IsSequence items ∧ ∀ item ∈ items, item.IsTerm

/-- An entry is a mapping with a set for its conditions and the word of an action. -/
def IsEntry (v : Value) : Prop :=
  ∃ entries, v = .map entries ∧
    (∃ w, Table.get? entries "conditions" = some w ∧ w.IsConditionSet) ∧
    (Table.get? entries "action" = some (.text "show") ∨
      Table.get? entries "action" = some (.text "hide"))

/-- A document is a mapping of controls to entries and to sequences of entries. -/
def IsDocument (v : Value) : Prop :=
  ∃ sections, v = .map sections ∧ ∀ s ∈ sections,
    s.2.IsEntry ∨ ∃ items, s.2.IsSequence items ∧ ∀ item ∈ items, item.IsEntry

end Value

/-! ### What documents denote -/

/-- The operator that a field denotes: the one whose symbol it holds, else strict equality. A value
beyond the digit limit denotes none. -/
def Operator.DenotedBy (op : Operator) (field : Option Value) : Prop :=
  field = some (.text op.symbol) ∨
    op = .strictEqual ∧ (∀ other : Operator, field ≠ some (.text other.symbol)) ∧
      ∀ v ∈ field, v.withinDigitLimit

/-- The relation that a field denotes: disjunction for its word alone. -/
def Relation.DenotedBy (relation : Relation) (field : Option Value) : Prop :=
  relation = .or ↔ field = some (.text "or")

/-- The fields of a term: a name that is absent is empty, a value that is absent is null, and a
relation that is absent or null is none. -/
structure Clause.DenotedBy (c : Clause) (entries : Table Value) : Prop where
  name : Table.get? entries "name" = some (.text c.name) ∨
    Table.get? entries "name" = none ∧ c.name = ""
  value : c.value = (Table.get? entries "value").getD .null
  operator : c.operator.DenotedBy (Table.get? entries "operator")
  noRelation : c.relation = none ↔
    Table.get? entries "relation" = none ∨ Table.get? entries "relation" = some .null
  relation : ∀ relation ∈ c.relation, relation.DenotedBy (Table.get? entries "relation")

/-- The term that a value denotes; terms that are absent or null make a leaf of it. -/
inductive Term.DenotedBy : Term → Value → Prop
  | leaf {c : Clause} {entries : Table Value} (clause : c.DenotedBy entries)
      (terms : Table.get? entries "terms" = none ∨ Table.get? entries "terms" = some .null) :
      DenotedBy (.leaf c) (.map entries)
  | group {c : Clause} {ts : List Term} {entries : Table Value} {v : Value} {items : List Value}
      (clause : c.DenotedBy entries) (terms : Table.get? entries "terms" = some v)
      (sequence : v.IsSequence items) (members : List.Forall₂ DenotedBy ts items) :
      DenotedBy (.group c ts) (.map entries)

/-- The set that a value denotes; it is empty where the terms are absent. -/
def ConditionSet.DenotedBy (set : ConditionSet) (v : Value) : Prop :=
  ∃ entries, v = .map entries ∧ set.relation.DenotedBy (Table.get? entries "relation") ∧
    (Table.get? entries "terms" = none ∧ set.terms = [] ∨
      ∃ w items, Table.get? entries "terms" = some w ∧ w.IsSequence items ∧
        List.Forall₂ Term.DenotedBy set.terms items)

def Entry.DenotedBy (e : Entry) (v : Value) : Prop :=
  ∃ entries w, v = .map entries ∧ Table.get? entries "conditions" = some w ∧
    e.conditions.DenotedBy w ∧ Table.get? entries "action" = some (.text e.action.word)

/-- The entries for one control: those of a sequence in order, or a single one. -/
def Entry.AllDenotedBy (es : List Entry) (v : Value) : Prop :=
  (∃ items, v.IsSequence items ∧ List.Forall₂ Entry.DenotedBy es items) ∨
    ∃ e, es = [e] ∧ e.DenotedBy v

/-- The rules of the sections of a document: one for each entry, in order, named by its control. -/
inductive Rule.AllDenotedBy : List Rule → Table Value → Prop
  | nil : AllDenotedBy [] []
  | cons {control : String} {v : Value} {es : List Entry} {rules : List Rule}
      {rest : Table Value} (entries : Entry.AllDenotedBy es v) (others : AllDenotedBy rules rest) :
      AllDenotedBy (es.map (fun e => ⟨control, e.conditions, e.action⟩) ++ rules)
        ((control, v) :: rest)

/-! ### Reading gives what is denoted -/

theorem Operator.ofSymbol?_symbol (op : Operator) : ofSymbol? op.symbol = some op := by
  cases op <;> decide

theorem Operator.symbol_of_ofSymbol? {s : String} {op : Operator} (h : ofSymbol? s = some op) :
    op.symbol = s := by
  have hfound := List.find?_some h
  simpa using hfound

theorem Operator.symbol_injective {op other : Operator} (h : op.symbol = other.symbol) :
    op = other := by
  have hsome : some op = some other := by rw [← ofSymbol?_symbol op, h, ofSymbol?_symbol]
  exact Option.some.inj hsome

theorem Operator.DenotedBy.unique {op other : Operator} {field : Option Value}
    (h : op.DenotedBy field) (h' : other.DenotedBy field) : op = other := by
  rcases h with hsymbol | ⟨rfl, hnone, _⟩
  · rcases h' with hsymbol' | ⟨_, hnone', _⟩
    · rw [hsymbol] at hsymbol'
      exact symbol_injective (Value.text.inj (Option.some.inj hsymbol'))
    · exact absurd hsymbol (hnone' op)
  · rcases h' with hsymbol' | ⟨rfl, _⟩
    · exact absurd hsymbol' (hnone other)
    · rfl

theorem Operator.exists_denotedBy {field : Option Value} (h : ∀ v ∈ field, v.withinDigitLimit) :
    ∃ op : Operator, op.DenotedBy field := by
  by_cases hsymbol : ∃ op : Operator, field = some (.text op.symbol)
  · obtain ⟨op, hop⟩ := hsymbol
    exact ⟨op, .inl hop⟩
  · exact ⟨.strictEqual, .inr ⟨rfl, fun other hother => hsymbol ⟨other, hother⟩, h⟩⟩

theorem Operator.read_symbol (op : Operator) : read (.text op.symbol) = Run.pure op := by
  rw [read, ofSymbol?_symbol]
  rfl

/-- A value that is no symbol is read as strict equality, if the notice can show it. -/
theorem Operator.outcome_read_of_no_symbol {v : Value} (h : ∀ op : Operator, v ≠ .text op.symbol) :
    (read v).outcome = if v.withinDigitLimit then .ok strictEqual else .error .longInteger := by
  have hunknown : (unknown v).outcome =
      if v.withinDigitLimit then .ok strictEqual else .error .longInteger := by
    unfold unknown
    split <;> rfl
  cases v with
  | null => rfl
  | text s =>
    cases hs : ofSymbol? s with
    | some op => exact absurd (by rw [symbol_of_ofSymbol? hs]) (h op)
    | none =>
      rw [read, hs]
      exact hunknown
  | _ => exact hunknown

theorem Operator.read_eq_ok_iff {v : Value} {op : Operator} :
    (read v).outcome = .ok op ↔ op.DenotedBy (some v) := by
  by_cases hsymbol : ∃ other : Operator, v = .text other.symbol
  · obtain ⟨other, rfl⟩ := hsymbol
    rw [read_symbol, Run.pure, Except.ok.injEq]
    exact ⟨fun heq => .inl (by rw [heq]), (DenotedBy.unique (.inl rfl) ·)⟩
  · push Not at hsymbol
    rw [outcome_read_of_no_symbol hsymbol]
    cases hv : v.withinDigitLimit <;> simp [DenotedBy, hsymbol, hv, @eq_comm _ op]

theorem Operator.read_eq_error_iff {v : Value} {f : Fault} :
    (read v).outcome = .error f ↔ f = .longInteger ∧ v.withinDigitLimit = false := by
  by_cases hsymbol : ∃ op : Operator, v = .text op.symbol
  · obtain ⟨op, rfl⟩ := hsymbol
    simp [read_symbol, Run.pure, Value.withinDigitLimit]
  · push Not at hsymbol
    rw [outcome_read_of_no_symbol hsymbol]
    cases v.withinDigitLimit <;> simp [eq_comm]

namespace Reading

theorem operator_eq_ok_iff {v : Value} {op : Operator} :
    (operator v).outcome = .ok op ↔ op.DenotedBy (some v) := by
  rw [← Operator.read_eq_ok_iff, operator, Run.outcome_mapError]
  cases (Operator.read v).outcome <;> simp [Except.mapError]

theorem operatorField_eq_ok_iff {entries : Table Value} {op : Operator} :
    (field entries "operator" operator (pure .strictEqual)).outcome = .ok op ↔
      op.DenotedBy (Table.get? entries "operator") := by
  simp only [field_eq_ok_iff, operator_eq_ok_iff, pure_eq_ok_iff]
  cases Table.get? entries "operator" <;> simp [Operator.DenotedBy, @eq_comm _ op]

theorem relation_eq_iff {field : Option Value} {relation : Relation} :
    (field.map Relation.ofValue).getD .and = relation ↔ relation.DenotedBy field := by
  unfold Relation.DenotedBy
  cases field with
  | none => cases relation <;> simp
  | some v =>
    cases v with
    | text s => by_cases hs : s = "or" <;> cases relation <;> simp [Relation.ofValue, hs]
    | _ => cases relation <;> simp [Relation.ofValue]

theorem ownRelation_eq_iff {field : Option Value} {own : Option Relation} :
    (field.map Relation.ofValue?).getD none = own ↔
      (own = none ↔ field = none ∨ field = some .null) ∧
        ∀ relation ∈ own, relation.DenotedBy field := by
  by_cases hnone : field = none ∨ field = some .null
  · have hread : (field.map Relation.ofValue?).getD none = none := by
      rcases hnone with rfl | rfl <;> rfl
    rw [hread]
    cases own <;> simp [hnone]
  · have hread : (field.map Relation.ofValue?).getD none =
        some ((field.map Relation.ofValue).getD .and) := by
      cases field with
      | none => simp at hnone
      | some v => cases v <;> first | rfl | simp at hnone
    rw [hread]
    cases own with
    | none => simp [hnone]
    | some relation => simp [hnone, relation_eq_iff]

theorem name_eq_ok_iff {entries : Table Value} {name : String} :
    (field entries "name" text (pure "")).outcome = .ok name ↔
      Table.get? entries "name" = some (.text name) ∨
        Table.get? entries "name" = none ∧ name = "" := by
  simp only [field_eq_ok_iff, text_eq_ok_iff, pure_eq_ok_iff, exists_eq_right, eq_comm (b := name)]

/-- A term is put together from its clause and from what its terms field holds. -/
theorem term_eq_ok_iff {v : Value} {t : Term} :
    (term v).outcome = .ok t ↔
      ∃ (entries : Table Value) (c : Clause) (ts : Option (List Term)), v = .map entries ∧
        c.DenotedBy entries ∧ (termsField entries).outcome = .ok ts ∧
        assembleTerm c.name c.value c.operator ts c.relation = t := by
  cases v with
  | map entries =>
    simp only [term, apply_eq_ok_iff, map_eq_ok_iff, pure_eq_ok_iff, name_eq_ok_iff,
      operatorField_eq_ok_iff]
    constructor
    · rintro ⟨_, own, ⟨_, ts, ⟨_, op, ⟨_, value, ⟨name, hname, rfl⟩, hvalue, rfl⟩, hop, rfl⟩, hts, rfl⟩,
        hown, rfl⟩
      obtain ⟨hnone, hown⟩ := ownRelation_eq_iff.mp hown
      exact ⟨entries, ⟨name, value, op, own⟩, ts, rfl, ⟨hname, hvalue.symm, hop, hnone, hown⟩, hts,
        rfl⟩
    · rintro ⟨_, c, ts, hentries, hc, hts, rfl⟩
      cases hentries
      exact ⟨_, c.relation, ⟨_, ts, ⟨_, c.operator, ⟨_, c.value, ⟨c.name, hc.name, rfl⟩, hc.value.symm,
        rfl⟩, hc.operator, rfl⟩, hts, rfl⟩, ownRelation_eq_iff.mpr ⟨hc.noRelation, hc.relation⟩, rfl⟩
  | _ => simp [term, issue_ne_ok]

def groupTerms : Value → Reading (Option (List Term))
  | .null => pure none
  | v => some <$> terms v

theorem termsField_eq (entries : Table Value) :
    termsField entries = field entries "terms" groupTerms (pure none) := by
  induction entries with
  | nil => rfl
  | cons e rest ih =>
    obtain ⟨name, v⟩ := e
    rw [field, Table.get?]
    by_cases h : name = "terms"
    · cases v <;> simp only [termsField, if_pos h] <;> rfl
    · cases v <;> simp only [termsField, if_neg h] <;> exact ih

theorem terms_eq_ok_iff {v : Value} {ts : List Term} :
    (terms v).outcome = .ok ts ↔ ∃ items, v.IsSequence items ∧
      List.Forall₂ (fun t item => (term item).outcome = .ok t) ts items := by
  have hitems := itemsFrom_eq_ok_iff term termsFrom (fun _ => rfl) (fun _ _ _ => rfl) 0
  cases v <;> simp [terms, Value.IsSequence, issue_ne_ok, hitems]

private theorem groupTerms_eq_none_iff {v : Value} :
    (groupTerms v).outcome = .ok none ↔ v = .null := by
  cases v <;> simp only [groupTerms, pure_eq_ok_iff, map_eq_ok_iff, reduceCtorEq, and_false,
    exists_false]

private theorem groupTerms_eq_some_iff {v : Value} {ts : List Term} :
    (groupTerms v).outcome = .ok (some ts) ↔ (terms v).outcome = .ok ts := by
  cases v with
  | null => simp only [groupTerms, pure_eq_ok_iff, terms, issue_ne_ok, reduceCtorEq]
  | _ => simp only [groupTerms, map_eq_ok_iff, Option.some.injEq, exists_eq_right]

theorem termsField_eq_none_iff {entries : Table Value} :
    (termsField entries).outcome = .ok none ↔
      Table.get? entries "terms" = none ∨ Table.get? entries "terms" = some .null := by
  simp only [termsField_eq, field_eq_ok_iff, groupTerms_eq_none_iff, pure_eq_ok_iff, exists_eq_right,
    and_true]
  exact or_comm

theorem termsField_eq_some_iff {entries : Table Value} {ts : List Term} :
    (termsField entries).outcome = .ok (some ts) ↔
      ∃ v items, Table.get? entries "terms" = some v ∧ v.IsSequence items ∧
        List.Forall₂ (fun t item => (term item).outcome = .ok t) ts items := by
  simp only [termsField_eq, field_eq_ok_iff, groupTerms_eq_some_iff, terms_eq_ok_iff, pure_eq_ok_iff,
    reduceCtorEq, and_false, or_false, exists_and_left]

-- The result is gone through with its lists of terms: a group is read by reading its members.
mutual
private theorem term_denoted : ∀ (t : Term) (v : Value),
    (term v).outcome = .ok t ↔ t.DenotedBy v
  | .leaf c, v => by
    rw [term_eq_ok_iff]
    constructor
    · rintro ⟨entries, d, ts, rfl, hd, hts, hleaf⟩
      cases ts with
      | none =>
        cases hleaf
        exact .leaf hd (termsField_eq_none_iff.mp hts)
      | some ts => contradiction
    · rintro (⟨hc, hterms⟩)
      exact ⟨_, c, none, rfl, hc, termsField_eq_none_iff.mpr hterms, rfl⟩
  | .group c ts, v => by
    rw [term_eq_ok_iff]
    constructor
    · rintro ⟨entries, d, inner, rfl, hd, hinner, hgroup⟩
      cases inner with
      | none => contradiction
      | some inner =>
        cases hgroup
        obtain ⟨w, items, hw, hitems, hmembers⟩ := termsField_eq_some_iff.mp hinner
        exact .group hd hw hitems ((terms_denoted ts items).mp hmembers)
    · rintro (_ | ⟨hc, hw, hitems, hmembers⟩)
      exact ⟨_, c, some ts, rfl, hc,
        termsField_eq_some_iff.mpr ⟨_, _, hw, hitems, (terms_denoted ts _).mpr hmembers⟩, rfl⟩
private theorem terms_denoted : ∀ (ts : List Term) (items : List Value),
    List.Forall₂ (fun t item => (term item).outcome = .ok t) ts items ↔
      List.Forall₂ Term.DenotedBy ts items
  | [], items => by simp
  | t :: rest, items => by
    cases items with
    | nil => simp
    | cons v items =>
      rw [List.forall₂_cons, List.forall₂_cons, term_denoted t v, terms_denoted rest items]
end

theorem conditionSet_denoted {v : Value} {set : ConditionSet} :
    (conditionSet v).outcome = .ok set ↔ set.DenotedBy v := by
  cases v with
  | map entries =>
    simp only [conditionSet, apply_eq_ok_iff, map_eq_ok_iff, pure_eq_ok_iff, field_eq_ok_iff,
      terms_eq_ok_iff, terms_denoted]
    constructor
    · rintro ⟨_, ts, ⟨relation, hrelation, rfl⟩, hts, rfl⟩
      refine ⟨entries, rfl, relation_eq_iff.mp hrelation, ?_⟩
      rcases hts with ⟨w, hw, items, hitems, hmembers⟩ | ⟨hnone, hts⟩
      · exact .inr ⟨w, items, hw, hitems, hmembers⟩
      · exact .inl ⟨hnone, hts.symm⟩
    · rintro ⟨_, hentries, hrelation, hts⟩
      cases hentries
      refine ⟨_, set.terms, ⟨set.relation, relation_eq_iff.mpr hrelation, rfl⟩, ?_, rfl⟩
      rcases hts with ⟨hnone, hts⟩ | ⟨w, items, hw, hitems, hmembers⟩
      · exact .inr ⟨hnone, hts.symm⟩
      · exact .inl ⟨w, hw, items, hitems, hmembers⟩
  | _ => simp [conditionSet, issue_ne_ok, ConditionSet.DenotedBy]

theorem action_eq_ok_iff {v : Value} {a : Action} :
    (action v).outcome = .ok a ↔ v = .text a.word := by
  cases v with
  | text s =>
    simp only [action, choice, Value.text.injEq]
    split
    · next hs => cases a <;> simp [hs, Action.word]
    · split
      · next hs => cases a <;> simp [hs, Action.word]
      · next hs => cases a <;> simp_all [issue_ne_ok]
  | _ => simp [action, choice, issue_ne_ok]

theorem entry_denoted {v : Value} {e : Entry} :
    (entry v).outcome = .ok e ↔ e.DenotedBy v := by
  cases v with
  | map entries =>
    simp only [entry, apply_eq_ok_iff, map_eq_ok_iff, required_eq_ok_iff, conditionSet_denoted,
      action_eq_ok_iff, exists_eq_right]
    constructor
    · rintro ⟨_, a, ⟨set, ⟨w, hw, hset⟩, rfl⟩, ha, rfl⟩
      exact ⟨entries, w, rfl, hw, hset, ha⟩
    · rintro ⟨_, w, hentries, hw, hset, ha⟩
      cases hentries
      exact ⟨_, e.action, ⟨e.conditions, ⟨w, hw, hset⟩, rfl⟩, ha, rfl⟩
  | _ => simp [entry, issue_ne_ok, Entry.DenotedBy]

private theorem entries_denoted {v : Value} {es : List Entry} :
    (entries v).outcome = .ok es ↔ ∃ items, v.IsSequence items ∧
      List.Forall₂ Entry.DenotedBy es items := by
  have hitems := itemsFrom_eq_ok_iff entry entriesFrom (fun _ => rfl) (fun _ _ _ => rfl) 0
  cases v <;> simp [entries, Value.IsSequence, issue_ne_ok, hitems, entry_denoted]

private theorem oneOrMore_denoted {v : Value} {es : List Entry} :
    (oneOrMore v).outcome = .ok es ↔ Entry.AllDenotedBy es v := by
  simp only [oneOrMore, either_eq_ok_iff, ne_eq, within_eq_ok_iff, map_eq_ok_iff, entries_denoted,
    entry_denoted]
  constructor
  · rintro (hsequence | ⟨_, e, he, rfl⟩)
    · exact .inl hsequence
    · exact .inr ⟨e, rfl, he⟩
  · rintro (hsequence | ⟨e, rfl, he⟩)
    · exact .inl hsequence
    · refine .inr ⟨?_, e, he, rfl⟩
      rintro es ⟨items, hitems, _⟩
      obtain ⟨entries, w, rfl, _⟩ := he
      simp [Value.IsSequence] at hitems

private theorem documentRules_denoted {sections : Table Value} {rules : List Rule} :
    (documentRules sections).outcome = .ok rules ↔ Rule.AllDenotedBy rules sections := by
  induction sections generalizing rules with
  | nil =>
    rw [documentRules, pure_eq_ok_iff]
    constructor
    · rintro rfl
      exact .nil
    · rintro ⟨⟩
      rfl
  | cons s rest ih =>
    obtain ⟨control, v⟩ := s
    simp only [documentRules, apply_eq_ok_iff, map_eq_ok_iff, within_eq_ok_iff, oneOrMore_denoted, ih]
    constructor
    · rintro ⟨_, others, ⟨es, hes, rfl⟩, hothers, rfl⟩
      exact .cons hes hothers
    · rintro (_ | ⟨hes, hothers⟩)
      exact ⟨_, _, ⟨_, hes, rfl⟩, hothers, rfl⟩

end Reading

theorem Source.rules_denoted {v : Value} {rules : List Rule} :
    (Source.value v).rules.outcome = .ok rules ↔
      ∃ sections, v = .map sections ∧ Rule.AllDenotedBy rules sections := by
  cases v with
  | text s => simp [Source.rules, Source.toValue, Run.fail]
  | map sections =>
    simp only [Source.rules, Source.toValue, Run.outcome_mapError, Value.map.injEq, exists_eq_left',
      ← Reading.documentRules_denoted, Reading.document]
    cases (Reading.documentRules sections).outcome <;> simp [Except.mapError]
  | _ =>
    simp [Source.rules, Source.toValue, Reading.document, Reading.issue, Run.fail, Run.mapError,
      Except.mapError]

/-! ### What denotes something -/

private theorem exists_forall₂_iff {α β : Type} {R : α → β → Prop} {bs : List β} :
    (∃ as, List.Forall₂ R as bs) ↔ ∀ b ∈ bs, ∃ a, R a b := by
  induction bs with
  | nil => simp
  | cons b bs ih =>
    simp only [List.forall₂_cons_right_iff, List.forall_mem_cons, ← ih]
    constructor
    · rintro ⟨_, a, as, ha, has, rfl⟩
      exact ⟨⟨a, ha⟩, as, has⟩
    · rintro ⟨⟨a, ha⟩, as, has⟩
      exact ⟨_, a, as, ha, has, rfl⟩

private theorem within_of_get? {entries : Table Value} {name : String} {v : Value}
    (h : (Value.map entries).withinDigitLimit) (hv : Table.get? entries name = some v) :
    v.withinDigitLimit :=
  Value.withinDigitLimit_map_iff.mp h (name, v) (Table.mem_of_get?_eq_some hv)

private theorem within_of_sequence {v : Value} {items : List Value} (h : v.withinDigitLimit)
    (hv : v.IsSequence items) : ∀ item ∈ items, item.withinDigitLimit := by
  rcases hv with rfl | rfl
  · exact Value.withinDigitLimit_list_iff.mp h
  · exact Value.withinDigitLimit_tuple_iff.mp h

private theorem exists_clause {entries : Table Value}
    (hwithin : (Value.map entries).withinDigitLimit)
    (name : ∀ v, Table.get? entries "name" = some v → ∃ s, v = .text s) :
    ∃ c : Clause, c.DenotedBy entries := by
  have hname : ∃ s, Table.get? entries "name" = some (.text s) ∨
      Table.get? entries "name" = none ∧ s = "" := by
    cases h : Table.get? entries "name" with
    | none => exact ⟨"", .inr ⟨rfl, rfl⟩⟩
    | some v =>
      obtain ⟨s, rfl⟩ := name v h
      exact ⟨s, .inl rfl⟩
  obtain ⟨s, hs⟩ := hname
  have hoperator : ∀ v ∈ Table.get? entries "operator", v.withinDigitLimit :=
    fun v hv => within_of_get? hwithin hv
  obtain ⟨op, hop⟩ := Operator.exists_denotedBy hoperator
  obtain ⟨hnone, hrelation⟩ := Reading.ownRelation_eq_iff.mp
    (rfl : ((Table.get? entries "relation").map Relation.ofValue?).getD none = _)
  exact ⟨⟨s, _, op, _⟩, ⟨hs, rfl, hop, hnone, hrelation⟩⟩

private theorem Clause.DenotedBy.name_text {c : Clause} {entries : Table Value}
    (h : c.DenotedBy entries) (v : Value) (hv : Table.get? entries "name" = some v) :
    ∃ s, v = .text s := by
  rcases h.name with hname | ⟨hnone, _⟩
  · rw [hname] at hv
    exact ⟨c.name, (Option.some.inj hv).symm⟩
  · rw [hnone] at hv
    contradiction

mutual
private theorem isTerm_of_denotedBy : ∀ (t : Term) (v : Value), t.DenotedBy v → v.IsTerm
  | .leaf _, _, .leaf hc hterms => .leaf hc.name_text hterms
  | .group _ ts, _, .group hc hw hitems hmembers =>
    .group hc.name_text hw hitems (all_isTerm ts _ hmembers)
private theorem all_isTerm : ∀ (ts : List Term) (items : List Value),
    List.Forall₂ Term.DenotedBy ts items → ∀ item ∈ items, item.IsTerm
  | [], _, .nil => by simp
  | t :: ts, v :: items, .cons ht hts => by
    rw [List.forall_mem_cons]
    exact ⟨isTerm_of_denotedBy t v ht, all_isTerm ts items hts⟩
end

private theorem exists_term {v : Value} (h : v.IsTerm) (hwithin : v.withinDigitLimit) :
    ∃ t : Term, t.DenotedBy v := by
  induction h with
  | leaf name terms =>
    obtain ⟨c, hc⟩ := exists_clause hwithin name
    exact ⟨_, .leaf hc terms⟩
  | group name terms sequence _ ih =>
    have hitems := within_of_sequence (within_of_get? hwithin terms) sequence
    obtain ⟨c, hc⟩ := exists_clause hwithin name
    obtain ⟨ts, hts⟩ := exists_forall₂_iff.mpr fun item hitem => ih item hitem (hitems item hitem)
    exact ⟨_, .group hc terms sequence hts⟩

private theorem exists_conditionSet_iff {v : Value} (hwithin : v.withinDigitLimit) :
    (∃ set : ConditionSet, set.DenotedBy v) ↔ v.IsConditionSet := by
  constructor
  · rintro ⟨set, entries, rfl, _, hterms⟩
    refine ⟨entries, rfl, ?_⟩
    intro w hw
    rcases hterms with ⟨hnone, _⟩ | ⟨w', items, hw', hitems, hmembers⟩
    · rw [hnone] at hw
      contradiction
    · rw [hw, Option.some.injEq] at hw'
      exact ⟨items, hw' ▸ hitems, all_isTerm set.terms items hmembers⟩
  · rintro ⟨entries, rfl, hterms⟩
    have hrelation := Reading.relation_eq_iff.mp
      (rfl : ((Table.get? entries "relation").map Relation.ofValue).getD .and = _)
    cases h : Table.get? entries "terms" with
    | none => exact ⟨⟨_, []⟩, entries, rfl, hrelation, .inl ⟨h, rfl⟩⟩
    | some w =>
      obtain ⟨items, hitems, hmembers⟩ := hterms w h
      have hwithinItems := within_of_sequence (within_of_get? hwithin h) hitems
      obtain ⟨ts, hts⟩ := exists_forall₂_iff.mpr fun v hv =>
        exists_term (hmembers v hv) (hwithinItems v hv)
      exact ⟨⟨_, ts⟩, entries, rfl, hrelation, .inr ⟨w, items, h, hitems, hts⟩⟩

private theorem exists_entry_iff {v : Value} (hwithin : v.withinDigitLimit) :
    (∃ e : Entry, e.DenotedBy v) ↔ v.IsEntry := by
  constructor
  · rintro ⟨e, entries, w, rfl, hw, hset, haction⟩
    have hconditions := (exists_conditionSet_iff (within_of_get? hwithin hw)).mp ⟨_, hset⟩
    refine ⟨entries, rfl, ⟨w, hw, hconditions⟩, ?_⟩
    rw [haction]
    cases e.action <;> simp [Action.word]
  · rintro ⟨entries, rfl, ⟨w, hw, hset⟩, haction⟩
    obtain ⟨set, hset⟩ := (exists_conditionSet_iff (within_of_get? hwithin hw)).mpr hset
    rcases haction with haction | haction
    · exact ⟨⟨set, .show⟩, entries, w, rfl, hw, hset, haction⟩
    · exact ⟨⟨set, .hide⟩, entries, w, rfl, hw, hset, haction⟩

private theorem exists_entries_iff {v : Value} (hwithin : v.withinDigitLimit) :
    (∃ es, Entry.AllDenotedBy es v) ↔
      v.IsEntry ∨ ∃ items, v.IsSequence items ∧ ∀ item ∈ items, item.IsEntry := by
  have hitems {items : List Value} (h : v.IsSequence items) :
      (∃ es, List.Forall₂ Entry.DenotedBy es items) ↔ ∀ item ∈ items, item.IsEntry := by
    rw [exists_forall₂_iff]
    exact forall₂_congr fun item hitem => exists_entry_iff (within_of_sequence hwithin h item hitem)
  rw [← exists_entry_iff hwithin]
  constructor
  · rintro ⟨es, ⟨items, hsequence, hes⟩ | ⟨e, rfl, he⟩⟩
    · exact .inr ⟨items, hsequence, (hitems hsequence).mp ⟨es, hes⟩⟩
    · exact .inl ⟨e, he⟩
  · rintro (⟨e, he⟩ | ⟨items, hsequence, hes⟩)
    · exact ⟨[e], .inr ⟨e, rfl, he⟩⟩
    · obtain ⟨es, hes⟩ := (hitems hsequence).mpr hes
      exact ⟨es, .inl ⟨items, hsequence, hes⟩⟩

private theorem exists_rules_iff {sections : Table Value} :
    (∃ rules, Rule.AllDenotedBy rules sections) ↔
      ∀ s ∈ sections, ∃ es, Entry.AllDenotedBy es s.2 := by
  induction sections with
  | nil => exact ⟨by simp, fun _ => ⟨[], .nil⟩⟩
  | cons s rest ih =>
    rw [List.forall_mem_cons, ← ih]
    constructor
    · rintro ⟨_, _ | ⟨hes, hrules⟩⟩
      exact ⟨⟨_, hes⟩, _, hrules⟩
    · rintro ⟨⟨es, hes⟩, rules, hrules⟩
      exact ⟨_, .cons hes hrules⟩

/-- Within the digit limit, a value is read as a document exactly if it is one. Any value is read as
the rules that it denotes, and as no others. A text is no document: it names a file, and none is at
hand. -/
theorem Source.reads_exactly_documents (v : Value) :
    (v.withinDigitLimit →
      ((∃ rules, (Source.value v).rules.outcome = .ok rules) ↔ v.IsDocument)) ∧
      ∀ rules, (Source.value v).rules.outcome = .ok rules ↔
        ∃ sections, v = .map sections ∧ Rule.AllDenotedBy rules sections := by
  refine ⟨?_, fun rules => rules_denoted⟩
  intro hwithin
  simp only [rules_denoted]
  have hsections {sections : Table Value} (h : v = .map sections) :
      (∃ rules, Rule.AllDenotedBy rules sections) ↔ ∀ s ∈ sections,
        s.2.IsEntry ∨ ∃ items, s.2.IsSequence items ∧ ∀ item ∈ items, item.IsEntry := by
    rw [exists_rules_iff]
    rw [h] at hwithin
    exact forall₂_congr fun s hs =>
      exists_entries_iff (Value.withinDigitLimit_map_iff.mp hwithin s hs)
  constructor
  · rintro ⟨rules, sections, hv, hrules⟩
    exact ⟨sections, hv, (hsections hv).mp ⟨rules, hrules⟩⟩
  · rintro ⟨sections, hv, hentries⟩
    obtain ⟨rules, hrules⟩ := (hsections hv).mpr hentries
    exact ⟨rules, sections, hv, hrules⟩

/-- A list may stand where an operator is expected. -/
theorem Source.listed_operator_read :
    let leaf : Value := .map [("name", .text "mode"), ("operator", .list [.int 7])]
    let set : Value := .map [("terms", .tuple [leaf])]
    let document : Value := .map [("panel", .map [("conditions", set), ("action", .text "hide")])]
    document.withinDigitLimit ∧ ∃ rules, (Source.value document).rules.outcome = .ok rules := by
  intro leaf set document
  have hwithin : document.withinDigitLimit := by decide
  have hleaf : leaf.IsTerm :=
    .leaf (fun v hv => ⟨"mode", (Option.some.inj hv).symm⟩) (.inl rfl)
  have hset : set.IsConditionSet := by
    refine ⟨_, rfl, fun w hw => ⟨[leaf], .inr (Option.some.inj hw).symm, ?_⟩⟩
    exact List.forall_mem_singleton.mpr hleaf
  have hdocument : document.IsDocument :=
    ⟨_, rfl, List.forall_mem_singleton.mpr (.inl ⟨_, rfl, ⟨set, rfl, hset⟩, .inr rfl⟩)⟩
  exact ⟨hwithin, ((reads_exactly_documents document).1 hwithin).mpr hdocument⟩

end VisibilityRules
