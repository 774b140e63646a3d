import VisibilityRules.Proofs.Document.Grammar
import VisibilityRules.Proofs.Registry.Arrival

/-!
# Registering a whole table

A table of records can be registered entry by entry, or loaded as a document. Both take the same
conditions and actions. They differ in the control: loading takes the key, registering takes the
name in the record itself where there is one.
-/

namespace VisibilityRules.Registry

open Reading

/-- Whether an entry of a table is registered for a control: the one that its record names, or the
one that it stands under if its record names none. -/
def IsFor (e : String × Table Value) (control : String) : Prop :=
  Table.get? e.2 "control_name" = some (.text control) ∨
    Table.get? e.2 "control_name" = none ∧ control = e.1

/-- Whether rules are those of the entries of a table, one for each in order, where a relation tells
which control an entry is for. -/
def RulesFor (controls : String × Table Value → String → Prop) (rules : List Rule)
    (entries : Table (Table Value)) : Prop :=
  List.Forall₂ (fun rule e => controls e rule.control ∧
    Entry.DenotedBy ⟨rule.conditions, rule.action⟩ (.map e.2)) rules entries

/-- The control that an entry stands under. -/
def IsUnder (e : String × Table Value) (control : String) : Prop := control = e.1

/-! ### What is registered -/

private theorem get?_namedRecord {entries : Table Value} (h : (Table.keys entries).Nodup)
    (control name : String) :
    Table.get? (Table.merge [("control_name", .text control)] entries) name =
      (Table.get? entries name).or
        (if "control_name" = name then some (.text control) else none) := by
  rw [Table.get?_merge _ h]
  rfl

private theorem rule_namedRecord_iff {entries : Table Value} (h : (Table.keys entries).Nodup)
    {control : String} {rule : Rule} :
    (Reading.rule (namedRecord control entries)).outcome = .ok rule ↔
      IsFor (control, entries) rule.control ∧
        Entry.DenotedBy ⟨rule.conditions, rule.action⟩ (.map entries) := by
  have hcontrol : Table.get? (Table.merge [("control_name", .text control)] entries)
      "control_name" = some (.text rule.control) ↔ IsFor (control, entries) rule.control := by
    rw [get?_namedRecord h, IsFor]
    cases Table.get? entries "control_name" <;> simp [eq_comm]
  have hother (name : String) (hname : "control_name" ≠ name) :
      Table.get? (Table.merge [("control_name", .text control)] entries) name =
        Table.get? entries name := by
    rw [get?_namedRecord h, if_neg hname, Option.or_none]
  simp only [namedRecord, Reading.rule, apply_eq_ok_iff, map_eq_ok_iff, required_eq_ok_iff,
    conditionSet_denoted, action_eq_ok_iff, text_eq_ok_iff, exists_eq_right,
    hother "conditions" (by decide), hother "action" (by decide)]
  constructor
  · rintro ⟨_, a, ⟨_, set, ⟨name, hname, rfl⟩, ⟨w, hw, hset⟩, rfl⟩, ha, rfl⟩
    exact ⟨hcontrol.mp hname, entries, w, rfl, hw, hset, ha⟩
  · rintro ⟨hname, _, w, hentries, hw, hset, ha⟩
    cases hentries
    exact ⟨_, rule.action, ⟨_, rule.conditions, ⟨rule.control, hcontrol.mpr hname, rfl⟩,
      ⟨w, hw, hset⟩, rfl⟩, ha, rfl⟩

section Both

variable {m : Table (Table Value)} {rules : List Rule}

private theorem registerAll_of_rulesFor (hfields : ∀ e ∈ m, (Table.keys e.2).Nodup)
    (h : RulesFor IsFor rules m) (r : Registry) :
    (r.registerAll (Table.mapValues .map m)).1.outcome = .ok () ∧
      (r.registerAll (Table.mapValues .map m)).2 = rules.foldl add r := by
  induction h generalizing r with
  | nil => exact ⟨rfl, rfl⟩
  | @cons rule e rules m hrule _ ih =>
    rw [List.forall_mem_cons] at hfields
    have hread := (rule_namedRecord_iff hfields.1).mpr hrule
    obtain ⟨houtcome, hafter⟩ := registerAll_cons_of_ok r (Table.mapValues .map m) hread
    rw [Table.mapValues_cons, houtcome, hafter]
    exact ih hfields.2 (r.add rule)

private theorem rulesFor_of_registerAll (hfields : ∀ e ∈ m, (Table.keys e.2).Nodup) {r : Registry}
    (h : (r.registerAll (Table.mapValues .map m)).1.outcome = .ok ()) :
    ∃ rules, RulesFor IsFor rules m := by
  induction m generalizing r with
  | nil => exact ⟨[], .nil⟩
  | cons e m ih =>
    rw [List.forall_mem_cons] at hfields
    cases hread : (Reading.rule (namedRecord e.1 e.2)).outcome with
    | ok rule =>
      rw [Table.mapValues_cons, (registerAll_cons_of_ok r _ hread).1] at h
      obtain ⟨rules, hrules⟩ := ih hfields.2 h
      exact ⟨rule :: rules, .cons ((rule_namedRecord_iff hfields.1).mp hread) hrules⟩
    | error issues =>
      rw [Table.mapValues_cons, (registerAll_cons_of_error r _ hread).1] at h
      cases h

/-- A table of records denotes, as a document, one rule for each record under its key. -/
private theorem allDenotedBy_iff :
    Rule.AllDenotedBy rules (Table.mapValues .map m) ↔ RulesFor IsUnder rules m := by
  induction m generalizing rules with
  | nil =>
    rw [RulesFor, List.forall₂_nil_right_iff]
    constructor
    · rintro ⟨⟩
      rfl
    · rintro rfl
      exact .nil
  | cons e m ih =>
    rw [Table.mapValues_cons, RulesFor, List.forall₂_cons_right_iff]
    constructor
    · rintro (_ | ⟨hentries, hrest⟩)
      rcases hentries with ⟨items, hitems, _⟩ | ⟨entry, rfl, hentry⟩
      · simp [Value.IsSequence] at hitems
      · exact ⟨⟨e.1, entry.conditions, entry.action⟩, _, ⟨rfl, hentry⟩, ih.mp hrest, rfl⟩
    · rintro ⟨⟨control, set, action⟩, rest, ⟨hcontrol, hentry⟩, hrest, rfl⟩
      cases hcontrol
      exact .cons (.inr ⟨⟨set, action⟩, rfl, hentry⟩) (ih.mpr hrest)

private theorem load_of_rulesFor (h : RulesFor IsUnder rules m) (r : Registry) :
    (r.load (.value (.map (Table.mapValues .map m)))).1.outcome = .ok rules.length ∧
      (r.load (.value (.map (Table.mapValues .map m)))).2 = rules.foldl add r := by
  have hread := Source.rules_denoted.mpr ⟨_, rfl, allDenotedBy_iff.mpr h⟩
  rw [outcome_load, load_snd, Operation.added, hread]
  exact ⟨rfl, rfl⟩

private theorem rulesFor_of_load {r : Registry} {n : Nat}
    (h : (r.load (.value (.map (Table.mapValues .map m)))).1.outcome = .ok n) :
    ∃ rules, RulesFor IsUnder rules m := by
  cases hread : (Source.value (.map (Table.mapValues .map m))).rules.outcome with
  | ok rules =>
    obtain ⟨_, hsections, hrules⟩ := Source.rules_denoted.mp hread
    cases hsections
    exact ⟨rules, allDenotedBy_iff.mp hrules⟩
  | error failure =>
    rw [outcome_load, hread] at h
    cases h

end Both

/-! ### Two ways to name the controls -/

private theorem IsFor.unique {e : String × Table Value} {control other : String}
    (h : IsFor e control) (h' : IsFor e other) : control = other := by
  rcases h with hown | ⟨hnone, rfl⟩ <;> rcases h' with hown' | ⟨hnone', rfl⟩
  · rw [hown, Option.some.injEq, Value.text.injEq] at hown'
    exact hown'
  · rw [hown] at hnone'
    contradiction
  · rw [hnone] at hown'
    contradiction
  · rfl

private theorem denotedBy_unique {e other : Entry} {v : Value} (h : e.DenotedBy v)
    (h' : other.DenotedBy v) : e = other := by
  have hread := entry_denoted.mpr h
  rw [entry_denoted.mpr h', Except.ok.injEq] at hread
  exact hread.symm

section Controls

variable {m : Table (Table Value)} {rules : List Rule}
  {controls others : String × Table Value → String → Prop}

private theorem RulesFor.exists_control (h : RulesFor controls rules m) :
    ∀ e ∈ m, ∃ rule ∈ rules, controls e rule.control ∧
      Entry.DenotedBy ⟨rule.conditions, rule.action⟩ (.map e.2) := by
  induction h with
  | nil => simp
  | cons hrule _ ih =>
    rw [List.forall_mem_cons]
    refine ⟨⟨_, List.mem_cons_self, hrule⟩, ?_⟩
    intro e he
    obtain ⟨rule, hmem, hfor⟩ := ih e he
    exact ⟨rule, List.mem_cons_of_mem _ hmem, hfor⟩

private theorem RulesFor.exists_rename (h : RulesFor controls rules m)
    (hothers : ∀ e ∈ m, ∃ control, others e control) : ∃ renamed, RulesFor others renamed m := by
  induction h with
  | nil => exact ⟨[], .nil⟩
  | @cons rule e rules m hrule _ ih =>
    rw [List.forall_mem_cons] at hothers
    obtain ⟨⟨control, hcontrol⟩, hrest⟩ := hothers
    obtain ⟨renamed, hrenamed⟩ := ih hrest
    exact ⟨⟨control, rule.conditions, rule.action⟩ :: renamed, .cons ⟨hcontrol, hrule.2⟩ hrenamed⟩

private theorem RulesFor.exists_keyed (h : RulesFor controls rules m) :
    ∃ keyed, RulesFor IsUnder keyed m := h.exists_rename fun e _ => ⟨e.1, rfl⟩

private theorem RulesFor.unique (hunique : ∀ e ∈ m, ∀ control other, controls e control →
    others e other → control = other) {rules' : List Rule} (h : RulesFor controls rules m)
    (h' : RulesFor others rules' m) : rules = rules' := by
  induction h generalizing rules' with
  | nil => exact (List.forall₂_nil_right_iff.mp h').symm
  | @cons rule e rules m hrule _ ih =>
    rw [List.forall_mem_cons] at hunique
    obtain ⟨rule', rest, hrule', hrest, rfl⟩ := List.forall₂_cons_right_iff.mp h'
    have hcontrol := hunique.1 _ _ hrule.1 hrule'.1
    have hentry := denotedBy_unique hrule.2 hrule'.2
    have heq : rule = rule' := by
      cases rule
      cases rule'
      rw [Rule.mk.injEq]
      exact ⟨hcontrol, congrArg Entry.conditions hentry, congrArg Entry.action hentry⟩
    rw [heq, ih hunique.2 hrest]

private theorem RulesFor.for_key (h : RulesFor controls rules m)
    (hkeys : rules.map Rule.control = Table.keys m) : ∀ e ∈ m, controls e e.1 := by
  induction h with
  | nil => simp
  | @cons rule e rules m hrule _ ih =>
    obtain ⟨hfirst, hrest⟩ : rule.control = e.1 ∧ rules.map Rule.control = Table.keys m :=
      List.cons.inj hkeys
    rw [List.forall_mem_cons, ← hfirst]
    exact ⟨hrule.1, ih hrest⟩

private theorem RulesFor.controls_eq (h : RulesFor IsUnder rules m) :
    rules.map Rule.control = Table.keys m := by
  induction h with
  | nil => rfl
  | cons hrule _ ih =>
    rw [List.map_cons, ih, hrule.1]
    rfl

end Controls

/-! ### Controls after several rules -/

private theorem filter_control {rules : List Rule} (h : (rules.map Rule.control).Nodup)
    {rule : Rule} (hrule : rule ∈ rules) : rules.filter (·.control = rule.control) = [rule] := by
  induction rules with
  | nil => exact absurd hrule List.not_mem_nil
  | cons first rest ih =>
    obtain ⟨hfirst, hrest⟩ := List.nodup_cons.mp h
    rcases List.mem_cons.mp hrule with rfl | hmem
    · have hnone : rest.filter (·.control = rule.control) = [] := by
        rw [List.filter_eq_nil_iff]
        intro other hother
        rw [decide_eq_true_eq]
        exact fun heq => hfirst (heq ▸ List.mem_map_of_mem hother)
      rw [List.filter_cons_of_pos (by simp), hnone]
    · have hne : first.control ≠ rule.control := fun heq => hfirst (heq ▸ List.mem_map_of_mem hmem)
      rw [List.filter_cons_of_neg (by simpa using hne), ih hrest hmem]

/-! ### Both ways compared -/

/-- Loading gives every key of a table one rule behind the rules of its control, and touches no
other control. -/
private theorem load_gains {m : Table (Table Value)} (hkeys : (Table.keys m).Nodup)
    {rules : List Rule} (h : RulesFor IsUnder rules m) (r : Registry) :
    (∀ e ∈ m, ∃ rule, rule.control = e.1 ∧
        Entry.DenotedBy ⟨rule.conditions, rule.action⟩ (.map e.2) ∧
        (rules.foldl add r).rulesOf e.1 = r.rulesOf e.1 ++ [rule]) ∧
      ∀ control ∉ Table.keys m, (rules.foldl add r).rulesOf control = r.rulesOf control ∧
        ∀ key, (rules.foldl add r).cache.find? control key = r.cache.find? control key := by
  have hcontrols := h.controls_eq
  have hnodup : (rules.map Rule.control).Nodup := hcontrols ▸ hkeys
  constructor
  · intro e he
    obtain ⟨rule, hmem, hcontrol, hentry⟩ := h.exists_control e he
    refine ⟨rule, hcontrol, hentry, ?_⟩
    rw [rulesOf_foldl_add, ← hcontrol, filter_control hnodup hmem]
  · intro control hcontrol
    rw [← hcontrols] at hcontrol
    have hother : ∀ rule ∈ rules, ¬decide (rule.control = control) = true := by
      intro rule hmem
      rw [decide_eq_true_eq]
      exact fun heq => hcontrol (heq ▸ List.mem_map_of_mem hmem)
    refine ⟨?_, fun key => ?_⟩
    · rw [rulesOf_foldl_add, List.filter_eq_nil_iff.mpr hother, List.append_nil]
    · rw [find?_foldl_add, if_neg (by simpa using hother)]

/-- If the rules for the named controls and those for the keys make the same registry out of a new
one, every record names its key or nothing. -/
private theorem isFor_key_of_foldl_eq {m : Table (Table Value)} (hkeys : (Table.keys m).Nodup)
    {named keyed : List Rule} (hnamed : RulesFor IsFor named m) (hkeyed : RulesFor IsUnder keyed m)
    (h : named.foldl add (new none none) = keyed.foldl add (new none none)) :
    ∀ e ∈ m, IsFor e e.1 := by
  have hcontrols := hkeyed.controls_eq
  have hempty : Table.keys (new none none).rules = distinct [] := rfl
  have hkeysOf (rules : List Rule) :
      Table.keys (rules.foldl add (new none none)).rules = distinct (rules.map Rule.control) :=
    keys_foldl_add hempty rules
  have hlist : distinct (named.map Rule.control) = Table.keys m := by
    rw [← hkeysOf, h, hkeysOf, hcontrols, distinct_of_nodup hkeys]
  have hsublist := distinct_sublist (named.map Rule.control)
  rw [hlist] at hsublist
  -- all keys differ, so a name that came twice would leave the list of controls too short
  have hlength : (named.map Rule.control).length = (Table.keys m).length := by
    rw [List.length_map, hnamed.length_eq, Table.keys, List.length_map]
  exact hnamed.for_key (hsublist.eq_of_length hlength.symm).symm

/-- Registering a table of records and loading it as a document, compared. Loading puts one rule for
each record behind the rules of its key and touches nothing else. Registering succeeds exactly if
loading does and no record names a control by anything but a text; it adds the same rules under the
names in the records. It is the same as loading exactly if every record names its key or nothing. -/
theorem registerAll_against_load (m : Table (Table Value)) (hkeys : (Table.keys m).Nodup)
    (hfields : ∀ e ∈ m, (Table.keys e.2).Nodup) (r : Registry) :
    let bulk := fun r : Registry => r.registerAll (Table.mapValues .map m)
    let load := fun r : Registry => r.load (.value (.map (Table.mapValues .map m)))
    ((∃ n, (load r).1.outcome = .ok n) →
      (∃ rules, RulesFor IsUnder rules m ∧ (load r).2 = rules.foldl add r) ∧
      (∀ e ∈ m, ∃ rule, rule.control = e.1 ∧
        Entry.DenotedBy ⟨rule.conditions, rule.action⟩ (.map e.2) ∧
        (load r).2.rulesOf e.1 = r.rulesOf e.1 ++ [rule]) ∧
      ∀ control ∉ Table.keys m, (load r).2.rulesOf control = r.rulesOf control ∧
        ∀ key, (load r).2.cache.find? control key = r.cache.find? control key) ∧
    ((bulk r).1.outcome = .ok () ↔
      (∃ n, (load r).1.outcome = .ok n) ∧ ∀ e ∈ m, ∃ control, IsFor e control) ∧
    ((bulk r).1.outcome = .ok () →
      (∃ rules, RulesFor IsFor rules m ∧ (bulk r).2 = rules.foldl add r) ∧
      ((∀ s, (bulk s).2 = (load s).2) ↔ ∀ e ∈ m, IsFor e e.1)) := by
  intro bulk load
  refine ⟨?_, ⟨?_, ?_⟩, ?_⟩
  · rintro ⟨n, hload⟩
    obtain ⟨keyed, hkeyed⟩ := rulesFor_of_load hload
    have hafter : (load r).2 = keyed.foldl add r := (load_of_rulesFor hkeyed r).2
    rw [hafter]
    exact ⟨⟨keyed, hkeyed, rfl⟩, load_gains hkeys hkeyed r⟩
  · intro hbulk
    obtain ⟨named, hnamed⟩ := rulesFor_of_registerAll hfields hbulk
    obtain ⟨keyed, hkeyed⟩ := hnamed.exists_keyed
    refine ⟨⟨_, (load_of_rulesFor hkeyed r).1⟩, ?_⟩
    intro e he
    obtain ⟨rule, _, hfor, _⟩ := hnamed.exists_control e he
    exact ⟨_, hfor⟩
  · rintro ⟨⟨n, hload⟩, hnames⟩
    obtain ⟨keyed, hkeyed⟩ := rulesFor_of_load hload
    obtain ⟨named, hnamed⟩ := hkeyed.exists_rename hnames
    exact (registerAll_of_rulesFor hfields hnamed r).1
  · intro hbulk
    obtain ⟨named, hnamed⟩ := rulesFor_of_registerAll hfields hbulk
    obtain ⟨keyed, hkeyed⟩ := hnamed.exists_keyed
    have hbulk (s : Registry) : (bulk s).2 = named.foldl add s :=
      (registerAll_of_rulesFor hfields hnamed s).2
    have hload (s : Registry) : (load s).2 = keyed.foldl add s := (load_of_rulesFor hkeyed s).2
    refine ⟨⟨named, hnamed, hbulk r⟩, ?_, ?_⟩
    · intro hsame
      have hnew := hsame (new none none)
      rw [hbulk, hload] at hnew
      exact isFor_key_of_foldl_eq hkeys hnamed hkeyed hnew
    · intro hown s
      have hrules : named = keyed := by
        refine RulesFor.unique ?_ hnamed hkeyed
        intro e he control other hfor hunder
        exact (hfor.unique (hown e he)).trans (Eq.symm hunder)
      rw [hbulk, hload, hrules]

/-- Two records, one of which names its key. -/
theorem registerAll_against_load_own_key :
    let shown : Table Value := [("conditions", .map []), ("action", .text "show")]
    let m : Table (Table Value) :=
      [("panel", ("control_name", .text "panel") :: shown), ("title", shown)]
    let r := new none none
    ((Table.keys m).Nodup ∧ ∀ e ∈ m, (Table.keys e.2).Nodup) ∧
      (r.registerAll (Table.mapValues .map m)).1.outcome = .ok () ∧
      ∀ s : Registry, (s.registerAll (Table.mapValues .map m)).2 =
        (s.load (.value (.map (Table.mapValues .map m)))).2 := by
  intro shown m r
  have hkeys : (Table.keys m).Nodup := by decide
  have hfields : ∀ e ∈ m, (Table.keys e.2).Nodup := by decide
  have hbulk : (r.registerAll (Table.mapValues .map m)).1.outcome = .ok () := rfl
  have hown : ∀ e ∈ m, IsFor e e.1 := by simp [m, shown, IsFor, Table.get?]
  exact ⟨⟨hkeys, hfields⟩, hbulk,
    ((registerAll_against_load m hkeys hfields r).2.2 hbulk).2.mpr hown⟩

/-- A record under one control that names another: registering gives the rule to the control that
the record names, loading to the one that it stands under. -/
theorem registerAll_follows_record :
    let m : Table Value := [("panel", .map [("control_name", .text "title"),
      ("conditions", .map []), ("action", .text "hide")])]
    let bulk := (new none none).registerAll m
    let load := (new none none).load (.value (.map m))
    bulk.1.outcome = .ok () ∧ load.1.outcome = .ok 1 ∧
      bulk.2.rulesOf "panel" = [] ∧ bulk.2.rulesOf "title" = [⟨"title", {}, .hide⟩] ∧
      load.2.rulesOf "panel" = [⟨"panel", {}, .hide⟩] ∧ load.2.rulesOf "title" = [] :=
  ⟨rfl, rfl, rfl, rfl, rfl, rfl⟩

end VisibilityRules.Registry
