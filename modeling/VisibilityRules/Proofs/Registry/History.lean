import Mathlib
import VisibilityRules.Proofs.Registry.Step

/-!
# Rules as history

The rules of a control are the rules that the operations added for it since the latest operation
that dropped its rules, in the order in which they were added; the counts of a registry are the
counts of these histories.
-/

namespace VisibilityRules.Registry

@[simp] theorem after_nil (r : Registry) : r.after [] = r := rfl

theorem after_append (r : Registry) (ops more : List Operation) :
    r.after (ops ++ more) = (r.after ops).after more := List.foldl_append

theorem after_concat (r : Registry) (ops : List Operation) (op : Operation) :
    r.after (ops ++ [op]) = ((r.after ops).perform op).2 := after_append r ops [op]

theorem after_induction {p : Registry → Prop} {r : Registry} (hstart : p r)
    (hstep : ∀ r op, p r → p (r.perform op).2) (ops : List Operation) : p (r.after ops) :=
  List.foldlRecOn ops _ hstart fun r hr op _ => hstep r op hr

theorem config_after (r : Registry) (ops : List Operation) : (r.after ops).config = r.config :=
  after_induction (p := fun s => s.config = r.config) rfl
    (fun s op hs => (config_perform s op).trans hs) ops

/-- The rules that operations added for a control since the latest of them that dropped its
rules. -/
def history (control : String) (ops : List Operation) : List Rule :=
  ((ops.rtakeWhile fun op => !op.forgets control).flatMap Operation.added).filter
    (·.control = control)

theorem history_concat (control : String) (ops : List Operation) (op : Operation) :
    history control (ops ++ [op]) =
      if op.forgets control then []
      else history control ops ++ op.added.filter (·.control = control) := by
  unfold history
  rw [List.rtakeWhile_concat]
  by_cases h : op.forgets control
  · simp [h]
  · simp [h]

theorem mem_added_of_mem_history {control : String} {ops : List Operation} {rule : Rule}
    (h : rule ∈ history control ops) : ∃ op ∈ ops, rule ∈ op.added := by
  obtain ⟨op, hop, hadded⟩ := List.mem_flatMap.mp (List.mem_of_mem_filter h)
  exact ⟨op, (List.rtakeWhile_suffix _ _).subset hop, hadded⟩

theorem rulesOf_after (evaluator config : Option Configuration) (ops : List Operation)
    (control : String) :
    ((new evaluator config).after ops).rulesOf control = history control ops := by
  induction ops using List.reverseRecOn with
  | nil => rfl
  | append_singleton ops op ih => rw [after_concat, rulesOf_perform, history_concat, ih]

/-! ### Counts -/

/-- A registry lists each control once, and only controls that have rules. -/
def Tidy (r : Registry) : Prop :=
  (Table.keys r.rules).Nodup ∧ ∀ e ∈ r.rules, e.2 ≠ []

theorem Tidy.add {r : Registry} (h : r.Tidy) (rule : Rule) : (r.add rule).Tidy := by
  refine ⟨Table.nodup_keys_put h.1 _ _, ?_⟩
  intro e he
  rcases Table.mem_put he with hv | ht
  · rw [hv]
    simp
  · exact h.2 e ht

theorem Tidy.clearControl {r : Registry} (h : r.Tidy) (control : String) :
    (r.clearControl control).Tidy := by
  refine ⟨?_, fun e he => h.2 e (List.mem_of_mem_filter he)⟩
  exact h.1.sublist (List.filter_sublist.map _)

theorem Tidy.perform {r : Registry} (h : r.Tidy) (op : Operation) : (r.perform op).2.Tidy := by
  have hadds (rules : List Rule) : (rules.foldl Registry.add r).Tidy :=
    List.foldlRecOn rules Registry.add h fun _ hr rule _ => Tidy.add hr rule
  rw [perform_snd]
  cases op with
  | register | registerAll | load => exact hadds _
  | clearControl control => exact h.clearControl control
  | reset => exact ⟨List.nodup_nil, by simp⟩
  | controlState control settings =>
    obtain ⟨cache, hcache⟩ := controlState_snd r control (settings.getD r.settings)
    dsimp only
    rw [hcache]
    exact h
  | _ => exact h

theorem tidy_after (evaluator config : Option Configuration) (ops : List Operation) :
    ((new evaluator config).after ops).Tidy :=
  after_induction ⟨List.nodup_nil, by simp [new]⟩ (fun _ op h => h.perform op) ops

theorem Tidy.mem_rules {r : Registry} (h : r.Tidy) {e : String × List Rule} (he : e ∈ r.rules) :
    r.rulesOf e.1 = e.2 := by
  unfold rulesOf
  rw [Table.get?_of_mem h.1 he]
  rfl

theorem Tidy.mem_keys_iff {r : Registry} (h : r.Tidy) (control : String) :
    control ∈ Table.keys r.rules ↔ r.rulesOf control ≠ [] := by
  constructor
  · intro hk
    obtain ⟨e, he, rfl⟩ := List.mem_map.mp hk
    rw [h.mem_rules he]
    exact h.2 e he
  · intro hne
    by_contra hk
    rw [rulesOf, (Table.get?_eq_none_iff r.rules control).mpr hk] at hne
    exact hne rfl

theorem ruleCount_eq (r : Registry) (h : r.Tidy) :
    r.ruleCount = ∑ control ∈ (Table.keys r.rules).toFinset, (r.rulesOf control).length := by
  rw [List.sum_toFinset _ h.1]
  have hmap : (Table.keys r.rules).map (fun control => (r.rulesOf control).length) =
      r.rules.map fun e => e.2.length := by
    rw [Table.keys, List.map_map]
    apply List.map_congr_left
    intro e he
    rw [Function.comp_apply, h.mem_rules he]
  rw [hmap, ruleCount]
  induction r.rules with
  | nil => rfl
  | cons e rest ih => rw [List.foldr_cons, ih, List.map_cons, List.sum_cons]

end VisibilityRules.Registry
