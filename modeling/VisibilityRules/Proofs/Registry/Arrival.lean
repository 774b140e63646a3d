import VisibilityRules.Proofs.FirstSeen
import VisibilityRules.Proofs.Registry.History

/-!
# The order of controls

The rules that stand after a sequence of operations are those that were added and not dropped since.
A registry lists its controls in the order of their first standing rules, so a control whose rules
were dropped comes back behind all others.
-/

namespace VisibilityRules.Registry

/-- The rules that operations add for controls whose rules no later one of them drops, in the order
in which they are added. -/
def standing : List Operation → List Rule
  | [] => []
  | op :: later =>
    op.added.filter (fun rule => later.all (!·.forgets rule.control)) ++ standing later

theorem standing_concat (ops : List Operation) (op : Operation) :
    standing (ops ++ [op]) =
      (standing ops).filter (fun rule => !op.forgets rule.control) ++ op.added := by
  induction ops with
  | nil => simp [standing]
  | cons first later ih =>
    have hkept : first.added.filter (fun rule => (later ++ [op]).all (!·.forgets rule.control)) =
        (first.added.filter fun rule => later.all (!·.forgets rule.control)).filter
          (fun rule => !op.forgets rule.control) := by
      rw [List.filter_filter]
      refine List.filter_congr fun rule _ => ?_
      rw [List.all_append, List.all_cons, List.all_nil, Bool.and_true, Bool.and_comm]
    rw [List.cons_append, standing, hkept, ih, standing, List.filter_append, List.append_assoc]

theorem Operation.added_of_forgets {op : Operation} {control : String} (h : op.forgets control) :
    op.added = [] := by
  cases op <;> first | rfl | cases h

theorem history_eq_filter_standing (control : String) (ops : List Operation) :
    history control ops = (standing ops).filter (·.control = control) := by
  induction ops using List.reverseRecOn with
  | nil => rfl
  | append_singleton ops op ih =>
    rw [history_concat, standing_concat, List.filter_append, ih, List.filter_filter]
    by_cases h : op.forgets control
    · have hnone : ∀ rule ∈ standing ops,
          ¬(decide (rule.control = control) && !op.forgets rule.control) = true := by
        intro rule _
        by_cases hrule : rule.control = control <;> simp [hrule, h]
      rw [if_pos h, Operation.added_of_forgets h, List.filter_eq_nil_iff.mpr hnone]
      rfl
    · have hsame : ∀ rule ∈ standing ops,
          (decide (rule.control = control) && !op.forgets rule.control) =
            decide (rule.control = control) := by
        intro rule _
        by_cases hrule : rule.control = control <;> simp [hrule, h]
      rw [if_neg h, List.filter_congr hsame]

/-! ### Controls -/

theorem keys_add {r : Registry} {controls : List String}
    (h : Table.keys r.rules = distinct controls) (rule : Rule) :
    Table.keys (r.add rule).rules = distinct (controls ++ [rule.control]) := by
  simp only [add, Table.keys_put, h, distinct_concat, mem_distinct]

theorem keys_foldl_add {r : Registry} {controls : List String}
    (h : Table.keys r.rules = distinct controls) (rules : List Rule) :
    Table.keys (rules.foldl add r).rules = distinct (controls ++ rules.map Rule.control) := by
  induction rules generalizing r controls with
  | nil => simpa using h
  | cons rule rest ih =>
    rw [List.foldl_cons, ih (keys_add h rule), List.map_cons, List.append_assoc,
      List.singleton_append]

theorem keys_clearControl (r : Registry) (control : String) :
    Table.keys (r.clearControl control).rules = (Table.keys r.rules).filter (· ≠ control) := by
  rw [Table.keys, clearControl, Table.remove, Table.keys, List.filter_map]
  rfl

theorem keys_perform {r : Registry} {controls : List String}
    (h : Table.keys r.rules = distinct controls) (op : Operation) :
    Table.keys (r.perform op).2.rules =
      distinct (controls.filter (!op.forgets ·) ++ op.added.map Rule.control) := by
  rw [perform_snd]
  cases op with
  | register | registerAll | load =>
    simp only [Operation.forgets, Bool.not_false, List.filter_true]
    exact keys_foldl_add h _
  | clearControl dropped =>
    rw [keys_clearControl, h, ← distinct_filter]
    simp [Operation.forgets, Operation.added, eq_comm]
  | reset => simp [Operation.forgets, Operation.added, Table.keys, distinct]
  | controlState name settings =>
    obtain ⟨cache, hcache⟩ := controlState_snd r name (settings.getD r.settings)
    simp [hcache, h, Operation.forgets, Operation.added]
  | _ => simp [h, Operation.forgets, Operation.added]

theorem keys_after (evaluator config : Option Configuration) (ops : List Operation) :
    Table.keys ((new evaluator config).after ops).rules =
      distinct ((standing ops).map Rule.control) := by
  induction ops using List.reverseRecOn with
  | nil => rfl
  | append_singleton ops op ih =>
    rw [after_concat, keys_perform ih, standing_concat, List.map_append, List.filter_map]
    rfl

/-- A registry lists its controls in the order of their first standing rules. -/
theorem firstSeen_keys (evaluator config : Option Configuration) (ops : List Operation) :
    FirstSeen (fun rule control => rule.control = control) (standing ops)
      (Table.keys ((new evaluator config).after ops).rules) := by
  rw [keys_after]
  exact .distinct_map Rule.control (standing ops)

end VisibilityRules.Registry
