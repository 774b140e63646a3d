import VisibilityRules.Proofs.Value.NormalForm
import VisibilityRules.Value.Digits

/-!
# Members within the digit limit

A container is within the digit limit exactly if all its members are, in whatever order they stand.
-/

namespace VisibilityRules.Value

private theorem allWithinDigitLimit_iff (items : List Value) :
    allWithinDigitLimit items ↔ ∀ v ∈ items, v.withinDigitLimit := by
  induction items with
  | nil => simp [allWithinDigitLimit]
  | cons item rest ih => simp [allWithinDigitLimit, ih]

theorem withinDigitLimit_list_iff {items : List Value} :
    (list items).withinDigitLimit ↔ ∀ v ∈ items, v.withinDigitLimit := by
  rw [withinDigitLimit, allWithinDigitLimit_iff]

theorem withinDigitLimit_tuple_iff {items : List Value} :
    (tuple items).withinDigitLimit ↔ ∀ v ∈ items, v.withinDigitLimit := by
  rw [withinDigitLimit, allWithinDigitLimit_iff]

theorem withinDigitLimit_map_iff {entries : Table Value} :
    (map entries).withinDigitLimit ↔ ∀ e ∈ entries, e.2.withinDigitLimit := by
  rw [withinDigitLimit]
  induction entries with
  | nil => simp [entriesWithinDigitLimit]
  | cons e rest ih => simp [entriesWithinDigitLimit, ih]

theorem withinDigitLimit_normal (v : Value) : v.normal.withinDigitLimit = v.withinDigitLimit := by
  induction v using memberInduction with
  | list items ih =>
    rw [Bool.eq_iff_iff, normal_list, withinDigitLimit_list_iff, withinDigitLimit_list_iff,
      List.forall_mem_map]
    exact forall₂_congr fun v hv => by rw [ih v hv]
  | tuple items ih =>
    rw [Bool.eq_iff_iff, normal_tuple, withinDigitLimit_tuple_iff, withinDigitLimit_tuple_iff,
      List.forall_mem_map]
    exact forall₂_congr fun v hv => by rw [ih v hv]
  | map entries ih =>
    rw [Bool.eq_iff_iff, normal_map, withinDigitLimit_map_iff, withinDigitLimit_map_iff,
      Table.mapValues, List.forall_mem_map]
    simp only [(Table.sorted_perm entries).mem_iff]
    exact forall₂_congr fun e he => by rw [ih e he]
  | _ => rfl

end VisibilityRules.Value
