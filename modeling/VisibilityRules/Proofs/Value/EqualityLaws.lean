import VisibilityRules.Proofs.Value.Coercion

/-!
# Laws of equality

Strict equality is symmetric and transitive, and it is reflexive on the values without NaN. Loose
equality extends it and is symmetric, in its failures as well.
-/

namespace VisibilityRules

namespace Value

theorem PartwiseEqual.symm {v w : Value} (h : PartwiseEqual count? v w) :
    PartwiseEqual count? w v := by
  induction h with
  | missing => exact .missing
  | null => exact .null
  | bool b => exact .bool b
  | number left right equals => exact .number right left equals.symm
  | text s => exact .text s
  | list length items ih => exact .list length.symm fun i w v hw hv => ih i v w hv hw
  | tuple length items ih => exact .tuple length.symm fun i w v hw hv => ih i v w hv hw
  | map keys values ih =>
    exact .map (fun k => (keys k).symm) fun k w v hw hv => ih k v w hv hw

private theorem count?_eq_of_partwiseEqual {v w : Value} {a : Number} (h : PartwiseEqual count? v w)
    (ha : v.count? = some a) : ∃ b, w.count? = some b ∧ a.Equals b := by
  cases h with
  | number left right equals =>
    rw [ha, Option.some.injEq] at left
    exact ⟨_, right, left ▸ equals⟩
  | bool b =>
    refine ⟨a, ha, (Number.equals_self_iff a).mpr ?_⟩
    rintro rfl
    simp [count?] at ha
  | _ => simp [count?, number?] at ha

private theorem exists_item {xs ys : List Value} (h : xs.length = ys.length) {i : Nat} {x : Value}
    (hx : xs[i]? = some x) : ∃ y, ys[i]? = some y := by
  obtain ⟨hi, _⟩ := List.getElem?_eq_some_iff.mp hx
  exact ⟨_, List.getElem?_eq_getElem (h ▸ hi)⟩

private theorem exists_value {xs ys : Table Value} (h : ∀ k, k ∈ Table.keys xs ↔ k ∈ Table.keys ys)
    {k : String} {x : Value} (hx : Table.get? xs k = some x) : ∃ y, Table.get? ys k = some y := by
  rw [← Option.isSome_iff_exists, Table.isSome_get?_iff, ← h, ← Table.isSome_get?_iff, hx]
  rfl

theorem PartwiseEqual.trans {u v w : Value} (h : PartwiseEqual count? u v)
    (h' : PartwiseEqual count? v w) : PartwiseEqual count? u w := by
  induction h generalizing w with
  | missing | null | bool | text => exact h'
  | number left right equals =>
    obtain ⟨b, hb, hequals⟩ := count?_eq_of_partwiseEqual h' right
    exact .number left hb (equals.trans hequals)
  | list length items ih =>
    cases h' with
    | number left => simp [count?, number?] at left
    | list length' items' =>
      refine .list (length.trans length') fun i x z hx hz => ?_
      obtain ⟨y, hy⟩ := exists_item length hx
      exact ih i x y hx hy (items' i y z hy hz)
  | tuple length items ih =>
    cases h' with
    | number left => simp [count?, number?] at left
    | tuple length' items' =>
      refine .tuple (length.trans length') fun i x z hx hz => ?_
      obtain ⟨y, hy⟩ := exists_item length hx
      exact ih i x y hx hy (items' i y z hy hz)
  | map keys values ih =>
    cases h' with
    | number left => simp [count?, number?] at left
    | map keys' values' =>
      refine .map (fun k => (keys k).trans (keys' k)) fun k x z hx hz => ?_
      obtain ⟨y, hy⟩ := exists_value keys hx
      exact ih k x y hx hy (values' k y z hy hz)

/-- Whether NaN stands somewhere in a value. -/
inductive HoldsNaN : Value → Prop
  | here : HoldsNaN (.double .nan)
  | list {items : List Value} {v : Value} (member : v ∈ items) (part : HoldsNaN v) :
      HoldsNaN (.list items)
  | tuple {items : List Value} {v : Value} (member : v ∈ items) (part : HoldsNaN v) :
      HoldsNaN (.tuple items)
  | map {entries : Table Value} {e : String × Value} (member : e ∈ entries) (part : HoldsNaN e.2) :
      HoldsNaN (.map entries)

private theorem HoldsNaN.not_self {v : Value} (h : HoldsNaN v) (hv : v.UniqueKeys) :
    ¬PartwiseEqual count? v v := by
  induction h with
  | here =>
    intro hself
    obtain ⟨b, hb, hequals⟩ := count?_eq_of_partwiseEqual hself rfl
    cases hb
    exact (Number.equals_self_iff _).mp hequals rfl
  | list member part ih =>
    intro hself
    obtain ⟨i, hi⟩ := List.getElem?_of_mem member
    cases hself with
    | number left => simp [count?, number?] at left
    | list length items => exact ih (hv.of_mem_list member) (items i _ _ hi hi)
  | tuple member part ih =>
    intro hself
    obtain ⟨i, hi⟩ := List.getElem?_of_mem member
    cases hself with
    | number left => simp [count?, number?] at left
    | tuple length items => exact ih (hv.of_mem_tuple member) (items i _ _ hi hi)
  | map member part ih =>
    intro hself
    have hget := Table.get?_of_mem hv.nodup member
    cases hself with
    | number left => simp [count?, number?] at left
    | map keys values => exact ih (hv.of_mem_map member) (values _ _ _ hget hget)

private theorem items_self {items : List Value} (h : ∀ v ∈ items, PartwiseEqual count? v v)
    (i : Nat) (v w : Value) (hv : items[i]? = some v) (hw : items[i]? = some w) :
    PartwiseEqual count? v w := by
  cases Option.some.inj (hv.symm.trans hw)
  exact h v (List.mem_of_getElem? hv)

private theorem partwiseEqual_self (v : Value) : ¬HoldsNaN v → PartwiseEqual count? v v := by
  induction v using memberInduction with
  | missing => exact fun _ => .missing
  | null => exact fun _ => .null
  | bool b => exact fun _ => .bool b
  | int n => exact fun _ => .number rfl rfl ((Number.equals_self_iff _).mpr (by simp))
  | double x =>
    intro h
    refine .number rfl rfl ((Number.equals_self_iff _).mpr ?_)
    rintro ⟨⟩
    exact h .here
  | text s => exact fun _ => .text s
  | list items ih =>
    intro h
    exact .list rfl (items_self fun v hv => ih v hv fun part => h (.list hv part))
  | tuple items ih =>
    intro h
    exact .tuple rfl (items_self fun v hv => ih v hv fun part => h (.tuple hv part))
  | map entries ih =>
    intro h
    refine .map (fun k => Iff.rfl) fun k v w hv hw => ?_
    cases Option.some.inj (hv.symm.trans hw)
    have hmem := Table.mem_of_get?_eq_some hv
    exact ih (k, v) hmem fun part => h (.map hmem part)

theorem equal_comm {v w : Value} (hv : v.UniqueKeys) (hw : w.UniqueKeys) :
    equal v w = equal w v := by
  rw [Bool.eq_iff_iff, equal_iff hv hw, equal_iff hw hv]
  exact ⟨fun h => h.symm, fun h => h.symm⟩

theorem strictEqual_comm {v w : Value} (hv : v.UniqueKeys) (hw : w.UniqueKeys) :
    strictEqual v w = strictEqual w v := by
  have hkind : sameKind v w = sameKind w v := by
    rw [Bool.eq_iff_iff, sameKind_iff, sameKind_iff, eq_comm]
  rw [strictEqual_eq, strictEqual_eq, hkind, equal_comm hv hw]

/-- Where both values fail to become doubles, they fail in the same way. -/
theorem doubles_swap (v w : Value) : doubles w v = (doubles v w).map (Option.map Prod.swap) := by
  unfold doubles
  cases hv : v.toDouble? with
  | error f =>
    cases hw : w.toDouble? with
    | error f' =>
      rw [((toDouble?_eq_error_iff v f).mp hv).1, ((toDouble?_eq_error_iff w f').mp hw).1]
      rfl
    | ok b => rfl
  | ok a =>
    cases hw : w.toDouble? with
    | error f' => rfl
    | ok b => cases a <;> cases b <;> rfl

theorem looseEqual_comm {v w : Value} (hv : v.UniqueKeys) (hw : w.UniqueKeys) :
    looseEqual v w = looseEqual w v := by
  have hsame (a b : Number) : a.same b = b.same a := by
    rw [Bool.eq_iff_iff, Number.same_iff, Number.same_iff]
    exact ⟨fun h => h.symm, fun h => h.symm⟩
  have hdoubles : asDoubles Number.same v w = asDoubles Number.same w v := by
    rw [asDoubles_eq, asDoubles_eq, doubles_swap v w]
    rcases doubles v w with f | _ | ⟨x, y⟩
    · rfl
    · rfl
    · simp [Except.map, hsame (.double x)]
  rw [looseEqual, looseEqual, strictEqual_comm hv hw, Bool.or_comm w.isAbsent,
    Bool.or_comm w.isCoercive, hdoubles]

/-- Strict equality is symmetric and transitive, and a value is strictly equal to itself exactly if
no NaN stands in it. Loose equality holds where strict equality does, and it is symmetric, in its
failures as well. -/
theorem equality_laws (u v w : Value) (hu : u.UniqueKeys) (hv : v.UniqueKeys) (hw : w.UniqueKeys) :
    strictEqual u v = strictEqual v u ∧
      (strictEqual u v → strictEqual v w → strictEqual u w) ∧
      (strictEqual u u ↔ ¬HoldsNaN u) ∧
      (strictEqual u v → looseEqual u v = .ok true) ∧
      looseEqual u v = looseEqual v u := by
  refine ⟨strictEqual_comm hu hv, ?_, ?_, ?_, looseEqual_comm hu hv⟩
  · rw [strictEqual_iff hu hv, strictEqual_iff hv hw, strictEqual_iff hu hw]
    rintro ⟨hfamily, hparts⟩ ⟨hfamily', hparts'⟩
    exact ⟨hfamily.trans hfamily', hparts.trans hparts'⟩
  · rw [strictEqual_iff hu hu]
    constructor
    · rintro ⟨_, hself⟩ hnan
      exact hnan.not_self hu hself
    · intro h
      exact ⟨rfl, partwiseEqual_self u h⟩
  · intro h
    rw [looseEqual, if_pos h]

theorem one_in_three_lists :
    let u : Value := .list [.int 1]
    let v : Value := .list [.double (.finite false 0x3FF0000000000000)]
    let w : Value := .list [.bool true]
    (u.UniqueKeys ∧ v.UniqueKeys ∧ w.UniqueKeys) ∧ strictEqual u v ∧ strictEqual v w ∧
      strictEqual u w := by
  intro u v w
  have hu : u.UniqueKeys := .list (by simp [UniqueKeys.int])
  have hv : v.UniqueKeys := .list (by simp [UniqueKeys.double])
  have hw : w.UniqueKeys := .list (by simp [UniqueKeys.bool])
  have huv : strictEqual u v := by decide +kernel
  have hvw : strictEqual v w := by decide +kernel
  exact ⟨⟨hu, hv, hw⟩, huv, hvw, (equality_laws u v w hu hv hw).2.1 huv hvw⟩

end Value

end VisibilityRules
