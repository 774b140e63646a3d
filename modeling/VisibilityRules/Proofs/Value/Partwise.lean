import VisibilityRules.Proofs.Number.Line
import VisibilityRules.Proofs.Value.NormalForm

/-!
# Equality part by part

Values are equal part by part: items by position, entries by key, and numbers by the extended reals
that they stand for. Strict equality keeps a truth value apart from a number at the top only; inside
containers a truth value counts as zero or one.
-/

namespace VisibilityRules

/-- Kinds of values, with integers and doubles as one kind. -/
inductive Family where
  | missing
  | null
  | bool
  | number
  | text
  | list
  | tuple
  | map
deriving DecidableEq, Repr

namespace Value

def family : Value → Family
  | .missing => .missing
  | .null => .null
  | .bool _ => .bool
  | .int _ => .number
  | .double _ => .number
  | .text _ => .text
  | .list _ => .list
  | .tuple _ => .tuple
  | .map _ => .map

theorem sameKind_iff (v w : Value) : sameKind v w ↔ v.family = w.family := by
  cases v <;> cases w <;> simp [sameKind, family]

/-- The values in which no mapping repeats a key. -/
inductive UniqueKeys : Value → Prop
  | missing : UniqueKeys .missing
  | null : UniqueKeys .null
  | bool (b : Bool) : UniqueKeys (.bool b)
  | int (n : Int) : UniqueKeys (.int n)
  | double (x : Double) : UniqueKeys (.double x)
  | text (s : String) : UniqueKeys (.text s)
  | list {items : List Value} (members : ∀ v ∈ items, UniqueKeys v) : UniqueKeys (.list items)
  | tuple {items : List Value} (members : ∀ v ∈ items, UniqueKeys v) : UniqueKeys (.tuple items)
  | map {entries : Table Value} (keys : (Table.keys entries).Nodup)
      (members : ∀ e ∈ entries, UniqueKeys e.2) : UniqueKeys (.map entries)

theorem UniqueKeys.of_mem_list {items : List Value} (h : (Value.list items).UniqueKeys) {v : Value}
    (hv : v ∈ items) : v.UniqueKeys := by
  cases h with | list members => exact members v hv

theorem UniqueKeys.of_mem_tuple {items : List Value} (h : (Value.tuple items).UniqueKeys)
    {v : Value} (hv : v ∈ items) : v.UniqueKeys := by
  cases h with | tuple members => exact members v hv

theorem UniqueKeys.of_mem_map {entries : Table Value} (h : (Value.map entries).UniqueKeys)
    {e : String × Value} (he : e ∈ entries) : e.2.UniqueKeys := by
  cases h with | map keys members => exact members e he

theorem UniqueKeys.nodup {entries : Table Value} (h : (Value.map entries).UniqueKeys) :
    (Table.keys entries).Nodup := by
  cases h with | map keys members => exact keys

/-- Equality part by part, where `count` says which values are numbers: lists and tuples by
position, mappings by key, numbers by what they stand for. -/
inductive PartwiseEqual (count : Value → Option Number) : Value → Value → Prop
  | missing : PartwiseEqual count .missing .missing
  | null : PartwiseEqual count .null .null
  | bool (b : Bool) : PartwiseEqual count (.bool b) (.bool b)
  | number {v w : Value} {a b : Number} (left : count v = some a) (right : count w = some b)
      (equals : a.Equals b) : PartwiseEqual count v w
  | text (s : String) : PartwiseEqual count (.text s) (.text s)
  | list {xs ys : List Value} (length : xs.length = ys.length)
      (items : ∀ (i : Nat) (v w : Value), xs[i]? = some v → ys[i]? = some w →
        PartwiseEqual count v w) : PartwiseEqual count (.list xs) (.list ys)
  | tuple {xs ys : List Value} (length : xs.length = ys.length)
      (items : ∀ (i : Nat) (v w : Value), xs[i]? = some v → ys[i]? = some w →
        PartwiseEqual count v w) : PartwiseEqual count (.tuple xs) (.tuple ys)
  | map {xs ys : Table Value} (keys : ∀ k, k ∈ Table.keys xs ↔ k ∈ Table.keys ys)
      (values : ∀ k v w, Table.get? xs k = some v → Table.get? ys k = some w →
        PartwiseEqual count v w) : PartwiseEqual count (.map xs) (.map ys)

/-! ### Plain equality -/

theorem equalItems_iff (xs ys : List Value) : equalItems xs ys ↔ xs.length = ys.length ∧
    ∀ (i : Nat) (v w : Value), xs[i]? = some v → ys[i]? = some w → equal v w := by
  induction xs generalizing ys with
  | nil => cases ys <;> simp [equalItems]
  | cons x xs ih =>
    cases ys with
    | nil => simp [equalItems]
    | cons y ys =>
      rw [equalItems, Bool.and_eq_true, ih]
      constructor
      · rintro ⟨hhead, hlength, htail⟩
        refine ⟨by simp [hlength], ?_⟩
        rintro (_ | i) v w hv hw
        · cases hv
          cases hw
          exact hhead
        · exact htail i v w hv hw
      · rintro ⟨hlength, hitems⟩
        exact ⟨hitems 0 x y rfl rfl, by simpa using hlength, fun i => hitems (i + 1)⟩

theorem equalEntries_iff (xs ys : Table Value) : equalEntries xs ys ↔
    ∀ e ∈ xs, ∃ w, Table.get? ys e.1 = some w ∧ equal e.2 w := by
  rw [equalEntries_eq_all, List.all_eq_true]
  refine forall₂_congr fun e _ => ?_
  unfold matchedIn
  cases Table.get? ys e.1 <;> simp

theorem equal_map_iff {xs ys : Table Value} (hxs : (Table.keys xs).Nodup)
    (hys : (Table.keys ys).Nodup) : equal (.map xs) (.map ys) ↔
      (∀ k, k ∈ Table.keys xs ↔ k ∈ Table.keys ys) ∧
        ∀ k v w, Table.get? xs k = some v → Table.get? ys k = some w → equal v w := by
  have hlength (t : Table Value) : (Table.keys t).length = t.length := List.length_map _
  rw [equal, Bool.and_eq_true, decide_eq_true_iff, equalEntries_iff]
  constructor
  · rintro ⟨hsize, hentries⟩
    have hsubset : Table.keys xs ⊆ Table.keys ys := by
      intro k hk
      obtain ⟨e, he, rfl⟩ := List.mem_map.mp hk
      obtain ⟨w, hw, _⟩ := hentries e he
      have hkey := Table.mem_keys_of_mem (Table.mem_of_get?_eq_some hw)
      exact hkey
    have hperm : (Table.keys xs).Perm (Table.keys ys) := by
      refine (List.subperm_of_subset hxs hsubset).perm_of_length_le ?_
      rw [hlength, hlength, hsize]
    refine ⟨fun k => hperm.mem_iff, fun k v w hv hw => ?_⟩
    obtain ⟨w', hw', hequal⟩ := hentries (k, v) (Table.mem_of_get?_eq_some hv)
    rw [hw, Option.some.injEq] at hw'
    exact hw' ▸ hequal
  · rintro ⟨hkeys, hvalues⟩
    have hperm := (List.perm_ext_iff_of_nodup hxs hys).mpr hkeys
    refine ⟨by rw [← hlength, ← hlength, hperm.length_eq], fun e he => ?_⟩
    have hmem := (hkeys e.1).mp (Table.mem_keys_of_mem he)
    obtain ⟨w, hw⟩ := Option.isSome_iff_exists.mp (Table.isSome_get?_iff.mpr hmem)
    exact ⟨w, hw, hvalues e.1 e.2 w (Table.get?_of_mem hxs he) hw⟩

theorem sameCount_iff (v w : Value) : sameCount v w ↔
    ∃ a b, v.count? = some a ∧ w.count? = some b ∧ a.Equals b := by
  unfold sameCount
  cases v.count? <;> cases w.count? <;> simp [Number.same_iff]

private theorem equal_of_count? {v w : Value} {a : Number} (h : v.count? = some a) :
    equal v w = sameCount v w := by
  cases v with
  | bool | int | double => rw [equal]
  | _ => simp [count?, number?] at h

theorem PartwiseEqual.equal {v w : Value} (h : PartwiseEqual count? v w) (hv : v.UniqueKeys)
    (hw : w.UniqueKeys) : equal v w := by
  induction h with
  | missing | null => rfl
  | text s => simp [Value.equal]
  | bool b =>
    rw [Value.equal, sameCount_iff]
    exact ⟨_, _, rfl, rfl, (Number.equals_self_iff _).mpr (by simp)⟩
  | number left right equals =>
    rw [equal_of_count? left, sameCount_iff]
    exact ⟨_, _, left, right, equals⟩
  | list length items ih =>
    rw [Value.equal, equalItems_iff]
    refine ⟨length, fun i v w hget hget' => ?_⟩
    exact ih i v w hget hget' (hv.of_mem_list (List.mem_of_getElem? hget))
      (hw.of_mem_list (List.mem_of_getElem? hget'))
  | tuple length items ih =>
    rw [Value.equal, equalItems_iff]
    refine ⟨length, fun i v w hget hget' => ?_⟩
    exact ih i v w hget hget' (hv.of_mem_tuple (List.mem_of_getElem? hget))
      (hw.of_mem_tuple (List.mem_of_getElem? hget'))
  | map keys values ih =>
    rw [equal_map_iff hv.nodup hw.nodup]
    refine ⟨keys, fun k v w hget hget' => ?_⟩
    exact ih k v w hget hget' (hv.of_mem_map (Table.mem_of_get?_eq_some hget))
      (hw.of_mem_map (Table.mem_of_get?_eq_some hget'))

private theorem items_of_equal {xs ys : List Value}
    (ih : ∀ v ∈ xs, ∀ w, v.UniqueKeys → w.UniqueKeys → Value.equal v w → PartwiseEqual count? v w)
    (hxs : ∀ v ∈ xs, v.UniqueKeys) (hys : ∀ w ∈ ys, w.UniqueKeys) (h : equalItems xs ys) :
    xs.length = ys.length ∧ ∀ (i : Nat) (v w : Value), xs[i]? = some v → ys[i]? = some w →
      PartwiseEqual count? v w := by
  obtain ⟨length, items⟩ := (equalItems_iff xs ys).mp h
  refine ⟨length, fun i v w hv hw => ?_⟩
  have hmem := List.mem_of_getElem? hv
  exact ih v hmem w (hxs v hmem) (hys w (List.mem_of_getElem? hw)) (items i v w hv hw)

theorem partwiseEqual_of_equal (v : Value) :
    ∀ w, v.UniqueKeys → w.UniqueKeys → equal v w → PartwiseEqual count? v w := by
  induction v using memberInduction with
  | missing | null | text =>
    intro w _ _ h
    cases w <;> simp [equal] at h
    first | exact .missing | exact .null | exact h ▸ .text _
  | bool | int | double =>
    intro w _ _ h
    rw [equal, sameCount_iff] at h
    obtain ⟨a, b, ha, hb, hequals⟩ := h
    exact .number ha hb hequals
  | list xs ih =>
    intro w hv hw h
    cases w with
    | list ys =>
      obtain ⟨length, items⟩ :=
        items_of_equal ih (fun _ => hv.of_mem_list) (fun _ => hw.of_mem_list) h
      exact .list length items
    | _ => simp [equal] at h
  | tuple xs ih =>
    intro w hv hw h
    cases w with
    | tuple ys =>
      obtain ⟨length, items⟩ :=
        items_of_equal ih (fun _ => hv.of_mem_tuple) (fun _ => hw.of_mem_tuple) h
      exact .tuple length items
    | _ => simp [equal] at h
  | map xs ih =>
    intro w hv hw h
    cases w with
    | map ys =>
      obtain ⟨keys, values⟩ := (equal_map_iff hv.nodup hw.nodup).mp h
      refine .map keys fun k x y hx hy => ?_
      have hmem := Table.mem_of_get?_eq_some hx
      have hmem' := Table.mem_of_get?_eq_some hy
      exact ih (k, x) hmem y (hv.of_mem_map hmem) (hw.of_mem_map hmem') (values k x y hx hy)
    | _ => simp [equal] at h

/-- Plain equality is equality part by part, where a truth value is the number it counts as. -/
theorem equal_iff {v w : Value} (hv : v.UniqueKeys) (hw : w.UniqueKeys) :
    equal v w ↔ PartwiseEqual count? v w :=
  ⟨partwiseEqual_of_equal v w hv hw, fun h => h.equal hv hw⟩

/-! ### Strict equality -/

/-- Whether a truth value stands in one value where a number stands in the other. -/
inductive Mixed : Value → Value → Prop
  | left {b : Bool} {w : Value} {a : Number} (number : w.number? = some a) : Mixed (.bool b) w
  | right {v : Value} {b : Bool} {a : Number} (number : v.number? = some a) : Mixed v (.bool b)
  | list {xs ys : List Value} {i : Nat} {v w : Value} (left : xs[i]? = some v)
      (right : ys[i]? = some w) (part : Mixed v w) : Mixed (.list xs) (.list ys)
  | tuple {xs ys : List Value} {i : Nat} {v w : Value} (left : xs[i]? = some v)
      (right : ys[i]? = some w) (part : Mixed v w) : Mixed (.tuple xs) (.tuple ys)
  | map {xs ys : Table Value} {k : String} {v w : Value} (left : Table.get? xs k = some v)
      (right : Table.get? ys k = some w) (part : Mixed v w) : Mixed (.map xs) (.map ys)

private theorem count?_of_number? {v : Value} {a : Number} (h : v.number? = some a) :
    v.count? = some a := by
  cases v <;> simp_all [number?, count?]

private theorem PartwiseEqual.counted {v w : Value} (h : PartwiseEqual number? v w) :
    PartwiseEqual count? v w ∧ ¬Mixed v w := by
  induction h with
  | missing => exact ⟨.missing, by rintro ⟨⟩⟩
  | null => exact ⟨.null, by rintro ⟨⟩⟩
  | text s => exact ⟨.text s, by rintro ⟨⟩⟩
  | bool b =>
    refine ⟨.bool b, fun h => ?_⟩
    cases h with
    | left number => cases number
    | right number => cases number
  | number left right equals =>
    refine ⟨.number (count?_of_number? left) (count?_of_number? right) equals, fun h => ?_⟩
    cases h with
    | left | right | list | tuple | map => simp_all [number?]
  | list length items ih =>
    refine ⟨.list length fun i v w hv hw => (ih i v w hv hw).1, fun h => ?_⟩
    cases h with
    | list left right part => exact (ih _ _ _ left right).2 part
  | tuple length items ih =>
    refine ⟨.tuple length fun i v w hv hw => (ih i v w hv hw).1, fun h => ?_⟩
    cases h with
    | tuple left right part => exact (ih _ _ _ left right).2 part
  | map keys values ih =>
    refine ⟨.map keys fun k v w hv hw => (ih k v w hv hw).1, fun h => ?_⟩
    cases h with
    | map left right part => exact (ih _ _ _ left right).2 part

theorem count?_cases {v : Value} {a : Number} (h : v.count? = some a) :
    (∃ b, v = .bool b) ∨ v.number? = some a := by
  cases v with
  | bool b => exact .inl ⟨b, rfl⟩
  | _ => exact .inr h

private theorem bool_eq_of_equals {b c : Bool} {m n : Number} (hb : (bool b).count? = some m)
    (hc : (bool c).count? = some n) (h : m.Equals n) : b = c := by
  have hequal : equal (.bool b) (.bool c) := by
    rw [equal, sameCount_iff]
    exact ⟨m, n, hb, hc, h⟩
  have hstrict : strictEqual (.bool b) (.bool c) := by
    rw [strictEqual_eq, hequal]
    rfl
  simpa [strictEqual] using hstrict

private theorem PartwiseEqual.uncounted {v w : Value} (h : PartwiseEqual count? v w)
    (hpure : ¬Mixed v w) : PartwiseEqual number? v w := by
  induction h with
  | missing => exact .missing
  | null => exact .null
  | text s => exact .text s
  | bool b => exact .bool b
  | number left right equals =>
    rcases count?_cases left with ⟨b, rfl⟩ | left'
    · rcases count?_cases right with ⟨c, rfl⟩ | right'
      · exact bool_eq_of_equals left right equals ▸ .bool b
      · exact absurd (.left right') hpure
    · rcases count?_cases right with ⟨c, rfl⟩ | right'
      · exact absurd (.right left') hpure
      · exact .number left' right' equals
  | list length items ih =>
    exact .list length fun i v w hv hw => ih i v w hv hw fun part => hpure (.list hv hw part)
  | tuple length items ih =>
    exact .tuple length fun i v w hv hw => ih i v w hv hw fun part => hpure (.tuple hv hw part)
  | map keys values ih =>
    exact .map keys fun k v w hv hw => ih k v w hv hw fun part => hpure (.map hv hw part)

/-- Equality part by part that keeps truth values apart from numbers is the other one where none
stands in the place of the other. -/
theorem partwiseEqual_number?_iff (v w : Value) :
    PartwiseEqual number? v w ↔ PartwiseEqual count? v w ∧ ¬Mixed v w :=
  ⟨fun h => h.counted, fun ⟨h, hpure⟩ => h.uncounted hpure⟩

theorem strictEqual_iff {v w : Value} (hv : v.UniqueKeys) (hw : w.UniqueKeys) :
    strictEqual v w ↔ v.family = w.family ∧ PartwiseEqual count? v w := by
  rw [strictEqual_eq, Bool.and_eq_true, sameKind_iff, equal_iff hv hw]

private theorem family_of_number? {v : Value} {a : Number} (h : v.number? = some a) :
    v.family = .number := by
  cases v <;> simp_all [number?, family]

private theorem PartwiseEqual.family_eq {v w : Value} (h : PartwiseEqual number? v w) :
    v.family = w.family := by
  cases h with
  | number left right equals => rw [family_of_number? left, family_of_number? right]
  | _ => rfl

/-- Two values of one family that are equal part by part only because some truth value counts as a
number. -/
def Confused (v w : Value) : Prop :=
  v.family = w.family ∧ PartwiseEqual count? v w ∧ Mixed v w

private theorem strictEqual_iff_or {v w : Value} (hv : v.UniqueKeys) (hw : w.UniqueKeys) :
    strictEqual v w ↔ PartwiseEqual number? v w ∨ Confused v w := by
  rw [strictEqual_iff hv hw]
  constructor
  · rintro ⟨hfamily, hparts⟩
    by_cases hmixed : Mixed v w
    · exact .inr ⟨hfamily, hparts, hmixed⟩
    · exact .inl ((partwiseEqual_number?_iff v w).mpr ⟨hparts, hmixed⟩)
  · rintro (hparts | ⟨hfamily, hparts, _⟩)
    · exact ⟨hparts.family_eq, hparts.counted.1⟩
    · exact ⟨hfamily, hparts⟩

private theorem among_iff {items : List Value} {v : Value} (hv : v.UniqueKeys)
    (hitems : ∀ w ∈ items, w.UniqueKeys) :
    among items v ↔ ∃ w ∈ items, PartwiseEqual number? w v ∨ Confused w v := by
  rw [among, List.any_eq_true]
  refine exists_congr fun w => and_congr_right fun hw => ?_
  exact strictEqual_iff_or (hitems w hw) hv

/-- What strict equality and the operators built on it identify. Two values are strictly equal
exactly if they are of one family and equal part by part, or if they are confused: the same but for
truth values in containers that stand where the other value has zero or one. Values that are equal
part by part are never confused, so the two descriptions agree exactly where no values are
confused. -/
theorem strictEqual_by_parts (v w : Value) (items : List Value) (hv : v.UniqueKeys)
    (hw : w.UniqueKeys) (hitems : ∀ x ∈ items, x.UniqueKeys) :
    (PartwiseEqual number? v w → v.family = w.family) ∧
      (strictEqual v w ↔ PartwiseEqual number? v w ∨ Confused v w) ∧
      ((strictEqual v w ↔ PartwiseEqual number? v w) ↔ ¬Confused v w) ∧
      Operator.strictEqual.compare v w = .ok (strictEqual v w) ∧
      Operator.strictNotEqual.compare v w = .ok (!strictEqual v w) ∧
      (Operator.isIn.compare v (.list items) = .ok true ↔
        ∃ x ∈ items, PartwiseEqual number? x v ∨ Confused x v) ∧
      (Operator.contains.compare (.list items) v = .ok true ↔
        ∃ x ∈ items, PartwiseEqual number? x v ∨ Confused x v) := by
  have hstrict := strictEqual_iff_or hv hw
  have hamong := among_iff hv hitems
  have hexclusive : PartwiseEqual number? v w → ¬Confused v w :=
    fun hparts hconfused => hparts.counted.2 hconfused.2.2
  refine ⟨fun h => h.family_eq, hstrict, ?_, rfl, rfl, ?_, ?_⟩
  · rw [hstrict]
    tauto
  · rw [← hamong]
    simp [Operator.compare, listed]
  · rw [← hamong]
    simp [Operator.compare, listed]

theorem boxed_size_listed :
    let v : Value := .map [("on", .bool true), ("size", .int 1)]
    let w : Value := .map [("size", .double (.finite false 0x3FF0000000000000)), ("on", .bool true)]
    (v.UniqueKeys ∧ w.UniqueKeys) ∧
      ∃ x ∈ [Value.null, w], PartwiseEqual number? x v ∨ Confused x v := by
  intro v w
  have hv : v.UniqueKeys := .map (by decide) (by simp [UniqueKeys.bool, UniqueKeys.int])
  have hw : w.UniqueKeys := .map (by decide) (by simp [UniqueKeys.bool, UniqueKeys.double])
  have hitems : ∀ x ∈ [Value.null, w], x.UniqueKeys := by simp [UniqueKeys.null, hw]
  have hlisted : Operator.isIn.compare v (.list [.null, w]) = .ok true := by decide +kernel
  exact ⟨⟨hv, hw⟩, (strictEqual_by_parts v w _ hv hw hitems).2.2.2.2.2.1.mp hlisted⟩

/-- Strict equality takes a list of a truth value for a list of a number. -/
theorem strictEqual_mixes_lists :
    strictEqual (.list [.bool true]) (.list [.int 1]) ∧
      ¬PartwiseEqual number? (.list [.bool true]) (.list [.int 1]) := by
  refine ⟨by decide +kernel, fun h => ?_⟩
  have hmixed : Mixed (.list [.bool true]) (.list [.int 1]) :=
    .list (show [Value.bool true][0]? = _ from rfl) rfl (.left rfl)
  exact h.counted.2 hmixed

end Value

end VisibilityRules
