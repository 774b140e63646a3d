import VisibilityRules.Proofs.Value.EqualityLaws

/-!
# Coherence of the order relations

Two values stand to one another in one way: before, level or behind, or in none of these where NaN
takes part. All four order relations ask for that one way, so they never contradict each other, and
values that are level are loosely equal.
-/

namespace VisibilityRules

/-- How two things stand to one another, given which of them lies below the other. -/
def sideOf (below above : Bool) : Ordering :=
  if below then .lt else if above then .gt else .eq

theorem sideOf_eq_eq_iff (below above : Bool) :
    sideOf below above = .eq ↔ below = false ∧ above = false := by
  cases below <;> cases above <;> simp [sideOf]

theorem sideOf_swap {below above : Bool} (h : ¬(below ∧ above)) :
    sideOf above below = (sideOf below above).swap := by
  cases below <;> cases above <;> simp_all [sideOf]

/-- Whether a relation holds of two things that stand to one another in a given way. -/
def Inequality.admits : Inequality → Ordering → Bool
  | .less => Ordering.isLT
  | .lessEqual => Ordering.isLE
  | .greater => Ordering.isGT
  | .greaterEqual => Ordering.isGE

theorem Inequality.holds_eq (relation : Inequality) {below above : Bool} (h : ¬(below ∧ above)) :
    relation.holds below above = relation.admits (sideOf below above) := by
  cases relation <;> cases below <;> cases above <;> simp_all [holds, admits, sideOf]

namespace Place

theorem not_below_both (p q : Place) : ¬(p.below q ∧ q.below p) := by
  rw [below_iff, below_iff]
  exact fun ⟨h, h'⟩ => lt_asymm h h'

theorem eq_iff_not_below (p q : Place) : p = q ↔ p.below q = false ∧ q.below p = false := by
  rw [← Bool.not_eq_true, ← Bool.not_eq_true, below_iff, below_iff, not_lt, not_lt,
    ← value_injective.eq_iff]
  exact ⟨fun h => ⟨h.ge, h.le⟩, fun ⟨h, h'⟩ => le_antisymm h' h⟩

end Place

namespace Number

/-- How two numbers stand to one another; NaN stands to no number in any way. -/
def standing (a b : Number) : Option Ordering :=
  match a.place?, b.place? with
  | some p, some q => some (sideOf (p.below q) (q.below p))
  | _, _ => none

theorem related_eq (relation : Inequality) (a b : Number) :
    related relation a b = (a.standing b).any relation.admits := by
  unfold related standing
  cases a.place? with
  | none => rfl
  | some p =>
    cases b.place? with
    | none => rfl
    | some q => exact relation.holds_eq (p.not_below_both q)

theorem standing_swap (a b : Number) : b.standing a = (a.standing b).map Ordering.swap := by
  unfold standing
  cases a.place? with
  | none => cases b.place? <;> rfl
  | some p =>
    cases b.place? with
    | none => rfl
    | some q => exact congrArg some (sideOf_swap (p.not_below_both q))

theorem standing_eq_eq_iff (a b : Number) : a.standing b = some .eq ↔ a.same b := by
  unfold standing same
  cases a.place? with
  | none => simp
  | some p =>
    cases b.place? with
    | none => simp
    | some q =>
      dsimp only
      rw [Option.some.injEq, sideOf_eq_eq_iff, decide_eq_true_iff, Place.eq_iff_not_below]

theorem same_of_standing {a b : Number} {o : Ordering} (h : a.standing b = some o) :
    a.same b = (o == .eq) := by
  rw [Bool.eq_iff_iff, ← standing_eq_eq_iff, h, Option.some.injEq, beq_iff_eq]

end Number

namespace Value

mutual
/-- How two values stand to one another, where they have an order of their own. -/
def standing? : Value → Value → Option (Option Ordering)
  | .text s, .text t => some (some (sideOf (s < t) (t < s)))
  | .list xs, .list ys => standings? xs ys
  | .tuple xs, .tuple ys => standings? xs ys
  | v, w =>
    match v.count?, w.count? with
    | some a, some b => some (a.standing b)
    | _, _ => none
/-- How two sequences stand to one another: as the first unequal items do, or as the lengths. -/
def standings? : List Value → List Value → Option (Option Ordering)
  | [], [] => some (some .eq)
  | [], _ :: _ => some (some .lt)
  | _ :: _, [] => some (some .gt)
  | x :: xs, y :: ys => if equal x y then standings? xs ys else standing? x y
end

private theorem orderedItems?_eq {relation : Inequality} {xs : List Value}
    (ih : ∀ v ∈ xs, ∀ w, ordered? relation v w = (standing? v w).map (·.any relation.admits))
    (ys : List Value) :
    orderedItems? relation xs ys = (standings? xs ys).map (·.any relation.admits) := by
  induction xs generalizing ys with
  | nil => cases ys <;> cases relation <;> rfl
  | cons x xs ihxs =>
    cases ys with
    | nil => cases relation <;> rfl
    | cons y ys =>
      rw [orderedItems?, standings?]
      split
      · exact ihxs (fun v hv => ih v (List.mem_cons_of_mem _ hv)) ys
      · exact ih x List.mem_cons_self y

private theorem text_not_below_both (s t : String) : ¬(decide (s < t) ∧ decide (t < s)) := by
  rw [decide_eq_true_iff, decide_eq_true_iff]
  exact fun ⟨h, h'⟩ => String.lt_asymm h h'

/-- The order of two values is asked for the way in which they stand to one another. -/
theorem ordered?_eq (relation : Inequality) (v : Value) :
    ∀ w, ordered? relation v w = (standing? v w).map (·.any relation.admits) := by
  induction v using memberInduction with
  | missing | null | map => intro w; cases w <;> rfl
  | bool | int | double =>
    intro w
    cases w <;> simp [ordered?, standing?, count?, number?, Number.related_eq]
  | text s =>
    intro w
    cases w with
    | text t =>
      rw [ordered?, standing?, relation.holds_eq (text_not_below_both s t)]
      rfl
    | _ => rfl
  | list xs ih =>
    intro w
    cases w with
    | list ys => exact orderedItems?_eq ih ys
    | _ => rfl
  | tuple xs ih =>
    intro w
    cases w with
    | tuple ys => exact orderedItems?_eq ih ys
    | _ => rfl

private theorem standings?_swap {xs ys : List Value}
    (ih : ∀ v ∈ xs, ∀ w, v.UniqueKeys → w.UniqueKeys →
      standing? w v = (standing? v w).map (Option.map Ordering.swap))
    (hxs : ∀ v ∈ xs, v.UniqueKeys) (hys : ∀ w ∈ ys, w.UniqueKeys) :
    standings? ys xs = (standings? xs ys).map (Option.map Ordering.swap) := by
  induction xs generalizing ys with
  | nil => cases ys <;> rfl
  | cons x xs ihxs =>
    cases ys with
    | nil => rfl
    | cons y ys =>
      obtain ⟨hx, hxs⟩ := List.forall_mem_cons.mp hxs
      obtain ⟨hy, hys⟩ := List.forall_mem_cons.mp hys
      obtain ⟨ihx, ihrest⟩ := List.forall_mem_cons.mp ih
      rw [standings?, standings?, equal_comm hy hx]
      split
      · exact ihxs ihrest hxs hys
      · exact ihx y hx hy

theorem standing?_swap (v : Value) : ∀ w, v.UniqueKeys → w.UniqueKeys →
    standing? w v = (standing? v w).map (Option.map Ordering.swap) := by
  induction v using memberInduction with
  | missing | null | map => intro w _ _; cases w <;> rfl
  | bool | int | double =>
    intro w _ _
    cases w with
    | bool | int | double => exact congrArg some (Number.standing_swap _ _)
    | _ => rfl
  | text s =>
    intro w _ _
    cases w with
    | text t =>
      rw [standing?, standing?, sideOf_swap (text_not_below_both s t)]
      rfl
    | _ => rfl
  | list xs ih =>
    intro w hv hw
    cases w with
    | list ys => exact standings?_swap ih (fun _ => hv.of_mem_list) fun _ => hw.of_mem_list
    | _ => rfl
  | tuple xs ih =>
    intro w hv hw
    cases w with
    | tuple ys => exact standings?_swap ih (fun _ => hv.of_mem_tuple) fun _ => hw.of_mem_tuple
    | _ => rfl

private theorem equalItems_of_standings? {xs ys : List Value} {o : Ordering}
    (ih : ∀ v ∈ xs, ∀ w o, standing? v w = some (some o) → equal v w = (o == .eq))
    (h : standings? xs ys = some (some o)) : equalItems xs ys = (o == .eq) := by
  induction xs generalizing ys with
  | nil =>
    cases ys <;> cases h <;> rfl
  | cons x xs ihxs =>
    cases ys with
    | nil => cases h; rfl
    | cons y ys =>
      obtain ⟨ihx, ihrest⟩ := List.forall_mem_cons.mp ih
      rw [standings?] at h
      rw [equalItems]
      split at h
      · next hequal => rw [hequal, Bool.true_and, ihxs ihrest h]
      · next hunequal =>
        have hhead := ihx y o h
        rw [Bool.not_eq_true] at hunequal
        rw [hunequal, Bool.false_and, ← hhead, hunequal]

theorem equal_of_standing? (v : Value) :
    ∀ w o, standing? v w = some (some o) → equal v w = (o == .eq) := by
  induction v using memberInduction with
  | missing | null | map => intro w o h; cases w <;> cases h
  | bool | int | double =>
    intro w o h
    cases w with
    | bool | int | double => exact Number.same_of_standing (Option.some.inj h)
    | _ => cases h
  | text s =>
    intro w o h
    cases w with
    | text t =>
      cases h
      rw [equal, Bool.eq_iff_iff, decide_eq_true_iff, beq_iff_eq, sideOf_eq_eq_iff,
        decide_eq_false_iff_not, decide_eq_false_iff_not, String.not_lt, String.not_lt]
      exact ⟨fun h => h ▸ ⟨String.le_refl _, String.le_refl _⟩,
        fun h => String.le_antisymm h.2 h.1⟩
    | _ => cases h
  | list xs ih =>
    intro w o h
    cases w with
    | list ys => exact equalItems_of_standings? ih h
    | _ => cases h
  | tuple xs ih =>
    intro w o h
    cases w with
    | tuple ys => exact equalItems_of_standings? ih h
    | _ => cases h

/-! ### Values without an order of their own -/

/-- How two values stand to one another in a comparison: in their own order, or else in that of the
doubles they count as. -/
def standing (v w : Value) : Except Fault (Option Ordering) :=
  match standing? v w with
  | some o => .ok o
  | none => (doubles v w).map (·.bind fun p => (Number.double p.1).standing (.double p.2))

theorem related_eq (relation : Inequality) (v w : Value) :
    related relation v w = (standing v w).map (·.any relation.admits) := by
  unfold related standing
  rw [ordered?_eq]
  cases standing? v w with
  | some o => rfl
  | none =>
    simp only [Option.map_none, asDoubles_eq]
    rcases doubles v w with f | _ | ⟨x, y⟩
    · rfl
    · rfl
    · simp [Except.map, Number.related_eq]

theorem standing_swap {v w : Value} (hv : v.UniqueKeys) (hw : w.UniqueKeys) :
    standing w v = (standing v w).map (Option.map Ordering.swap) := by
  unfold standing
  rw [standing?_swap v w hv hw]
  cases standing? v w with
  | some o => rfl
  | none =>
    simp only [Option.map_none, doubles_swap v w]
    rcases doubles v w with f | _ | ⟨x, y⟩
    · rfl
    · rfl
    · simp [Except.map, Number.standing_swap (.double x) (.double y)]

/-- Values that count as doubles but have no order of their own are of different kinds, and one of
them is a number or a truth value. -/
theorem of_standing?_eq_none {v w : Value} {x y : Double} (h : standing? v w = none)
    (hx : v.toDouble? = .ok (some x)) (hy : w.toDouble? = .ok (some y)) :
    sameKind v w = false ∧ (v.isCoercive || w.isCoercive) := by
  cases v with
  | missing | null | list | tuple | map => cases hx
  | bool | int | double | text =>
    cases w with
    | missing | null | list | tuple | map => cases hy
    | bool | int | double | text => first | exact ⟨rfl, rfl⟩ | cases h

theorem toDouble?_of_count? {v : Value} {a : Number} (h : v.count? = some a) (ha : a.IsDouble) :
    ∃ x, v.toDouble? = .ok (some x) ∧ x.value? = a.value? := by
  obtain ⟨x, hx, hvalue⟩ := ha.nearest?
  refine ⟨x, ?_, hvalue⟩
  cases v with
  | bool | double =>
    cases h
    exact congrArg Except.ok hx
  | int n =>
    cases h
    have hn : Double.ofInt? n = some x := hx
    rw [toDouble?, hn]
  | _ => cases h

theorem isDouble_of_bool {b : Bool} {a : Number} (h : (bool b).count? = some a) : a.IsDouble := by
  cases h
  apply Number.isDouble_of_natAbs_le
  cases b <;> decide

private theorem kind_or_counts_of_equal {v w : Value} (h : equal v w) :
    sameKind v w ∨ ∃ a b, v.count? = some a ∧ w.count? = some b ∧ a.Equals b := by
  cases v with
  | bool | int | double =>
    rw [equal, sameCount_iff] at h
    exact .inr h
  | _ => cases w <;> first | exact .inl rfl | simp [equal] at h

theorem looseEqual_of_equal {v w : Value} (h : equal v w) : looseEqual v w = .ok true := by
  cases hstrict : strictEqual v w with
  | true => rw [looseEqual, if_pos hstrict]
  | false =>
    have hkind : ¬sameKind v w := by
      rw [strictEqual_eq, h, Bool.and_true] at hstrict
      simp [hstrict]
    obtain ⟨a, b, ha, hb, hequals⟩ := (kind_or_counts_of_equal h).resolve_left hkind
    -- one side is a truth value, so the number on the other side is zero or one
    have hdouble : a.IsDouble := by
      rcases count?_cases ha with ⟨c, rfl⟩ | ha'
      · exact isDouble_of_bool ha
      · rcases count?_cases hb with ⟨c, rfl⟩ | hb'
        · exact (isDouble_of_bool hb).of_equals hequals.symm
        · have hequal := (strictEqual_numbers_iff ha' hb').mpr hequals
          rw [hstrict] at hequal
          exact absurd hequal Bool.false_ne_true
    obtain ⟨x, hx, hxa⟩ := toDouble?_of_count? ha hdouble
    obtain ⟨y, hy, hyb⟩ := toDouble?_of_count? hb (hdouble.of_equals hequals)
    obtain ⟨r, har, hbr⟩ := hequals
    have hsame : (Number.double x).same (.double y) :=
      (Number.same_iff _ _).mpr ⟨r, hxa.trans har, hyb.trans hbr⟩
    rw [looseEqual_eq_true_iff hstrict, asDoubles_eq_true_iff]
    refine ⟨?_, x, y, hx, hy, hsame⟩
    simp [isCoercive, ha]

private theorem standing_cases {v w : Value} {o : Ordering} (h : standing v w = .ok (some o)) :
    standing? v w = some (some o) ∨ standing? v w = none ∧ ∃ x y, v.toDouble? = .ok (some x) ∧
      w.toDouble? = .ok (some y) ∧ (Number.double x).standing (.double y) = some o := by
  unfold standing at h
  cases hown : standing? v w with
  | some own =>
    rw [hown] at h
    cases h
    exact .inl rfl
  | none =>
    rw [hown] at h
    rcases hdoubles : doubles v w with f | _ | ⟨x, y⟩
    · simp [hdoubles, Except.map] at h
    · simp [hdoubles, Except.map] at h
    · obtain ⟨hx, hy⟩ := (doubles_eq_some_iff v w x y).mp hdoubles
      rw [hdoubles] at h
      exact .inr ⟨rfl, x, y, hx, hy, Except.ok.inj h⟩

theorem looseEqual_of_standing {v w : Value} (h : standing v w = .ok (some .eq)) :
    looseEqual v w = .ok true := by
  rcases standing_cases h with hown | ⟨hnone, x, y, hx, hy, hdoubles⟩
  · exact looseEqual_of_equal (equal_of_standing? v w _ hown)
  · obtain ⟨hkind, hcoercive⟩ := of_standing?_eq_none hnone hx hy
    have hstrict : strictEqual v w = false := by rw [strictEqual_eq, hkind, Bool.false_and]
    have hsame := (Number.standing_eq_eq_iff _ _).mp hdoubles
    rw [looseEqual_eq_true_iff hstrict, asDoubles_eq_true_iff]
    exact ⟨hcoercive, x, y, hx, hy, hsame⟩

theorem not_strictEqual_of_standing {v w : Value} {o : Ordering} (h : standing v w = .ok (some o))
    (ho : o ≠ .eq) : strictEqual v w = false := by
  rw [strictEqual_eq]
  rcases standing_cases h with hown | ⟨hnone, x, y, hx, hy, _⟩
  · rw [equal_of_standing? v w o hown, beq_false_of_ne ho, Bool.and_false]
  · rw [(of_standing?_eq_none hnone hx hy).1, Bool.false_and]

end Value

/-- The relation that holds of two things in turned order. -/
def Inequality.flip : Inequality → Inequality
  | .less => .greater
  | .lessEqual => .greaterEqual
  | .greater => .less
  | .greaterEqual => .lessEqual

theorem Inequality.admits_flip (relation : Inequality) (o : Ordering) :
    relation.flip.admits o.swap = relation.admits o := by
  cases relation <;> cases o <;> rfl

namespace Value

/-- Turning an order relation round and exchanging its sides gives the same answer or failure. -/
theorem related_flip (relation : Inequality) {v w : Value} (hv : v.UniqueKeys) (hw : w.UniqueKeys) :
    related relation v w = related relation.flip w v := by
  rw [related_eq, related_eq, standing_swap hv hw]
  rcases standing v w with f | _ | o
  · rfl
  · rfl
  · simp [Except.map, Inequality.admits_flip]

theorem related_eq_true_iff (relation : Inequality) (v w : Value) :
    related relation v w = .ok true ↔ ∃ o, standing v w = .ok (some o) ∧ relation.admits o := by
  rw [related_eq]
  rcases standing v w with f | _ | o
  · simp [Except.map]
  · simp [Except.map]
  · simp [Except.map]

theorem related_of_standing (relation : Inequality) {v w : Value} {o : Ordering}
    (h : standing v w = .ok (some o)) : related relation v w = .ok (relation.admits o) := by
  rw [related_eq, h]
  rfl

end Value

/-- The order relations are coherent. Each of them gives the same answer or failure as the opposite
one on exchanged sides. A value that is less than another is also less or equal, is not greater and
is not strictly equal; and one that is less or equal but not less is loosely equal. -/
theorem Operator.order_coherent (v w : Value) (hv : v.UniqueKeys) (hw : w.UniqueKeys) :
    less.compare v w = greater.compare w v ∧
      lessEqual.compare v w = greaterEqual.compare w v ∧
      (less.compare v w = .ok true → lessEqual.compare v w = .ok true ∧
        greater.compare v w = .ok false ∧ strictEqual.compare v w = .ok false) ∧
      (lessEqual.compare v w = .ok true → less.compare v w ≠ .ok true →
        looseEqual.compare v w = .ok true) := by
  refine ⟨Value.related_flip .less hv hw, Value.related_flip .lessEqual hv hw, ?_, ?_⟩
  · intro h
    obtain ⟨o, hstanding, ho⟩ := (Value.related_eq_true_iff .less v w).mp h
    obtain rfl : o = .lt := by cases o <;> first | rfl | cases ho
    exact ⟨Value.related_of_standing .lessEqual hstanding,
      Value.related_of_standing .greater hstanding,
      congrArg Except.ok (Value.not_strictEqual_of_standing hstanding (by decide))⟩
  · intro h hless
    obtain ⟨o, hstanding, ho⟩ := (Value.related_eq_true_iff .lessEqual v w).mp h
    cases o with
    | lt => exact absurd (Value.related_of_standing .less hstanding) hless
    | eq => exact Value.looseEqual_of_standing hstanding
    | gt => cases ho

theorem Operator.sizes_in_order :
    let v : Value := .tuple [.int 9007199254740993, .map [("unit", .text "px")]]
    let w : Value := .tuple [.double (.finite false 0x4340000000000001), .null]
    (v.UniqueKeys ∧ w.UniqueKeys) ∧ less.compare v w = .ok true ∧ lessEqual.compare v w = .ok true ∧
      greater.compare v w = .ok false ∧ strictEqual.compare v w = .ok false := by
  intro v w
  have hunit : (Value.map [("unit", .text "px")]).UniqueKeys :=
    .map (by decide) (by simp [Value.UniqueKeys.text])
  have hv : v.UniqueKeys := .tuple (by simp [Value.UniqueKeys.int, hunit])
  have hw : w.UniqueKeys := .tuple (by simp [Value.UniqueKeys.double, Value.UniqueKeys.null])
  have hless : less.compare v w = .ok true := by decide +kernel
  exact ⟨⟨hv, hw⟩, hless, (order_coherent v w hv hw).2.2.1 hless⟩

end VisibilityRules
