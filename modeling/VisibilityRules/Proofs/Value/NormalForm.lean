import VisibilityRules.Proofs.Table
import VisibilityRules.Settings
import VisibilityRules.Comparison

/-!
# Normal forms of values

Two values are the same up to the order of entries, at any depth, if they have the same normal form,
in which the entries of every mapping stand in ascending order of their keys. No comparison sees the
difference between a value and its normal form, on either side, and neither does a lookup.
-/

namespace VisibilityRules.Value

/-- Induction on values: a container may assume the statement of all its members. -/
theorem memberInduction {motive : Value → Prop} (missing : motive .missing) (null : motive .null)
    (bool : ∀ b, motive (.bool b)) (int : ∀ n, motive (.int n)) (double : ∀ x, motive (.double x))
    (text : ∀ s, motive (.text s))
    (list : ∀ items, (∀ v ∈ items, motive v) → motive (.list items))
    (tuple : ∀ items, (∀ v ∈ items, motive v) → motive (.tuple items))
    (map : ∀ entries, (∀ e ∈ entries, motive e.2) → motive (.map entries)) : ∀ v, motive v
  | .missing => missing
  | .null => null
  | .bool b => bool b
  | .int n => int n
  | .double x => double x
  | .text s => text s
  | .list items => list items fun v _ =>
      memberInduction missing null bool int double text list tuple map v
  | .tuple items => tuple items fun v _ =>
      memberInduction missing null bool int double text list tuple map v
  | .map entries => map entries fun e he =>
      have : sizeOf e.2 < sizeOf entries := by
        have hmem := List.sizeOf_lt_of_mem he
        obtain ⟨k, v⟩ := e
        rw [Prod.mk.sizeOf_spec] at hmem
        change sizeOf v < sizeOf entries
        omega
      memberInduction missing null bool int double text list tuple map e.2

mutual
/-- A value with the entries of all its mappings in ascending order of their keys. -/
def normal : Value → Value
  | .list items => .list (normals items)
  | .tuple items => .tuple (normals items)
  | .map entries => .map (Table.sorted (normalEntries entries))
  | v => v
def normals : List Value → List Value
  | [] => []
  | item :: rest => normal item :: normals rest
def normalEntries : List (String × Value) → List (String × Value)
  | [] => []
  | (key, item) :: rest => (key, normal item) :: normalEntries rest
end

theorem normals_eq (items : List Value) : normals items = items.map normal := by
  induction items with
  | nil => rfl
  | cons item rest ih => rw [normals, ih, List.map_cons]

theorem normalEntries_eq (entries : Table Value) :
    normalEntries entries = Table.mapValues normal entries := by
  induction entries with
  | nil => rfl
  | cons e rest ih => rw [normalEntries, ih, Table.mapValues_cons]

@[simp] theorem normal_missing : normal .missing = .missing := rfl
@[simp] theorem normal_null : normal .null = .null := rfl
@[simp] theorem normal_bool (b : Bool) : normal (.bool b) = .bool b := rfl
@[simp] theorem normal_int (n : Int) : normal (.int n) = .int n := rfl
@[simp] theorem normal_double (x : Double) : normal (.double x) = .double x := rfl
@[simp] theorem normal_text (s : String) : normal (.text s) = .text s := rfl

@[simp] theorem normal_list (items : List Value) : normal (.list items) = .list (items.map normal) := by
  rw [normal, normals_eq]

@[simp] theorem normal_tuple (items : List Value) :
    normal (.tuple items) = .tuple (items.map normal) := by
  rw [normal, normals_eq]

@[simp] theorem normal_map (entries : Table Value) :
    normal (.map entries) = .map (Table.mapValues normal (Table.sorted entries)) := by
  rw [normal, normalEntries_eq, Table.sorted_mapValues]

theorem get?_normalEntries (entries : Table Value) (k : String) :
    Table.get? (Table.mapValues normal (Table.sorted entries)) k =
      (Table.get? entries k).map normal := by
  rw [Table.get?_mapValues, Table.get?_sorted]

@[simp] theorem isMissing_normal (v : Value) : (normal v).isMissing = v.isMissing := by
  cases v <;> rfl

@[simp] theorem count?_normal (v : Value) : (normal v).count? = v.count? := by
  cases v <;> rfl

@[simp] theorem isCoercive_normal (v : Value) : (normal v).isCoercive = v.isCoercive := by
  rw [isCoercive, isCoercive, count?_normal]

@[simp] theorem isAbsent_normal (v : Value) : (normal v).isAbsent = v.isAbsent := by
  cases v <;> rfl

@[simp] theorem toDouble?_normal (v : Value) : (normal v).toDouble? = v.toDouble? := by
  cases v <;> rfl

/-! ### Plain equality -/

private theorem equalItems_normals_left {xs : List Value}
    (h : ∀ v ∈ xs, ∀ w, equal (normal v) w = equal v w) (ys : List Value) :
    equalItems (xs.map normal) ys = equalItems xs ys := by
  induction xs generalizing ys with
  | nil => rfl
  | cons x rest ih =>
    cases ys with
    | nil => simp [equalItems]
    | cons y ys =>
      have hx := h x List.mem_cons_self y
      have hrest := ih (fun v hv => h v (List.mem_cons_of_mem _ hv)) ys
      rw [List.map_cons, equalItems, equalItems, hx, hrest]

private theorem equalItems_normals_right {xs : List Value}
    (h : ∀ v ∈ xs, ∀ w, equal v (normal w) = equal v w) (ys : List Value) :
    equalItems xs (ys.map normal) = equalItems xs ys := by
  induction xs generalizing ys with
  | nil => cases ys <;> rfl
  | cons x rest ih =>
    cases ys with
    | nil => rfl
    | cons y ys =>
      have hx := h x List.mem_cons_self y
      have hrest := ih (fun v hv => h v (List.mem_cons_of_mem _ hv)) ys
      rw [List.map_cons, equalItems, equalItems, hx, hrest]

/-- Whether a mapping holds an equal value under the key of an entry. -/
def matchedIn (ys : Table Value) (e : String × Value) : Bool :=
  match Table.get? ys e.1 with
  | some y => equal e.2 y
  | none => false

private theorem equalEntries_cons (x : String × Value) (xs ys : Table Value) :
    equalEntries (x :: xs) ys = (matchedIn ys x && equalEntries xs ys) := rfl

theorem equalEntries_eq_all (xs ys : Table Value) : equalEntries xs ys = xs.all (matchedIn ys) := by
  induction xs with
  | nil => rfl
  | cons x rest ih => rw [equalEntries_cons, ih, List.all_cons]

private theorem equalEntries_perm {xs zs : Table Value} (h : xs.Perm zs) (ys : Table Value) :
    equalEntries xs ys = equalEntries zs ys := by
  rw [equalEntries_eq_all, equalEntries_eq_all, h.all_eq]

private theorem equalEntries_normals_left {xs : Table Value}
    (h : ∀ e ∈ xs, ∀ w, equal (normal e.2) w = equal e.2 w) (ys : Table Value) :
    equalEntries (Table.mapValues normal xs) ys = equalEntries xs ys := by
  induction xs with
  | nil => rfl
  | cons x rest ih =>
    have hx : matchedIn ys (x.1, normal x.2) = matchedIn ys x := by
      unfold matchedIn
      cases Table.get? ys x.1 with
      | none => rfl
      | some y => exact h x List.mem_cons_self y
    have hrest := ih fun e he => h e (List.mem_cons_of_mem _ he)
    rw [Table.mapValues_cons, equalEntries_cons, equalEntries_cons, hx, hrest]

private theorem equalEntries_normals_right {xs : Table Value}
    (h : ∀ e ∈ xs, ∀ w, equal e.2 (normal w) = equal e.2 w) (ys : Table Value) :
    equalEntries xs (Table.mapValues normal (Table.sorted ys)) = equalEntries xs ys := by
  induction xs with
  | nil => rfl
  | cons x rest ih =>
    have hx : matchedIn (Table.mapValues normal (Table.sorted ys)) x = matchedIn ys x := by
      unfold matchedIn
      rw [get?_normalEntries]
      cases Table.get? ys x.1 with
      | none => rfl
      | some y => exact h x List.mem_cons_self y
    have hrest := ih fun e he => h e (List.mem_cons_of_mem _ he)
    rw [equalEntries_cons, equalEntries_cons, hx, hrest]

theorem equal_normal_left (v : Value) : ∀ w, equal (normal v) w = equal v w := by
  induction v using memberInduction with
  | missing | null | bool | int | double | text => exact fun w => rfl
  | list items ih =>
    intro w
    rw [normal_list]
    cases w <;> simp [equal, equalItems_normals_left ih]
  | tuple items ih =>
    intro w
    rw [normal_tuple]
    cases w <;> simp [equal, equalItems_normals_left ih]
  | map entries ih =>
    intro w
    rw [normal_map]
    cases w with
    | map ys =>
      have hsorted : ∀ e ∈ Table.sorted entries, ∀ w, equal (normal e.2) w = equal e.2 w :=
        fun e he => ih e ((Table.sorted_perm entries).mem_iff.mp he)
      simp only [equal, Table.length_mapValues, Table.length_sorted]
      rw [equalEntries_normals_left hsorted, equalEntries_perm (Table.sorted_perm entries)]
    | _ => simp [equal]

theorem equal_normal_right (v : Value) : ∀ w, equal v (normal w) = equal v w := by
  induction v using memberInduction with
  | missing | null | text => intro w; cases w <;> simp [equal]
  | bool | int | double => intro w; simp [equal, sameCount]
  | list items ih => intro w; cases w <;> simp [equal, equalItems_normals_right ih]
  | tuple items ih => intro w; cases w <;> simp [equal, equalItems_normals_right ih]
  | map entries ih => intro w; cases w <;> simp [equal, equalEntries_normals_right ih]

/-! ### Comparisons -/

/-- Whether two values are of one kind, with integers and doubles as one kind. -/
def sameKind : Value → Value → Bool
  | .missing, .missing => true
  | .null, .null => true
  | .bool _, .bool _ => true
  | .int _, .int _ => true
  | .int _, .double _ => true
  | .double _, .int _ => true
  | .double _, .double _ => true
  | .text _, .text _ => true
  | .list _, .list _ => true
  | .tuple _, .tuple _ => true
  | .map _, .map _ => true
  | _, _ => false

private theorem ofInt_zero_ne_ofInt_one : Place.ofInt 0 ≠ Place.ofInt 1 := by
  intro h
  have hunits : (0 : Int) * unitsInOne = 1 * unitsInOne := Place.units.inj h
  have hpos : 0 < unitsInOne := twoTo_pos 1074
  omega

theorem strictEqual_eq (v w : Value) : strictEqual v w = (sameKind v w && equal v w) := by
  have hbool (a b : Bool) : strictEqual (.bool a) (.bool b) = equal (.bool a) (.bool b) := by
    simp only [strictEqual, equal, sameCount, count?, Number.same, Number.place?]
    cases a <;> cases b <;> simp [ofInt_zero_ne_ofInt_one, Ne.symm ofInt_zero_ne_ofInt_one]
  cases v <;> cases w <;> first | exact hbool _ _ | rfl

theorem strictEqual_normal_left (v w : Value) : strictEqual (normal v) w = strictEqual v w := by
  have hkind : sameKind (normal v) w = sameKind v w := by
    cases v <;> first | rfl | (cases w <;> rfl)
  rw [strictEqual_eq, strictEqual_eq, hkind, equal_normal_left]

theorem strictEqual_normal_right (v w : Value) : strictEqual v (normal w) = strictEqual v w := by
  have hkind : sameKind v (normal w) = sameKind v w := by
    cases w <;> first | rfl | (cases v <;> rfl)
  rw [strictEqual_eq, strictEqual_eq, hkind, equal_normal_right]

theorem among_normals (items : List Value) (v : Value) :
    among (items.map normal) v = among items v := by
  simp only [among, List.any_map, Function.comp_def, strictEqual_normal_left]

theorem among_normal (items : List Value) (v : Value) : among items (normal v) = among items v := by
  simp only [among, strictEqual_normal_right]

private theorem orderedItems?_normals {relation : Inequality} {xs : List Value}
    (h : ∀ v ∈ xs, ∀ w, ordered? relation (normal v) w = ordered? relation v w)
    (ys : List Value) :
    orderedItems? relation (xs.map normal) ys = orderedItems? relation xs ys := by
  induction xs generalizing ys with
  | nil => rfl
  | cons x rest ih =>
    cases ys with
    | nil => simp [orderedItems?]
    | cons y ys =>
      have hx := h x List.mem_cons_self y
      have hrest := ih (fun v hv => h v (List.mem_cons_of_mem _ hv)) ys
      rw [List.map_cons, orderedItems?, orderedItems?, hx, hrest, equal_normal_left]

theorem ordered?_normal (relation : Inequality) (v : Value) :
    ∀ w, ordered? relation (normal v) w = ordered? relation v w := by
  induction v using memberInduction with
  | missing | null | bool | int | double | text => exact fun w => rfl
  | list items ih =>
    intro w
    rw [normal_list]
    cases w <;> simp [ordered?, orderedItems?_normals ih, count?, number?]
  | tuple items ih =>
    intro w
    rw [normal_tuple]
    cases w <;> simp [ordered?, orderedItems?_normals ih, count?, number?]
  | map entries ih =>
    intro w
    rw [normal_map]
    cases w <;> simp [ordered?, count?, number?]

theorem asDoubles_normal (relation : Number → Number → Bool) (v w : Value) :
    asDoubles relation (normal v) w = asDoubles relation v w := by
  rw [asDoubles, asDoubles, toDouble?_normal]

theorem looseEqual_normal (v w : Value) : looseEqual (normal v) w = looseEqual v w := by
  rw [looseEqual, looseEqual, strictEqual_normal_left, isAbsent_normal, isCoercive_normal,
    asDoubles_normal]

theorem related_normal (relation : Inequality) (v w : Value) :
    related relation (normal v) w = related relation v w := by
  rw [related, related, ordered?_normal, asDoubles_normal]

theorem listed_normal_item (container v : Value) : listed container (normal v) = listed container v := by
  cases container <;> simp [listed, among_normal]

theorem unlisted_normal_item (container v : Value) :
    unlisted container (normal v) = unlisted container v := by
  cases container <;> simp [unlisted, among_normal]

theorem listed_normal (container v : Value) : listed (normal container) v = listed container v := by
  cases container with
  | list items => rw [normal_list, listed, listed, among_normals]
  | _ => simp [listed]

theorem unlisted_normal (container v : Value) :
    unlisted (normal container) v = unlisted container v := by
  cases container with
  | list items => rw [normal_list, unlisted, unlisted, among_normals]
  | _ => simp [unlisted]

theorem compare_normal (op : Operator) (v w : Value) :
    op.compare (normal v) w = op.compare v w := by
  cases op <;>
    simp only [Operator.compare, looseEqual_normal, strictEqual_normal_left, listed_normal_item,
      unlisted_normal_item, listed_normal, unlisted_normal, related_normal]

/-! ### Lookups -/

theorem part_normal (key : String) (v : Value) :
    (normal v).part key = (v.part key).map normal := by
  cases v with
  | map entries =>
    rw [normal_map, part, part, get?_normalEntries]
    cases Table.get? entries key <;> rfl
  | list items =>
    rw [normal_list, part, part]
    split
    · cases readIndex key with
      | error e => rfl
      | ok i =>
        simp only [Except.map, List.getElem?_map]
        cases items[i]? <;> rfl
    · rfl
  | _ => rfl

end VisibilityRules.Value
