/-!
# Tables in order of arrival

A table keeps its entries in the order in which their keys first arrived. Writing to a key that is
present changes its value and moves nothing.
-/

namespace VisibilityRules

/-- Entries under text keys, in order of arrival. -/
abbrev Table (α : Type) := List (String × α)

namespace Table

variable {α β : Type}

def get? : Table α → String → Option α
  | [], _ => none
  | (key, value) :: rest, k => if key = k then some value else get? rest k

/-- Writes a value under a key; a new key goes to the end. -/
def put : Table α → String → α → Table α
  | [], k, v => [(k, v)]
  | (key, value) :: rest, k, v =>
    if key = k then (key, v) :: rest else (key, value) :: put rest k v

def remove (t : Table α) (k : String) : Table α := t.filter (·.1 ≠ k)

def keys (t : Table α) : List String := t.map (·.1)

def has (t : Table α) (k : String) : Bool := (get? t k).isSome

/-- Writes all entries of the second table into the first. -/
def merge (t u : Table α) : Table α := u.foldl (fun t e => put t e.1 e.2) t

/-- Puts an entry in front of the first entry with a greater key. -/
def insertSorted (k : String) (v : α) : Table α → Table α
  | [] => [(k, v)]
  | (key, value) :: rest =>
    if key < k then (key, value) :: insertSorted k v rest else (k, v) :: (key, value) :: rest

def sorted : Table α → Table α
  | [] => []
  | (k, v) :: rest => insertSorted k v (sorted rest)

@[simp] theorem get?_put_self (t : Table α) (k : String) (v : α) : get? (put t k v) k = some v := by
  induction t with
  | nil => simp [put, get?]
  | cons e rest ih =>
    by_cases h : e.1 = k <;> simp [put, get?, h, ih]

theorem get?_put_of_ne (t : Table α) {k l : String} (v : α) (h : l ≠ k) :
    get? (put t k v) l = get? t l := by
  induction t with
  | nil => simp [put, get?, Ne.symm h]
  | cons e rest ih =>
    by_cases hk : e.1 = k
    · subst hk
      simp [put, get?, Ne.symm h]
    · rw [put, if_neg hk, get?, get?, ih]

@[simp] theorem get?_remove_self (t : Table α) (k : String) : get? (remove t k) k = none := by
  induction t with
  | nil => rfl
  | cons e rest ih =>
    by_cases h : e.1 = k
    · simpa [remove, h] using ih
    · simpa [remove, get?, h] using ih

theorem get?_remove_of_ne (t : Table α) {k l : String} (h : l ≠ k) :
    get? (remove t k) l = get? t l := by
  induction t with
  | nil => rfl
  | cons e rest ih =>
    by_cases hk : e.1 = k
    · subst hk
      simpa [remove, get?, Ne.symm h] using ih
    · rw [get?, ← ih]
      simp [remove, get?, hk]

theorem get?_eq_none_iff (t : Table α) (k : String) : get? t k = none ↔ k ∉ keys t := by
  induction t with
  | nil => simp [get?, keys]
  | cons e rest ih =>
    by_cases h : e.1 = k
    · simp [get?, keys, h]
    · simpa [get?, keys, h, Ne.symm h] using ih

theorem keys_put (t : Table α) (k : String) (v : α) :
    keys (put t k v) = if k ∈ keys t then keys t else keys t ++ [k] := by
  induction t with
  | nil => simp [put, keys]
  | cons e rest ih =>
    by_cases h : e.1 = k
    · simp [put, keys, h]
    · rw [put, if_neg h]
      change e.1 :: keys (put rest k v)
        = if k ∈ e.1 :: keys rest then e.1 :: keys rest else e.1 :: (keys rest ++ [k])
      rw [ih]
      by_cases hk : k ∈ keys rest <;> simp [hk, Ne.symm h]

end Table

/-- The members of a list at their first occurrence, in order. -/
def distinct : List String → List String
  | [] => []
  | x :: xs => x :: (distinct xs).filter (· ≠ x)

@[simp] theorem mem_distinct (x : String) (xs : List String) : x ∈ distinct xs ↔ x ∈ xs := by
  induction xs with
  | nil => simp [distinct]
  | cons y ys ih =>
    by_cases h : x = y <;> simp [distinct, h, ih]

theorem nodup_distinct (xs : List String) : (distinct xs).Nodup := by
  induction xs with
  | nil => simp [distinct]
  | cons x xs ih =>
    simp only [distinct, List.nodup_cons, List.mem_filter]
    exact ⟨by simp, ih.filter _⟩

end VisibilityRules
