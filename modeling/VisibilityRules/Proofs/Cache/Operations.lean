import Mathlib.Data.Finset.Card
import Mathlib.Data.List.Induction
import VisibilityRules.Proofs.Cache.State
import VisibilityRules.Proofs.Kept

/-!
# A cache as one table

A cache on two levels answers as a single table from controls and keys to states would: with the
state that was put last, unless it was dropped since. No control stays in a cache without a state,
so a cache reports that it is cleared exactly if something is found in it.
-/

namespace VisibilityRules.StateCache

/-- Whether an operation leaves what is found under a control and a key. -/
def Operation.Keeps (control key : String) (op : Operation) : Prop :=
  op ≠ .clear ∧ op ≠ .discard control ∧ ∀ state, op ≠ .put control key state

/-- Whether an operation put a state under a control and a key, and since then none has put another
one there, discarded the control or cleared the cache. -/
def Latest (ops : List Operation) (control key : String) (state : ControlState) : Prop :=
  Kept (fun _ op => op = .put control key state) (Operation.Keeps control key) ops

def after (ops : List Operation) : StateCache :=
  ops.foldl (fun cache op => (cache.perform op : Run Fault (Option ControlState) × StateCache).2)
    empty

/-- A cache lists no control without a state. -/
def Occupied (cache : StateCache) : Prop := ∀ e ∈ cache.controls, e.2 ≠ []

/-! ### One operation -/

section Step

variable {ε : Type} (cache : StateCache) (op : Operation)

theorem find?_perform (control key : String) (state : ControlState) :
    (cache.perform op : Run ε (Option ControlState) × StateCache).2.find? control key = some state ↔
      op.Keeps control key ∧ cache.find? control key = some state ∨
        op = .put control key state := by
  cases op with
  | get => simp [perform, Operation.Keeps]
  | put c k s =>
    dsimp only [perform]
    rw [find?_put]
    by_cases h : control = c ∧ key = k
    · obtain ⟨rfl, rfl⟩ := h
      simp [Operation.Keeps]
    · have hkeeps : Operation.Keeps control key (.put c k s) := by
        refine ⟨by simp, by simp, fun other heq => h ?_⟩
        cases heq
        exact ⟨rfl, rfl⟩
      have hother : Operation.put c k s ≠ .put control key state := hkeeps.2.2 state
      simp [h, hkeeps, hother]
  | discard c =>
    dsimp only [perform]
    rw [find?_discard]
    by_cases h : control = c
    · simp [h, Operation.Keeps]
    · simp [h, Ne.symm h, Operation.Keeps]
  | clear => simp [perform, Operation.Keeps]

variable {cache}

theorem Tidy.perform (h : cache.Tidy) :
    (cache.perform op : Run ε (Option ControlState) × StateCache).2.Tidy := by
  cases op with
  | get => exact h
  | put control key state => exact h.put control key state
  | discard control => exact h.discard control
  | clear => exact .empty

theorem Occupied.perform (h : cache.Occupied) :
    (cache.perform op : Run ε (Option ControlState) × StateCache).2.Occupied := by
  cases op with
  | get => exact h
  | put control key state =>
    intro e he
    rcases Table.mem_put he with hnew | hold
    · rw [hnew]
      exact Table.put_ne_nil _ _ _
    · exact h e hold
  | discard control => exact fun e he => h e (List.mem_of_mem_filter he)
  | clear => exact fun e he => absurd he List.not_mem_nil

end Step

theorem events_clear {ε : Type} {cache : StateCache} (h : cache.Occupied) :
    (cache.clear : Run ε StateCache).events =
      if 0 < cache.size then [.noticed (.cacheCleared cache.size)] else [] := by
  unfold clear
  cases hcontrols : cache.controls with
  | nil =>
    have hsize : cache.size = 0 := by
      rw [size, hcontrols]
      rfl
    rw [hsize]
    rfl
  | cons e rest =>
    have hstates : 0 < e.2.length :=
      List.length_pos_iff.mpr (h e (by rw [hcontrols]; exact List.mem_cons_self))
    have hsize : 0 < cache.size := by
      rw [size, hcontrols, List.foldr_cons]
      omega
    rw [if_pos hsize]

/-! ### All operations -/

theorem after_concat {ε : Type} (ops : List Operation) (op : Operation) :
    after (ops ++ [op]) =
      ((after ops).perform op : Run ε (Option ControlState) × StateCache).2 := by
  rw [after, List.foldl_append]
  cases op <;> rfl

theorem find?_after (ops : List Operation) (control key : String) (state : ControlState) :
    (after ops).find? control key = some state ↔ Latest ops control key state := by
  induction ops using List.reverseRecOn with
  | nil =>
    rw [after, List.foldl_nil, find?_empty]
    exact iff_of_false nofun Kept.not_nil
  | append_singleton ops op ih =>
    rw [after_concat (ε := Fault), find?_perform, ih]
    exact Kept.concat_iff.symm

theorem after_induction {p : StateCache → Prop} (hnew : p empty)
    (hstep : ∀ cache op, p cache →
      p (cache.perform op : Run Fault (Option ControlState) × StateCache).2)
    (ops : List Operation) : p (after ops) :=
  List.foldlRecOn ops _ hnew fun cache hcache op _ => hstep cache op hcache

theorem tidy_after (ops : List Operation) : (after ops).Tidy :=
  after_induction .empty (fun _ op h => h.perform op) ops

theorem occupied_after (ops : List Operation) : (after ops).Occupied :=
  after_induction (fun _ he => absurd he List.not_mem_nil) (fun _ op h => h.perform op) ops

/-- After all sequences of operations, a lookup gives the state that was put last under the control
and the key, unless the control was discarded or the cache cleared since, and it changes nothing.
The size of the cache is the number of controls and keys under which a lookup gives a state;
clearing the cache reports this number, unless it is zero. -/
theorem answers_as_flat_table (ε : Type) (ops : List Operation) :
    let cache := after ops
    let answer := fun op => (cache.perform op : Run ε (Option ControlState) × StateCache).1
    (∀ control key,
      (∃ found, (answer (.get control key)).outcome = .ok found ∧
        ∀ state, found = some state ↔ Latest ops control key state) ∧
      after (ops ++ [.get control key]) = cache) ∧
    (∃ places : Finset (String × String),
      (∀ control key, (control, key) ∈ places ↔
        ∃ state, (answer (.get control key)).outcome = .ok (some state)) ∧
      cache.size = places.card) ∧
    (answer .clear).events =
      if 0 < cache.size then [.noticed (.cacheCleared cache.size)] else [] := by
  intro cache answer
  have htidy : cache.Tidy := tidy_after ops
  have hget (control key : String) :
      (answer (.get control key)).outcome = .ok (cache.find? control key) :=
    outcome_get cache control key
  refine ⟨fun control key => ⟨⟨_, hget control key, find?_after ops control key⟩, ?_⟩, ?_,
    events_clear (occupied_after ops)⟩
  · exact after_concat (ε := Fault) ops (.get control key)
  · refine ⟨cache.places.toFinset, fun control key => ?_, ?_⟩
    · rw [List.mem_toFinset, htidy.mem_places_iff, Option.isSome_iff_exists]
      simp only [hget, Except.ok.injEq]
    · rw [List.toFinset_card_of_nodup htidy.nodup_places, length_places]

end VisibilityRules.StateCache
