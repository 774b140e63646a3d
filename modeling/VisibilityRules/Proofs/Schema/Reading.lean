import Mathlib.Data.List.Forall2
import VisibilityRules.Condition.Written
import VisibilityRules.Document
import VisibilityRules.Proofs.Run

/-!
# What readings succeed with

A combined reading succeeds exactly if its parts do, and its result is made of theirs. Proofs about
records use these equivalences and never unfold a combinator. The word of a relation is read as that
relation.
-/

namespace VisibilityRules

namespace Relation

theorem ofValue_word (relation : Relation) : ofValue (.text relation.word) = relation := by
  cases relation <;> rfl

theorem ofValue?_word (relation : Option Relation) :
    ofValue? (.ofText? (relation.map word)) = relation := by
  cases relation with
  | none => rfl
  | some relation => exact congrArg some (ofValue_word relation)

end Relation

namespace Reading

variable {α β : Type}

theorem pure_eq_ok_iff {a b : α} : (pure a : Reading α).outcome = .ok b ↔ a = b := by
  rw [Run.pure_def, Except.ok.injEq]

theorem map_eq_ok_iff {x : Reading α} {f : α → β} {b : β} :
    (f <$> x).outcome = .ok b ↔ ∃ a, x.outcome = .ok a ∧ f a = b := by
  rw [Run.outcome_map]
  cases x.outcome <;> simp [Except.map]

theorem within_eq_ok_iff {step : Step} {x : Reading α} {a : α} :
    (within step x).outcome = .ok a ↔ x.outcome = .ok a := by
  rw [within, Run.outcome_mapError]
  cases x.outcome <;> simp [Except.mapError]

theorem apply_eq_ok_iff {f : Reading (α → β)} {x : Reading α} {b : β} :
    (apply f x).outcome = .ok b ↔ ∃ g a, f.outcome = .ok g ∧ x.outcome = .ok a ∧ g a = b := by
  rw [apply]
  cases f.outcome <;> cases x.outcome <;> simp

theorem issue_ne_ok (p : Problem) (a : α) : (issue p : Reading α).outcome ≠ .ok a := by
  simp [issue, Run.fail]

theorem either_eq_ok_iff {x y : Reading α} {a : α} :
    (either x y).outcome = .ok a ↔
      x.outcome = .ok a ∨ (∀ b, x.outcome ≠ .ok b) ∧ y.outcome = .ok a := by
  rw [either]
  cases x.outcome <;> cases y.outcome <;> simp

theorem field_eq_ok_iff {entries : Table Value} {name : String} {read : Value → Reading α}
    {absent : Reading α} {a : α} :
    (field entries name read absent).outcome = .ok a ↔
      (∃ v, Table.get? entries name = some v ∧ (read v).outcome = .ok a) ∨
        Table.get? entries name = none ∧ absent.outcome = .ok a := by
  rw [field]
  cases Table.get? entries name with
  | none => simp
  | some v => simp [within_eq_ok_iff]

theorem required_eq_ok_iff {entries : Table Value} {name : String} {read : Value → Reading α}
    {a : α} :
    (required entries name read).outcome = .ok a ↔
      ∃ v, Table.get? entries name = some v ∧ (read v).outcome = .ok a := by
  rw [required, field_eq_ok_iff]
  simp [within_eq_ok_iff, issue_ne_ok]

theorem text_eq_ok_iff {v : Value} {s : String} : (text v).outcome = .ok s ↔ v = .text s := by
  cases v <;> simp [text, issue_ne_ok]

theorem itemsFrom_eq_ok_iff (read : Value → Reading α)
    (readFrom : Nat → List Value → Reading (List α)) (nil : ∀ i, readFrom i [] = pure [])
    (cons : ∀ i v rest, readFrom i (v :: rest) =
      apply (List.cons <$> within (.index i) (read v)) (readFrom (i + 1) rest))
    (i : Nat) (items : List Value) (as : List α) :
    (readFrom i items).outcome = .ok as ↔
      List.Forall₂ (fun a v => (read v).outcome = .ok a) as items := by
  induction items generalizing i as with
  | nil => simp [nil, eq_comm]
  | cons v rest ih =>
    rw [cons, apply_eq_ok_iff, List.forall₂_cons_right_iff]
    simp only [map_eq_ok_iff, within_eq_ok_iff, ih]
    constructor
    · rintro ⟨g, more, ⟨a, ha, rfl⟩, hmore, rfl⟩
      exact ⟨a, more, ha, hmore, rfl⟩
    · rintro ⟨a, more, ha, hmore, rfl⟩
      exact ⟨_, more, ⟨a, ha, rfl⟩, hmore, rfl⟩

end Reading

end VisibilityRules
