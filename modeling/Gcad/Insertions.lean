import Mathlib

/-!
# Lists with inserted symbols

A list with symbols of one kind inserted anywhere. A reader that skips such
symbols does not see the difference, and filtering them out restores what
was there before.
-/

namespace Gcad.Insertions

section Relation

variable {α : Type*} {p : α → Prop}

/-- The second list is the first with symbols that satisfy `p` inserted. -/
inductive Inserted (p : α → Prop) : List α → List α → Prop where
  /-- Nothing is inserted into an empty list. -/
  | nil : Inserted p [] []
  /-- A symbol of the list. -/
  | keep (c : α) {s t : List α} : Inserted p s t → Inserted p (c::s) (c::t)
  /-- An inserted symbol. -/
  | insert {c : α} {s t : List α} : p c → Inserted p s t → Inserted p s (c::t)

/-- Inserting nothing. -/
theorem Inserted.refl (s : List α) : Inserted p s s := by
  induction s with
  | nil => exact .nil
  | cons c s ih => exact .keep c ih

/-- A filter that drops the inserted symbols does not see them. -/
theorem Inserted.filter_eq {s t : List α} (h : Inserted p s t) {q : α → Bool}
    (hq : ∀ c,p c → q c=false) : t.filter q=s.filter q := by
  induction h with
  | nil => rfl
  | keep c _ ih => rw [List.filter_cons,List.filter_cons,ih]
  | insert hc _ ih => rw [List.filter_cons_of_neg (by rw [hq _ hc]; exact Bool.false_ne_true),ih]

/-- Insertions make a list longer. -/
theorem Inserted.length_le {s t : List α} (h : Inserted p s t) : s.length ≤ t.length := by
  induction h with
  | nil => exact le_refl _
  | keep c _ ih => simpa using ih
  | insert _ _ ih => exact ih.trans (Nat.le_succ _)

/-- A symbol in front of every symbol of a list. -/
def before (c : α) (s : List α) : List α := s.flatMap fun b => [c,b]

/-- Putting a symbol in front of every symbol inserts it. -/
theorem before_inserted {c : α} (hc : p c) (s : List α) : Inserted p s (before c s) := by
  induction s with
  | nil => exact .nil
  | cons b s ih => exact .insert hc (.keep b ih)

end Relation

end Gcad.Insertions
