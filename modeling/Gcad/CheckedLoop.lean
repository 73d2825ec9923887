import Gcad.ByteView

/-!
# Counted loops over checked arrays

Array cells are read and written under a bounds check, and counted loops
run a body that may fault. A loop is described by one invariant for the
state before each index; the rules conclude that the loop returns, so a
loop with an invariant never leaves its arrays.
-/

namespace Gcad.CheckedLoop

open ByteView

section Cells

variable {α : Type}

/-- Read one cell. -/
def load (cells : List α) (i : ℕ) : Checked α :=
  match cells[i]? with
  | some cell => .ok cell
  | none => .error .outOfBounds

/-- Write one cell. -/
def store (cells : List α) (i : ℕ) (cell : α) : Checked (List α) :=
  if i < cells.length then .ok (cells.set i cell) else .error .outOfBounds

/-- A cell inside the array can be read. -/
theorem load_eq {cells : List α} {i : ℕ} (h : i < cells.length) (fallback : α) :
    load cells i=.ok (cells[i]?.getD fallback) := by
  unfold load
  rw [List.getElem?_eq_getElem h]
  rfl

/-- A cell inside the array can be written. -/
theorem store_eq {cells : List α} {i : ℕ} (h : i < cells.length) (cell : α) :
    store cells i cell=.ok (cells.set i cell) := if_pos h

end Cells

section Loops

variable {σ : Type}

/-- Run the body at `count` indices from `start` upwards. -/
def forUp (body : ℕ → σ → Checked σ) : ℕ → ℕ → σ → Checked σ
  | _,0,s => .ok s
  | start,count+1,s => do
    let next ← body start s
    forUp body (start+1) count next

/-- Run the body at the indices below `count` downwards. -/
def forDown (body : ℕ → σ → Checked σ) : ℕ → σ → Checked σ
  | 0,s => .ok s
  | count+1,s => do
    let next ← body count s
    forDown body count next

/-- A sequence whose first part returns goes on with its value. -/
theorem bind_of_ok {α β : Type} {x : Checked α} {a : α} (h : x=.ok a) (f : α → Checked β) :
    x >>= f=f a := by
  rw [h]
  rfl

/-- An upward loop with an invariant returns with it. -/
theorem forUp_invariant {body : ℕ → σ → Checked σ} (inv : ℕ → σ → Prop) {start count : ℕ} {s : σ}
    (hstart : inv start s)
    (hstep : ∀ i s, start ≤ i → i < start+count → inv i s →
      ∃ next, body i s=.ok next ∧ inv (i+1) next) :
    ∃ last, forUp body start count s=.ok last ∧ inv (start+count) last := by
  induction count generalizing start s with
  | zero => exact ⟨s,rfl,hstart⟩
  | succ count ih =>
    obtain ⟨next,hnext,hinv⟩ := hstep start s le_rfl (by omega) hstart
    have hrest : ∀ i s, start+1 ≤ i → i < start+1+count → inv i s →
        ∃ next, body i s=.ok next ∧ inv (i+1) next := by
      intro i s hlow hhigh
      exact hstep i s (by omega) (by omega)
    obtain ⟨last,hlast,hend⟩ := ih hinv hrest
    have hindex : start+1+count=start+(count+1) := by omega
    rw [hindex] at hend
    refine ⟨last,?_,hend⟩
    unfold forUp
    rw [bind_of_ok hnext]
    exact hlast

/-- A downward loop with an invariant returns with it. -/
theorem forDown_invariant {body : ℕ → σ → Checked σ} (inv : ℕ → σ → Prop) {count : ℕ} {s : σ}
    (hstart : inv count s)
    (hstep : ∀ i s, i < count → inv (i+1) s → ∃ next, body i s=.ok next ∧ inv i next) :
    ∃ last, forDown body count s=.ok last ∧ inv 0 last := by
  induction count generalizing s with
  | zero => exact ⟨s,rfl,hstart⟩
  | succ count ih =>
    obtain ⟨next,hnext,hinv⟩ := hstep count s (Nat.lt_succ_self count) hstart
    have hrest : ∀ i s, i < count → inv (i+1) s → ∃ next, body i s=.ok next ∧ inv i next := by
      intro i s hi
      exact hstep i s (by omega)
    obtain ⟨last,hlast,hend⟩ := ih hinv hrest
    refine ⟨last,?_,hend⟩
    unfold forDown
    rw [bind_of_ok hnext]
    exact hlast

end Loops

end Gcad.CheckedLoop
