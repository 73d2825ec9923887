import Mathlib

/-!
# Finite covers of an index range

Half-open ranges of natural numbers and the indices a finite collection of
them covers. A stretch that ends where some range ends is covered without a
gap exactly when every range that starts inside it starts right after a
covered index, so coverage can be read off the starting points.
-/

namespace Gcad.Intervals

/-- A half-open range of indices. -/
structure Range where
  /-- First index. -/
  offset : ℕ
  /-- Number of indices. -/
  length : ℕ
  deriving DecidableEq, Repr

/-- First index after a range. -/
def Range.stop (r : Range) : ℕ := r.offset+r.length

/-- An index lies in a range. -/
def Range.Holds (r : Range) (i : ℕ) : Prop := r.offset ≤ i ∧ i < r.stop

/-- An index lies in some range of a collection. -/
def Covered (ranges : List Range) (i : ℕ) : Prop := ∃ r ∈ ranges, r.Holds i

/-- The furthest end of a collection, not before a given start. -/
def furthest (start : ℕ) (ranges : List Range) : ℕ :=
  ranges.foldl (fun best r => if best < r.stop then r.stop else best) start

/-- The start is never passed backwards. -/
theorem le_furthest (start : ℕ) (ranges : List Range) : start ≤ furthest start ranges := by
  induction ranges generalizing start with
  | nil => exact le_rfl
  | cons r ranges ih =>
    unfold furthest
    rw [List.foldl_cons]
    split
    · next h => exact h.le.trans (ih r.stop)
    · exact ih start

/-- Every range ends by the furthest end. -/
theorem stop_le_furthest (start : ℕ) {ranges : List Range} {r : Range} (h : r ∈ ranges) :
    r.stop ≤ furthest start ranges := by
  induction ranges generalizing start with
  | nil => cases h
  | cons first ranges ih =>
    unfold furthest
    rw [List.foldl_cons]
    rcases List.mem_cons.mp h with rfl | hmem
    · split
      · exact le_furthest r.stop ranges
      · next hle => exact (Nat.not_lt.mp hle).trans (le_furthest start ranges)
    · exact ih _ hmem

/-- The furthest end is the start or the end of some range. -/
theorem furthest_eq (start : ℕ) (ranges : List Range) :
    furthest start ranges=start ∨ ∃ r ∈ ranges, furthest start ranges=r.stop := by
  induction ranges generalizing start with
  | nil => exact .inl rfl
  | cons first ranges ih =>
    unfold furthest
    rw [List.foldl_cons]
    split
    · rcases ih first.stop with h | ⟨r,hr,h⟩
      · exact .inr ⟨first,List.mem_cons_self,h⟩
      · exact .inr ⟨r,List.mem_cons_of_mem _ hr,h⟩
    · rcases ih start with h | ⟨r,hr,h⟩
      · exact .inl h
      · exact .inr ⟨r,List.mem_cons_of_mem _ hr,h⟩

/-- The furthest end ignores the order of the ranges. -/
theorem furthest_perm (start : ℕ) {ranges others : List Range} (h : ranges.Perm others) :
    furthest start ranges=furthest start others := by
  have hle : ∀ {l l' : List Range}, l.Perm l' → furthest start l ≤ furthest start l' := by
    intro l l' hp
    rcases furthest_eq start l with he | ⟨r,hr,he⟩
    · rw [he]
      exact le_furthest start l'
    · rw [he]
      exact stop_le_furthest start (hp.mem_iff.mp hr)
  exact Nat.le_antisymm (hle h) (hle h.symm)

/-- Every range that starts after a point and before a bound starts right
after a covered index. -/
def Contiguous (start bound : ℕ) (ranges : List Range) : Prop :=
  ∀ r ∈ ranges, start < r.offset → r.offset < bound → Covered ranges (r.offset-1)

/-- Walking down from a covered index, contiguity never loses coverage. -/
theorem covered_below {start bound : ℕ} {ranges : List Range}
    (h : Contiguous start bound ranges) {i : ℕ} (hi : i < bound) (hcover : Covered ranges i)
    {j : ℕ} (hj : start ≤ j) (hji : j ≤ i) : Covered ranges j := by
  obtain ⟨d,rfl⟩ := Nat.exists_eq_add_of_le hji
  induction d with
  | zero => exact hcover
  | succ d ih =>
    refine ih (by omega) ?_ (by omega)
    obtain ⟨r,hr,hlow,hhigh⟩ := hcover
    by_cases hstart : r.offset=j+(d+1)
    · have hprev := h r hr (by omega) (by omega)
      rw [hstart] at hprev
      exact hprev
    · exact ⟨r,hr,by omega,by omega⟩

/-- A stretch up to the furthest end of some of the ranges is covered
exactly when the ranges are contiguous on it. -/
theorem covered_iff_contiguous (start : ℕ) {ranges others : List Range} (hsub : ranges ⊆ others)
    (hpos : ∀ r ∈ ranges, 0 < r.length) :
    (∀ i, start ≤ i → i < furthest start ranges → Covered others i) ↔
      Contiguous start (furthest start ranges) others := by
  constructor
  · intro h r hr hlow hhigh
    exact h _ (by omega) (by omega)
  · intro h i hlow hhigh
    rcases furthest_eq start ranges with he | ⟨r,hr,he⟩
    · omega
    · have hlength := hpos r hr
      have hstop : r.stop=r.offset+r.length := rfl
      have hfirst : Covered others r.offset := ⟨r,hsub hr,le_rfl,by omega⟩
      rcases lt_or_ge i r.offset with hi | hi
      · exact covered_below h (by omega) hfirst hlow hi.le
      · exact ⟨r,hsub hr,hi,by omega⟩

end Gcad.Intervals
