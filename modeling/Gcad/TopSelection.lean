import Mathlib

/-!
# The best few of a pool

A selection of the best few elements of a pool has as many elements as were
asked for, or all of them, stands in descending order and leaves out nothing
that is higher than one of its elements. Sorting the first few of a pool
selects the best exactly when they beat the rest. Nothing here depends on a
particular program.
-/

namespace Gcad.TopSelection

variable {α : Type*} (higher : α → α → Prop)

/-- A result is a selection of the best `n` elements of a pool. -/
structure Best (n : ℕ) (pool result : List α) : Prop where
  /-- As many as asked for, or all. -/
  length : result.length=min n pool.length
  /-- In descending order. -/
  descending : result.Pairwise fun a b => ¬higher b a
  /-- Nothing higher is left out. -/
  best : ∃ left,(result++left).Perm pool ∧ ∀ l ∈ left,∀ r ∈ result,¬higher l r

/-- The order of the pool is irrelevant. -/
theorem best_congr {n : ℕ} {pool pool' result : List α} (h : pool.Perm pool') :
    Best higher n pool result ↔ Best higher n pool' result := by
  constructor
  · rintro ⟨hlength,hdescending,left,hperm,hbest⟩
    exact ⟨h.length_eq ▸ hlength,hdescending,left,hperm.trans h,hbest⟩
  · rintro ⟨hlength,hdescending,left,hperm,hbest⟩
    exact ⟨h.length_eq ▸ hlength,hdescending,left,hperm.trans h.symm,hbest⟩

/-- What the first few elements leave out is the rest. -/
theorem left_perm_drop {k : ℕ} {pool result left : List α} (hresult : result.Perm (pool.take k))
    (hpool : (result++left).Perm pool) : left.Perm (pool.drop k) := by
  have hsplit : (pool.take k++left).Perm (pool.take k++pool.drop k) :=
    (hresult.symm.append_right left).trans (hpool.trans (by rw [List.take_append_drop]))
  exact (List.perm_append_left_iff _).mp hsplit

/-- The first `k` elements in descending order are the best `n` exactly when
there are as many as asked for and none of the rest is higher. -/
theorem best_take_iff {n k : ℕ} {pool result : List α} (hperm : result.Perm (pool.take k))
    (hdescending : result.Pairwise fun a b => ¬higher b a) :
    Best higher n pool result ↔ min k pool.length=min n pool.length ∧
      ∀ l ∈ pool.drop k,∀ r ∈ pool.take k,¬higher l r := by
  have hlength : result.length=min k pool.length := hperm.length_eq.trans (List.length_take ..)
  constructor
  · rintro ⟨hcount,-,left,hpool,hbest⟩
    refine ⟨hlength.symm.trans hcount,fun l hl r hr => ?_⟩
    exact hbest l ((left_perm_drop hperm hpool).mem_iff.mpr hl) r (hperm.mem_iff.mpr hr)
  · rintro ⟨hcount,hbest⟩
    refine ⟨hlength.trans hcount,hdescending,pool.drop k,?_,fun l hl r hr => ?_⟩
    · have hall := hperm.append_right (pool.drop k)
      rwa [List.take_append_drop] at hall
    · exact hbest l hl r (hperm.mem_iff.mp hr)

end Gcad.TopSelection
