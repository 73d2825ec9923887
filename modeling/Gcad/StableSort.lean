import Mathlib

/-!
# Stable sorting and first matches

A stable sort by a key keeps the elements of one key in the order they had.
Elements that carry an arrival number come out in the lexicographic order of
key and arrival, and the first element that satisfies a test is the least one
in that order. Nothing here depends on a particular program.
-/

namespace Gcad.StableSort

variable {α : Type*}

/-- Sort by a key and keep the order of equal keys. -/
def stableSort (key : α → ℤ) (xs : List α) : List α := xs.mergeSort fun a b => key a ≤ key b

/-- First by key, then by arrival. -/
def Precedes (key : α → ℤ) (arrival : α → ℕ) (a b : α) : Prop :=
  key a < key b ∨ key a=key b ∧ arrival a < arrival b

/-- Sorting only rearranges. -/
theorem stableSort_perm (key : α → ℤ) (xs : List α) : (stableSort key xs).Perm xs :=
  List.mergeSort_perm xs _

/-- A merge sort by a total preorder leaves its elements in order. -/
theorem pairwise_mergeSort_rel {r : α → α → Prop} [DecidableRel r]
    (htrans : ∀ a b c,r a b → r b c → r a c) (htotal : ∀ a b,r a b ∨ r b a) (xs : List α) :
    (xs.mergeSort fun a b => decide (r a b)).Pairwise r := by
  have h := @List.pairwise_mergeSort α (fun a b => decide (r a b))
    (fun a b c hab hbc =>
      decide_eq_true (htrans a b c (of_decide_eq_true hab) (of_decide_eq_true hbc)))
    (fun a b => by rw [Bool.or_eq_true,decide_eq_true_iff,decide_eq_true_iff]; exact htotal a b) xs
  exact h.imp fun hab => of_decide_eq_true hab

/-- The keys of a sorted list do not fall. -/
theorem stableSort_pairwise (key : α → ℤ) (xs : List α) :
    (stableSort key xs).Pairwise fun a b => key a ≤ key b :=
  pairwise_mergeSort_rel (fun _ _ _ hab hbc => hab.trans hbc) (fun _ _ => le_total _ _) xs

/-- The elements of one key keep their order. -/
theorem filter_stableSort (key : α → ℤ) (xs : List α) (k : ℤ) :
    ((stableSort key xs).filter fun a => key a=k)=xs.filter fun a => key a=k := by
  have hequal : (xs.filter fun a => key a=k).Pairwise fun a b => decide (key a ≤ key b)=true := by
    refine List.pairwise_of_forall_mem_list fun a ha b hb => decide_eq_true ?_
    rw [of_decide_eq_true (List.mem_filter.mp ha).2,of_decide_eq_true (List.mem_filter.mp hb).2]
  have hsub := @List.sublist_mergeSort α (fun a b => decide (key a ≤ key b)) xs
    (fun a b c hab hbc => decide_eq_true ((of_decide_eq_true hab).trans (of_decide_eq_true hbc)))
    (fun a b => by rw [Bool.or_eq_true,decide_eq_true_iff,decide_eq_true_iff]; exact le_total _ _)
    _ hequal List.filter_sublist
  have hfilter := hsub.filter fun a => decide (key a=k)
  rw [List.filter_filter] at hfilter
  simp only [Bool.and_self] at hfilter
  exact (hfilter.eq_of_length ((stableSort_perm key xs).filter _).length_eq.symm).symm

/-- A list whose equal keys stand in order of arrival is sorted by key and
arrival. -/
theorem stableSort_precedes (key : α → ℤ) (arrival : α → ℕ) {xs : List α}
    (h : xs.Pairwise fun a b => key a=key b → arrival a < arrival b) :
    (stableSort key xs).Pairwise (Precedes key arrival) := by
  rw [List.pairwise_iff_forall_sublist]
  intro a b hab
  have hle := List.pairwise_iff_forall_sublist.mp (stableSort_pairwise key xs) hab
  rcases hle.lt_or_eq with hlt | heq
  · exact .inl hlt
  · have hfilter := hab.filter fun c => decide (key c=key b)
    have hpair : ([a,b].filter fun c => decide (key c=key b))=[a,b] := by
      simp only [List.filter_cons,List.filter_nil,heq,decide_true,if_true]
    rw [filter_stableSort,hpair] at hfilter
    have hsub := hfilter.trans List.filter_sublist
    exact .inr ⟨heq,List.pairwise_iff_forall_sublist.mp h hsub heq⟩

/-- The order by key and arrival is asymmetric. -/
theorem Precedes.asymm {key : α → ℤ} {arrival : α → ℕ} {a b : α} (hab : Precedes key arrival a b) :
    ¬Precedes key arrival b a := by
  unfold Precedes at *
  omega

/-- Among equal keys the order is that of arrival. -/
theorem Precedes.arrival_lt {key : α → ℤ} {arrival : α → ℕ} {a b : α}
    (hab : Precedes key arrival a b) (heq : key a=key b) : arrival a < arrival b := by
  rcases hab with hlt | ⟨-,hlt⟩
  · exact absurd heq hlt.ne
  · exact hlt

/-- A list has one arrangement by key and arrival. -/
theorem eq_of_precedes {key : α → ℤ} {arrival : α → ℕ} {xs ys : List α}
    (hx : xs.Pairwise (Precedes key arrival)) (hy : ys.Pairwise (Precedes key arrival))
    (perm : xs.Perm ys) : xs=ys :=
  List.Perm.eq_of_pairwise (fun _ _ _ _ hab hba => absurd hba hab.asymm) hx hy perm

/-- Sorting after a late element was appended moves it behind the elements
whose key is not above its own and moves nothing else. -/
theorem stableSort_late {key : α → ℤ} {arrival : α → ℕ} {xs : List α} {x : α}
    (h : xs.Pairwise (Precedes key arrival)) (late : ∀ a ∈ xs,arrival a < arrival x) :
    (xs.filter fun a => key a ≤ key x)++(xs.filter fun a => ¬key a ≤ key x)=xs ∧
    stableSort key (xs++[x])=
      (xs.filter fun a => key a ≤ key x)++x::(xs.filter fun a => ¬key a ≤ key x) := by
  have hkey : ∀ a b,a ∈ (xs.filter fun a => key a ≤ key x) →
      b ∈ (xs.filter fun a => ¬key a ≤ key x) → Precedes key arrival a b := by
    intro a b ha hb
    have hlow := of_decide_eq_true (List.mem_filter.mp ha).2
    have hhigh := of_decide_eq_true (List.mem_filter.mp hb).2
    exact .inl (by omega)
  have hperm : ((xs.filter fun a => key a ≤ key x)++xs.filter fun a => ¬key a ≤ key x).Perm xs := by
    have hsplit := List.filter_append_perm (fun a => decide (key a ≤ key x)) xs
    simp only [←decide_not] at hsplit
    exact hsplit
  constructor
  · refine eq_of_precedes (List.pairwise_append.mpr ⟨h.filter _,h.filter _,?_⟩) h hperm
    exact fun a ha b hb => hkey a b ha hb
  · refine eq_of_precedes (stableSort_precedes key arrival ?_)
      (List.pairwise_append.mpr ⟨h.filter _,List.pairwise_cons.mpr ⟨?_,h.filter _⟩,?_⟩) ?_
    · refine List.pairwise_append.mpr ⟨h.imp Precedes.arrival_lt,List.pairwise_singleton _ _,?_⟩
      intro a ha b hb _
      rw [List.mem_singleton.mp hb]
      exact late a ha
    · intro b hb
      have hhigh := of_decide_eq_true (List.mem_filter.mp hb).2
      exact .inl (by omega)
    · intro a ha b hb
      rcases List.mem_cons.mp hb with rfl | hb
      · have hlow := of_decide_eq_true (List.mem_filter.mp ha).2
        rcases hlow.lt_or_eq with hlt | heq
        · exact .inl hlt
        · exact .inr ⟨heq,late a (List.mem_filter.mp ha).1⟩
      · exact hkey a b ha hb
    · have happend := (stableSort_perm key (xs++[x])).trans (List.perm_append_singleton x xs)
      exact happend.trans ((hperm.symm.cons x).trans List.perm_middle.symm)

/-- The first match of a sorted list comes before every other match. -/
theorem find_precedes {R : α → α → Prop} {p : α → Bool} {xs : List α} (h : xs.Pairwise R) {a : α}
    (found : xs.find? p=some a) : a ∈ xs ∧ p a=true ∧ ∀ b ∈ xs,p b=true → b=a ∨ R a b := by
  obtain ⟨hp,before,after,rfl,hbefore⟩ := List.find?_eq_some_iff_append.mp found
  refine ⟨List.mem_append_right _ List.mem_cons_self,hp,fun b hb hpb => ?_⟩
  rcases List.mem_append.mp hb with hearly | hlate
  · have hnot := hbefore b hearly
    rw [hpb] at hnot
    exact absurd hnot Bool.false_ne_true
  · rcases List.mem_cons.mp hlate with rfl | hlate
    · exact .inl rfl
    · exact .inr (List.rel_of_pairwise_cons (List.pairwise_append.mp h).2.1 hlate)

end Gcad.StableSort
