import Mathlib

/-!
# Runs in a list

A scan counts the elements of the run it stands in and forgets the count at the
first element outside. The longest count is the length of the longest run. The
counts that an element ends are the lengths of the runs before the last one.
Nothing here depends on a particular program.
-/

namespace Gcad.RunLength

variable {α : Type*} (p : α → Bool)

/-- The longest run that has been seen, with a run open. -/
def longestFrom (current best : ℕ) : List α → ℕ
  | [] => best
  | x::rest =>
    if p x then longestFrom (current+1) (max best (current+1)) rest
    else longestFrom 0 best rest

/-- The length of the longest run. -/
def longest (xs : List α) : ℕ := longestFrom p 0 0 xs

/-- The lengths of the runs that a later element ends, with a run open; empty
ones count. -/
def closedFrom (current : ℕ) : List α → List ℕ
  | [] => []
  | x::rest => if p x then closedFrom (current+1) rest else current::closedFrom 0 rest

/-- The lengths of the runs that a later element ends. -/
def closed (xs : List α) : List ℕ := closedFrom p 0 xs

/-- Some elements in a row are in the class. -/
def HasRun (n : ℕ) (xs : List α) : Prop :=
  ∃ run : List α,run <:+: xs ∧ (∀ x ∈ run,p x=true) ∧ n ≤ run.length

/-- Some elements in a row are in the class and the next one is not. -/
def HasClosedRun (n : ℕ) (xs : List α) : Prop :=
  ∃ (run : List α) (y : α),(run++[y]) <:+: xs ∧ (∀ x ∈ run,p x=true) ∧ p y=false ∧ n ≤ run.length

/-- The list starts with elements of the class. -/
def StartsRun (n : ℕ) (xs : List α) : Prop :=
  ∃ run : List α,run <+: xs ∧ (∀ x ∈ run,p x=true) ∧ n ≤ run.length

/-- The list starts with elements of the class and one that is not. -/
def StartsClosedRun (n : ℕ) (xs : List α) : Prop :=
  ∃ (run : List α) (y : α),(run++[y]) <+: xs ∧ (∀ x ∈ run,p x=true) ∧ p y=false ∧ n ≤ run.length

section Cons

variable {p} {n : ℕ} {x : α} {xs : List α}

/-- A run starts at the front or later. -/
theorem hasRun_cons : HasRun p n (x::xs) ↔ StartsRun p n (x::xs) ∨ HasRun p n xs := by
  simp only [HasRun,StartsRun,List.infix_cons_iff,or_and_right,exists_or]

/-- A closed run starts at the front or later. -/
theorem hasClosedRun_cons :
    HasClosedRun p n (x::xs) ↔ StartsClosedRun p n (x::xs) ∨ HasClosedRun p n xs := by
  simp only [HasClosedRun,StartsClosedRun,List.infix_cons_iff,or_and_right,exists_or]

/-- A run at the front goes on behind an element of the class. -/
theorem startsRun_cons (h : p x=true) : StartsRun p (n+1) (x::xs) ↔ StartsRun p n xs := by
  constructor
  · rintro ⟨run,front,hall,hlen⟩
    cases run with
    | nil => simp at hlen
    | cons y run =>
      obtain ⟨-,front⟩ := List.cons_prefix_cons.mp front
      exact ⟨run,front,fun z hz => hall z (List.mem_cons_of_mem _ hz),by simpa using hlen⟩
  · rintro ⟨run,front,hall,hlen⟩
    refine ⟨x::run,List.cons_prefix_cons.mpr ⟨rfl,front⟩,?_,by simpa using hlen⟩
    simpa [h] using hall

/-- No run starts at an element outside of the class. -/
theorem startsRun_skip (h : p x=false) : StartsRun p n (x::xs) ↔ n=0 := by
  constructor
  · rintro ⟨run,front,hall,hlen⟩
    cases run with
    | nil => simpa using hlen
    | cons y run =>
      obtain ⟨rfl,-⟩ := List.cons_prefix_cons.mp front
      simpa [h] using hall y List.mem_cons_self
  · rintro rfl
    exact ⟨[],List.nil_prefix,by simp,Nat.zero_le _⟩

/-- A closed run at the front goes on behind an element of the class. -/
theorem startsClosedRun_cons (h : p x=true) :
    StartsClosedRun p n (x::xs) ↔ StartsClosedRun p (n-1) xs := by
  constructor
  · rintro ⟨run,y,front,hall,hy,hlen⟩
    cases run with
    | nil =>
      obtain ⟨rfl,-⟩ := List.cons_prefix_cons.mp front
      simp [h] at hy
    | cons z run =>
      obtain ⟨-,front⟩ := List.cons_prefix_cons.mp front
      rw [List.length_cons] at hlen
      exact ⟨run,y,front,fun z hz => hall z (List.mem_cons_of_mem _ hz),hy,by omega⟩
  · rintro ⟨run,y,front,hall,hy,hlen⟩
    refine ⟨x::run,y,List.cons_prefix_cons.mpr ⟨rfl,front⟩,?_,hy,?_⟩
    · simpa [h] using hall
    · rw [List.length_cons]
      omega

/-- The empty run is closed by an element outside of the class. -/
theorem startsClosedRun_skip (h : p x=false) : StartsClosedRun p n (x::xs) ↔ n=0 := by
  constructor
  · rintro ⟨run,y,front,hall,-,hlen⟩
    cases run with
    | nil => simpa using hlen
    | cons z run =>
      obtain ⟨rfl,-⟩ := List.cons_prefix_cons.mp front
      simpa [h] using hall z List.mem_cons_self
  · rintro rfl
    exact ⟨[],x,by simp,by simp,h,Nat.zero_le _⟩

/-- Every list has an empty run. -/
theorem startsRun_zero : StartsRun p 0 xs := ⟨[],List.nil_prefix,by simp,Nat.zero_le _⟩

/-- A run at the front is at least as long as a shorter one. -/
theorem StartsRun.mono {m : ℕ} (h : StartsRun p n xs) (hle : m ≤ n) : StartsRun p m xs := by
  obtain ⟨run,front,hall,hlen⟩ := h
  exact ⟨run,front,hall,by omega⟩

/-- A closed run at the front is at least as long as a shorter one. -/
theorem StartsClosedRun.mono {m : ℕ} (h : StartsClosedRun p n xs) (hle : m ≤ n) :
    StartsClosedRun p m xs := by
  obtain ⟨run,y,front,hall,hy,hlen⟩ := h
  exact ⟨run,y,front,hall,hy,by omega⟩

/-- A run at the front is a run. -/
theorem StartsRun.hasRun (h : StartsRun p n xs) : HasRun p n xs := by
  obtain ⟨run,front,hall,hlen⟩ := h
  exact ⟨run,front.isInfix,hall,hlen⟩

/-- A closed run at the front is a closed run. -/
theorem StartsClosedRun.hasClosedRun (h : StartsClosedRun p n xs) : HasClosedRun p n xs := by
  obtain ⟨run,y,front,hall,hy,hlen⟩ := h
  exact ⟨run,y,front.isInfix,hall,hy,hlen⟩

end Cons

/-- The longest count reaches a number when it did before, when the open run
goes on long enough, or when a later run is long enough. -/
theorem le_longestFrom_iff {n current best : ℕ} {xs : List α} (h : current ≤ best) :
    n ≤ longestFrom p current best xs ↔
      n ≤ best ∨ StartsRun p (n-current) xs ∨ HasRun p n xs := by
  induction xs generalizing current best with
  | nil =>
    have hstart : StartsRun p (n-current) [] → n ≤ current := by
      rintro ⟨run,front,-,hlen⟩
      rw [List.prefix_nil.mp front,List.length_nil] at hlen
      omega
    have hrun : HasRun p n [] → n=0 := by
      rintro ⟨run,inside,-,hlen⟩
      rw [List.infix_nil.mp inside,List.length_nil] at hlen
      omega
    constructor
    · exact fun hle => .inl hle
    · rintro (hle | start | run)
      · exact hle
      · exact (hstart start).trans h
      · rw [hrun run]
        exact Nat.zero_le _
  | cons x xs ih =>
    cases hx : p x with
    | true =>
      simp only [longestFrom,hx,if_true]
      rw [ih (le_max_right _ _),hasRun_cons]
      by_cases hopen : n ≤ current
      · exact iff_of_true (.inl (by omega)) (.inl (by omega))
      · obtain ⟨k,rfl⟩ : ∃ k,n=current+1+k := ⟨n-(current+1),by omega⟩
        have hnext : current+1+k-current=k+1 := by omega
        have hlast : current+1+k-(current+1)=k := by omega
        have hwhole : current+1+k=current+k+1 := by omega
        rw [hnext,hlast,startsRun_cons hx]
        constructor
        · rintro (hle | start | run)
          · by_cases hbest : current+1+k ≤ best
            · exact .inl hbest
            · have hk : k=0 := by omega
              subst hk
              exact .inr (.inl startsRun_zero)
          · exact .inr (.inl start)
          · exact .inr (.inr (.inr run))
        · rintro (hle | start | start | run)
          · exact .inl (by omega)
          · exact .inr (.inl start)
          · rw [hwhole,startsRun_cons hx] at start
            exact .inr (.inl (start.mono (by omega)))
          · exact .inr (.inr run)
    | false =>
      simp only [longestFrom,hx,Bool.false_eq_true,if_false]
      rw [ih (Nat.zero_le _),hasRun_cons,startsRun_skip hx,startsRun_skip hx,Nat.sub_zero]
      constructor
      · rintro (hle | start | run)
        · exact .inl hle
        · exact .inr (.inr (.inr start.hasRun))
        · exact .inr (.inr (.inr run))
      · rintro (hle | hzero | hzero | run)
        · exact .inl hle
        · exact .inl (by omega)
        · exact .inl (by omega)
        · exact .inr (.inr run)

/-- The longest count reaches a number exactly when there is a run that
long. -/
theorem le_longest_iff {n : ℕ} {xs : List α} : n ≤ longest p xs ↔ HasRun p n xs := by
  rw [longest,le_longestFrom_iff p (le_refl 0),Nat.sub_zero]
  constructor
  · rintro (hzero | start | run)
    · rw [Nat.le_zero.mp hzero]
      exact startsRun_zero.hasRun
    · exact start.hasRun
    · exact run
  · exact fun run => .inr (.inr run)

/-- A closed count reaches a number exactly when the open run is closed late
enough or a later one is. -/
theorem exists_closedFrom_iff {n current : ℕ} {xs : List α} :
    (∃ m ∈ closedFrom p current xs,n ≤ m) ↔
      StartsClosedRun p (n-current) xs ∨ HasClosedRun p n xs := by
  induction xs generalizing current with
  | nil =>
    have hstart : ¬StartsClosedRun p (n-current) [] := by
      rintro ⟨run,y,front,-⟩
      simp at front
    have hrun : ¬HasClosedRun p n [] := by
      rintro ⟨run,y,inside,-⟩
      simp at inside
    simp [closedFrom,hstart,hrun]
  | cons x xs ih =>
    cases hx : p x with
    | true =>
      simp only [closedFrom,hx,if_true]
      rw [ih,hasClosedRun_cons]
      rw [startsClosedRun_cons hx,startsClosedRun_cons hx,Nat.sub_sub]
      constructor
      · rintro (start | run)
        · exact .inl start
        · exact .inr (.inr run)
      · rintro (start | start | run)
        · exact .inl start
        · exact .inl (start.mono (by omega))
        · exact .inr run
    | false =>
      simp only [closedFrom,hx,Bool.false_eq_true,if_false,List.exists_mem_cons_iff]
      rw [ih,hasClosedRun_cons,startsClosedRun_skip hx,startsClosedRun_skip hx,Nat.sub_zero]
      constructor
      · rintro (hle | start | run)
        · exact .inl (by omega)
        · exact .inr (.inr start.hasClosedRun)
        · exact .inr (.inr run)
      · rintro (hzero | hzero | run)
        · exact .inl (by omega)
        · exact .inl (by omega)
        · exact .inr (.inr run)

/-- A closed count reaches a number exactly when there is a closed run that
long. -/
theorem exists_closed_iff {n : ℕ} {xs : List α} :
    (∃ m ∈ closed p xs,n ≤ m) ↔ HasClosedRun p n xs := by
  rw [closed,exists_closedFrom_iff,Nat.sub_zero]
  constructor
  · rintro (start | run)
    · exact start.hasClosedRun
    · exact run
  · exact fun run => .inr run

end Gcad.RunLength
