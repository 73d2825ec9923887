import Mathlib

/-!
# Searching with skips

A scan over positions reports the hits and jumps ahead after a miss. When no
jump passes a hit, the scan reports exactly the hits, in ascending order. A
Boyer-Moore-Horspool shift table gives such jumps: it assigns to every symbol
the distance from its last occurrence to the end of the pattern, or the
length of the pattern.
-/

namespace Gcad.SkipSearch

section Scan

variable (hit : ℕ → Bool) (skip : ℕ → ℕ) (last : ℕ)

/-- Visit positions up to `last`: report a hit and move on by one, or skip
ahead after a miss. The first argument bounds the number of visits. -/
def scan : ℕ → ℕ → List ℕ
  | 0,_ => []
  | fuel+1,i =>
    if i ≤ last then
      if hit i then i::scan fuel (i+1) else scan fuel (i+skip i)
    else []

/-- Past the last position nothing is reported. -/
theorem scan_past (fuel : ℕ) {i : ℕ} (h : last < i) : scan hit skip last fuel i=[] := by
  cases fuel with
  | zero => rfl
  | succ fuel => rw [scan,if_neg (by omega)]

variable {hit skip last}

/-- A scan whose skips pass no hit reports every hit in order. -/
theorem scan_eq (hskip : ∀ i ≤ last,hit i=false → 0 < skip i ∧
      ∀ k,i < k → k < i+skip i → k ≤ last → hit k=false)
    {fuel i : ℕ} (hfuel : last+1-i ≤ fuel) :
    scan hit skip last fuel i=(List.range' i (last+1-i)).filter hit := by
  induction fuel generalizing i with
  | zero =>
    have hnone : last+1-i=0 := by omega
    rw [hnone]
    rfl
  | succ fuel ih =>
    by_cases hi : i ≤ last
    · have hsucc : last+1-i=(last+1-(i+1))+1 := by omega
      rw [scan,if_pos hi]
      by_cases hhit : hit i=true
      · rw [if_pos hhit,ih (by omega),hsucc,List.range'_succ,List.filter_cons_of_pos hhit]
      · have hmiss : hit i=false := Bool.eq_false_iff.2 hhit
        obtain ⟨hpos,hclear⟩ := hskip i hi hmiss
        have hnear : ∀ n,n ≤ skip i → n ≤ last+1-i → (List.range' i n).filter hit=[] := by
          intro n hn hlast
          apply List.filter_eq_nil_iff.2
          intro k hk
          rw [List.mem_range'_1] at hk
          rcases Nat.lt_or_eq_of_le hk.1 with hlt | heq
          · rw [hclear k hlt (by omega) (by omega)]
            exact Bool.false_ne_true
          · rw [←heq,hmiss]
            exact Bool.false_ne_true
        rw [if_neg hhit]
        by_cases hfar : last < i+skip i
        · rw [scan_past hit skip last fuel hfar,hnear _ (by omega) (le_refl _)]
        · have hsplit : last+1-i=skip i+(last+1-(i+skip i)) := by omega
          rw [ih (by omega),hsplit,←List.range'_append_1,List.filter_append,
            hnear _ (le_refl _) (by omega),List.nil_append]
    · have hnone : last+1-i=0 := by omega
      rw [scan_past hit skip last _ (by omega),hnone]
      rfl

end Scan

section Shift

variable {κ : Type*} [DecidableEq κ]

/-- Enter one distance for several symbols. -/
def setAll (table : κ → ℕ) (keys : List κ) (distance : ℕ) : κ → ℕ :=
  keys.foldl (fun table c => Function.update table c distance) table

/-- Entries after one step. -/
theorem setAll_apply (table : κ → ℕ) (keys : List κ) (distance : ℕ) (c : κ) :
    setAll table keys distance c=if c ∈ keys then distance else table c := by
  induction keys generalizing table with
  | nil => rfl
  | cons key keys ih =>
    rw [setAll,List.foldl_cons]
    have hrest := ih (Function.update table key distance)
    rw [setAll] at hrest
    rw [hrest,Function.update_apply]
    by_cases hin : c ∈ keys
    · rw [if_pos hin,if_pos (List.mem_cons_of_mem _ hin)]
    · rw [if_neg hin]
      by_cases hkey : c=key
      · rw [if_pos hkey,if_pos (hkey ▸ List.mem_cons_self)]
      · rw [if_neg hkey,if_neg (List.not_mem_cons_of_ne_of_not_mem hkey hin)]

/-- The table after the first `n` symbols of a pattern of length `m`. -/
def shiftTable (m : ℕ) (keys : ℕ → List κ) (n : ℕ) : κ → ℕ :=
  (List.range n).foldl (fun table j => setAll table (keys j) (m-1-j)) fun _ => m

/-- One more symbol. -/
theorem shiftTable_succ (m : ℕ) (keys : ℕ → List κ) (n : ℕ) :
    shiftTable m keys (n+1)=setAll (shiftTable m keys n) (keys n) (m-1-n) := by
  rw [shiftTable,List.range_succ,List.foldl_append]
  rfl

/-- Distances are positive, at most the length, and no longer than the
distance from any earlier occurrence. -/
theorem shiftTable_bounds {m : ℕ} (keys : ℕ → List κ) (c : κ) {n : ℕ} (hn : n < m) :
    (0 < shiftTable m keys n c ∧ shiftTable m keys n c ≤ m) ∧
    ∀ j < n,c ∈ keys j → shiftTable m keys n c ≤ m-1-j := by
  induction n with
  | zero => exact ⟨⟨hn,le_refl m⟩,fun j hj => absurd hj (Nat.not_lt_zero j)⟩
  | succ n ih =>
    obtain ⟨hbounds,hocc⟩ := ih (by omega)
    rw [shiftTable_succ,setAll_apply]
    by_cases hin : c ∈ keys n
    · rw [if_pos hin]
      exact ⟨by omega,fun j hj _ => by omega⟩
    · rw [if_neg hin]
      refine ⟨hbounds,fun j hj hc => ?_⟩
      rcases Nat.lt_or_eq_of_le (Nat.lt_succ_iff.1 hj) with hlt | heq
      · exact hocc j hlt hc
      · exact absurd (heq ▸ hc) hin

/-- A shift looked up at the last symbol of a window passes no hit. -/
theorem shift_passes_no_hit {hit : ℕ → Bool} {text : ℕ → κ} {keys : ℕ → List κ} {m i k : ℕ}
    (hm : 0 < m) (hhit : hit k=true → ∀ j < m-1,text (k+j) ∈ keys j) (hik : i < k)
    (hk : k < i+shiftTable m keys (m-1) (text (i+m-1))) : hit k=false := by
  obtain ⟨⟨-,hle⟩,hocc⟩ := shiftTable_bounds (m:=m) keys (text (i+m-1)) (n:=m-1) (by omega)
  apply Bool.eq_false_iff.2
  intro h
  have hsame : k+(i+m-1-k)=i+m-1 := by omega
  have hkey := hhit h (i+m-1-k) (by omega)
  rw [hsame] at hkey
  have hnear := hocc (i+m-1-k) (by omega) hkey
  omega

end Shift

end Gcad.SkipSearch
