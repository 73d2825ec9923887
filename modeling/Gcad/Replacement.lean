import Gcad.TextSearch

/-!
# Replacing the occurrences of a text

Occurrences of a needle are replaced from left to right, and the search goes
on behind what was put in. Symbols are compared through a key, such as their
lower case. A text without the needle stays; a symbol that the needle does
not have cuts the work in two; and where the image starts with a lighter
symbol than the needle, every replacement makes the text lexicographically
lighter, so a text that comes back unchanged had nothing to replace.
-/

namespace Gcad.Replacement

open TextSearch

section Replace

variable {α : Type*} [DecidableEq α] (key : α → α) (needle image : List α)

/-- Replace the occurrences behind so many symbols, which were replaced
already. -/
def replaceFrom : ℕ → List α → List α
  | _,[] => []
  | skip+1,_::rest => replaceFrom skip rest
  | 0,c::rest =>
    if needle <+: (c::rest).map key then image++replaceFrom (needle.length-1) rest
    else c::replaceFrom 0 rest

variable {key needle image}

/-- Replacing by a text of the same length keeps the length. -/
theorem replaceFrom_length (hne : needle≠[]) (hlength : image.length=needle.length) (skip : ℕ)
    (s : List α) : (replaceFrom key needle image skip s).length=s.length-skip := by
  have hpos := List.length_pos_iff.mpr hne
  induction s generalizing skip with
  | nil => rw [replaceFrom,List.length_nil,Nat.zero_sub]
  | cons c rest ih =>
    cases skip with
    | succ skip =>
      rw [replaceFrom,ih,List.length_cons]
      omega
    | zero =>
      rw [replaceFrom]
      split
      · next hfound =>
        have hle := hfound.length_le
        rw [List.length_map,List.length_cons] at hle
        rw [List.length_append,ih,List.length_cons]
        omega
      · rw [List.length_cons,List.length_cons,ih]
        omega

/-- A text without the needle stays as it is. -/
theorem replaceFrom_eq_self {s : List α} (h : ¬needle <:+: s.map key) :
    replaceFrom key needle image 0 s=s := by
  induction s with
  | nil => rfl
  | cons c rest ih =>
    rw [List.map_cons,List.infix_cons_iff,not_or] at h
    rw [replaceFrom,List.map_cons,if_neg h.1,ih h.2]

/-- A separating symbol cuts the work in two. -/
theorem replaceFrom_append (hne : needle≠[]) {q : α} (hq : key q ∉ needle) (skip : ℕ)
    {front : List α} (hskip : skip ≤ front.length) (back : List α) :
    replaceFrom key needle image skip (front++q::back)=
      replaceFrom key needle image skip front++q::replaceFrom key needle image 0 back := by
  have hpos := List.length_pos_iff.mpr hne
  induction front generalizing skip with
  | nil =>
    have hzero : skip=0 := Nat.le_zero.mp hskip
    have hnot : ¬needle <+: key q::back.map key := by
      intro hprefix
      have hnil : needle <+: [] := prefix_separated hq hprefix
      exact hne (List.prefix_nil.mp hnil)
    have hleft : replaceFrom key needle image 0 (q::back)=
        q::replaceFrom key needle image 0 back := if_neg hnot
    rw [hzero]
    exact hleft
  | cons c front ih =>
    cases skip with
    | succ skip =>
      rw [List.length_cons] at hskip
      rw [List.cons_append,replaceFrom,replaceFrom,ih skip (by omega)]
    | zero =>
      have hsame : needle <+: (c::(front++q::back)).map key ↔ needle <+: (c::front).map key := by
        have hsplit : (c::(front++q::back)).map key=(c::front).map key++key q::back.map key := by
          rw [←List.cons_append,List.map_append]
          rfl
        rw [hsplit]
        exact ⟨prefix_separated hq,fun h => h.trans (List.prefix_append _ _)⟩
      rw [List.cons_append,replaceFrom,replaceFrom]
      by_cases hfound : needle <+: (c::front).map key
      · have hle := hfound.length_le
        rw [List.length_map,List.length_cons] at hle
        rw [if_pos (hsame.mpr hfound),if_pos hfound,ih _ (by omega),List.append_assoc]
      · rw [if_neg fun h => hfound (hsame.mp h),if_neg hfound,ih 0 (Nat.zero_le _)]
        rfl

/-- A replacement makes the text lighter, if the image starts with a lighter
symbol than the needle. -/
theorem replaceFrom_lt {weight : α → ℕ} {first : α} {others : List α}
    (himage : image=first::others)
    (hweight : ∀ c,needle.head?=some (key c) → weight first < weight c) {s : List α}
    (h : needle <:+: s.map key) (hne : needle≠[]) :
    (replaceFrom key needle image 0 s).map weight < s.map weight := by
  induction s with
  | nil => exact (hne (List.infix_nil.mp h)).elim
  | cons c rest ih =>
    rw [replaceFrom]
    split
    · next hfound =>
      have hhead : needle.head?=some (key c) := by
        obtain ⟨d,more,hneedle⟩ := List.exists_cons_of_ne_nil hne
        rw [hneedle,List.map_cons] at hfound
        rw [hneedle,List.head?_cons,(List.cons_prefix_cons.mp hfound).1]
      rw [himage,List.cons_append,List.map_cons,List.map_cons,List.cons_lt_cons_iff]
      exact .inl (hweight c hhead)
    · next hnot =>
      rw [List.map_cons,List.map_cons,List.cons_lt_cons_iff]
      rw [List.map_cons,List.infix_cons_iff] at h
      exact .inr ⟨rfl,ih (h.resolve_left hnot)⟩

end Replace

end Gcad.Replacement
