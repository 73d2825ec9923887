import Mathlib

/-!
# The first occurrence of a text in a text

`findSub` is the search of a standard string class. It yields the first
place where the needle stands, so what follows an occurrence does not change
the answer, and a symbol that the needle does not have separates occurrences.
-/

namespace Gcad.TextSearch

section Search

variable {α : Type*} [DecidableEq α]

/-- The position of the first occurrence of a text. -/
def findSub (needle : List α) : List α → Option ℕ
  | [] => if needle=[] then some 0 else none
  | c::rest => if needle <+: c::rest then some 0 else (findSub needle rest).map (· + 1)

variable {needle text : List α}

/-- The needle stands where it is found. -/
theorem findSub_some {pos : ℕ} (h : findSub needle text=some pos) :
    pos ≤ text.length ∧ needle <+: text.drop pos := by
  induction text generalizing pos with
  | nil =>
    unfold findSub at h
    split at h
    · next hneedle =>
      cases h
      exact ⟨le_rfl,hneedle ▸ List.nil_prefix⟩
    · cases h
  | cons c rest ih =>
    unfold findSub at h
    split at h
    · next hfound =>
      cases h
      exact ⟨Nat.zero_le _,hfound⟩
    · obtain ⟨last,hlast,rfl⟩ := Option.map_eq_some_iff.mp h
      obtain ⟨hle,hfound⟩ := ih hlast
      exact ⟨Nat.succ_le_succ hle,hfound⟩

/-- The search fails exactly where the needle is not part of the text. -/
theorem findSub_none_iff : findSub needle text=none ↔ ¬needle <:+: text := by
  induction text with
  | nil =>
    unfold findSub
    rw [List.infix_nil]
    split
    · next hneedle => exact ⟨fun h => (nomatch h),fun h => (h hneedle).elim⟩
    · next hneedle => exact ⟨fun _ => hneedle,fun _ => rfl⟩
  | cons c rest ih =>
    unfold findSub
    rw [List.infix_cons_iff,not_or,←ih]
    split
    · next hfound => exact ⟨fun h => (nomatch h),fun h => (h.1 hfound).elim⟩
    · next hfound =>
      rw [Option.map_eq_none_iff]
      exact ⟨fun h => ⟨hfound,h⟩,And.right⟩

/-- What follows an occurrence does not change the first one. -/
theorem findSub_append (h : needle <:+: text) (more : List α) :
    findSub needle (text++more)=findSub needle text := by
  induction text with
  | nil =>
    have hneedle := List.infix_nil.mp h
    cases more with
    | nil => rfl
    | cons c more =>
      subst hneedle
      rfl
  | cons c rest ih =>
    rw [List.cons_append,findSub,findSub]
    by_cases hfound : needle <+: c::rest
    · have hlonger : needle <+: c::(rest++more) := hfound.trans (List.prefix_append (c::rest) more)
      rw [if_pos hfound,if_pos hlonger]
    · have hrest : needle <:+: rest := (List.infix_cons_iff.mp h).resolve_left hfound
      have hlonger : ¬needle <+: c::(rest++more) := by
        intro hprefix
        refine hfound (List.prefix_of_prefix_length_le hprefix
          (List.prefix_append (c::rest) more) ?_)
        exact hrest.length_le.trans (Nat.le_succ _)
      rw [if_neg hfound,if_neg hlonger,ih hrest]

omit [DecidableEq α] in
/-- The needle stands at the start of the first of two texts, if a symbol
that it does not have separates them. -/
theorem prefix_separated {q : α} (hq : q ∉ needle) {front back : List α}
    (h : needle <+: front++q::back) : needle <+: front := by
  rcases List.prefix_or_prefix_of_prefix h (List.prefix_append front (q::back)) with hshort|hlong
  · exact hshort
  · obtain ⟨rest,rfl⟩ := hlong
    cases rest with
    | nil =>
      rw [List.append_nil]
    | cons c rest =>
      have htail := (List.prefix_append_right_inj front).mp h
      have hc := (List.cons_prefix_cons.mp htail).1
      refine (hq ?_).elim
      rw [hc]
      exact List.mem_append_right front List.mem_cons_self

omit [DecidableEq α] in
/-- A needle without the separating symbol stands on one side of it. -/
theorem infix_separated {q : α} (hq : q ∉ needle) {front back : List α}
    (h : needle <:+: front++q::back) : needle <:+: front ∨ needle <:+: back := by
  induction front with
  | nil =>
    rcases List.infix_cons_iff.mp h with hhead|htail
    · have hnil : needle <+: [] := prefix_separated hq hhead
      exact .inl hnil.isInfix
    · exact .inr htail
  | cons c front ih =>
    rcases List.infix_cons_iff.mp h with hhead|htail
    · have hfront : needle <+: c::front := prefix_separated hq hhead
      exact .inl hfront.isInfix
    · rcases ih htail with hfront|hback
      · exact .inl (hfront.trans (List.suffix_cons c front).isInfix)
      · exact .inr hback

end Search

end Gcad.TextSearch
