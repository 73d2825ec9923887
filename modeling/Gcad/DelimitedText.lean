import Mathlib

/-!
# Texts cut at a delimiter

A delimited text is read piece by piece: every call returns what stands
before the next delimiter, and the call that finds nothing left fails. The
pieces are those of a split at the delimiter, without an empty last one.
-/

namespace Gcad.DelimitedText

section Splitting

variable {α : Type*}

/-- A joined text has only symbols of its pieces and of the separator. -/
theorem not_mem_intercalate {c : α} {separator : List α} {pieces : List (List α)}
    (hsep : c ∉ separator) (h : ∀ piece ∈ pieces, c ∉ piece) :
    c ∉ separator.intercalate pieces := by
  induction pieces with
  | nil => exact List.not_mem_nil
  | cons piece rest ih =>
    cases rest with
    | nil =>
      rw [List.intercalate_singleton]
      exact h piece List.mem_cons_self
    | cons next rest =>
      rw [List.intercalate_cons_cons,List.mem_append,List.mem_append]
      rintro ((hc | hc) | hc)
      · exact h piece List.mem_cons_self hc
      · exact hsep hc
      · exact ih (fun other ho => h other (List.mem_cons_of_mem _ ho)) hc

variable [BEq α] [LawfulBEq α]

/-- The pieces of a split text are parts of it without the separator. -/
theorem mem_splitOn {a : α} {text piece : List α} (h : piece ∈ text.splitOn a) :
    a ∉ piece ∧ piece ⊆ text := by
  induction text generalizing piece with
  | nil =>
    rw [List.splitOn_nil] at h
    rw [List.mem_singleton.mp h]
    exact ⟨List.not_mem_nil,List.Subset.refl _⟩
  | cons c rest ih =>
    rw [List.splitOn_cons_eq_if_modifyHead] at h
    split at h
    · rcases List.mem_cons.mp h with rfl | h
      · exact ⟨List.not_mem_nil,List.nil_subset _⟩
      · exact ⟨(ih h).1,List.subset_cons_of_subset _ (ih h).2⟩
    · next hc =>
      cases hs : rest.splitOn a with
      | nil => exact absurd hs (List.splitOn_ne_nil _ _)
      | cons head tail =>
        rw [hs,List.modifyHead_cons] at h
        rw [hs] at ih
        rcases List.mem_cons.mp h with rfl | h
        · obtain ⟨hnot,hsub⟩ := ih List.mem_cons_self
          have hne : a≠c := fun he => hc (by rw [he]; exact BEq.refl c)
          exact ⟨List.not_mem_cons_of_ne_of_not_mem hne hnot,List.cons_subset_cons _ hsub⟩
        · obtain ⟨hnot,hsub⟩ := ih (List.mem_cons_of_mem _ h)
          exact ⟨hnot,List.subset_cons_of_subset _ hsub⟩

/-- The pieces that repeated reads up to a delimiter return. -/
def pieces (delimiter : α) (text : List α) : List (List α) :=
  let all := text.splitOn delimiter
  if all.getLast?.all List.isEmpty then all.dropLast else all

/-- No piece holds the delimiter, and every piece is a part of the text. -/
theorem mem_pieces {a : α} {text piece : List α} (h : piece ∈ pieces a text) :
    a ∉ piece ∧ piece ⊆ text := by
  refine mem_splitOn ?_
  unfold pieces at h
  dsimp only at h
  split at h
  · exact List.mem_of_mem_dropLast h
  · exact h

/-- Reading fields that were joined by the delimiter. -/
theorem pieces_intercalate {a : α} {fields : List (List α)} (hfields : ∀ field ∈ fields, a ∉ field)
    (hne : fields≠[]) : pieces a ([a].intercalate fields)=
      if fields.getLast?.all List.isEmpty then fields.dropLast else fields := by
  unfold pieces
  dsimp only
  rw [List.splitOn_intercalate a hfields hne]

/-- A delimiter in the text separates what is read before and after it. -/
theorem pieces_append_cons (a : α) (text rest : List α) :
    pieces a (text++a::rest)=text.splitOn a++pieces a rest := by
  have hne := List.splitOn_ne_nil a rest
  unfold pieces
  dsimp only
  rw [List.splitOn_append_cons_self,List.getLast?_append_of_ne_nil _ hne,
    List.dropLast_append_of_ne_nil hne]
  split <;> rfl

/-- Lines that are each followed by the delimiter are read back. -/
theorem pieces_terminated {a : α} {lines : List (List α)} (h : ∀ line ∈ lines, a ∉ line) :
    pieces a (lines.flatMap fun line => line++[a])=lines := by
  induction lines with
  | nil => rfl
  | cons line rest ih =>
    have hcons : ((line::rest).flatMap fun line => line++[a])=
        line++a::rest.flatMap fun line => line++[a] := by
      rw [List.flatMap_cons,List.append_assoc,List.singleton_append]
    rw [hcons,pieces_append_cons,List.splitOn_eq_singleton (h line List.mem_cons_self),
      ih fun other ho => h other (List.mem_cons_of_mem _ ho)]
    rfl

/-- What stands before and after the first delimiter. -/
def cutFirst (delimiter : α) (text : List α) : Option (List α×List α) :=
  if text.contains delimiter then
    some (text.takeWhile fun a => !a==delimiter,(text.dropWhile fun a => !a==delimiter).tail)
  else none

/-- A text is cut at its first delimiter: the front holds none. -/
theorem cutFirst_eq_some_iff {delimiter : α} {text front back : List α} :
    cutFirst delimiter text=some (front,back) ↔
      text=front++delimiter::back ∧ delimiter ∉ front := by
  unfold cutFirst
  constructor
  · intro h
    split_ifs at h with hmem
    obtain ⟨rfl,rfl⟩ := Prod.mk.inj (Option.some.inj h)
    refine ⟨?_,fun hfront => by simpa using List.mem_takeWhile_imp hfront⟩
    cases hdrop : text.dropWhile fun a => !a==delimiter with
    | nil =>
      have hall := List.dropWhile_eq_nil_iff.mp hdrop delimiter (List.contains_iff_mem.mp hmem)
      simp at hall
    | cons a rest =>
      have ha := List.head_dropWhile_not (fun a => !a==delimiter) (l:=text) (by simp [hdrop])
      simp only [hdrop,List.head_cons,Bool.not_eq_false',beq_iff_eq] at ha
      rw [ha] at hdrop
      rw [List.tail_cons,← hdrop,List.takeWhile_append_dropWhile]
  · rintro ⟨rfl,hfront⟩
    have hpass : ∀ a ∈ front,(!a==delimiter)=true := by
      intro a ha
      rw [Bool.not_eq_true',beq_eq_false_iff_ne]
      exact fun heq => hfront (heq ▸ ha)
    rw [List.takeWhile_append_of_pos hpass,List.dropWhile_append_of_pos hpass]
    simp

end Splitting

section Trimming

variable {α : Type*}

/-- A text without the symbols of a kind at its two ends. -/
def trim (blank : α → Bool) (text : List α) : List α :=
  (text.dropWhile blank).rdropWhile blank

end Trimming

end Gcad.DelimitedText
