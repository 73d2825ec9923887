import Mathlib

/-!
# Edge-triggered reports along an arrival order

Items arrive one by one and an accumulated measure is reported whenever it
rises. A report counts when the measure has reached a threshold and some
item so far carries a flag. The measure is insensitive to order and never
decreases, so whether a report ever counts can depend on the order only
through flagged items that arrive when the measure is already saturated.
-/

namespace Gcad.EdgeTrigger

variable {α : Type*}

/-- A measure of finite collections that starts at zero, ignores order and
never decreases when items are added. -/
structure Accumulating (measure : List α → ℕ) : Prop where
  /-- Nothing has arrived yet. -/
  empty : measure []=0
  /-- The order of arrival is irrelevant. -/
  perm : ∀ {l l' : List α}, l.Perm l' → measure l=measure l'
  /-- More items never lower the measure. -/
  mono : ∀ l l' : List α, measure l ≤ measure (l++l')

/-- Some arrival raises the measure to at least the threshold when a
flagged item is among those that have arrived. -/
def Raises (measure : List α → ℕ) (flag : α → Bool) (threshold : ℕ) (order : List α) : Prop :=
  ∃ seen x rest, order=seen++x::rest ∧ measure seen < measure (seen++[x]) ∧
    threshold ≤ measure (seen++[x]) ∧ ∃ y ∈ seen++[x], flag y=true

/-- A measure that ends at or above a level it starts below crosses that
level at some arrival. -/
theorem exists_crossing {measure : List α → ℕ} {level : ℕ} (seen : List α) {order : List α}
    (hstart : measure seen < level) (hend : level ≤ measure (seen++order)) :
    ∃ first x rest, order=first++x::rest ∧ measure (seen++first) < level ∧
      level ≤ measure (seen++first++[x]) := by
  induction order generalizing seen with
  | nil =>
    rw [List.append_nil] at hend
    omega
  | cons x order ih =>
    by_cases hx : level ≤ measure (seen++[x])
    · exact ⟨[],x,order,rfl,by rwa [List.append_nil],by rwa [List.append_nil]⟩
    · rw [List.append_cons] at hend
      obtain ⟨first,y,rest,rfl,hlow,hhigh⟩ := ih (seen++[x]) (Nat.not_le.mp hx) hend
      refine ⟨x::first,y,rest,rfl,?_,?_⟩
      · rw [List.append_cons seen x first]
        exact hlow
      · rw [List.append_cons seen x first]
        exact hhigh

/-- Nothing raises before the first arrival. -/
theorem not_raises_nil (measure : List α → ℕ) (flag : α → Bool) (threshold : ℕ) :
    ¬Raises measure flag threshold [] := by
  rintro ⟨seen,x,rest,he,-⟩
  cases seen <;> cases he

/-- One more arrival raises if an earlier one did or if it does itself. -/
theorem raises_append_singleton {measure : List α → ℕ} {flag : α → Bool} {threshold : ℕ}
    {order : List α} {x : α} :
    Raises measure flag threshold (order++[x]) ↔ Raises measure flag threshold order ∨
      (measure order < measure (order++[x]) ∧ threshold ≤ measure (order++[x]) ∧
        ∃ y ∈ order++[x], flag y=true) := by
  constructor
  · rintro ⟨seen,y,rest,he,hr⟩
    rcases List.eq_nil_or_concat rest with rfl | ⟨front,z,rfl⟩
    · obtain ⟨rfl,hy⟩ := List.append_inj' he rfl
      obtain rfl := List.singleton_inj.mp hy
      exact .inr hr
    · rw [List.concat_eq_append,←List.cons_append,←List.append_assoc] at he
      obtain ⟨rfl,-⟩ := List.append_inj' he rfl
      exact .inl ⟨seen,y,front,rfl,hr⟩
  · rintro (⟨seen,y,rest,rfl,hr⟩ | hr)
    · exact ⟨seen,y,rest++[x],by rw [List.append_assoc,List.cons_append],hr⟩
    · exact ⟨order,x,[],rfl,hr⟩

section Order

variable {measure : List α → ℕ} {flag : α → Bool} {threshold : ℕ}

/-- A counting report needs a flagged item and a sufficient final measure. -/
theorem Raises.necessary (h : Accumulating measure) {order : List α}
    (hr : Raises measure flag threshold order) :
    (∃ x ∈ order, flag x=true) ∧ threshold ≤ measure order := by
  obtain ⟨seen,x,rest,rfl,-,ht,y,hy,hf⟩ := hr
  have hmono := h.mono (seen++[x]) rest
  rw [List.append_cons]
  exact ⟨⟨y,List.mem_append_left _ hy,hf⟩,ht.trans hmono⟩

/-- If the unflagged items alone stay below the final measure, a flagged
item is present when the final measure is first reached. -/
theorem raises_of_unflagged_lt (h : Accumulating measure) {order : List α}
    (hlt : measure (order.filter fun x => !flag x) < measure order)
    (ht : threshold ≤ measure order) : Raises measure flag threshold order := by
  have hpos : measure [] < measure order := by
    rw [h.empty]
    omega
  obtain ⟨seen,x,rest,rfl,hlow,hhigh⟩ := exists_crossing [] hpos le_rfl
  rw [List.nil_append] at hlow hhigh
  refine ⟨seen,x,rest,rfl,hlow.trans_le hhigh,ht.trans hhigh,?_⟩
  by_contra hnone
  have hall : ∀ y ∈ seen++[x], (!flag y)=true := by
    intro y hy
    have hf : ¬flag y=true := fun hf => hnone ⟨y,hy,hf⟩
    simpa using hf
  have hsub : (seen++x::rest).filter (fun x => !flag x)=
      (seen++[x])++rest.filter fun x => !flag x := by
    rw [List.append_cons,List.filter_append,List.filter_eq_self.mpr hall]
  have hmono := h.mono (seen++[x]) (rest.filter fun x => !flag x)
  rw [hsub] at hlt
  omega

/-- Flagged items first: the report at the threshold counts. -/
theorem raises_flagged_first (h : Accumulating measure) (hpos : 0 < threshold) {items : List α}
    (hflag : ∃ x ∈ items, flag x=true) (ht : threshold ≤ measure items) :
    Raises measure flag threshold (items.filter flag++items.filter fun x => !flag x) := by
  have hperm : (items.filter flag++items.filter fun x => !flag x).Perm items :=
    List.filter_append_perm flag items
  have hstart : measure [] < threshold := by rw [h.empty]; exact hpos
  rw [←h.perm hperm] at ht
  obtain ⟨seen,x,rest,he,hlow,hhigh⟩ := exists_crossing [] hstart ht
  rw [List.nil_append] at hlow hhigh
  refine ⟨seen,x,rest,he,by omega,hhigh,?_⟩
  obtain ⟨y,hy,hf⟩ := hflag
  cases hl : items.filter flag with
  | nil =>
    have hmem := List.mem_filter.mpr ⟨hy,hf⟩
    rw [hl] at hmem
    cases hmem
  | cons first others =>
    have hfirst : flag first=true :=
      (List.mem_filter.mp (hl ▸ List.mem_cons_self : first ∈ items.filter flag)).2
    rw [hl] at he
    cases seen with
    | nil =>
      obtain ⟨rfl,-⟩ := List.cons.inj he
      exact ⟨first,List.mem_singleton_self _,hfirst⟩
    | cons head tail =>
      obtain ⟨rfl,-⟩ := List.cons.inj he
      exact ⟨first,List.mem_cons_self,hfirst⟩

/-- Flagged items last: when the unflagged ones have already reached the
final measure, no report comes after a flagged item. -/
theorem not_raises_flagged_last (h : Accumulating measure) {items : List α}
    (heq : measure (items.filter fun x => !flag x)=measure items) :
    ¬Raises measure flag threshold (items.filter (fun x => !flag x)++items.filter flag) := by
  rintro ⟨seen,x,rest,he,hrise,-,y,hy,hf⟩
  have hperm : (items.filter (fun x => !flag x)++items.filter flag).Perm items :=
    List.perm_append_comm.trans (List.filter_append_perm flag items)
  have hfinal : measure (seen++[x]) ≤ measure items := by
    rw [←h.perm hperm,he,List.append_cons seen x rest]
    exact h.mono _ _
  have hprefix : items.filter (fun x => !flag x) <+: seen := by
    rcases List.append_eq_append_iff.mp he with ⟨more,rfl,-⟩ | ⟨more,hnot,htail⟩
    · exact List.prefix_append _ _
    · cases more with
      | nil =>
        rw [List.append_nil] at hnot
        rw [hnot]
      | cons z more =>
        obtain ⟨rfl,-⟩ := List.cons.inj htail
        have hmem : y ∈ items.filter fun x => !flag x := by
          rw [hnot,List.append_cons]
          exact List.mem_append_left _ hy
        have hno := (List.mem_filter.mp hmem).2
        simp only [hf,Bool.not_true,Bool.false_eq_true] at hno
  obtain ⟨more,rfl⟩ := hprefix
  have hmono := h.mono (items.filter fun x => !flag x) more
  omega

/-- Whether a counting report occurs is the same for every arrival order
exactly when it is not the case that some item is flagged, the final
measure suffices, and the unflagged items alone already reach it. -/
theorem order_independent_iff (flag : α → Bool) (h : Accumulating measure)
    (hpos : 0 < threshold) (items : List α) :
    (∀ first second : List α, first.Perm items → second.Perm items →
      (Raises measure flag threshold first ↔ Raises measure flag threshold second)) ↔
    ¬((∃ x ∈ items, flag x=true) ∧ threshold ≤ measure items ∧
      measure (items.filter fun x => !flag x)=measure items) := by
  constructor
  · rintro hall ⟨hflag,ht,heq⟩
    have hfirst := raises_flagged_first h hpos hflag ht
    exact not_raises_flagged_last h heq ((hall _ _ (List.filter_append_perm flag items)
      (List.perm_append_comm.trans (List.filter_append_perm flag items))).mp hfirst)
  · intro hnot
    suffices hone : ∀ order : List α, order.Perm items →
        (Raises measure flag threshold order ↔
          (∃ x ∈ items, flag x=true) ∧ threshold ≤ measure items) by
      intro first second hf hs
      rw [hone first hf,hone second hs]
    intro order hperm
    constructor
    · intro hr
      obtain ⟨⟨x,hx,hf⟩,ht⟩ := hr.necessary h
      exact ⟨⟨x,hperm.mem_iff.mp hx,hf⟩,by rwa [←h.perm hperm]⟩
    · rintro ⟨hflag,ht⟩
      have hle : measure (items.filter fun x => !flag x) ≤ measure items := by
        have hm := h.mono (items.filter fun x => !flag x) (items.filter flag)
        rwa [h.perm (List.perm_append_comm.trans (List.filter_append_perm flag items))] at hm
      have hne : measure (items.filter fun x => !flag x)≠measure items :=
        fun heq => hnot ⟨hflag,ht,heq⟩
      apply raises_of_unflagged_lt h
      · rw [h.perm (hperm.filter _),h.perm hperm]
        omega
      · rwa [h.perm hperm]

end Order

end Gcad.EdgeTrigger
