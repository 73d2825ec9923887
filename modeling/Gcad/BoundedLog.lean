import Mathlib

/-!
# Logs of bounded length

A log grows at its end and loses its oldest entries as soon as it is longer
than its bound. Pruning after every entry keeps the same end of the history
as pruning once. A scan from the newest entry back that stops at the first
stale one counts all the fresh ones exactly when none of those counted stands
behind it. Nothing here depends on a particular program.
-/

namespace Gcad.BoundedLog

variable {α : Type*}

/-- Remove entries from the front while the log is longer than its bound. -/
def retain (bound : ℕ) (log : List α) : List α := log.drop (log.length-bound)

/-- Append an entry and make room. -/
def push (bound : ℕ) (log : List α) (entry : α) : List α := retain bound (log++[entry])

/-- What is retained is within the bound. -/
theorem retain_length (bound : ℕ) (log : List α) : (retain bound log).length ≤ bound := by
  rw [retain,List.length_drop]
  omega

/-- What is retained is the end of the log. -/
theorem retain_suffix (bound : ℕ) (log : List α) : (retain bound log).IsSuffix log :=
  List.drop_suffix _ _

/-- Newest first, the retained entries are the first ones. -/
theorem retain_reverse (bound : ℕ) (log : List α) :
    (retain bound log).reverse=log.reverse.take bound := by
  rw [retain,List.reverse_drop]
  rcases le_total log.length bound with hshort | hlong
  · rw [List.take_of_length_le (by rw [List.length_reverse]; omega),
      List.take_of_length_le (by rw [List.length_reverse]; omega)]
  · congr 1
    omega

/-- Pruning after every entry keeps what pruning once keeps. -/
theorem push_retain (bound : ℕ) (log : List α) (entry : α) :
    push bound (retain bound log) entry=retain bound (log++[entry]) := by
  refine List.reverse_injective ?_
  rw [push,retain_reverse,retain_reverse,List.reverse_append,List.reverse_append,retain_reverse,
    List.reverse_singleton,List.singleton_append,List.singleton_append]
  cases bound with
  | zero => rfl
  | succ bound =>
    rw [List.take_succ_cons,List.take_succ_cons,List.take_take,min_eq_left (by omega)]

/-- Changing the entries and pruning commute. -/
theorem retain_map {β : Type*} (bound : ℕ) (f : α → β) (log : List α) :
    retain bound (log.map f)=(retain bound log).map f := by
  rw [retain,retain,List.length_map,List.map_drop]

/-- Pruning twice is pruning once to the smaller bound. -/
theorem retain_retain (bound other : ℕ) (log : List α) :
    retain bound (retain other log)=retain (min bound other) log := by
  refine List.reverse_injective ?_
  rw [retain_reverse,retain_reverse,retain_reverse,List.take_take]

/-- The new entry is the newest that is retained. -/
theorem push_reverse {bound : ℕ} (h : 0 < bound) (log : List α) (entry : α) :
    (push bound log entry).reverse=entry::log.reverse.take (bound-1) := by
  obtain ⟨bound,rfl⟩ := Nat.exists_eq_succ_of_ne_zero h.ne'
  rw [push,retain_reverse,List.reverse_append,List.reverse_singleton,List.singleton_append,
    List.take_succ_cons]
  rfl

/-- The first entry of a log. -/
theorem push_nil {bound : ℕ} (h : 0 < bound) (entry : α) : push bound [] entry=[entry] := by
  rw [push,retain,List.nil_append,List.length_singleton,Nat.sub_eq_zero_of_le h,List.drop_zero]

/-- Newest first, a scan that stops at the first stale entry misses nothing
exactly when what is counted behind a stale entry is stale. -/
theorem countP_takeWhile_iff (fresh counted : α → Bool) (entries : List α) :
    (entries.takeWhile fresh).countP counted=(entries.countP fun a => fresh a && counted a) ↔
      entries.Pairwise fun newer older =>
        fresh newer=false → counted older=true → fresh older=false := by
  induction entries with
  | nil => exact iff_of_true rfl .nil
  | cons a entries ih =>
    rw [List.pairwise_cons]
    cases hfresh : fresh a with
    | true =>
      rw [List.takeWhile_cons_of_pos hfresh,List.countP_cons,List.countP_cons,hfresh,
        Bool.true_and,Nat.add_right_cancel_iff,ih]
      exact (and_iff_right fun b _ h => absurd h nofun).symm
    | false =>
      rw [List.takeWhile_cons_of_neg (by rw [hfresh]; exact nofun),List.countP_nil,
        List.countP_cons_of_neg (by rw [hfresh]; exact nofun),eq_comm,List.countP_eq_zero]
      have hnone : (∀ b ∈ entries,¬(fresh b && counted b)=true) ↔
          ∀ b ∈ entries,counted b=true → fresh b=false := by
        refine forall₂_congr fun b _ => ?_
        cases fresh b <;> cases counted b <;> decide
      rw [hnone]
      constructor
      · intro h
        refine ⟨fun b hb _ => h b hb,List.pairwise_of_forall_mem_list fun b _ c hc _ => h c hc⟩
      · exact fun h b hb => h.1 b hb rfl

end Gcad.BoundedLog
