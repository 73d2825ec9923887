import Mathlib

/-!
# Lazily trimmed logs

A log of time stamps is appended to at the end and trimmed at the front, at
any moment and as often as convenient. Expiry is a relation between the
present and a stamp that no later present and no earlier stamp can undo. What
a trimmed log has lost is then expired for good, so counting the fresh stamps
of the log is counting them in the whole history.
-/

namespace Gcad.SlidingWindow

variable {T : Type*} [Preorder T] (expired : T → T → Bool)

/-- An expired stamp stays expired, and older stamps are expired with it. -/
def Lasting : Prop :=
  ∀ now later s earlier,now ≤ later → earlier ≤ s → expired now s=true →
    expired later earlier=true

/-- Drop expired stamps from the front. -/
def trim (now : T) (log : List T) : List T := log.dropWhile (expired now)

/-- A log has lost nothing from its history but a front of expired stamps. -/
def Covers (now : T) (history log : List T) : Prop :=
  ∃ dropped,history=dropped++log ∧ ∀ s ∈ dropped,expired now s=true

variable {expired}

omit [Preorder T] in
/-- An untrimmed log covers itself. -/
theorem Covers.refl (now : T) (history : List T) : Covers expired now history history :=
  ⟨[],rfl,nofun⟩

/-- What was expired is still expired later. -/
theorem Covers.later (lasting : Lasting expired) {now later : T} {history log : List T}
    (h : Covers expired now history log) (hle : now ≤ later) :
    Covers expired later history log := by
  obtain ⟨dropped,rfl,hdropped⟩ := h
  exact ⟨dropped,rfl,fun s member => lasting now later s s hle le_rfl (hdropped s member)⟩

omit [Preorder T] in
/-- History and log grow by the same stamp. -/
theorem Covers.push {now : T} {history log : List T} (h : Covers expired now history log)
    (stamp : T) : Covers expired now (history++[stamp]) (log++[stamp]) := by
  obtain ⟨dropped,rfl,hdropped⟩ := h
  exact ⟨dropped,List.append_assoc _ _ _,hdropped⟩

omit [Preorder T] in
/-- Trimming loses expired stamps only. -/
theorem Covers.trim {now : T} {history log : List T} (h : Covers expired now history log) :
    Covers expired now history (trim expired now log) := by
  obtain ⟨dropped,rfl,hdropped⟩ := h
  refine ⟨dropped++log.takeWhile (expired now),?_,?_⟩
  · rw [List.append_assoc,SlidingWindow.trim,List.takeWhile_append_dropWhile]
  · intro s member
    rcases List.mem_append.mp member with member | member
    · exact hdropped s member
    · exact List.mem_takeWhile_imp member

/-- In an ordered log the expired stamps are a front. -/
theorem trim_eq_filter (lasting : Lasting expired) (now : T) {log : List T}
    (ordered : log.Pairwise (· ≤ ·)) :
    trim expired now log=log.filter fun s => !expired now s := by
  induction log with
  | nil => rfl
  | cons s log ih =>
    obtain ⟨hfirst,hrest⟩ := List.pairwise_cons.mp ordered
    cases hs : expired now s with
    | true =>
      rw [trim,List.dropWhile_cons_of_pos hs,List.filter_cons_of_neg (by rw [hs]; exact nofun)]
      exact ih hrest
    | false =>
      have hfresh : ∀ s' ∈ s::log,(!expired now s')=true := by
        intro s' member
        rcases List.mem_cons.mp member with rfl | member
        · rw [hs]
          rfl
        · cases hs' : expired now s' with
          | true =>
            have hback := lasting now now s' s le_rfl (hfirst s' member) hs'
            exact absurd (hs.symm.trans hback) nofun
          | false => rfl
      rw [trim,List.dropWhile_cons_of_neg (by rw [hs]; exact nofun),
        List.filter_eq_self.mpr hfresh]

/-- A trimmed log holds as many stamps as the history has fresh ones. -/
theorem Covers.length_trim (lasting : Lasting expired) {now : T} {history log : List T}
    (h : Covers expired now history log) (ordered : history.Pairwise (· ≤ ·)) :
    (SlidingWindow.trim expired now log).length=history.countP fun s => !expired now s := by
  obtain ⟨dropped,rfl,hdropped⟩ := h
  have hnone : dropped.countP (fun s => !expired now s)=0 := by
    refine List.countP_eq_zero.mpr fun s member => ?_
    rw [hdropped s member]
    exact nofun
  rw [trim_eq_filter lasting now (List.pairwise_append.mp ordered).2.1,List.countP_append,hnone,
    Nat.zero_add,List.countP_eq_length_filter]

end Gcad.SlidingWindow
