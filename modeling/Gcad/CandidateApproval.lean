import Gcad.CandidatePipeline

/-!
# Approval as a one-way transition

What `transition_candidate` can do to a deque of candidates, and the
relation between an earlier and a later state of one candidate: it is
unchanged, or it has left the pending state once. Appending to the bounded
deque forgets candidates and never changes one.
-/

namespace Gcad.CandidateApproval

open Common Observation CandidatePipeline

/-- The candidate is unchanged, or has left the pending state once. -/
def Progress (earlier later : RemediationCandidate) : Prop :=
  later=earlier ∨ earlier.approvalState=.pendingApproval ∧
    ∃ target, target≠.pendingApproval ∧ later={earlier with approvalState := target}

section Progress

variable {a b c : RemediationCandidate}

/-- Only the approval state moves. -/
theorem Progress.same (h : Progress a b) :
    b.findingId=a.findingId ∧ b.targetPath=a.targetPath := by
  rcases h with rfl | ⟨-,target,-,rfl⟩
  · exact ⟨rfl,rfl⟩
  · exact ⟨rfl,rfl⟩

/-- A candidate that has left the pending state does not move any more. -/
theorem Progress.settled (h : Progress a b) (ha : a.approvalState≠.pendingApproval) : b=a := by
  rcases h with hsame | ⟨hpending,-⟩
  · exact hsame
  · exact absurd hpending ha

/-- Progress adds up. -/
theorem Progress.trans (hab : Progress a b) (hbc : Progress b c) : Progress a c := by
  rcases hab with rfl | ⟨hpending,target,htarget,rfl⟩
  · exact hbc
  · have hsettled := hbc.settled htarget
    exact .inr ⟨hpending,target,htarget,hsettled⟩

end Progress

section Transition

variable {findingId : ℕ} {target : CandidateApprovalState} {candidates : List RemediationCandidate}

/-- Everything one transition can do. -/
inductive TransitionOutcome (findingId : ℕ) (target : CandidateApprovalState)
    (candidates : List RemediationCandidate) : List RemediationCandidate×ErrorCode → Prop
  /-- An error leaves every candidate alone. -/
  | failed {code : ErrorCode} (hcode : code≠.ok) :
      TransitionOutcome findingId target candidates (candidates,code)
  /-- The candidate already is in the target state. -/
  | repeated {candidate : RemediationCandidate} (hin : candidate ∈ candidates)
      (hid : candidate.findingId=findingId) (hstate : candidate.approvalState=target) :
      TransitionOutcome findingId target candidates (candidates,.ok)
  /-- A pending candidate moves to the target state. -/
  | moved {front : List RemediationCandidate} {candidate : RemediationCandidate}
      {back : List RemediationCandidate} (hsplit : candidates=front++candidate::back)
      (hid : candidate.findingId=findingId) (hpending : candidate.approvalState=.pendingApproval) :
      TransitionOutcome findingId target candidates
        (front++{candidate with approvalState := target}::back,.ok)

/-- A transition does one of these. -/
theorem transition_outcome (findingId : ℕ) (target : CandidateApprovalState)
    (candidates : List RemediationCandidate) :
    TransitionOutcome findingId target candidates
      (transitionCandidate findingId target candidates) := by
  induction candidates with
  | nil =>
    have hcode : ErrorCode.errNotFound≠.ok := by decide
    exact .failed hcode
  | cons candidate rest ih =>
    unfold transitionCandidate
    split
    · generalize transitionCandidate findingId target rest=result at ih ⊢
      cases ih with
      | failed hcode => exact .failed hcode
      | repeated hin hid hstate => exact .repeated (List.mem_cons_of_mem _ hin) hid hstate
      | @moved front other back hsplit hid hpending =>
        have hcons : candidate::rest=(candidate::front)++other::back := by
          rw [hsplit,List.cons_append]
        exact .moved hcons hid hpending
    · next hid =>
      split
      · next hstate => exact .repeated List.mem_cons_self (not_not.mp hid) hstate
      · split
        · have hcode : ErrorCode.errInvalidTransition≠.ok := by decide
          exact .failed hcode
        · next hpending =>
          have hfront : candidate::rest=[]++candidate::rest := rfl
          exact .moved hfront (not_not.mp hid) (not_not.mp hpending)

/-- A transition of a candidate that is not held is an error. -/
theorem transition_absent (h : ∀ candidate ∈ candidates, candidate.findingId≠findingId) :
    transitionCandidate findingId target candidates=(candidates,.errNotFound) := by
  induction candidates with
  | nil => rfl
  | cons candidate rest ih =>
    have hrest := ih fun other ho => h other (List.mem_cons_of_mem _ ho)
    rw [transitionCandidate,if_pos (h candidate List.mem_cons_self),hrest]

/-- Repeating a transition of a held candidate changes nothing. -/
theorem transition_repeated (hnodup : (candidates.map RemediationCandidate.findingId).Nodup)
    {candidate : RemediationCandidate} (hin : candidate ∈ candidates)
    (hid : candidate.findingId=findingId) (hstate : candidate.approvalState=target) :
    transitionCandidate findingId target candidates=(candidates,.ok) := by
  induction candidates with
  | nil => exact absurd hin List.not_mem_nil
  | cons head rest ih =>
    rw [List.map_cons,List.nodup_cons] at hnodup
    rcases List.mem_cons.mp hin with rfl | hin
    · rw [transitionCandidate,if_neg (not_not.mpr hid),if_pos hstate]
    · have hne : head.findingId≠findingId := by
        intro he
        exact hnodup.1 (he.trans hid.symm ▸ List.mem_map_of_mem hin)
      rw [transitionCandidate,if_pos hne,ih hnodup.2 hin]

end Transition

/-- A push keeps held candidates as they are and adds at most the new one. -/
theorem mem_pushCandidate {candidates : List RemediationCandidate}
    {candidate other : RemediationCandidate} (h : other ∈ pushCandidate candidates candidate) :
    other ∈ candidates ∨ other=candidate := by
  unfold pushCandidate at h
  dsimp only at h
  have hin : other ∈ candidates++[candidate] := by
    split at h
    · exact List.mem_of_mem_tail h
    · exact h
  rcases List.mem_append.mp hin with hin | hin
  · exact .inl hin
  · exact .inr (List.mem_singleton.mp hin)

/-- A candidate with a new number keeps the numbers distinct. -/
theorem nodup_pushCandidate {candidates : List RemediationCandidate}
    {candidate : RemediationCandidate}
    (hnodup : (candidates.map RemediationCandidate.findingId).Nodup)
    (hnew : ∀ other ∈ candidates, other.findingId≠candidate.findingId) :
    ((pushCandidate candidates candidate).map RemediationCandidate.findingId).Nodup := by
  have hall : ((candidates++[candidate]).map RemediationCandidate.findingId).Nodup := by
    rw [List.map_append,List.map_singleton]
    apply hnodup.append (List.nodup_singleton _)
    intro id hid hother
    obtain ⟨other,hin,rfl⟩ := List.mem_map.mp hid
    exact hnew other hin (List.mem_singleton.mp hother)
  unfold pushCandidate
  dsimp only
  split
  · rw [List.map_tail]
    exact hall.tail
  · exact hall

end Gcad.CandidateApproval
