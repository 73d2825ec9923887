import Gcad.Correlation

/-!
# Processing and approval in the security pipeline

The part of `SecurityPipeline` behind the telemetry bus: `process` hands an
observation to the correlation engine, asks the policy engine for a
candidate and appends it to a bounded deque; the approval calls move a
candidate out of the pending state. Every access to the deque is under one
mutex, so each call is one step.
-/

namespace Gcad.CandidatePipeline

open Common Observation KeyedMap Correlation

/-- `MAX_CANDIDATES`. -/
def maxCandidates : ℕ := 2000

/-- The policy, the engine and the candidates of one pipeline. -/
structure SecurityPipeline where
  /-- Policy given to the constructor. -/
  policy : LocalSecurityPolicy
  /-- The engine `correlation_`. -/
  correlation : CorrelationEngine
  /-- The deque `candidates_`, oldest first. -/
  candidates : List RemediationCandidate

/-- The constructor gives the engine the pipeline's own policy. -/
def create (policy : LocalSecurityPolicy) : SecurityPipeline :=
  ⟨policy,Correlation.create policy,[]⟩

/-- Append to the bounded deque of candidates. -/
def pushCandidate (candidates : List RemediationCandidate) (candidate : RemediationCandidate) :
    List RemediationCandidate :=
  let pushed := candidates++[candidate]
  if maxCandidates < pushed.length then pushed.tail else pushed

/-- The candidate the policy engine derives from an optional finding. -/
def candidateOf (policy : LocalSecurityPolicy) (finding : Option SecurityFinding) :
    Option RemediationCandidate :=
  finding.bind fun f => candidateFor f policy

/-- `SecurityPipeline::process`. -/
def process (order : IterationOrder Str ActiveState) (pipeline : SecurityPipeline)
    (o : SecurityObservation) (now : TimePoint) : SecurityPipeline :=
  let ingested := ingest order pipeline.correlation o now
  match candidateOf pipeline.policy ingested.2 with
  | none => {pipeline with correlation := ingested.1}
  | some candidate => { pipeline with
      correlation := ingested.1
      candidates := pushCandidate pipeline.candidates candidate }

/-- `SecurityPipeline::find_candidate`. -/
def findCandidate (pipeline : SecurityPipeline) (findingId : ℕ) : Option RemediationCandidate :=
  pipeline.candidates.find? fun candidate => candidate.findingId==findingId

/-- `transition_candidate`: the first candidate with the number decides. -/
def transitionCandidate (findingId : ℕ) (target : CandidateApprovalState) :
    List RemediationCandidate → List RemediationCandidate×ErrorCode
  | [] => ([],.errNotFound)
  | candidate::rest =>
    if candidate.findingId≠findingId then
      let result := transitionCandidate findingId target rest
      (candidate::result.1,result.2)
    else if candidate.approvalState=target then (candidate::rest,.ok)
    else if candidate.approvalState≠.pendingApproval then (candidate::rest,.errInvalidTransition)
    else ({candidate with approvalState := target}::rest,.ok)

/-- `SecurityPipeline::approve_candidate`. -/
def approveCandidate (pipeline : SecurityPipeline) (findingId : ℕ) : SecurityPipeline×ErrorCode :=
  let result := transitionCandidate findingId .approved pipeline.candidates
  ({pipeline with candidates := result.1},result.2)

/-- `SecurityPipeline::reject_candidate`. -/
def rejectCandidate (pipeline : SecurityPipeline) (findingId : ℕ) : SecurityPipeline×ErrorCode :=
  let result := transitionCandidate findingId .rejected pipeline.candidates
  ({pipeline with candidates := result.1},result.2)

/-- The deque is never empty after a push. -/
theorem pushCandidate_ne_nil (candidates : List RemediationCandidate)
    (candidate : RemediationCandidate) : pushCandidate candidates candidate≠[] := by
  unfold pushCandidate
  dsimp only
  intro hnil
  have hlen := congrArg List.length hnil
  have hpos : 0 < maxCandidates := by decide
  split at hlen
  · rw [List.length_tail,List.length_append,List.length_singleton,List.length_nil] at hlen
    next hlt =>
      rw [List.length_append,List.length_singleton] at hlt
      omega
  · rw [List.length_append,List.length_singleton,List.length_nil] at hlen
    omega

/-- Processing asks the engine and leaves the policy alone. -/
theorem process_correlation (order : IterationOrder Str ActiveState) (pipeline : SecurityPipeline)
    (o : SecurityObservation) (now : TimePoint) :
    (process order pipeline o now).correlation=(ingest order pipeline.correlation o now).1 ∧
      (process order pipeline o now).policy=pipeline.policy := by
  unfold process
  dsimp only
  split <;> exact ⟨rfl,rfl⟩

/-- Candidates are present after processing if there were some before or
the observation made one. -/
theorem process_candidates_ne_nil_iff (order : IterationOrder Str ActiveState)
    (pipeline : SecurityPipeline) (o : SecurityObservation) (now : TimePoint) :
    (process order pipeline o now).candidates≠[] ↔ pipeline.candidates≠[] ∨
      (candidateOf pipeline.policy (ingest order pipeline.correlation o now).2).isSome=true := by
  unfold process
  dsimp only
  split
  · next h => simp only [h,Option.isSome_none,Bool.false_eq_true,or_false]
  · next candidate h =>
    simp only [h,Option.isSome_some,or_true,iff_true]
    exact pushCandidate_ne_nil _ _

end Gcad.CandidatePipeline
