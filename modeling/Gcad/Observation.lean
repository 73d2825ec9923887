import Gcad.Common

/-!
# Security observations, findings and the local policy

Data model of observation.hpp and policy.hpp with the two pure decisions
the pipeline takes on it: whether an observation is valid and under which
key it is correlated, and whether a finding becomes a remediation
candidate. The observation's own timestamp is not read by any of them.
-/

namespace Gcad.Observation

open Common

/-- The `ObservationKind` enumeration. -/
inductive ObservationKind where
  | artifactSignature
  | artifactStructure
  | artifactTrust
  | invalidPe
  | unsignedRiskyLocation
  | invalidSignature
  | highEntropy
  | processMemory
  | processLineage
  | networkConnection
  | registryPersistence
  | fileIntegrity
  | dnsAnomaly
  | yaraMatch
  | legacyEngine
  deriving DecidableEq, Repr

/-- The enumerator's numeric value, as `static_cast<unsigned>(kind)`. -/
def ObservationKind.toNat : ObservationKind → ℕ
  | .artifactSignature => 0
  | .artifactStructure => 1
  | .artifactTrust => 2
  | .invalidPe => 3
  | .unsignedRiskyLocation => 4
  | .invalidSignature => 5
  | .highEntropy => 6
  | .processMemory => 7
  | .processLineage => 8
  | .networkConnection => 9
  | .registryPersistence => 10
  | .fileIntegrity => 11
  | .dnsAnomaly => 12
  | .yaraMatch => 13
  | .legacyEngine => 14

/-- One telemetry record offered to the pipeline. -/
structure SecurityObservation where
  /-- Engine that produced the record; empty is invalid. -/
  sourceId : Str
  /-- Kind of artifact the record describes. -/
  kind : ObservationKind
  /-- Level the engine suggests; `safe` is invalid. -/
  suggestedLevel : ThreatLevel
  /-- Confidence between zero and one. -/
  confidence : Double
  /-- Exact or structural check rather than a statistical heuristic. -/
  deterministic : Bool
  /-- Process the record is about, zero when unknown. -/
  processId : ℕ
  /-- Name of that process. -/
  processName : Str
  /-- File the record is about, empty when unknown. -/
  filePath : Str
  /-- Hash of that file, empty when unknown. -/
  sha256 : Str
  /-- Human-readable evidence; empty is invalid. -/
  evidence : Str
  deriving DecidableEq

/-- `SecurityObservation::valid`. -/
def SecurityObservation.valid (o : SecurityObservation) : Bool :=
  !o.sourceId.isEmpty && !o.evidence.isEmpty && o.confidence.isFinite &&
    o.confidence.geZero && o.confidence.leOne && decide (o.suggestedLevel≠.safe)

/-- `std::tolower` in the C locale. -/
def toLower (c : Char) : Char :=
  if 'A'.toNat ≤ c.toNat ∧ c.toNat ≤ 'Z'.toNat then Char.ofNat (c.toNat+32) else c

/-- The key's `normalize` lambda: backslashes become slashes, then every
character is lowered. -/
def normalize (value : Str) : Str :=
  (value.map fun c => if c = '\\' then '/' else c).map toLower

/-- `SecurityObservation::correlation_key`. -/
def SecurityObservation.correlationKey (o : SecurityObservation) : Str :=
  let identity :=
    if !o.sha256.isEmpty then normalize o.sha256
    else if !o.filePath.isEmpty then normalize o.filePath
    else if o.processId≠0 then "pid:".toList++toDecimal o.processId
    else normalize o.processName
  toDecimal o.kind.toNat++":".toList++identity

/-- A valid observation contributes between zero and fifty points. -/
theorem SecurityObservation.contribution_le {o : SecurityObservation} (h : o.valid=true) :
    lround50 o.confidence ≤ 50 := by
  simp only [SecurityObservation.valid,Bool.and_eq_true] at h
  exact lround50_le h.1.1.2 h.1.2

/-- The double 1.0. -/
def Double.one : Double := .ofScaled false (2^52) (-52)

/-- A full-confidence observation of one file, as the pipeline tests build
them. -/
def fixtureObservation (sourceId : Str) (deterministic : Bool) : SecurityObservation where
  sourceId := sourceId
  kind := .artifactSignature
  suggestedLevel := .critical
  confidence := Double.one
  deterministic := deterministic
  processId := 0
  processName := []
  filePath := "C:/Temp/sample.exe".toList
  sha256 := []
  evidence := "signature match".toList

/-- The `ResponseAction` enumeration. -/
inductive ResponseAction where
  | reportOnly
  | quarantineCandidate
  deriving DecidableEq, Repr

/-- The `CandidateApprovalState` enumeration. -/
inductive CandidateApprovalState where
  | pendingApproval
  | approved
  | rejected
  deriving DecidableEq, Repr

/-- A correlated finding. The source never fills `observation_ids`, so the
field is left out. -/
structure SecurityFinding where
  /-- Number of the finding, unique within one engine. -/
  id : ℕ
  /-- Time of the observation that raised it. -/
  timestamp : TimePoint
  /-- Level of the score. -/
  level : ThreatLevel
  /-- Score between zero and one hundred. -/
  riskScore : ℕ
  /-- Whether any contributing source was deterministic. -/
  deterministicSignature : Bool
  /-- Key under which the observations were correlated. -/
  correlationKey : Str
  /-- First file path seen under the key. -/
  filePath : Str
  /-- First hash seen under the key. -/
  sha256 : Str
  /-- Evidence of the first observation under the key. -/
  rationale : Str
  /-- Sorted identifiers of the sources recorded under the key. -/
  contributingSources : List Str
  deriving DecidableEq

/-- A proposed remediation, with its approval state. -/
structure RemediationCandidate where
  /-- Finding the candidate was created for. -/
  findingId : ℕ
  /-- Always a quarantine request when created by the policy engine. -/
  requestedAction : ResponseAction
  /-- Approval state, pending at creation. -/
  approvalState : CandidateApprovalState
  /-- File to be quarantined. -/
  targetPath : Str
  /-- Hash captured at detection time, empty if unknown. -/
  expectedSha256 : Str
  /-- Rationale copied from the finding. -/
  rationale : Str
  deriving DecidableEq

/-- The local policy record. -/
structure LocalSecurityPolicy where
  /-- Least score of a remediation candidate, a `uint8_t`. -/
  criticalThreshold : ℕ
  /-- Lifetime of a correlation key, a whole number of minutes. -/
  findingWindow : ℤ
  /-- Path prefixes that are never quarantined. -/
  protectedPathPrefixes : List Str
  deriving DecidableEq

/-- Member initialisers of `LocalSecurityPolicy`. -/
def LocalSecurityPolicy.default : LocalSecurityPolicy where
  criticalThreshold := 90
  findingWindow := 5
  protectedPathPrefixes := ["c:/windows/".toList,"c:/program files/".toList]

/-- `ascii_lower` of policy.cpp. -/
def asciiLower (value : Char) : Char :=
  if 'A'.toNat ≤ value.toNat ∧ value.toNat ≤ 'Z'.toNat then
    Char.ofNat (value.toNat - 'A'.toNat + 'a'.toNat) else value

/-- The character comparison of `path_starts_with`: a backslash counts as
a slash and letter case is ignored. -/
def foldPathChar (c : Char) : Char := if c = '\\' then '/' else asciiLower c

/-- `path_starts_with`. -/
def pathStartsWith (path pre : Str) : Bool :=
  if path.length < pre.length then false
  else (path.zip pre).all fun p => decide (foldPathChar p.1=foldPathChar p.2)

/-- `PolicyEngine::is_protected_path`. -/
def isProtectedPath (path : Str) (policy : LocalSecurityPolicy) : Bool :=
  policy.protectedPathPrefixes.any fun pre => pathStartsWith path pre

/-- `PolicyEngine::decide`. -/
def decideResponse (finding : SecurityFinding) (policy : LocalSecurityPolicy) : ResponseAction :=
  if !finding.deterministicSignature || decide (finding.level≠.critical) ||
      decide (finding.riskScore < policy.criticalThreshold) || finding.filePath.isEmpty ||
      isProtectedPath finding.filePath policy then .reportOnly
  else .quarantineCandidate

/-- `PolicyEngine::candidate_for`. -/
def candidateFor (finding : SecurityFinding) (policy : LocalSecurityPolicy) :
    Option RemediationCandidate :=
  if decideResponse finding policy≠.quarantineCandidate then none
  else some
    { findingId := finding.id
      requestedAction := .quarantineCandidate
      approvalState := .pendingApproval
      targetPath := finding.filePath
      expectedSha256 := finding.sha256
      rationale := finding.rationale }

/-- What the policy engine requires of a finding before it proposes a
remediation. -/
structure Remediable (policy : LocalSecurityPolicy) (finding : SecurityFinding) : Prop where
  /-- Some contributing source was deterministic. -/
  deterministic : finding.deterministicSignature=true
  /-- The finding is critical. -/
  critical : finding.level=.critical
  /-- The score reaches the policy's threshold. -/
  threshold : policy.criticalThreshold ≤ finding.riskScore
  /-- The finding names a file. -/
  path : finding.filePath≠[]
  /-- The file is not protected. -/
  unprotected : isProtectedPath finding.filePath policy=false

/-- The decision is exactly the five requirements. -/
theorem decideResponse_iff (finding : SecurityFinding) (policy : LocalSecurityPolicy) :
    decideResponse finding policy=.quarantineCandidate ↔ Remediable policy finding := by
  unfold decideResponse
  split
  · next h =>
    simp only [reduceCtorEq,false_iff]
    intro hr
    simp [hr.deterministic,hr.critical,hr.unprotected,hr.path,Nat.not_lt.mpr hr.threshold] at h
  · next h =>
    simp only [true_iff]
    simp only [Bool.or_eq_true,Bool.not_eq_true',decide_eq_true_eq,List.isEmpty_iff,not_or,
      Bool.not_eq_false,not_not,Bool.not_eq_true,Nat.not_lt] at h
    exact ⟨h.1.1.1.1,h.1.1.1.2,h.1.1.2,h.1.2,h.2⟩

/-- A candidate exists exactly for a remediable finding, and then carries
the finding's number, file and hash in the pending state. -/
theorem candidateFor_eq_some {finding : SecurityFinding} {policy : LocalSecurityPolicy}
    {candidate : RemediationCandidate} (h : candidateFor finding policy=some candidate) :
    Remediable policy finding ∧ candidate.findingId=finding.id ∧
      candidate.approvalState=.pendingApproval ∧ candidate.targetPath=finding.filePath ∧
      candidate.expectedSha256=finding.sha256 := by
  unfold candidateFor at h
  split at h
  · cases h
  · next hd =>
    cases h
    exact ⟨(decideResponse_iff finding policy).mp (not_not.mp hd),rfl,rfl,rfl,rfl⟩

/-- Candidate creation as a predicate of the finding. -/
theorem candidateFor_isSome_iff (finding : SecurityFinding) (policy : LocalSecurityPolicy) :
    (candidateFor finding policy).isSome=true ↔ Remediable policy finding := by
  rw [←decideResponse_iff]
  unfold candidateFor
  split
  · next h => simp only [Option.isSome_none,Bool.false_eq_true,false_iff]; exact h
  · next h => simp only [Option.isSome_some,true_iff]; exact not_not.mp h

end Gcad.Observation
