import Gcad.CandidateApproval
import Gcad.QuarantineRun
import Gcad.Telemetry

/-!
# From an observation to a moved file

The telemetry bus, the pipeline behind it, the approval calls and the
manager's quarantine request as one system. `execute_quarantine` copies
the candidate out of the pipeline and hands the copy to the executor, so
the two halves are separate steps and anything may happen in between.
Finding numbers are the only link between the parts.
-/

namespace Gcad.RemediationSafety

open Common Observation ByteView KeyedMap StepSystem Correlation CandidatePipeline
open CandidateApproval QuarantineVault

variable {σ : Type}

/-- The parts of the manager that take part in a remediation. -/
structure System where
  /-- The bus in front of the pipeline. -/
  bus : Telemetry.TelemetryBus
  /-- Correlation, policy and candidates. -/
  pipeline : SecurityPipeline
  /-- The executor and the files. -/
  world : World
  /-- Candidates copied out by quarantine requests that have not reached
  the executor. -/
  requests : List RemediationCandidate

/-- The system before anything was published. -/
def start (policy : LocalSecurityPolicy) (capacity : ℕ) (world : World) : System :=
  ⟨Telemetry.create capacity,CandidatePipeline.create policy,world,[]⟩

/-- What can happen, in any order and on any thread. -/
inductive Action where
  /-- An engine publishes an observation. -/
  | publish (o : SecurityObservation)
  /-- The worker takes the oldest observation and processes it. -/
  | process (order : IterationOrder Str ActiveState) (now : TimePoint)
  /-- The user approves a candidate. -/
  | approve (findingId : ℕ)
  /-- The user rejects one. -/
  | reject (findingId : ℕ)
  /-- The first half of `execute_quarantine`: look the candidate up. -/
  | request (findingId : ℕ)
  /-- The second half: one of the copies reaches the executor. -/
  | execute (index : ℕ) (faults : QuarantineFaults)

/-- What a step answers. -/
inductive Reply where
  /-- Result of a publish call. -/
  | published (result : Telemetry.PublishResult)
  /-- The finding the worker's ingest returned. -/
  | processed (finding : Option SecurityFinding)
  /-- Code of a transition, or of a request that found no candidate. -/
  | code (code : ErrorCode)
  /-- A request found its candidate. -/
  | found
  /-- The executor's code and record for a candidate. -/
  | executed (candidate : RemediationCandidate) (code : ErrorCode)
      (record : Option LedgerText.QuarantineRecord)
  /-- There was nothing to do. -/
  | idle

/-- One step of the system. -/
def step (sha256 : HashContext σ Bytes) (system : System) : Action → System×Reply
  | .publish o =>
    let result := Telemetry.publish system.bus o
    ({system with bus := result.1},.published result.2)
  | .process order now =>
    match Telemetry.tryPop system.bus with
    | (_,none) => (system,.idle)
    | (bus,some o) =>
      ({system with
        bus := bus
        pipeline := CandidatePipeline.process order system.pipeline o now},
        .processed (ingest order system.pipeline.correlation o now).2)
  | .approve findingId =>
    let result := approveCandidate system.pipeline findingId
    ({system with pipeline := result.1},.code result.2)
  | .reject findingId =>
    let result := rejectCandidate system.pipeline findingId
    ({system with pipeline := result.1},.code result.2)
  | .request findingId =>
    match findCandidate system.pipeline findingId with
    | none => (system,.code .errNotFound)
    | some candidate => ({system with requests := system.requests++[candidate]},.found)
  | .execute index faults =>
    match system.requests[index]? with
    | none => (system,.idle)
    | some candidate =>
      let result := quarantine sha256 faults candidate system.world
      ({system with world := result.1,requests := system.requests.eraseIdx index},
        .executed candidate result.2.1 result.2.2)

/-- What a step can do. -/
inductive Stepped (sha256 : HashContext σ Bytes) (s : System) : Action → System → Reply → Prop where
  /-- A publish call changes the bus. -/
  | publish (o : SecurityObservation) : Stepped sha256 s (.publish o)
      {s with bus := (Telemetry.publish s.bus o).1} (.published (Telemetry.publish s.bus o).2)
  /-- The worker finds the bus empty. -/
  | starved (order : IterationOrder Str ActiveState) (now : TimePoint) :
      Stepped sha256 s (.process order now) s .idle
  /-- The worker processes the oldest observation. -/
  | process (order : IterationOrder Str ActiveState) (now : TimePoint)
      {bus : Telemetry.TelemetryBus} {o : SecurityObservation}
      (pop : Telemetry.tryPop s.bus=(bus,some o)) :
      Stepped sha256 s (.process order now)
        {s with bus := bus,pipeline := CandidatePipeline.process order s.pipeline o now}
        (.processed (ingest order s.pipeline.correlation o now).2)
  /-- A candidate is approved, or the call fails. -/
  | approve (findingId : ℕ) : Stepped sha256 s (.approve findingId)
      {s with pipeline := (approveCandidate s.pipeline findingId).1}
      (.code (approveCandidate s.pipeline findingId).2)
  /-- A candidate is rejected, or the call fails. -/
  | reject (findingId : ℕ) : Stepped sha256 s (.reject findingId)
      {s with pipeline := (rejectCandidate s.pipeline findingId).1}
      (.code (rejectCandidate s.pipeline findingId).2)
  /-- A request finds no candidate. -/
  | missing (findingId : ℕ) : Stepped sha256 s (.request findingId) s (.code .errNotFound)
  /-- A request copies its candidate. -/
  | request (findingId : ℕ) {candidate : RemediationCandidate}
      (find : findCandidate s.pipeline findingId=some candidate) :
      Stepped sha256 s (.request findingId) {s with requests := s.requests++[candidate]} .found
  /-- There is no copy at the index. -/
  | empty (index : ℕ) (faults : QuarantineFaults) :
      Stepped sha256 s (.execute index faults) s .idle
  /-- A copy reaches the executor. -/
  | execute (index : ℕ) (faults : QuarantineFaults) {candidate : RemediationCandidate}
      (copy : s.requests[index]?=some candidate) :
      Stepped sha256 s (.execute index faults)
        {s with
          world := (quarantine sha256 faults candidate s.world).1
          requests := s.requests.eraseIdx index}
        (.executed candidate (quarantine sha256 faults candidate s.world).2.1
          (quarantine sha256 faults candidate s.world).2.2)

/-- Every step is one of these. -/
theorem step_stepped (sha256 : HashContext σ Bytes) {s t : System} {action : Action}
    {reply : Reply} (hstep : step sha256 s action=(t,reply)) :
    Stepped sha256 s action t reply := by
  cases action with
  | publish o =>
    obtain ⟨rfl,rfl⟩ := Prod.mk.inj hstep
    exact .publish o
  | process order now =>
    unfold step at hstep
    dsimp only at hstep
    split at hstep
    · obtain ⟨rfl,rfl⟩ := Prod.mk.inj hstep
      exact .starved order now
    · next bus o hpop =>
      obtain ⟨rfl,rfl⟩ := Prod.mk.inj hstep
      exact .process order now hpop
  | approve findingId =>
    obtain ⟨rfl,rfl⟩ := Prod.mk.inj hstep
    exact .approve findingId
  | reject findingId =>
    obtain ⟨rfl,rfl⟩ := Prod.mk.inj hstep
    exact .reject findingId
  | request findingId =>
    unfold step at hstep
    dsimp only at hstep
    split at hstep
    · obtain ⟨rfl,rfl⟩ := Prod.mk.inj hstep
      exact .missing findingId
    · next candidate hfind =>
      obtain ⟨rfl,rfl⟩ := Prod.mk.inj hstep
      exact .request findingId hfind
  | execute index faults =>
    unfold step at hstep
    dsimp only at hstep
    split at hstep
    · obtain ⟨rfl,rfl⟩ := Prod.mk.inj hstep
      exact .empty index faults
    · next candidate hcopy =>
      obtain ⟨rfl,rfl⟩ := Prod.mk.inj hstep
      exact .execute index faults hcopy

/-- An executed step. -/
abbrev SystemEvent := Event System (Action×Reply)

/-- The findings a history has emitted. -/
def emitted (events : List SystemEvent) : List SecurityFinding :=
  events.filterMap fun e => match e.label.2 with
    | .processed finding => finding
    | _ => none

/-- The numbers of the findings that were approved. -/
def approvals (events : List SystemEvent) : List ℕ :=
  events.filterMap fun e => match e.label with
    | (.approve findingId,.code .ok) => some findingId
    | _ => none

/-- The transition a call asks for. -/
def Action.transition : Action → Option (ℕ×CandidateApprovalState)
  | .approve findingId => some (findingId,.approved)
  | .reject findingId => some (findingId,.rejected)
  | _ => none

section Processing

variable (order : IterationOrder Str ActiveState) (pipeline : SecurityPipeline)
variable (o : SecurityObservation) (now : TimePoint)

/-- A returned finding takes the next number, and nothing else does. -/
theorem ingest_number (engine : CorrelationEngine) :
    (ingest order engine o now).1.nextFindingId=
        engine.nextFindingId+(ingest order engine o now).2.toList.length ∧
      ∀ finding, (ingest order engine o now).2=some finding → finding.id=engine.nextFindingId := by
  rcases ingest_cases order engine o now with
    ⟨-,he⟩ | ⟨-,-,he⟩ | ⟨-,-,-,he⟩ | ⟨-,-,-,he⟩
  · rw [he]
    exact ⟨rfl,fun finding hf => nomatch hf⟩
  · rw [he]
    exact ⟨rfl,fun finding hf => nomatch hf⟩
  · rw [he]
    exact ⟨rfl,fun finding hf => nomatch hf⟩
  · rw [he]
    refine ⟨rfl,?_⟩
    intro finding hf
    obtain rfl := Option.some.inj hf
    rfl

/-- Processing keeps the candidates, or pushes the one of a remediable
finding. -/
theorem process_candidates :
    (CandidatePipeline.process order pipeline o now).candidates=pipeline.candidates ∨
      ∃ finding candidate, (ingest order pipeline.correlation o now).2=some finding ∧
        candidateFor finding pipeline.policy=some candidate ∧
        (CandidatePipeline.process order pipeline o now).candidates=
          pushCandidate pipeline.candidates candidate := by
  unfold CandidatePipeline.process
  dsimp only
  split
  · exact .inl rfl
  · next candidate hc =>
    obtain ⟨finding,hf,hfor⟩ := Option.bind_eq_some_iff.mp hc
    exact .inr ⟨finding,candidate,hf,hfor,rfl⟩

end Processing

section Invariant

/-- What stands behind a candidate: the remediable finding with its number,
and an approval call if it is approved. -/
structure Backed (policy : LocalSecurityPolicy) (events : List SystemEvent)
    (candidate : RemediationCandidate) : Prop where
  /-- The finding it was made for. -/
  finding : ∃ finding ∈ emitted events, finding.id=candidate.findingId ∧
    Remediable policy finding ∧ finding.filePath=candidate.targetPath
  /-- The call that approved it. -/
  approval : candidate.approvalState=.approved → candidate.findingId ∈ approvals events

/-- The invariant of the system over its history. -/
structure SystemInv (policy : LocalSecurityPolicy) (events : List SystemEvent)
    (system : System) : Prop where
  /-- The policy never changes. -/
  policy_eq : system.pipeline.policy=policy
  /-- The counter is above every number that was given. -/
  numbered : ∀ finding ∈ emitted events,
    finding.id < system.pipeline.correlation.nextFindingId
  /-- No number was given twice. -/
  distinct : ((emitted events).map SecurityFinding.id).Nodup
  /-- The held candidates are backed by the history. -/
  candidates : ∀ candidate ∈ system.pipeline.candidates, Backed policy events candidate
  /-- So are the copies on their way to the executor. -/
  requests : ∀ candidate ∈ system.requests, Backed policy events candidate
  /-- The held candidates have different numbers. -/
  nodup : (system.pipeline.candidates.map RemediationCandidate.findingId).Nodup

/-- How the candidates of a later state come from those of an earlier one:
by progress, or under a number that had not been given. -/
def Evolves (earlier later : System) : Prop :=
  earlier.pipeline.correlation.nextFindingId ≤ later.pipeline.correlation.nextFindingId ∧
    ∀ candidate ∈ later.pipeline.candidates,
      (∃ old ∈ earlier.pipeline.candidates, Progress old candidate) ∨
        earlier.pipeline.correlation.nextFindingId ≤ candidate.findingId

variable {policy : LocalSecurityPolicy} {events : List SystemEvent} {s t u : System}

/-- Evolution adds up. -/
theorem Evolves.trans (hst : Evolves s t) (htu : Evolves t u) : Evolves s u := by
  refine ⟨hst.1.trans htu.1,?_⟩
  intro candidate hc
  rcases htu.2 candidate hc with ⟨middle,hm,hprogress⟩ | hnew
  · rcases hst.2 middle hm with ⟨old,ho,hearlier⟩ | hnew
    · exact .inl ⟨old,ho,hearlier.trans hprogress⟩
    · exact .inr (by rw [hprogress.same.1]; exact hnew)
  · exact .inr (hst.1.trans hnew)

/-- Nothing evolves when the candidates and the counter stay. -/
theorem Evolves.of_same (hpipeline : t.pipeline=s.pipeline) : Evolves s t := by
  refine ⟨by rw [hpipeline],?_⟩
  rw [hpipeline]
  exact fun candidate hc => .inl ⟨candidate,hc,.inl rfl⟩

/-- A longer history still backs a candidate. -/
theorem Backed.snoc {candidate : RemediationCandidate} (h : Backed policy events candidate)
    (e : SystemEvent) : Backed policy (events++[e]) candidate where
  finding := by
    obtain ⟨finding,hin,hrest⟩ := h.finding
    refine ⟨finding,?_,hrest⟩
    unfold emitted
    rw [List.filterMap_append]
    exact List.mem_append_left _ hin
  approval := by
    intro hstate
    unfold approvals
    rw [List.filterMap_append]
    exact List.mem_append_left _ (h.approval hstate)

/-- A held candidate has a number that was given. -/
theorem SystemInv.number (h : SystemInv policy events s) {candidate : RemediationCandidate}
    (hc : candidate ∈ s.pipeline.candidates) :
    candidate.findingId < s.pipeline.correlation.nextFindingId := by
  obtain ⟨finding,hin,hid,-⟩ := (h.candidates candidate hc).finding
  rw [←hid]
  exact h.numbered finding hin

/-- A candidate that is held at two times has made progress between them. -/
theorem SystemInv.progress (h : SystemInv policy events s) (hev : Evolves s t)
    {earlier later : RemediationCandidate} (he : earlier ∈ s.pipeline.candidates)
    (hl : later ∈ t.pipeline.candidates) (hid : later.findingId=earlier.findingId) :
    Progress earlier later := by
  rcases hev.2 later hl with ⟨old,ho,hprogress⟩ | hnew
  · have hsame : old.findingId=earlier.findingId := hprogress.same.1.symm.trans hid
    rw [←List.inj_on_of_nodup_map h.nodup ho he hsame]
    exact hprogress
  · have hlt := h.number he
    omega

/-- A step that emits nothing and keeps the pipeline keeps the invariant. -/
theorem SystemInv.frame (h : SystemInv policy events s) (e : SystemEvent)
    (hemitted : emitted (events++[e])=emitted events) (hpipeline : t.pipeline=s.pipeline)
    (hrequests : ∀ candidate ∈ t.requests, candidate ∈ s.requests ∨
      candidate ∈ s.pipeline.candidates) :
    SystemInv policy (events++[e]) t where
  policy_eq := by rw [hpipeline]; exact h.policy_eq
  numbered := by rw [hemitted,hpipeline]; exact h.numbered
  distinct := by rw [hemitted]; exact h.distinct
  candidates := by
    rw [hpipeline]
    exact fun candidate hc => (h.candidates candidate hc).snoc e
  requests := by
    intro candidate hc
    rcases hrequests candidate hc with hc | hc
    · exact (h.requests candidate hc).snoc e
    · exact (h.candidates candidate hc).snoc e
  nodup := by rw [hpipeline]; exact h.nodup

/-- A transition keeps the invariant when an approval is in the history it
leaves. -/
theorem SystemInv.transition (h : SystemInv policy events s) (e : SystemEvent)
    (hemitted : emitted (events++[e])=emitted events) {findingId : ℕ}
    {target : CandidateApprovalState} (htarget : target≠.pendingApproval)
    {candidates : List RemediationCandidate} {code : ErrorCode}
    (houtcome : TransitionOutcome findingId target s.pipeline.candidates (candidates,code))
    (happroved : target=.approved → code=.ok → findingId ∈ approvals (events++[e])) :
    SystemInv policy (events++[e])
        {s with pipeline := {s.pipeline with candidates := candidates}} ∧
      Evolves s {s with pipeline := {s.pipeline with candidates := candidates}} := by
  cases houtcome with
  | failed hcode => exact ⟨h.frame e hemitted rfl fun _ hc => .inl hc,.of_same rfl⟩
  | repeated hin hid hstate => exact ⟨h.frame e hemitted rfl fun _ hc => .inl hc,.of_same rfl⟩
  | @moved front candidate back hsplit hid hpending =>
    have hprogress : Progress candidate {candidate with approvalState := target} :=
      .inr ⟨hpending,target,htarget,rfl⟩
    have hin : candidate ∈ s.pipeline.candidates := by
      rw [hsplit]
      exact List.mem_append_right _ List.mem_cons_self
    have hmember : ∀ later ∈ front++{candidate with approvalState := target}::back,
        later ∈ s.pipeline.candidates ∨ later={candidate with approvalState := target} := by
      intro later hl
      rw [hsplit]
      rcases List.mem_append.mp hl with hl | hl
      · exact .inl (List.mem_append_left _ hl)
      · rcases List.mem_cons.mp hl with rfl | hl
        · exact .inr rfl
        · exact .inl (List.mem_append_right _ (List.mem_cons_of_mem _ hl))
    refine ⟨⟨h.policy_eq,?_,?_,?_,?_,?_⟩,le_refl _,?_⟩
    · rw [hemitted]
      exact h.numbered
    · rw [hemitted]
      exact h.distinct
    · intro later hl
      rcases hmember later hl with hold | rfl
      · exact (h.candidates later hold).snoc e
      · have hbacked := (h.candidates candidate hin).snoc e
        refine ⟨hbacked.finding,?_⟩
        intro hstate
        dsimp only
        rw [hid]
        exact happroved hstate rfl
    · exact fun later hl => (h.requests later hl).snoc e
    · have hnodup := h.nodup
      rw [hsplit] at hnodup
      simpa only [List.map_append,List.map_cons] using hnodup
    · intro later hl
      rcases hmember later hl with hold | rfl
      · exact .inl ⟨later,hold,.inl rfl⟩
      · exact .inl ⟨candidate,hin,hprogress⟩

/-- A candidate after processing was held before, or is the one made for
the new finding, which backs it. -/
theorem SystemInv.process_backed (h : SystemInv policy events s) (e : SystemEvent)
    (order : IterationOrder Str ActiveState) (o : SecurityObservation) (now : TimePoint)
    (hemitted : emitted (events++[e])=
      emitted events++(ingest order s.pipeline.correlation o now).2.toList)
    {candidate : RemediationCandidate}
    (hc : candidate ∈ (CandidatePipeline.process order s.pipeline o now).candidates) :
    candidate ∈ s.pipeline.candidates ∨
      (candidate.findingId=s.pipeline.correlation.nextFindingId ∧
        Backed policy (events++[e]) candidate) := by
  have hnumber := (ingest_number order o now s.pipeline.correlation).2
  rcases process_candidates order s.pipeline o now with hsame | ⟨finding,made,hf,hfor,hpush⟩
  · rw [hsame] at hc
    exact .inl hc
  · rw [hpush] at hc
    rcases mem_pushCandidate hc with hold | rfl
    · exact .inl hold
    · obtain ⟨hremediable,hid,hpending,hpath,-⟩ := candidateFor_eq_some hfor
      rw [h.policy_eq] at hremediable
      refine .inr ⟨hid.trans (hnumber finding hf),⟨finding,?_,hid.symm,hremediable,hpath.symm⟩,?_⟩
      · rw [hemitted]
        exact List.mem_append_right _ (Option.mem_toList.mpr hf)
      · intro hstate
        rw [hpending] at hstate
        cases hstate

/-- The numbers of the findings stay distinct when one with a fresh number
is added. -/
theorem SystemInv.process_distinct (h : SystemInv policy events s)
    {found : Option SecurityFinding}
    (hfresh : ∀ finding ∈ found, finding.id=s.pipeline.correlation.nextFindingId) :
    ((emitted events++found.toList).map SecurityFinding.id).Nodup := by
  rw [List.map_append]
  apply h.distinct.append
  · cases found with
    | none => exact List.nodup_nil
    | some finding => exact List.nodup_singleton _
  · intro id hold hid
    obtain ⟨old,ho,rfl⟩ := List.mem_map.mp hold
    obtain ⟨finding,hf,he⟩ := List.mem_map.mp hid
    have hlt := h.numbered old ho
    have hnew := hfresh finding (Option.mem_toList.mp hf)
    omega

/-- Processing an observation keeps the invariant. -/
theorem SystemInv.process (h : SystemInv policy events s) (e : SystemEvent)
    (order : IterationOrder Str ActiveState) (o : SecurityObservation) (now : TimePoint)
    (bus : Telemetry.TelemetryBus)
    (hemitted : emitted (events++[e])=
      emitted events++(ingest order s.pipeline.correlation o now).2.toList) :
    SystemInv policy (events++[e])
        {s with bus := bus,pipeline := CandidatePipeline.process order s.pipeline o now} ∧
      Evolves s {s with bus := bus,pipeline := CandidatePipeline.process order s.pipeline o now} := by
  obtain ⟨hcorrelation,hpolicy⟩ := process_correlation order s.pipeline o now
  obtain ⟨hnext,hnumber⟩ := ingest_number order o now s.pipeline.correlation
  rw [←hcorrelation] at hnext
  refine ⟨⟨hpolicy.trans h.policy_eq,?_,?_,?_,?_,?_⟩,?_,?_⟩
  · intro finding hf
    dsimp only
    rw [hemitted] at hf
    rcases List.mem_append.mp hf with hf | hf
    · have hlt := h.numbered finding hf
      omega
    · have hid := hnumber finding (Option.mem_toList.mp hf)
      have hpos := List.length_pos_of_mem hf
      omega
  · rw [hemitted]
    exact h.process_distinct hnumber
  · intro candidate hc
    rcases h.process_backed e order o now hemitted hc with hold | ⟨-,hin⟩
    · exact (h.candidates candidate hold).snoc e
    · exact hin
  · exact fun candidate hc => (h.requests candidate hc).snoc e
  · rcases process_candidates order s.pipeline o now with hsame | ⟨finding,made,hf,hfor,hpush⟩
    · dsimp only
      rw [hsame]
      exact h.nodup
    · dsimp only
      rw [hpush]
      apply nodup_pushCandidate h.nodup
      intro other ho
      have hlt := h.number ho
      have hid : made.findingId=finding.id := (candidateFor_eq_some hfor).2.1
      have hfresh := hnumber finding hf
      omega
  · dsimp only
    omega
  · intro candidate hc
    rcases h.process_backed e order o now hemitted hc with hold | ⟨hid,-⟩
    · exact .inl ⟨candidate,hold,.inl rfl⟩
    · exact .inr hid.ge

end Invariant

section Steps

variable {policy : LocalSecurityPolicy} {events : List SystemEvent} {s t : System} {reply : Reply}

/-- Only processing emits findings. -/
theorem emitted_snoc {action : Action} (hreply : ∀ finding, reply≠.processed finding) :
    emitted (events++[⟨s,(action,reply),t⟩])=emitted events := by
  unfold emitted
  rw [List.filterMap_append]
  cases reply with
  | processed finding => exact absurd rfl (hreply finding)
  | published result => exact List.append_nil _
  | code code => exact List.append_nil _
  | found => exact List.append_nil _
  | executed candidate code record => exact List.append_nil _
  | idle => exact List.append_nil _

/-- Every step keeps the invariant and evolves the candidates. -/
theorem step_inv (sha256 : HashContext σ Bytes) (h : SystemInv policy events s) {action : Action}
    (hstep : step sha256 s action=(t,reply)) :
    SystemInv policy (events++[⟨s,(action,reply),t⟩]) t ∧ Evolves s t := by
  cases step_stepped sha256 hstep with
  | publish o => exact ⟨h.frame _ (emitted_snoc nofun) rfl fun _ hc => .inl hc,.of_same rfl⟩
  | starved order now =>
    exact ⟨h.frame _ (emitted_snoc nofun) rfl fun _ hc => .inl hc,.of_same rfl⟩
  | process order now pop =>
    apply h.process
    unfold emitted
    rw [List.filterMap_append]
    congr 1
  | approve findingId =>
    refine h.transition _ ?_ (by decide)
      (transition_outcome findingId .approved s.pipeline.candidates) ?_
    · exact emitted_snoc nofun
    intro _ hcode
    unfold approvals
    rw [List.filterMap_append]
    apply List.mem_append_right
    have hok : (approveCandidate s.pipeline findingId).2=.ok := hcode
    rw [hok]
    exact List.mem_cons_self
  | reject findingId =>
    refine h.transition _ ?_ (by decide)
      (transition_outcome findingId .rejected s.pipeline.candidates) nofun
    exact emitted_snoc nofun
  | missing findingId =>
    exact ⟨h.frame _ (emitted_snoc nofun) rfl fun _ hc => .inl hc,.of_same rfl⟩
  | request findingId find =>
    refine ⟨h.frame _ (emitted_snoc nofun) rfl ?_,.of_same rfl⟩
    intro other ho
    rcases List.mem_append.mp ho with ho | ho
    · exact .inl ho
    · rw [List.mem_singleton.mp ho]
      exact .inr (List.mem_of_find?_eq_some find)
  | empty index faults =>
    exact ⟨h.frame _ (emitted_snoc nofun) rfl fun _ hc => .inl hc,.of_same rfl⟩
  | execute index faults copy =>
    refine ⟨h.frame _ (emitted_snoc nofun) rfl ?_,.of_same rfl⟩
    intro other ho
    exact .inl (List.mem_of_mem_eraseIdx ho)

/-- The invariant holds over every run. -/
theorem run_inv (sha256 : HashContext σ Bytes) {capacity : ℕ} {world : World}
    (run : Run (Deterministic (step sha256)) (start policy capacity world) events t) :
    SystemInv policy events t := by
  refine run.invariant (SystemInv policy) ?_ ?_
  · refine ⟨rfl,?_,List.nodup_nil,?_,?_,List.nodup_nil⟩
    · exact fun finding hf => absurd hf List.not_mem_nil
    · exact fun candidate hc => absurd hc List.not_mem_nil
    · exact fun candidate hc => absurd hc List.not_mem_nil
  · intro events s label t hinv hstep
    exact (step_inv sha256 hinv hstep).1

/-- Candidates evolve along every continuation of a run. -/
theorem run_evolves (sha256 : HashContext σ Bytes) {first second : List SystemEvent}
    (h : SystemInv policy first s)
    (run : Run (Deterministic (step sha256)) s second t) :
    SystemInv policy (first++second) t ∧ Evolves s t := by
  induction run with
  | nil =>
    rw [List.append_nil]
    exact ⟨h,.of_same rfl⟩
  | snoc run hstep ih =>
    obtain ⟨hinv,hev⟩ := step_inv sha256 ih.1 hstep
    rw [←List.append_assoc]
    exact ⟨hinv,ih.2.trans hev⟩

/-- Both approval calls are one transition. -/
theorem step_transition (sha256 : HashContext σ Bytes) {action : Action} {findingId : ℕ}
    {target : CandidateApprovalState} (h : action.transition=some (findingId,target)) (s : System) :
    target≠.pendingApproval ∧ step sha256 s action=
      ({s with pipeline := {s.pipeline with
        candidates := (transitionCandidate findingId target s.pipeline.candidates).1}},
        .code (transitionCandidate findingId target s.pipeline.candidates).2) := by
  cases action with
  | approve id =>
    obtain ⟨rfl,rfl⟩ := Prod.mk.inj (Option.some.inj h)
    exact ⟨by decide,rfl⟩
  | reject id =>
    obtain ⟨rfl,rfl⟩ := Prod.mk.inj (Option.some.inj h)
    exact ⟨by decide,rfl⟩
  | publish o => cases h
  | process order now => cases h
  | request id => cases h
  | execute index faults => cases h

/-- An error of a transition leaves the system alone. -/
theorem transition_failed (sha256 : HashContext σ Bytes) {action : Action} {findingId : ℕ}
    {target : CandidateApprovalState} (h : action.transition=some (findingId,target))
    {code : ErrorCode} (hstep : step sha256 s action=(t,.code code)) (hcode : code≠.ok) : t=s := by
  rw [(step_transition sha256 h s).2] at hstep
  obtain ⟨rfl,hreply⟩ := Prod.mk.inj hstep
  obtain rfl := Reply.code.inj hreply
  have houtcome := transition_outcome findingId target s.pipeline.candidates
  generalize transitionCandidate findingId target s.pipeline.candidates=result at houtcome hcode ⊢
  cases houtcome with
  | failed _ => rfl
  | repeated hin hid hstate => rfl
  | moved hsplit hid hpending => exact absurd rfl hcode

/-- A successful transition leaves a candidate in the target state. -/
theorem transition_held (sha256 : HashContext σ Bytes) {action : Action} {findingId : ℕ}
    {target : CandidateApprovalState} (h : action.transition=some (findingId,target))
    (hstep : step sha256 s action=(t,.code .ok)) :
    ∃ candidate ∈ t.pipeline.candidates,
      candidate.findingId=findingId ∧ candidate.approvalState=target := by
  rw [(step_transition sha256 h s).2] at hstep
  obtain ⟨rfl,hreply⟩ := Prod.mk.inj hstep
  have hcode := Reply.code.inj hreply
  have houtcome := transition_outcome findingId target s.pipeline.candidates
  generalize transitionCandidate findingId target s.pipeline.candidates=result at houtcome hcode ⊢
  cases houtcome with
  | failed hne => exact absurd hcode hne
  | @repeated candidate hin hid hstate => exact ⟨candidate,hin,hid,hstate⟩
  | @moved front candidate back hsplit hid hpending =>
    exact ⟨_,List.mem_append_right _ List.mem_cons_self,hid,rfl⟩

/-- A transition of a candidate that is in the target state already
succeeds and leaves the system alone. -/
theorem transition_again (sha256 : HashContext σ Bytes) (hinv : SystemInv policy events s)
    {action : Action} {findingId : ℕ} {target : CandidateApprovalState}
    (h : action.transition=some (findingId,target)) {candidate : RemediationCandidate}
    (hin : candidate ∈ s.pipeline.candidates) (hid : candidate.findingId=findingId)
    (hstate : candidate.approvalState=target) : step sha256 s action=(s,.code .ok) := by
  rw [(step_transition sha256 h s).2,transition_repeated hinv.nodup hin hid hstate]

/-- Only an execution reaches the world, with a copy that was requested. -/
theorem step_world (sha256 : HashContext σ Bytes) {action : Action}
    (hstep : step sha256 s action=(t,reply)) :
    t.world=s.world ∧ (∀ candidate code record, reply≠.executed candidate code record) ∨
    ∃ candidate ∈ s.requests, ∃ faults, t.world=(quarantine sha256 faults candidate s.world).1 ∧
      reply=.executed candidate (quarantine sha256 faults candidate s.world).2.1
        (quarantine sha256 faults candidate s.world).2.2 := by
  cases step_stepped sha256 hstep with
  | publish o => exact .inl ⟨rfl,fun _ _ _ he => nomatch he⟩
  | starved order now => exact .inl ⟨rfl,fun _ _ _ he => nomatch he⟩
  | process order now pop => exact .inl ⟨rfl,fun _ _ _ he => nomatch he⟩
  | approve findingId => exact .inl ⟨rfl,fun _ _ _ he => nomatch he⟩
  | reject findingId => exact .inl ⟨rfl,fun _ _ _ he => nomatch he⟩
  | missing findingId => exact .inl ⟨rfl,fun _ _ _ he => nomatch he⟩
  | request findingId find => exact .inl ⟨rfl,fun _ _ _ he => nomatch he⟩
  | empty index faults => exact .inl ⟨rfl,fun _ _ _ he => nomatch he⟩
  | execute index faults copy =>
    exact .inr ⟨_,List.mem_of_getElem? copy,faults,rfl,rfl⟩

/-- Files are touched, or reported as moved, only for an approved copy on
its way to the executor. -/
theorem step_moves (sha256 : HashContext σ Bytes) {action : Action}
    (hstep : step sha256 s action=(t,reply))
    (hmoves : t.world.files≠s.world.files ∨
      ∃ candidate record, reply=.executed candidate .ok record) :
    ∃ candidate ∈ s.requests, candidate.approvalState=.approved ∧
      ∃ code record, reply=.executed candidate code record := by
  rcases step_world sha256 hstep with ⟨hworld,hreply⟩ | ⟨candidate,hin,faults,hworld,hreply⟩
  · rcases hmoves with hfiles | ⟨candidate,record,he⟩
    · exact absurd (by rw [hworld]) hfiles
    · exact absurd he (hreply candidate .ok record)
  · refine ⟨candidate,hin,?_,_,_,hreply⟩
    have houtcome := quarantine_outcome sha256 faults candidate s.world
    generalize quarantine sha256 faults candidate s.world=result at hworld hreply houtcome
    obtain ⟨world,code,record⟩ := result
    cases houtcome with
    | refused hcode =>
      rcases hmoves with hfiles | ⟨other,record,he⟩
      · exact absurd (by rw [hworld]) hfiles
      · exact absurd (Reply.executed.inj (hreply.symm.trans he)).2.1 hcode
    | abandoned admitted hfiles => exact admitted.approved
    | moved admitted hcontent hhash => exact admitted.approved

end Steps

/-- What an execution of a candidate rests on. -/
structure Authorised (policy : LocalSecurityPolicy) (history : List SystemEvent)
    (candidate : RemediationCandidate) : Prop where
  /-- An approval call for its finding succeeded. -/
  approved : candidate.findingId ∈ approvals history
  /-- Its finding was remediable and named the file. -/
  finding : ∃ finding ∈ emitted history, finding.id=candidate.findingId ∧
    Remediable policy finding ∧ finding.filePath=candidate.targetPath
  /-- No two findings share a number. -/
  unique : ∀ a ∈ emitted history, ∀ b ∈ emitted history, a.id=b.id → a=b

/-- Safety of one history of the system. -/
structure RemediationSafe (sha256 : HashContext σ Bytes) (policy : LocalSecurityPolicy)
    (initial : System) (events : List SystemEvent) (final : System) : Prop where
  /-- A file is touched, or reported as moved, only by the execution of a
  candidate that the history before it authorises. -/
  moved : ∀ (first : List SystemEvent) (e : SystemEvent) (rest : List SystemEvent),
    events=first++e::rest →
    (e.after.world.files≠e.before.world.files ∨
      ∃ candidate record, e.label.2=.executed candidate .ok record) →
    ∃ candidate code record, e.label.2=.executed candidate code record ∧
      Authorised policy first candidate
  /-- Between any two times a candidate keeps its approval state or leaves
  the pending state once. -/
  progress : ∀ (first second : List SystemEvent) (s : System), events=first++second →
    Run (Deterministic (step sha256)) initial first s →
    Run (Deterministic (step sha256)) s second final →
    ∀ earlier ∈ s.pipeline.candidates, ∀ later ∈ final.pipeline.candidates,
      later.findingId=earlier.findingId → Progress earlier later
  /-- A transition that returns an error changes nothing. -/
  failed : ∀ e ∈ events, e.label.1.transition.isSome=true → ∀ code, e.label.2=.code code →
    code≠.ok → e.after=e.before
  /-- Repeating a successful transition at once succeeds and changes
  nothing. -/
  atOnce : ∀ (first : List SystemEvent) (e again : SystemEvent) (rest : List SystemEvent),
    events=first++e::again::rest → ∀ id target,
    e.label.1.transition=some (id,target) → e.label.2=.code .ok →
    again.label.1.transition=some (id,target) → again.label.2=.code .ok ∧ again.after=again.before
  /-- So it does later, as long as the candidate is still held. -/
  later : ∀ (first : List SystemEvent) (e : SystemEvent) (middle : List SystemEvent)
    (again : SystemEvent) (rest : List SystemEvent), events=first++e::(middle++again::rest) →
    ∀ id target,
    e.label.1.transition=some (id,target) → e.label.2=.code .ok →
    again.label.1.transition=some (id,target) →
    (∃ candidate ∈ again.before.pipeline.candidates, candidate.findingId=id) →
    again.label.2=.code .ok ∧ again.after=again.before

/-- A successful transition that is repeated while its candidate is held
succeeds again and changes nothing. -/
theorem repeated_transition (sha256 : HashContext σ Bytes) {policy : LocalSecurityPolicy}
    {capacity : ℕ} {world : World} {events : List SystemEvent} {final : System}
    (run : Run (Deterministic (step sha256)) (start policy capacity world) events final)
    (first : List SystemEvent) (e : SystemEvent) (middle : List SystemEvent)
    (again : SystemEvent) (rest : List SystemEvent) (hevents : events=first++e::(middle++again::rest))
    (id : ℕ) (target : CandidateApprovalState) (htransition : e.label.1.transition=some (id,target))
    (hok : e.label.2=.code .ok) (hagain : again.label.1.transition=some (id,target))
    (hheld : ∃ candidate ∈ again.before.pipeline.candidates, candidate.findingId=id) :
    again.label.2=.code .ok ∧ again.after=again.before := by
  obtain ⟨held,hin,hid⟩ := hheld
  rw [hevents] at run
  obtain ⟨hfirst,hstep,hrest⟩ := run.event_step
  obtain ⟨hmiddle,hstepAgain,-⟩ := hrest.event_step
  have hstepOk : step sha256 e.before e.label.1=(e.after,.code .ok) := by
    rw [←hok]
    exact hstep
  obtain ⟨set,hset,hsetId,hsetState⟩ := transition_held sha256 htransition hstepOk
  have hinv := (step_inv sha256 (run_inv sha256 hfirst) hstep).1
  obtain ⟨hinvAgain,hev⟩ := run_evolves sha256 hinv hmiddle
  have htarget := (step_transition sha256 htransition e.before).1
  have hprogress := hinv.progress hev hset hin (hid.trans hsetId.symm)
  have hsame : held=set := hprogress.settled (by rw [hsetState]; exact htarget)
  have hresult := transition_again sha256 hinvAgain hagain hin hid
    (by rw [hsame]; exact hsetState)
  have hboth : (again.before,Reply.code .ok)=(again.after,again.label.2) :=
    hresult.symm.trans hstepAgain
  obtain ⟨hafter,hreply⟩ := Prod.mk.inj hboth
  exact ⟨hreply.symm,hafter.symm⟩

/-- Over every interleaving of publishing, processing, approvals,
rejections and quarantine requests, with every file operation free to
fail, the system is safe. -/
theorem remediation_safety (sha256 : HashContext σ Bytes) {policy : LocalSecurityPolicy}
    {capacity : ℕ} {world : World} {events : List SystemEvent} {final : System}
    (run : Run (Deterministic (step sha256)) (start policy capacity world) events final) :
    RemediationSafe sha256 policy (start policy capacity world) events final := by
  refine ⟨?_,?_,?_,?_,repeated_transition sha256 run⟩
  · intro first e rest hevents hmoves
    rw [hevents] at run
    obtain ⟨hfirst,hstep,-⟩ := run.event_step
    have hinv := run_inv sha256 hfirst
    obtain ⟨candidate,hin,happroved,code,record,hreply⟩ := step_moves sha256 hstep hmoves
    have hbacked := hinv.requests candidate hin
    exact ⟨candidate,code,record,hreply,hbacked.approval happroved,hbacked.finding,
      fun a ha b hb hab => List.inj_on_of_nodup_map hinv.distinct ha hb hab⟩
  · intro first second s hevents hfirst hsecond earlier he later hl hid
    have hinv := run_inv sha256 hfirst
    exact hinv.progress (run_evolves sha256 hinv hsecond).2 he hl hid
  · intro e he htransition code hreply hcode
    obtain ⟨first,rest,hevents⟩ := List.append_of_mem he
    rw [hevents] at run
    obtain ⟨-,hstep,-⟩ := run.event_step
    obtain ⟨⟨id,target⟩,htarget⟩ := Option.isSome_iff_exists.mp htransition
    have hstepCode : step sha256 e.before e.label.1=(e.after,.code code) := by
      rw [←hreply]
      exact hstep
    exact transition_failed sha256 htarget hstepCode hcode
  · intro first e again rest hevents id target htransition hok hagain
    apply repeated_transition sha256 run first e [] again rest hevents id target htransition hok
      hagain
    rw [hevents] at run
    obtain ⟨-,hstep,hrest⟩ := run.event_step
    have hnext : Run (Deterministic (step sha256)) e.after ([]++again::rest) final := hrest
    have hmeet : again.before=e.after := hnext.event_step.1.eq_of_nil
    have hstepOk : step sha256 e.before e.label.1=(e.after,.code .ok) := by
      rw [←hok]
      exact hstep
    obtain ⟨set,hset,hsetId,-⟩ := transition_held sha256 htransition hstepOk
    rw [hmeet]
    exact ⟨set,hset,hsetId⟩

/-- A machine with the observed file and an empty vault. -/
def fixtureWorld : World :=
  let files : Files := fun path => if path="C:/Temp/sample.exe".toList then some ['A'] else none
  ⟨files,QuarantineVault.create "/v".toList .default files⟩

/-- Two observations make a candidate, which is approved and executed. -/
def fixtureActions : List Action :=
  [.publish (fixtureObservation "a".toList false),.publish (fixtureObservation "b".toList true),
    .process (.storage _ _) 0,.process (.storage _ _) (seconds 1),
    .approve 2,.request 2,.execute 0 (QuarantineRun.fixtureFaults false)]

/-- The file of the fixture is moved into the vault. -/
theorem remediation_safety_fixture :
    (execute (step QuarantineRun.fixtureHash) (start .default 8 fixtureWorld)
      fixtureActions).2.world.files (vaultFile "/v".toList 1)=some ['A'] ∧
    RemediationSafe QuarantineRun.fixtureHash .default (start .default 8 fixtureWorld)
      (execute (step QuarantineRun.fixtureHash) (start .default 8 fixtureWorld) fixtureActions).1
      (execute (step QuarantineRun.fixtureHash) (start .default 8 fixtureWorld)
        fixtureActions).2 :=
  ⟨by decide +kernel,remediation_safety QuarantineRun.fixtureHash (execute_run _ _ _)⟩

end Gcad.RemediationSafety
