import Gcad.CorrelationRun
import Gcad.RemediationSafety

/-!
# Evidence behind a remediation candidate

What the correlation engine keeps of an observation can be traced back to the
observation that was published. One source adds at most fifty points to the
score of a key and a remediable finding needs ninety, so every candidate, and
every file that is moved, rests on published observations of two different
sources under one key.
-/

namespace Gcad.CandidateEvidence

open Common Observation ByteView KeyedMap StepSystem Correlation CorrelationRun
open CandidatePipeline QuarantineVault RemediationSafety

variable {σ : Type}

/-- A record of a source under a key comes from an observation. -/
structure Witnessed (seen : List SecurityObservation) (key sourceId : Str)
    (source : SourceState) (o : SecurityObservation) : Prop where
  /-- The observation was seen. -/
  mem : o ∈ seen
  /-- It was valid. -/
  valid : o.valid=true
  /-- It is about the key. -/
  key : o.correlationKey=key
  /-- It names the source. -/
  sourceId : o.sourceId=sourceId
  /-- The record has its confidence. -/
  confidence : source.confidence=o.confidence
  /-- The record is deterministic as the observation is. -/
  deterministic : source.deterministic=o.deterministic

/-- Everything recorded under a key comes from observations. -/
structure Traced (seen : List SecurityObservation) (key : Str) (state : ActiveState) : Prop where
  /-- Every source has an observation. -/
  sources : ∀ sourceId source,state.sources.lookup sourceId=some source →
    ∃ o,Witnessed seen key sourceId source o
  /-- So has the file path. -/
  filePath : state.filePath≠[] → ∃ o ∈ seen,o.valid=true ∧ o.correlationKey=key ∧
    o.filePath=state.filePath

/-- Everything the engine holds comes from observations. -/
def EngineTraced (seen : List SecurityObservation) (engine : CorrelationEngine) : Prop :=
  ∀ key state,engine.active.lookup key=some state → Traced seen key state

section Engine

variable {seen more : List SecurityObservation} {key : Str} {state : ActiveState}
variable {engine : CorrelationEngine} {o : SecurityObservation}

/-- More observations trace as much. -/
theorem Traced.mono (h : Traced seen key state) (hsub : seen ⊆ more) : Traced more key state := by
  refine ⟨fun sourceId source hs => ?_,fun hpath => ?_⟩
  · obtain ⟨o,ho⟩ := h.sources sourceId source hs
    exact ⟨o,hsub ho.mem,ho.valid,ho.key,ho.sourceId,ho.confidence,ho.deterministic⟩
  · obtain ⟨o,hmem,hrest⟩ := h.filePath hpath
    exact ⟨o,hsub hmem,hrest⟩

/-- A new state holds nothing. -/
theorem traced_initial : Traced seen key .initial :=
  ⟨fun _ _ hs => (nomatch hs),fun hpath => absurd rfl hpath⟩

/-- Recording an observation keeps a state traced. -/
theorem Traced.record (h : Traced seen o.correlationKey state) (hvalid : o.valid=true)
    (hmem : o ∈ seen) (now : TimePoint) :
    Traced seen o.correlationKey (Correlation.record state o now) := by
  refine ⟨fun sourceId source hs => ?_,fun hpath => ?_⟩
  · simp only [Correlation.record] at hs
    by_cases hsame : sourceId=o.sourceId
    · rw [hsame,AList.lookup_insert] at hs
      obtain rfl := Option.some.inj hs
      exact ⟨o,hmem,hvalid,rfl,hsame.symm,rfl,rfl⟩
    · rw [AList.lookup_insert_ne hsame] at hs
      exact h.sources sourceId source hs
  · simp only [Correlation.record] at hpath ⊢
    split at hpath
    · next hnew => exact ⟨o,hmem,hvalid,rfl,(if_pos hnew).symm⟩
    · next hold =>
      rw [if_neg hold]
      exact h.filePath hpath

/-- The state an observation is recorded into is traced. -/
theorem EngineTraced.target (h : EngineTraced seen engine)
    (order : IterationOrder Str ActiveState) (o : SecurityObservation) (now : TimePoint) :
    Traced seen o.correlationKey (Correlation.target order engine o now).2 := by
  rcases target_found order engine o now with hnone | hsome
  · rw [Correlation.target,findOrEmplace_new hnone]
    exact traced_initial
  · exact h _ _ hsome

/-- Writing a traced state under the key of an observation. -/
theorem EngineTraced.insert (h : EngineTraced seen engine) (hinv : StateInv engine)
    {order : IterationOrder Str ActiveState} {now : TimePoint}
    (hstate : Traced seen o.correlationKey state) :
    ∀ other held,((Correlation.target order engine o now).1.insert o.correlationKey state).lookup other=
      some held → Traced seen other held := by
  intro other held hheld
  by_cases hsame : other=o.correlationKey
  · subst hsame
    rw [AList.lookup_insert] at hheld
    obtain rfl := Option.some.inj hheld
    exact hstate
  · rw [AList.lookup_insert_ne hsame] at hheld
    exact h other held (target_other hinv hsame hheld)

/-- A finding reports a traced state of its key. -/
def FindingTraced (seen : List SecurityObservation) (finding : SecurityFinding) : Prop :=
  ∃ state,Traced seen finding.correlationKey state ∧ finding.riskScore=scoreFor state ∧
    finding.level=levelFor (scoreFor state) ∧
    finding.deterministicSignature=anySourceDeterministic state ∧
    finding.filePath=state.filePath

/-- One more observation keeps the engine traced, and a finding it raises is
traced. -/
theorem EngineTraced.ingest (h : EngineTraced seen engine) (hinv : StateInv engine)
    (order : IterationOrder Str ActiveState) (o : SecurityObservation) (now : TimePoint) :
    EngineTraced (seen++[o]) (ingest order engine o now).1 ∧
      ∀ finding,(Correlation.ingest order engine o now).2=some finding →
        FindingTraced (seen++[o]) finding := by
  have hmore : EngineTraced (seen++[o]) engine := fun key state hs =>
    (h key state hs).mono (List.subset_append_left _ _)
  have hmem : o ∈ seen++[o] := List.mem_append_right _ (List.mem_singleton_self o)
  have htarget := hmore.target order o now
  rcases ingest_cases order engine o now with ⟨-,hc⟩ | ⟨hv,-,hc⟩ | ⟨hv,-,-,hc⟩ | ⟨hv,-,-,hc⟩
  · rw [hc]
    exact ⟨hmore,nofun⟩
  · rw [hc]
    refine ⟨fun key state hs => ?_,nofun⟩
    by_cases hsame : key=o.correlationKey
    · subst hsame
      obtain ⟨hfound,-,-⟩ :=
        findOrEmplace_spec order (expire_stateInv hinv now).active o.correlationKey
      rw [← Option.some.inj (hfound.symm.trans hs)]
      exact htarget
    · exact hmore key state (target_other hinv hsame hs)
  · rw [hc]
    exact ⟨hmore.insert hinv (htarget.record hv hmem now),nofun⟩
  · rw [hc]
    have hrecord := htarget.record hv hmem now
    refine ⟨hmore.insert hinv ⟨hrecord.sources,hrecord.filePath⟩,fun finding hf => ?_⟩
    obtain rfl := Option.some.inj hf
    exact ⟨_,hrecord,rfl,rfl,rfl,rfl⟩

end Engine

section Scores

variable {seen : List SecurityObservation} {key : Str} {state : ActiveState}

/-- A recorded source adds at most fifty points. -/
theorem Witnessed.contribution {sourceId : Str} {source : SourceState} {o : SecurityObservation}
    (h : Witnessed seen key sourceId source o) : lround50 source.confidence ≤ 50 := by
  rw [h.confidence]
  exact SecurityObservation.contribution_le h.valid

/-- An entry of the table is found under its key. -/
theorem lookup_of_entry {entry : (_ : Str)×SourceState} (h : entry ∈ state.sources.entries) :
    state.sources.lookup entry.1=some entry.2 := AList.mem_lookup_iff.mpr h

/-- A score of ninety takes two sources. -/
theorem two_sources (h : Traced seen key state) (hscore : 90 ≤ scoreFor state) :
    2 ≤ state.sources.entries.length := by
  by_contra hfew
  have hlow : scoreFor state ≤ 50 := by
    have hcount : ¬2 ≤ count state.sources := hfew
    unfold scoreFor
    dsimp only
    rw [if_neg hcount]
    match hentries : state.sources.entries with
    | [] => simp
    | [entry] =>
      obtain ⟨o,ho⟩ := h.sources entry.1 entry.2 (lookup_of_entry (by simp [hentries]))
      have hle := ho.contribution
      simp only [List.foldl_cons,List.foldl_nil]
      omega
    | _::_::_ => simp [hentries] at hfew
  omega

/-- Of two entries one has another key than a given entry. -/
theorem other_entry (hmany : 2 ≤ state.sources.entries.length) (entry : (_ : Str)×SourceState) :
    ∃ other ∈ state.sources.entries,other.1≠entry.1 := by
  by_contra hnone
  have hsame : ∀ other ∈ state.sources.keys,other=entry.1 := by
    intro other hother
    obtain ⟨found,hfound,rfl⟩ := List.mem_map.mp hother
    by_contra hne
    exact hnone ⟨found,hfound,hne⟩
  have hkeys : state.sources.keys=List.replicate state.sources.entries.length entry.1 :=
    List.eq_replicate_iff.mpr ⟨List.length_map _,hsame⟩
  have hnodup : state.sources.keys.Nodup := state.sources.keys_nodup
  rw [hkeys,List.nodup_replicate] at hnodup
  omega

end Scores

/-- What a file's remediation rests on: two published observations of
different sources under one key, one of them deterministic, and one that
names the file. -/
structure Independent (seen : List SecurityObservation) (path : Str)
    (first second third : SecurityObservation) : Prop where
  /-- All three were seen. -/
  mem : first ∈ seen ∧ second ∈ seen ∧ third ∈ seen
  /-- All three were valid. -/
  valid : first.valid=true ∧ second.valid=true ∧ third.valid=true
  /-- They are about one thing. -/
  key : second.correlationKey=first.correlationKey ∧ third.correlationKey=first.correlationKey
  /-- Two engines reported it. -/
  sources : first.sourceId≠second.sourceId
  /-- One of them with a deterministic check. -/
  deterministic : first.deterministic=true
  /-- The file is named. -/
  filePath : third.filePath=path

/-- A remediable finding rests on independent evidence. -/
theorem FindingTraced.independent {seen : List SecurityObservation} {finding : SecurityFinding}
    {policy : LocalSecurityPolicy} (h : FindingTraced seen finding)
    (hremediable : Remediable policy finding) :
    ∃ first second third,Independent seen finding.filePath first second third := by
  obtain ⟨state,htraced,-,hlevel,hdeterministic,hpath⟩ := h
  have hscore : 90 ≤ scoreFor state := by
    have hcritical := hremediable.critical
    rw [hlevel] at hcritical
    unfold levelFor at hcritical
    split_ifs at hcritical with h90
    exact h90
  have hany := hremediable.deterministic
  rw [hdeterministic,anySourceDeterministic,List.any_eq_true] at hany
  obtain ⟨entry,hentry,hexact⟩ := hany
  obtain ⟨other,hother,hne⟩ := other_entry (two_sources htraced hscore) entry
  obtain ⟨first,hfirst⟩ := htraced.sources entry.1 entry.2 (lookup_of_entry hentry)
  obtain ⟨second,hsecond⟩ := htraced.sources other.1 other.2 (lookup_of_entry hother)
  have hnamed : state.filePath≠[] := hpath ▸ hremediable.path
  obtain ⟨third,hthird,hvalid,hkey,hfile⟩ := htraced.filePath hnamed
  refine ⟨first,second,third,⟨hfirst.mem,hsecond.mem,hthird⟩,
    ⟨hfirst.valid,hsecond.valid,hvalid⟩,⟨?_,?_⟩,?_,?_,hfile.trans hpath.symm⟩
  · rw [hsecond.key,hfirst.key]
  · rw [hkey,hfirst.key]
  · rw [hfirst.sourceId,hsecond.sourceId]
    exact Ne.symm hne
  · rw [← hfirst.deterministic]
    exact hexact

/-- The observations that the bus accepted. -/
def accepted (events : List SystemEvent) : List SecurityObservation :=
  events.filterMap fun e => match e.label with
    | (.publish o,.published .accepted) => some o
    | _ => none

/-- The observations that the worker processed. -/
def processed (events : List SystemEvent) : List SecurityObservation :=
  events.filterMap fun e => match e.label with
    | (.process _ _,.processed _) => (Telemetry.tryPop e.before.bus).2
    | _ => none

/-- What a history of the system leaves behind. -/
structure EvidenceInv (events : List SystemEvent) (s : System) : Prop where
  /-- The worker has processed the first of the accepted observations. -/
  queue : processed events++s.bus.queue=accepted events
  /-- The tables of the engine are in order. -/
  state : StateInv s.pipeline.correlation
  /-- The engine holds nothing else. -/
  engine : EngineTraced (processed events) s.pipeline.correlation
  /-- Nor was anything else reported. -/
  findings : ∀ finding ∈ emitted events,FindingTraced (processed events) finding

section Runs

variable {events : List SystemEvent} {s t : System} {action : Action} {reply : Reply}

/-- A step that neither accepts nor processes keeps the evidence. -/
theorem EvidenceInv.frame (h : EvidenceInv events s) (e : SystemEvent)
    (haccepted : accepted (events++[e])=accepted events)
    (hprocessed : processed (events++[e])=processed events)
    (hemitted : emitted (events++[e])=emitted events) (hqueue : t.bus.queue=s.bus.queue)
    (hengine : t.pipeline.correlation=s.pipeline.correlation) :
    EvidenceInv (events++[e]) t := by
  refine ⟨?_,?_,?_,?_⟩
  · rw [hprocessed,haccepted,hqueue]
    exact h.queue
  · rw [hengine]
    exact h.state
  · rw [hprocessed,hengine]
    exact h.engine
  · rw [hprocessed,hemitted]
    exact h.findings

/-- Every step keeps the evidence. -/
theorem step_evidence (sha256 : HashContext σ Bytes) (h : EvidenceInv events s)
    (hstep : step sha256 s action=(t,reply)) :
    EvidenceInv (events++[⟨s,(action,reply),t⟩]) t := by
  have hsame : ∀ {f : SystemEvent → Option SecurityObservation} {e : SystemEvent},f e=none →
      (events++[e]).filterMap f=events.filterMap f := by
    intro f e hnone
    simp [hnone]
  cases step_stepped sha256 hstep with
  | publish o =>
    have hpublish : (Telemetry.publish s.bus o).2=.accepted ∧
          (Telemetry.publish s.bus o).1.queue=s.bus.queue++[o] ∨
        (Telemetry.publish s.bus o).2≠.accepted ∧
          (Telemetry.publish s.bus o).1.queue=s.bus.queue := by
      unfold Telemetry.publish
      split_ifs <;> simp
    rcases hpublish with ⟨hreply,hqueue⟩ | ⟨hreply,hqueue⟩
    · have haccepted : ∀ u,accepted (events++[⟨s,(.publish o,
          .published (Telemetry.publish s.bus o).2),u⟩])=accepted events++[o] := by
        intro u
        simp [accepted,hreply]
      have hemitted : ∀ u,emitted (events++[⟨s,(.publish o,
          .published (Telemetry.publish s.bus o).2),u⟩])=emitted events :=
        fun _ => emitted_snoc nofun
      refine ⟨?_,h.state,?_,?_⟩
      · rw [haccepted,processed,hsame rfl]
        dsimp only
        rw [hqueue,← List.append_assoc,← processed,h.queue]
      · rw [processed,hsame rfl]
        exact h.engine
      · rw [processed,hsame rfl,hemitted]
        exact h.findings
    · refine h.frame _ (hsame ?_) (hsame rfl) (emitted_snoc nofun) hqueue rfl
      dsimp only
      split
      · next heq =>
        obtain ⟨-,heq⟩ := Prod.mk.inj heq
        exact absurd (Reply.published.inj heq) hreply
      · rfl
  | starved order now =>
    exact h.frame _ (hsame rfl) (hsame rfl) (emitted_snoc nofun) rfl rfl
  | @process order now bus o pop =>
    obtain ⟨hcorrelation,-⟩ := process_correlation order s.pipeline o now
    have hqueue : s.bus.queue=o::bus.queue := by
      unfold Telemetry.tryPop at pop
      split at pop
      · cases pop
      · next first rest hqueue =>
        obtain ⟨rfl,hfirst⟩ := Prod.mk.inj pop
        rw [hqueue,Option.some.inj hfirst]
    have hprocessed : ∀ finding u,processed (events++[⟨s,(.process order now,
        .processed finding),u⟩])=processed events++[o] := by
      intro finding u
      simp [processed,pop]
    obtain ⟨hengine,hfinding⟩ := h.engine.ingest h.state order o now
    refine ⟨?_,?_,?_,?_⟩
    · rw [hprocessed,accepted,hsame rfl,← accepted,← h.queue,hqueue]
      simp
    · dsimp only
      rw [hcorrelation]
      exact step_stateInv h.state (.ingest order o now)
    · rw [hprocessed]
      dsimp only
      rw [hcorrelation]
      exact hengine
    · rw [hprocessed]
      intro finding hmem
      have hemitted : finding ∈ emitted events ∨
          (ingest order s.pipeline.correlation o now).2=some finding := by
        simpa [emitted] using hmem
      rcases hemitted with hold | hnew
      · obtain ⟨state,htraced,hrest⟩ := h.findings finding hold
        exact ⟨state,htraced.mono (List.subset_append_left _ _),hrest⟩
      · exact hfinding finding hnew
  | approve findingId =>
    exact h.frame _ (hsame rfl) (hsame rfl) (emitted_snoc nofun) rfl rfl
  | reject findingId =>
    exact h.frame _ (hsame rfl) (hsame rfl) (emitted_snoc nofun) rfl rfl
  | missing findingId =>
    exact h.frame _ (hsame rfl) (hsame rfl) (emitted_snoc nofun) rfl rfl
  | request findingId find =>
    exact h.frame _ (hsame rfl) (hsame rfl) (emitted_snoc nofun) rfl rfl
  | empty index faults =>
    exact h.frame _ (hsame rfl) (hsame rfl) (emitted_snoc nofun) rfl rfl
  | execute index faults copy =>
    exact h.frame _ (hsame rfl) (hsame rfl) (emitted_snoc nofun) rfl rfl

/-- The evidence holds over every run. -/
theorem run_evidence (sha256 : HashContext σ Bytes) {policy : LocalSecurityPolicy} {capacity : ℕ}
    {world : World} (run : Run (Deterministic (step sha256)) (start policy capacity world) events s) :
    EvidenceInv events s := by
  induction run with
  | nil =>
    exact ⟨rfl,⟨Nat.zero_le _,Nat.zero_le _,nofun⟩,nofun,fun _ hmem => absurd hmem List.not_mem_nil⟩
  | snoc run hstep ih => exact step_evidence sha256 ih hstep

/-- A candidate with its history behind it rests on independent evidence. -/
theorem backed_independent (sha256 : HashContext σ Bytes) {policy : LocalSecurityPolicy}
    {capacity : ℕ} {world : World}
    (run : Run (Deterministic (step sha256)) (start policy capacity world) events s)
    {candidate : RemediationCandidate} (hbacked : Backed policy events candidate) :
    ∃ first second third,Independent (accepted events) candidate.targetPath first second third := by
  obtain ⟨finding,hmem,-,hremediable,hpath⟩ := hbacked.finding
  have hevidence := run_evidence sha256 run
  obtain ⟨first,second,third,hfound⟩ := (hevidence.findings finding hmem).independent hremediable
  have hsub : processed events ⊆ accepted events := by
    rw [← hevidence.queue]
    exact List.subset_append_left _ _
  exact ⟨first,second,third,⟨hsub hfound.mem.1,hsub hfound.mem.2.1,hsub hfound.mem.2.2⟩,
    hfound.valid,hfound.key,hfound.sources,hfound.deterministic,hfound.filePath.trans hpath⟩

end Runs

/-- Over every interleaving of publishing, processing, approvals and
quarantine requests, every candidate that is held, or copied for the executor,
rests on published observations of two different sources about one thing, one
of them deterministic; so does every file that is moved. -/
theorem candidates_have_independent_evidence (sha256 : HashContext σ Bytes)
    {policy : LocalSecurityPolicy} {capacity : ℕ} {world : World} {events : List SystemEvent}
    {final : System}
    (run : Run (Deterministic (step sha256)) (start policy capacity world) events final) :
    (∀ candidate ∈ final.pipeline.candidates++final.requests,∃ first second third,
      Independent (accepted events) candidate.targetPath first second third) ∧
    ∀ (before : List SystemEvent) (e : SystemEvent) (after : List SystemEvent),
      events=before++e::after → e.after.world.files≠e.before.world.files →
      ∃ candidate code record,e.label.2=.executed candidate code record ∧
        ∃ first second third,
          Independent (accepted before) candidate.targetPath first second third := by
  refine ⟨fun candidate hmem => backed_independent sha256 run ?_,?_⟩
  · have hinv := run_inv sha256 run
    rcases List.mem_append.mp hmem with hheld | hcopied
    · exact hinv.candidates candidate hheld
    · exact hinv.requests candidate hcopied
  · intro before e after hevents hmoved
    rw [hevents] at run
    obtain ⟨hbefore,hstep,-⟩ := run.event_step
    obtain ⟨candidate,hin,-,code,record,hreply⟩ := step_moves sha256 hstep (.inl hmoved)
    exact ⟨candidate,code,record,hreply,
      backed_independent sha256 hbefore ((run_inv sha256 hbefore).requests candidate hin)⟩

/-- The candidate of two observations rests on both. -/
theorem candidates_have_independent_evidence_fixture :
    ∃ first second third,Independent
      (accepted (execute (step QuarantineRun.fixtureHash) (start .default 8 fixtureWorld)
        fixtureActions).1) "C:/Temp/sample.exe".toList first second third := by
  have hrun := execute_run (step QuarantineRun.fixtureHash) (start .default 8 fixtureWorld)
    fixtureActions
  have hpaths : (execute (step QuarantineRun.fixtureHash) (start .default 8 fixtureWorld)
      fixtureActions).2.pipeline.candidates.map RemediationCandidate.targetPath=
        ["C:/Temp/sample.exe".toList] := by
    decide +kernel
  obtain ⟨candidate,hmem,hpath⟩ := List.mem_map.mp (hpaths ▸ List.mem_singleton_self _)
  rw [← hpath]
  exact (candidates_have_independent_evidence QuarantineRun.fixtureHash hrun).1 candidate
    (List.mem_append_left _ hmem)

end Gcad.CandidateEvidence
