import Gcad.CorrelationOrder
import Gcad.RemediationSafety

/-!
# Candidates that are no longer held

The deque of candidates is bounded, so a candidate is forgotten once enough
newer ones have been made. Runs that make arbitrarily many candidates
exist: two sources report one file, the key expires, and the same two
sources report it again under new finding numbers.
-/

namespace Gcad.CandidateEviction

open Common Observation ByteView KeyedMap StepSystem CandidatePipeline
open CandidateApproval CorrelationOrder QuarantineVault RemediationSafety
open Correlation hiding step

variable {σ : Type}

/-- Any number of pushes leaves the newest candidates. -/
theorem foldl_pushCandidate (made held : List RemediationCandidate)
    (hheld : held.length ≤ maxCandidates) :
    made.foldl pushCandidate held=(held++made).drop ((held++made).length-maxCandidates) := by
  induction made generalizing held with
  | nil =>
    have hzero : (held++[]).length-maxCandidates=0 := by
      rw [List.append_nil]
      omega
    rw [List.foldl_nil,hzero,List.drop_zero,List.append_nil]
  | cons candidate rest ih =>
    rw [List.foldl_cons]
    by_cases hfull : maxCandidates < (held++[candidate]).length
    · have hpush : pushCandidate held candidate=(held++[candidate]).tail := if_pos hfull
      have hlength : held.length=maxCandidates := by
        rw [List.length_append,List.length_singleton] at hfull
        omega
      have hpos : 0 < maxCandidates := by decide
      obtain ⟨oldest,others,rfl⟩ : ∃ oldest others, held=oldest::others :=
        List.exists_cons_of_length_pos (by omega)
      rw [hpush,List.cons_append,List.tail_cons,ih _ (by
        rw [List.length_append,List.length_singleton]
        rw [List.length_cons] at hlength
        omega)]
      have hcut : (oldest::others++candidate::rest).length-maxCandidates=
          (others++[candidate]++rest).length-maxCandidates+1 := by
        simp only [List.length_append,List.length_cons,List.length_nil] at hlength ⊢
        omega
      rw [hcut,List.cons_append,List.drop_succ_cons,List.append_assoc,List.singleton_append]
    · have hpush : pushCandidate held candidate=held++[candidate] := if_neg hfull
      rw [hpush,ih _ (Nat.not_lt.mp hfull),List.append_assoc,List.singleton_append]

section Cycle

/-- An expiry at one time is done once. -/
theorem expire_expire (engine : CorrelationEngine) (now : TimePoint) :
    expire (expire engine now) now=expire engine now := by
  unfold expire retain
  simp only [List.filter_filter,Bool.and_self]

/-- The engine's own expiry makes an explicit one at the same time
invisible. -/
theorem ingest_expire (order : IterationOrder Str ActiveState) (engine : CorrelationEngine)
    {o : SecurityObservation} (hvalid : o.valid=true) (now : TimePoint) :
    ingest order (expire engine now) o now=ingest order engine o now := by
  unfold ingest
  rw [hvalid,expire_expire]
  rfl

/-- Without a candidate the deque stays as it is. -/
theorem process_none {order : IterationOrder Str ActiveState} {pipeline : SecurityPipeline}
    {o : SecurityObservation} {now : TimePoint}
    (h : candidateOf pipeline.policy (ingest order pipeline.correlation o now).2=none) :
    (process order pipeline o now).candidates=pipeline.candidates := by
  unfold process
  dsimp only
  rw [h]

/-- A candidate is pushed. -/
theorem process_some {order : IterationOrder Str ActiveState} {pipeline : SecurityPipeline}
    {o : SecurityObservation} {now : TimePoint} {candidate : RemediationCandidate}
    (h : candidateOf pipeline.policy (ingest order pipeline.correlation o now).2=some candidate) :
    (process order pipeline o now).candidates=pushCandidate pipeline.candidates candidate := by
  unfold process
  dsimp only
  rw [h]

/-- A pipeline that has nothing left of the fixture's key at a time. -/
structure Clear (pipeline : SecurityPipeline) (now : TimePoint) : Prop where
  /-- The pipeline decides by the default policy. -/
  policy : pipeline.policy=.default
  /-- So does its engine. -/
  engine : pipeline.correlation.policy=.default
  /-- The key's state has expired or never was there. -/
  absent : (expire pipeline.correlation now).active.lookup fixtureKey=none

variable {pipeline : SecurityPipeline} {now : TimePoint} (order : IterationOrder Str ActiveState)

/-- A key whose observations all arrived at one time is gone when the
finding window has passed. -/
theorem clear_of_following {path : Str} {seen : List SecurityObservation} {times : List TimePoint}
    (hpolicy : pipeline.policy=.default)
    (h : Following .default fixtureKey path seen times pipeline.correlation) (hseen : seen≠[])
    (htimes : ∀ t ∈ times, t=now) {later : TimePoint} (hlater : minutes 5 < later-now) :
    Clear pipeline later := by
  refine ⟨hpolicy,h.policy,?_⟩
  rcases h.tracked with ⟨hnil,-⟩ | ⟨state,hstate,-,htime⟩
  · exact absurd hnil hseen
  · have hpast : 0 ≤ minutes 5 := by decide
    have hle : now ≤ later := (sub_pos.mp (lt_of_le_of_lt hpast hlater)).le
    have hexpired : expired .default later state=true := by
      unfold expired
      rw [htimes _ htime,decide_eq_true hle,Bool.true_and]
      exact decide_eq_true hlater
    rw [lookup_expire,hstate,h.policy,Option.filter_some,hexpired]
    rfl

/-- The first report of the file makes no candidate and is remembered. -/
theorem process_first (h : Clear pipeline now) :
    (process order pipeline (fixtureObservation "a".toList false) now).candidates=
        pipeline.candidates ∧
      (process order pipeline (fixtureObservation "a".toList false) now).policy=.default ∧
      pipeline.correlation.nextFindingId ≤
        (process order pipeline (fixtureObservation "a".toList false) now).correlation.nextFindingId ∧
      Following .default fixtureKey "C:/Temp/sample.exe".toList
        [fixtureObservation "a".toList false] [now]
        (process order pipeline (fixtureObservation "a".toList false) now).correlation := by
  have hmem := List.mem_cons_self (a := fixtureObservation "a".toList false)
    (l := [fixtureObservation "b".toList true])
  have hvalid := oneSubject_fixture.valid _ hmem
  have hstart : Following .default fixtureKey "C:/Temp/sample.exe".toList [] []
      (expire pipeline.correlation now) := ⟨h.engine,.inl ⟨rfl,h.absent⟩⟩
  obtain ⟨hfirst,hsilent⟩ := hstart.ingest_step hvalid (oneSubject_fixture.key _ hmem) rfl
    oneSubject_fixture.unprotected (by decide) (fun t ht => absurd ht List.not_mem_nil) order
  rw [ingest_expire order _ hvalid,List.nil_append] at hfirst hsilent
  rw [List.nil_append] at hfirst
  have hnone : candidateOf pipeline.policy
      (ingest order pipeline.correlation (fixtureObservation "a".toList false) now).2=none := by
    rw [h.policy]
    apply Option.not_isSome_iff_eq_none.mp
    rw [hsilent]
    rintro ⟨-,-,hmax,-⟩
    revert hmax
    decide +kernel
  obtain ⟨hcorrelation,hpolicy⟩ := process_correlation order pipeline
    (fixtureObservation "a".toList false) now
  have hnext := (ingest_number order (fixtureObservation "a".toList false) now
    pipeline.correlation).1
  rw [hcorrelation]
  exact ⟨process_none hnone,hpolicy.trans h.policy,hnext ▸ Nat.le_add_right _ _,hfirst⟩

/-- The second report at the same time makes a candidate under the next number. -/
theorem process_second (hpolicy : pipeline.policy=.default)
    (h : Following .default fixtureKey "C:/Temp/sample.exe".toList
      [fixtureObservation "a".toList false] [now] pipeline.correlation) :
    ∃ candidate, candidate.approvalState=.pendingApproval ∧
      candidate.findingId=pipeline.correlation.nextFindingId ∧
      (process order pipeline (fixtureObservation "b".toList true) now).candidates=
        pushCandidate pipeline.candidates candidate ∧
      pipeline.correlation.nextFindingId ≤
        (process order pipeline (fixtureObservation "b".toList true) now).correlation.nextFindingId ∧
      (process order pipeline (fixtureObservation "b".toList true) now).policy=.default ∧
      Following .default fixtureKey "C:/Temp/sample.exe".toList
        ([fixtureObservation "a".toList false]++[fixtureObservation "b".toList true]) ([now]++[now])
        (process order pipeline (fixtureObservation "b".toList true) now).correlation := by
  have hmem : fixtureObservation "b".toList true ∈
      [fixtureObservation "a".toList false,fixtureObservation "b".toList true] :=
    List.mem_cons_of_mem _ List.mem_cons_self
  have hwindow : ∀ t ∈ [now], now-t ≤ minutes LocalSecurityPolicy.default.findingWindow := by
    intro t ht
    rw [List.mem_singleton.mp ht,sub_self]
    decide
  obtain ⟨hsecond,hloud⟩ := h.ingest_step (oneSubject_fixture.valid _ hmem)
    (oneSubject_fixture.key _ hmem) rfl oneSubject_fixture.unprotected (by decide) hwindow order
  have hsome : (candidateOf pipeline.policy (ingest order pipeline.correlation
      (fixtureObservation "b".toList true) now).2).isSome=true := by
    rw [hpolicy,hloud]
    decide +kernel
  obtain ⟨candidate,hcandidate⟩ := Option.isSome_iff_exists.mp hsome
  obtain ⟨finding,hfinding,hfor⟩ := Option.bind_eq_some_iff.mp hcandidate
  obtain ⟨-,hid,hpending,-,-⟩ := candidateFor_eq_some hfor
  obtain ⟨hcorrelation,hkept⟩ := process_correlation order pipeline
    (fixtureObservation "b".toList true) now
  obtain ⟨hnext,hnumber⟩ := ingest_number order (fixtureObservation "b".toList true) now
    pipeline.correlation
  rw [hcorrelation]
  exact ⟨candidate,hpending,hid.trans (hnumber finding hfinding),process_some hcandidate,
    hnext ▸ Nat.le_add_right _ _,hkept.trans hpolicy,hsecond⟩

/-- Two sources that report the file at one time make one candidate, with a
number not given before, and their key is gone when the finding window has
passed. -/
theorem process_twice (h : Clear pipeline now) {later : TimePoint}
    (hlater : minutes 5 < later-now) :
    ∃ candidate, candidate.approvalState=.pendingApproval ∧
      pipeline.correlation.nextFindingId ≤ candidate.findingId ∧
      (process order (process order pipeline (fixtureObservation "a".toList false) now)
        (fixtureObservation "b".toList true) now).candidates=
          pushCandidate pipeline.candidates candidate ∧
      pipeline.correlation.nextFindingId ≤
        (process order (process order pipeline (fixtureObservation "a".toList false) now)
          (fixtureObservation "b".toList true) now).correlation.nextFindingId ∧
      Clear (process order (process order pipeline (fixtureObservation "a".toList false) now)
        (fixtureObservation "b".toList true) now) later := by
  obtain ⟨hkept,hpolicy,hnext,hfirst⟩ := process_first order h
  obtain ⟨candidate,hpending,hid,hpush,hnext2,hpolicy2,hsecond⟩ :=
    process_second order hpolicy hfirst
  refine ⟨candidate,hpending,hnext.trans hid.ge,hpush.trans (by rw [hkept]),hnext.trans hnext2,?_⟩
  apply clear_of_following hpolicy2 hsecond (List.cons_ne_nil _ _) _ hlater
  intro t ht
  rcases List.mem_append.mp ht with ht | ht
  · exact List.mem_singleton.mp ht
  · exact List.mem_singleton.mp ht

end Cycle

section Runs

/-- A system between two cycles. -/
structure Ready (system : System) (now : TimePoint) : Prop where
  /-- The bus takes observations. -/
  listening : system.bus.closed=false
  /-- Nothing is queued. -/
  empty : system.bus.queue=[]
  /-- There is room for one observation. -/
  room : 0 < system.bus.capacity
  /-- Nothing is left of the key. -/
  clear : Clear system.pipeline now

variable (sha256 : HashContext σ Bytes) {s : System} {now : TimePoint}

/-- An observation that is published to an empty bus is the next one to be
processed. -/
theorem publish_process (s : System) (now : TimePoint) (o : SecurityObservation) (hvalid : o.valid=true)
    (order : IterationOrder Str ActiveState) (hopen : s.bus.closed=false)
    (hempty : s.bus.queue=[]) (hroom : 0 < s.bus.capacity) :
    ∃ events bus, Run (Deterministic (step sha256)) s events
        {s with bus := bus,pipeline := process order s.pipeline o now} ∧
      bus.closed=false ∧ bus.queue=[] ∧ 0 < bus.capacity := by
  have hfree : ¬s.bus.capacity ≤ s.bus.queue.length := by
    rw [hempty,List.length_nil]
    omega
  have hpublish : Telemetry.publish s.bus o=
      ({s.bus with queue := [o],metrics.accepted := s.bus.metrics.accepted+1},.accepted) := by
    have hinvalid : ¬(!o.valid)=true := by
      rw [hvalid]
      decide
    have hclosed : ¬s.bus.closed=true := by
      rw [hopen]
      decide
    unfold Telemetry.publish
    rw [if_neg hinvalid,if_neg hclosed,if_neg hfree,hempty,List.nil_append]
  have hfirst : step sha256 s (.publish o)=
      ({s with bus := {s.bus with queue := [o],metrics.accepted := s.bus.metrics.accepted+1}},
        .published .accepted) := by
    unfold step
    dsimp only
    rw [hpublish]
  have hsecond : step sha256
      {s with bus := {s.bus with queue := [o],metrics.accepted := s.bus.metrics.accepted+1}}
      (.process order now)=
      ({s with
        bus := {s.bus with queue := [],metrics.accepted := s.bus.metrics.accepted+1}
        pipeline := process order s.pipeline o now},
        .processed (ingest order s.pipeline.correlation o now).2) := rfl
  have hrun := execute_run (step sha256) s [.publish o,.process order now]
  simp only [execute,hfirst,hsecond] at hrun
  exact ⟨_,_,hrun,hopen,rfl,hroom⟩

/-- One cycle makes one candidate. -/
theorem cycle_run (h : Ready s now) :
    ∃ events t candidate, Run (Deterministic (step sha256)) s events t ∧
      candidate.approvalState=.pendingApproval ∧
      s.pipeline.correlation.nextFindingId ≤ candidate.findingId ∧
      t.pipeline.candidates=pushCandidate s.pipeline.candidates candidate ∧
      s.pipeline.correlation.nextFindingId ≤ t.pipeline.correlation.nextFindingId ∧
      Ready t (now+minutes 6) := by
  obtain ⟨first,bus1,hrun1,hopen1,hempty1,hroom1⟩ := publish_process sha256 s now
    (fixtureObservation "a".toList false) (oneSubject_fixture.valid _ List.mem_cons_self)
    (.storage _ _) h.listening h.empty h.room
  obtain ⟨second,bus2,hrun2,hopen2,hempty2,hroom2⟩ := publish_process sha256
    {s with
      bus := bus1
      pipeline := process (.storage _ _) s.pipeline (fixtureObservation "a".toList false) now} now
    (fixtureObservation "b".toList true)
    (oneSubject_fixture.valid _ (List.mem_cons_of_mem _ List.mem_cons_self)) (.storage _ _)
    hopen1 hempty1 hroom1
  have hlater : minutes 5 < now+minutes 6-now := by
    rw [add_sub_cancel_left]
    decide
  obtain ⟨candidate,hpending,hid,hpush,hnext,hclear⟩ := process_twice (.storage _ _) h.clear hlater
  refine ⟨_,_,candidate,hrun1.append hrun2,hpending,?_,?_,?_,?_⟩
  · exact hid
  · exact hpush
  · exact hnext
  · exact ⟨hopen2,hempty2,hroom2,hclear⟩

/-- Any number of cycles makes that many candidates. -/
theorem cycles_run (count : ℕ) (h : Ready s now) :
    ∃ events t, ∃ made : List RemediationCandidate, Run (Deterministic (step sha256)) s events t ∧ made.length=count ∧
      (∀ candidate ∈ made, s.pipeline.correlation.nextFindingId ≤ candidate.findingId) ∧
      t.pipeline.candidates=made.foldl pushCandidate s.pipeline.candidates := by
  induction count generalizing s now with
  | zero => exact ⟨[],s,[],.nil,rfl,fun candidate hc => absurd hc List.not_mem_nil,rfl⟩
  | succ count ih =>
    obtain ⟨first,middle,candidate,hrun1,-,hid,hpush,hnext,hready⟩ := cycle_run sha256 h
    obtain ⟨second,t,made,hrun2,hlength,hids,hcandidates⟩ := ih hready
    refine ⟨_,t,candidate::made,hrun1.append hrun2,?_,?_,?_⟩
    · rw [List.length_cons,hlength]
    · intro other ho
      rcases List.mem_cons.mp ho with rfl | ho
      · exact hid
      · exact hnext.trans (hids other ho)
    · rw [hcandidates,hpush,List.foldl_cons]

end Runs

/-- A successful transition succeeds whenever it is repeated. -/
def RepeatsAlways (events : List SystemEvent) : Prop :=
  ∀ (first : List SystemEvent) (e : SystemEvent) (middle : List SystemEvent) (again : SystemEvent)
    (rest : List SystemEvent), events=first++e::(middle++again::rest) → ∀ id target,
    e.label.1.transition=some (id,target) → e.label.2=.code .ok →
    again.label.1.transition=some (id,target) →
    again.label.2=.code .ok ∧ again.after=again.before

/-- The approval of the only candidate. -/
theorem approve_single (sha256 : HashContext σ Bytes) {s : System}
    {candidate : RemediationCandidate} (hheld : s.pipeline.candidates=[candidate])
    (hpending : candidate.approvalState=.pendingApproval) :
    Deterministic (step sha256) s (.approve candidate.findingId,.code .ok)
      {s with pipeline := {s.pipeline with
        candidates := [{candidate with approvalState := .approved}]}} := by
  have hone : transitionCandidate candidate.findingId .approved [candidate]=
      ([{candidate with approvalState := .approved}],.ok) := by
    simp only [transitionCandidate,ne_eq,not_true_eq_false,if_false,hpending,reduceCtorEq]
  unfold Deterministic step approveCandidate
  dsimp only
  rw [hheld,hone]

/-- As many new candidates as are kept evict the only older one. -/
theorem foldl_pushCandidate_single (old : RemediationCandidate)
    {made : List RemediationCandidate} (hlength : made.length=maxCandidates) :
    made.foldl pushCandidate [old]=made := by
  have hone : [old].length ≤ maxCandidates := by
    change 1 ≤ maxCandidates
    decide
  have hcut : ([old]++made).length-maxCandidates=1 := by
    rw [List.length_append,hlength]
    exact Nat.add_sub_cancel 1 maxCandidates
  rw [foldl_pushCandidate _ _ hone,hcut]
  rfl

/-- An approval that is repeated after two thousand newer candidates were
made does not find its candidate any more. -/
theorem approval_not_found_after_eviction :
    ¬∀ (sha256 : HashContext Bytes Bytes) (policy : LocalSecurityPolicy) (capacity : ℕ)
      (world : World) (events : List SystemEvent) (final : System),
      Run (Deterministic (step sha256)) (start policy capacity world) events final →
      RemediationSafe sha256 policy (start policy capacity world) events final ∧
        RepeatsAlways events := by
  intro hall
  have hready : Ready (start .default 8 fixtureWorld) 0 :=
    ⟨rfl,rfl,by decide,rfl,rfl,rfl⟩
  obtain ⟨first,s,candidate,hfirst,hpending,-,hpush,-,hreadyS⟩ :=
    cycle_run QuarantineRun.fixtureHash hready
  have hheld : s.pipeline.candidates=[candidate] := hpush
  have hnumber : candidate.findingId < s.pipeline.correlation.nextFindingId :=
    (run_inv QuarantineRun.fixtureHash hfirst).number (by rw [hheld]; exact List.mem_cons_self)
  let approved : System := {s with pipeline := {s.pipeline with
    candidates := [{candidate with approvalState := .approved}]}}
  have happrove : Deterministic (step QuarantineRun.fixtureHash) s
      (.approve candidate.findingId,.code .ok) approved :=
    approve_single QuarantineRun.fixtureHash hheld hpending
  have hreadyA : Ready approved (0+minutes 6) :=
    ⟨hreadyS.listening,hreadyS.empty,hreadyS.room,hreadyS.clear.policy,hreadyS.clear.engine,
      hreadyS.clear.absent⟩
  obtain ⟨middle,t,made,hmiddle,hlength,hids,hcandidates⟩ :=
    cycles_run QuarantineRun.fixtureHash maxCandidates hreadyA
  have hgone : t.pipeline.candidates=made :=
    hcandidates.trans (foldl_pushCandidate_single _ hlength)
  have habsent : ∀ other ∈ t.pipeline.candidates, other.findingId≠candidate.findingId := by
    intro other ho
    rw [hgone] at ho
    have hnew : s.pipeline.correlation.nextFindingId ≤ other.findingId := hids other ho
    omega
  have hagain : Deterministic (step QuarantineRun.fixtureHash) t
      (.approve candidate.findingId,.code .errNotFound) t := by
    unfold Deterministic step approveCandidate
    dsimp only
    rw [transition_absent habsent]
  have hrun := ((hfirst.snoc happrove).append hmiddle).snoc hagain
  obtain ⟨-,hrepeats⟩ := hall _ _ _ _ _ _ hrun
  have hevents : first++[⟨s,(.approve candidate.findingId,.code .ok),approved⟩]++middle++
      [⟨t,(.approve candidate.findingId,.code .errNotFound),t⟩]=
      first++⟨s,(.approve candidate.findingId,.code .ok),approved⟩::
        (middle++⟨t,(.approve candidate.findingId,.code .errNotFound),t⟩::[]) := by
    simp only [List.append_assoc,List.cons_append,List.nil_append]
  obtain ⟨hok,-⟩ := hrepeats _ _ _ _ _ hevents candidate.findingId .approved rfl rfl rfl
  cases hok

end Gcad.CandidateEviction
