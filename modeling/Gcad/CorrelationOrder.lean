import Gcad.EdgeTrigger
import Gcad.CorrelationRun
import Gcad.CandidatePipeline

/-!
# Arrival orders of one correlation key

Observations of distinct sources that share a key and a file, processed one
after another on an empty pipeline within the finding window. The last
reported score is then a function of the set that has arrived, even where
the unsigned accumulator wraps: by that time the score has long been
saturated. A candidate arises at a report that has a deterministic source
behind it, so a deterministic source that arrives after saturation is
never reported.
-/

namespace Gcad.CorrelationOrder

open Common Observation KeyedMap Correlation CorrelationRun CandidatePipeline EdgeTrigger

/-- Points of one observation. -/
def contribution (o : SecurityObservation) : ℕ := lround50 o.confidence

/-- Sum of the points, with the bonus for a second source. -/
def rawScore (seen : List SecurityObservation) : ℕ :=
  (seen.map contribution).sum+if 2 ≤ seen.length then 20 else 0

/-- Score of a set of observations of distinct sources, in unbounded
arithmetic. -/
def idealScore (seen : List SecurityObservation) : ℕ := min (rawScore seen) 100

/-- The ideal score ignores the order and never falls. -/
theorem idealScore_accumulating : Accumulating idealScore where
  empty := rfl
  perm h := by
    unfold idealScore rawScore
    rw [(h.map contribution).sum_eq,h.length_eq]
  mono l l' := by
    unfold idealScore rawScore
    rw [List.map_append,List.sum_append,List.length_append]
    split_ifs <;> omega

/-- The unsigned accumulation is the sum modulo the word size. -/
theorem foldl_unsigned (weights : List ℕ) (start : ℕ) (h : start < 2^32) :
    weights.foldl (fun score w => (score+w)%2^32) start=(start+weights.sum)%2^32 := by
  induction weights generalizing start with
  | nil =>
    rw [List.foldl_nil,List.sum_nil,Nat.add_zero,Nat.mod_eq_of_lt h]
  | cons w weights ih =>
    rw [List.foldl_cons,ih _ (Nat.mod_lt _ (by decide)),List.sum_cons,Nat.mod_add_mod,
      Nat.add_assoc]

/-- An active state that has recorded exactly the given observations of one
file and has reported their ideal score. -/
structure Tracks (path : Str) (seen : List SecurityObservation) (state : ActiveState) : Prop where
  /-- One record per observation, newest first. -/
  entries : state.sources.entries.map (fun e => (e.1,e.2.confidence,e.2.deterministic))=
    seen.reverse.map fun o => (o.sourceId,o.confidence,o.deterministic)
  /-- The only path ever recorded. -/
  filePath : state.filePath=[] ∨ state.filePath=path
  /-- The reported score is the ideal one. -/
  score : state.lastReportedScore=idealScore seen
  /-- The reported level is the level of the reported score. -/
  level : state.lastReportedLevel=levelFor state.lastReportedScore

/-- A default state tracks nothing. -/
theorem tracks_initial (path : Str) : Tracks path [] ActiveState.initial :=
  ⟨rfl,.inl rfl,rfl,rfl⟩

section Record

variable {path : Str} {seen : List SecurityObservation} {state : ActiveState}

/-- A source that has not arrived has no record. -/
theorem Tracks.lookup_new (h : Tracks path seen state) {sourceId : Str}
    (hnew : sourceId ∉ seen.map SecurityObservation.sourceId) : sourceId ∉ state.sources := by
  have hkeys : state.sources.keys=(seen.map SecurityObservation.sourceId).reverse := by
    have hmap := congrArg (List.map Prod.fst) h.entries
    rw [List.map_map,List.map_map] at hmap
    rw [←List.map_reverse]
    exact hmap
  intro hmem
  rw [AList.mem_keys,hkeys,List.mem_reverse] at hmem
  exact hnew hmem

/-- The records after one more arrival. -/
theorem Tracks.record_entries (h : Tracks path seen state) {o : SecurityObservation}
    (hnew : o.sourceId ∉ seen.map SecurityObservation.sourceId) (now : TimePoint) :
    (record state o now).sources.entries.map (fun e => (e.1,e.2.confidence,e.2.deterministic))=
      (seen++[o]).reverse.map fun o => (o.sourceId,o.confidence,o.deterministic) := by
  have hentries := AList.entries_insert_of_notMem
    (b:=(⟨o.confidence,o.suggestedLevel,o.deterministic,now⟩ : SourceState)) (h.lookup_new hnew)
  unfold record
  dsimp only
  rw [hentries,List.map_cons,h.entries,List.reverse_append,List.reverse_singleton,
    List.singleton_append,List.map_cons]

/-- The path after one more arrival for the same file. -/
theorem Tracks.record_filePath (h : Tracks path seen state) {o : SecurityObservation}
    (hpath : o.filePath=path) (now : TimePoint) : (record state o now).filePath=path := by
  unfold record
  dsimp only
  rw [hpath]
  rcases h.filePath with he | he
  · rw [he]
    cases path with
    | nil => rfl
    | cons c rest => rfl
  · rw [he]
    cases path with
    | nil => rfl
    | cons c rest => rfl

/-- Some record is deterministic exactly when some observation is. -/
theorem anySourceDeterministic_of_entries {seen : List SecurityObservation}
    (h : state.sources.entries.map (fun e => (e.1,e.2.confidence,e.2.deterministic))=
      seen.reverse.map fun o => (o.sourceId,o.confidence,o.deterministic)) :
    anySourceDeterministic state=true ↔ ∃ o ∈ seen, o.deterministic=true := by
  have hmap := congrArg (List.map fun t => t.2.2) h
  rw [List.map_map,List.map_map] at hmap
  have hany : anySourceDeterministic state=
      (state.sources.entries.map fun e => e.2.deterministic).any id := by
    rw [List.any_map]
    rfl
  rw [hany]
  change (state.sources.entries.map fun e => e.2.deterministic)=
    seen.reverse.map fun o => o.deterministic at hmap
  rw [hmap,List.any_map,List.any_reverse,List.any_eq_true]
  rfl

/-- The computed score is the raw score modulo the word size, cut at one
hundred. -/
theorem scoreFor_of_entries {seen : List SecurityObservation}
    (h : state.sources.entries.map (fun e => (e.1,e.2.confidence,e.2.deterministic))=
      seen.reverse.map fun o => (o.sourceId,o.confidence,o.deterministic)) :
    scoreFor state=min (rawScore seen%2^32) 100 := by
  have hweights : state.sources.entries.map (fun e => lround50 e.2.confidence)=
      (seen.map contribution).reverse := by
    have hmap := congrArg (List.map fun t => lround50 t.2.1) h
    rw [List.map_map,List.map_map] at hmap
    rw [←List.map_reverse]
    exact hmap
  have hcount : count state.sources=seen.length := by
    have hlen := congrArg List.length hweights
    rw [List.length_map,List.length_reverse,List.length_map] at hlen
    exact hlen
  have hfold : state.sources.entries.foldl
      (fun score e => (score+lround50 e.2.confidence)%2^32) 0=(seen.map contribution).sum%2^32 := by
    have hmap : state.sources.entries.foldl
        (fun score e => (score+lround50 e.2.confidence)%2^32) 0=
        (state.sources.entries.map fun e => lround50 e.2.confidence).foldl
          (fun score w => (score+w)%2^32) 0 := by rw [List.foldl_map]
    rw [hmap,hweights,foldl_unsigned _ 0 (by decide),Nat.zero_add,List.sum_reverse]
  unfold scoreFor rawScore
  rw [hfold,hcount]
  split <;> simp only [Nat.mod_add_mod,Nat.add_zero]

/-- One more valid observation adds at most fifty points and the bonus. -/
theorem rawScore_append_le (seen : List SecurityObservation) {o : SecurityObservation}
    (hvalid : o.valid=true) :
    rawScore (seen++[o]) ≤ rawScore seen+70 := by
  have hle : contribution o ≤ 50 := SecurityObservation.contribution_le hvalid
  unfold rawScore
  rw [List.map_append,List.sum_append,List.length_append,List.map_singleton,List.sum_singleton,
    List.length_singleton]
  split_ifs <;> omega

/-- The computed score after an arrival exceeds the reported one exactly
when the ideal score rises, and then it is the ideal score. -/
theorem Tracks.score_rises (h : Tracks path seen state) {o : SecurityObservation}
    (hvalid : o.valid=true) (hnew : o.sourceId ∉ seen.map SecurityObservation.sourceId)
    (now : TimePoint) :
    (state.lastReportedScore < scoreFor (record state o now) ↔
      idealScore seen < idealScore (seen++[o])) ∧
    (idealScore seen < idealScore (seen++[o]) →
      scoreFor (record state o now)=idealScore (seen++[o])) := by
  have hscore := scoreFor_of_entries (h.record_entries hnew now)
  have hraw := rawScore_append_le seen hvalid
  rw [h.score,hscore]
  unfold idealScore
  constructor
  · constructor <;> intro hlt <;> omega
  · intro hlt
    omega

/-- A report is made exactly when the score rises above the reported one. -/
theorem suppressed_eq_false_iff (state : ActiveState)
    (hlevel : state.lastReportedLevel=levelFor state.lastReportedScore) :
    suppressed state=false ↔ state.lastReportedScore < scoreFor state := by
  constructor
  · exact score_lt_of_not_suppressed state hlevel
  · intro hlt
    unfold suppressed
    rw [decide_eq_false (Nat.not_le.mpr hlt),Bool.false_and]

/-- Recording without a report keeps tracking. -/
theorem Tracks.record_silent (h : Tracks path seen state) {o : SecurityObservation}
    (hpath : o.filePath=path) (hnew : o.sourceId ∉ seen.map SecurityObservation.sourceId)
    (hlow : ¬idealScore seen < idealScore (seen++[o])) (now : TimePoint) :
    Tracks path (seen++[o]) (record state o now) := by
  refine ⟨h.record_entries hnew now,.inr (h.record_filePath hpath now),?_,h.level⟩
  have hmono := idealScore_accumulating.mono seen [o]
  have hkept : (record state o now).lastReportedScore=state.lastReportedScore := rfl
  rw [hkept,h.score]
  omega

/-- Recording with a report keeps tracking. -/
theorem Tracks.record_reported (h : Tracks path seen state) {o : SecurityObservation}
    (hvalid : o.valid=true) (hpath : o.filePath=path)
    (hnew : o.sourceId ∉ seen.map SecurityObservation.sourceId)
    (hrise : idealScore seen < idealScore (seen++[o])) (now : TimePoint) :
    Tracks path (seen++[o]) (markReported (record state o now)) :=
  ⟨h.record_entries hnew now,.inr (h.record_filePath hpath now),
    (h.score_rises hvalid hnew now).2 hrise,rfl⟩

end Record

/-- An engine whose state for the key tracks the arrivals so far. -/
structure Following (policy : LocalSecurityPolicy) (key path : Str)
    (seen : List SecurityObservation) (times : List TimePoint)
    (engine : CorrelationEngine) : Prop where
  /-- The engine was built with the policy. -/
  policy : engine.policy=policy
  /-- Either nothing has arrived, or the key's state tracks the arrivals. -/
  tracked : (seen=[] ∧ engine.active.lookup key=none) ∨
    ∃ state, engine.active.lookup key=some state ∧ Tracks path seen state ∧ state.lastSeen ∈ times

section Ingest

variable {policy : LocalSecurityPolicy} {key path : Str} {seen : List SecurityObservation}
  {times : List TimePoint} {engine : CorrelationEngine}

/-- Within the finding window the state found or emplaced for the key
tracks the arrivals so far. -/
theorem Following.target_tracks (h : Following policy key path seen times engine)
    {o : SecurityObservation} (hkey : o.correlationKey=key) {now : TimePoint}
    (hwindow : ∀ t ∈ times, now-t ≤ minutes policy.findingWindow)
    (order : IterationOrder Str ActiveState) :
    Tracks path seen (target order engine o now).2 := by
  unfold target
  rw [hkey]
  rcases h.tracked with ⟨rfl,hnone⟩ | ⟨state,hstate,htracks,htime⟩
  · have hswept : (expire engine now).active.lookup key=none := by
      rw [lookup_expire,hnone]
      rfl
    rw [findOrEmplace_new hswept]
    exact tracks_initial path
  · have hkeep : expired engine.policy now state=false := by
      have hle := hwindow _ htime
      unfold expired
      rw [h.policy,decide_eq_false (Int.not_lt.mpr hle),Bool.and_false]
    have hswept : (expire engine now).active.lookup key=some state := by
      rw [lookup_expire,hstate,Option.filter_some,hkeep]
      rfl
    rw [findOrEmplace_found hswept]
    exact htracks

/-- The source of a new arrival is not a duplicate. -/
theorem Tracks.not_duplicate {state : ActiveState} (h : Tracks path seen state) {sourceId : Str}
    (hnew : sourceId ∉ seen.map SecurityObservation.sourceId) (now : TimePoint) :
    isDuplicate state sourceId now=false := by
  unfold isDuplicate
  rw [AList.lookup_eq_none.mpr (h.lookup_new hnew)]

/-- A critical level is a score of at least ninety. -/
theorem levelFor_eq_critical_iff (score : ℕ) : levelFor score=.critical ↔ 90 ≤ score := by
  unfold levelFor
  split_ifs with h1 <;> simp only [h1]

/-- When the finding of a state that tracks the arrivals is remediable. -/
theorem Tracks.finding_remediable_iff {state : ActiveState} (h : Tracks path seen state)
    {o : SecurityObservation} (hpath : o.filePath=path) (hopen : isProtectedPath path policy=false)
    (hnew : o.sourceId ∉ seen.map SecurityObservation.sourceId) {now : TimePoint}
    (hscore : scoreFor (record state o now)=idealScore (seen++[o])) {id : ℕ} {findingKey : Str} :
    Remediable policy (findingOf id findingKey (record state o now) now) ↔ path≠[] ∧
      max 90 policy.criticalThreshold ≤ idealScore (seen++[o]) ∧
      ∃ y ∈ seen++[o], y.deterministic=true := by
  have hfile := h.record_filePath hpath now
  have hdet := anySourceDeterministic_of_entries (h.record_entries hnew now)
  constructor
  · intro hr
    have hcrit := (levelFor_eq_critical_iff _).mp hr.critical
    have hthreshold := hr.threshold
    simp only [findingOf,hscore] at hcrit hthreshold
    refine ⟨?_,max_le hcrit hthreshold,hdet.mp hr.deterministic⟩
    rw [←hfile]
    exact hr.path
  · rintro ⟨hne,hmax,hsome⟩
    refine ⟨hdet.mpr hsome,?_,?_,?_,?_⟩
    · simp only [findingOf,hscore,levelFor_eq_critical_iff]
      omega
    · simp only [findingOf,hscore]
      omega
    · simp only [findingOf,hfile]
      exact hne
    · simp only [findingOf,hfile]
      exact hopen

/-- One arrival: the engine keeps following, and a candidate is made
exactly when the ideal score rises to the threshold with a deterministic
source among those that have arrived. -/
theorem Following.ingest_step (h : Following policy key path seen times engine)
    {o : SecurityObservation} (hvalid : o.valid=true) (hkey : o.correlationKey=key)
    (hpath : o.filePath=path) (hopen : isProtectedPath path policy=false)
    (hnew : o.sourceId ∉ seen.map SecurityObservation.sourceId) {now : TimePoint}
    (hwindow : ∀ t ∈ times, now-t ≤ minutes policy.findingWindow)
    (order : IterationOrder Str ActiveState) :
    Following policy key path (seen++[o]) (times++[now]) (ingest order engine o now).1 ∧
    ((candidateOf policy (ingest order engine o now).2).isSome=true ↔ path≠[] ∧
      idealScore seen < idealScore (seen++[o]) ∧
      max 90 policy.criticalThreshold ≤ idealScore (seen++[o]) ∧
      ∃ y ∈ seen++[o], y.deterministic=true) := by
  have htracks := h.target_tracks hkey hwindow order
  have hdup := htracks.not_duplicate hnew now
  have hrise := htracks.score_rises hvalid hnew now
  have htime : now ∈ times++[now] := List.mem_append_right _ (List.mem_singleton_self _)
  rcases ingest_cases order engine o now with ⟨hv,-⟩ | ⟨-,hd,-⟩ | ⟨-,-,hs,he⟩ | ⟨-,-,hs,he⟩
  · rw [hvalid] at hv
    cases hv
  · rw [hdup] at hd
    cases hd
  · have hlow : ¬idealScore seen < idealScore (seen++[o]) := by
      rw [←hrise.1]
      intro hlt
      have hfalse := (suppressed_eq_false_iff (record (target order engine o now).2 o now)
        htracks.level).mpr hlt
      rw [hs] at hfalse
      cases hfalse
    rw [he]
    refine ⟨⟨h.policy,.inr ⟨_,?_,htracks.record_silent hpath hnew hlow now,htime⟩⟩,?_⟩
    · rw [hkey]
      exact AList.lookup_insert _
    · simp only [candidateOf,Option.bind_none,Option.isSome_none,Bool.false_eq_true,false_iff]
      exact fun hall => hlow hall.2.1
  · have hlt := score_lt_of_not_suppressed
      (record (target order engine o now).2 o now) htracks.level hs
    have hup := hrise.1.mp hlt
    have hscore := hrise.2 hup
    rw [he]
    refine ⟨⟨h.policy,.inr ⟨_,?_,htracks.record_reported hvalid hpath hnew hup now,htime⟩⟩,?_⟩
    · rw [hkey]
      exact AList.lookup_insert _
    · rw [candidateOf,Option.bind_some,candidateFor_isSome_iff,
        htracks.finding_remediable_iff hpath hopen hnew hscore]
      exact and_congr_right fun _ => (and_iff_right hup).symm

end Ingest

/-- One observation on its way into the pipeline. -/
structure Arrival where
  /-- What was reported. -/
  observation : SecurityObservation
  /-- Time at which it is ingested. -/
  now : TimePoint
  /-- Iteration order of an eviction scan, should one happen. -/
  order : IterationOrder Str ActiveState

/-- An initially empty pipeline after all arrivals have been processed. -/
def processAll (policy : LocalSecurityPolicy) (arrivals : List Arrival) : SecurityPipeline :=
  arrivals.foldl (fun pipeline a => process a.order pipeline a.observation a.now) (create policy)

/-- All arrivals lie within one finding window of each other. -/
def WithinWindow (policy : LocalSecurityPolicy) (arrivals : List Arrival) : Prop :=
  ∀ a ∈ arrivals, ∀ b ∈ arrivals, a.now-b.now ≤ minutes policy.findingWindow

/-- A finite set of valid observations of distinct sources that share one
correlation key and one file that is not protected. -/
structure OneSubject (policy : LocalSecurityPolicy) (key path : Str)
    (observations : List SecurityObservation) : Prop where
  /-- Every observation is valid. -/
  valid : ∀ o ∈ observations, o.valid=true
  /-- They share the correlation key. -/
  key : ∀ o ∈ observations, o.correlationKey=key
  /-- They share the file. -/
  file : ∀ o ∈ observations, o.filePath=path
  /-- Their sources are pairwise distinct. -/
  sources : (observations.map SecurityObservation.sourceId).Nodup
  /-- The file is not protected. -/
  unprotected : isProtectedPath path policy=false

/-- A span of minutes is nonnegative when its number is. -/
theorem minutes_nonneg {n : ℤ} : 0 ≤ minutes n ↔ 0 ≤ n := by
  unfold minutes seconds
  omega

/-- The order of the observations does not matter for sharing a subject. -/
theorem OneSubject.perm {policy : LocalSecurityPolicy} {key path : Str}
    {observations order : List SecurityObservation} (h : OneSubject policy key path observations)
    (hperm : order.Perm observations) : OneSubject policy key path order where
  valid o ho := h.valid o (hperm.mem_iff.mp ho)
  key o ho := h.key o (hperm.mem_iff.mp ho)
  file o ho := h.file o (hperm.mem_iff.mp ho)
  sources := (hperm.map _).nodup_iff.mpr h.sources
  unprotected := h.unprotected

/-- Without its last observation a list still shares the subject, and the last
source is not among the others. -/
theorem OneSubject.front {policy : LocalSecurityPolicy} {key path : Str}
    {observations : List SecurityObservation} {o : SecurityObservation}
    (h : OneSubject policy key path (observations++[o])) :
    OneSubject policy key path observations ∧
      o.sourceId ∉ observations.map SecurityObservation.sourceId := by
  have hsources := h.sources
  rw [List.map_append,List.map_singleton,List.nodup_append] at hsources
  have hmem : ∀ x ∈ observations,x ∈ observations++[o] :=
    fun x hx => List.mem_append_left _ hx
  refine ⟨⟨fun x hx => h.valid x (hmem x hx),fun x hx => h.key x (hmem x hx),
    fun x hx => h.file x (hmem x hx),hsources.1,h.unprotected⟩,fun hin => ?_⟩
  exact hsources.2.2 _ hin _ (List.mem_singleton_self _) rfl

/-- A whole sequence of arrivals: the engine follows it, and candidates are
present exactly when some arrival raised the ideal score to the threshold
with a deterministic source among those before it. -/
theorem processAll_following {policy : LocalSecurityPolicy} {key path : Str}
    {arrivals : List Arrival} (h : OneSubject policy key path (arrivals.map Arrival.observation))
    (hwindow : WithinWindow policy arrivals) :
    (processAll policy arrivals).policy=policy ∧
    Following policy key path (arrivals.map Arrival.observation) (arrivals.map Arrival.now)
      (processAll policy arrivals).correlation ∧
    ((processAll policy arrivals).candidates≠[] ↔ path≠[] ∧
      Raises idealScore SecurityObservation.deterministic (max 90 policy.criticalThreshold)
        (arrivals.map Arrival.observation)) := by
  induction arrivals using List.reverseRecOn with
  | nil =>
    refine ⟨rfl,⟨rfl,.inl ⟨rfl,rfl⟩⟩,?_⟩
    constructor
    · intro hne
      exact absurd rfl hne
    · rintro ⟨-,hr⟩
      exact absurd hr (not_raises_nil _ _ _)
  | append_singleton arrivals a ih =>
    have hlast : a ∈ arrivals++[a] := List.mem_append_right _ (List.mem_singleton_self a)
    have hobs : a.observation ∈ (arrivals++[a]).map Arrival.observation :=
      List.mem_map_of_mem hlast
    have hvalid := h.valid _ hobs
    have hkey := h.key _ hobs
    have hpath := h.file _ hobs
    rw [List.map_append,List.map_singleton] at h
    obtain ⟨hfirst,hnew⟩ := h.front
    have hwithin : WithinWindow policy arrivals := fun x hx y hy =>
      hwindow x (List.mem_append_left _ hx) y (List.mem_append_left _ hy)
    obtain ⟨hpolicy,hfollow,hcandidates⟩ := ih hfirst hwithin
    have htimes : ∀ t ∈ arrivals.map Arrival.now, a.now-t ≤ minutes policy.findingWindow := by
      intro t ht
      obtain ⟨b,hb,rfl⟩ := List.mem_map.mp ht
      exact hwindow a hlast b (List.mem_append_left _ hb)
    have hstep := hfollow.ingest_step hvalid hkey hpath h.unprotected hnew htimes a.order
    have hrun : processAll policy (arrivals++[a])=
        process a.order (processAll policy arrivals) a.observation a.now := by
      unfold processAll
      rw [List.foldl_append,List.foldl_cons,List.foldl_nil]
    obtain ⟨hcorrelation,hkept⟩ :=
      process_correlation a.order (processAll policy arrivals) a.observation a.now
    rw [hrun,hcorrelation,hkept,process_candidates_ne_nil_iff,List.map_append,List.map_append,
      List.map_singleton,List.map_singleton]
    refine ⟨hpolicy,hstep.1,?_⟩
    rw [hpolicy,hstep.2,hcandidates,raises_append_singleton]
    exact and_or_left.symm

section Windows

variable {policy : LocalSecurityPolicy}

/-- Arrivals at one time bring their observations. -/
theorem observations_atOnce (order : List SecurityObservation) :
    (order.map fun o => (⟨o,0,.storage _ _⟩ : Arrival)).map Arrival.observation=order := by
  rw [List.map_map]
  exact List.map_id _

/-- A window that is not negative holds arrivals at one time. -/
theorem withinWindow_atOnce (hopen : 0 ≤ policy.findingWindow)
    (order : List SecurityObservation) :
    WithinWindow policy (order.map fun o => (⟨o,0,.storage _ _⟩ : Arrival)) := by
  intro a ha b hb
  obtain ⟨x,-,rfl⟩ := List.mem_map.mp ha
  obtain ⟨y,-,rfl⟩ := List.mem_map.mp hb
  rw [sub_self]
  exact minutes_nonneg.mpr hopen

/-- A negative window holds no arrival. -/
theorem nil_of_withinWindow (hnegative : ¬0 ≤ policy.findingWindow) {arrivals : List Arrival}
    (h : WithinWindow policy arrivals) : arrivals=[] := by
  cases arrivals with
  | nil => rfl
  | cons a rest =>
    have hself := h a List.mem_cons_self a List.mem_cons_self
    rw [sub_self,minutes_nonneg] at hself
    exact absurd hself hnegative

end Windows

/-- Whether a candidate exists after all observations of one subject have
been processed is the same for every arrival order exactly when it is not
the case that the window admits arrivals, the file is named, a source is
deterministic, the whole set reaches the critical score and the policy's
threshold, and the sources that are not deterministic already reach the
whole set's score. -/
theorem candidate_order_independent_iff {policy : LocalSecurityPolicy} {key path : Str}
    {observations : List SecurityObservation} (h : OneSubject policy key path observations) :
    (∀ first second : List Arrival,
      (first.map Arrival.observation).Perm observations → WithinWindow policy first →
      (second.map Arrival.observation).Perm observations → WithinWindow policy second →
      ((processAll policy first).candidates≠[] ↔ (processAll policy second).candidates≠[])) ↔
    ¬(0 ≤ policy.findingWindow ∧ path≠[] ∧ (∃ o ∈ observations, o.deterministic=true) ∧
      max 90 policy.criticalThreshold ≤ idealScore observations ∧
      idealScore (observations.filter fun o => !o.deterministic)=idealScore observations) := by
  have hpos : 0 < max 90 policy.criticalThreshold := by omega
  have hiff := order_independent_iff SecurityObservation.deterministic
    idealScore_accumulating hpos observations
  have hcandidates : ∀ arrivals : List Arrival,
      (arrivals.map Arrival.observation).Perm observations → WithinWindow policy arrivals →
      ((processAll policy arrivals).candidates≠[] ↔ path≠[] ∧
        Raises idealScore SecurityObservation.deterministic (max 90 policy.criticalThreshold)
          (arrivals.map Arrival.observation)) :=
    fun arrivals hperm hwindow => (processAll_following (h.perm hperm) hwindow).2.2
  constructor
  · rintro hall ⟨hopen,hpath,hdefect⟩
    refine hiff.mp ?_ hdefect
    intro first second hf hs
    have hwindow := @withinWindow_atOnce policy hopen
    have hsame := hall _ _ (by rwa [observations_atOnce]) (hwindow first)
      (by rwa [observations_atOnce]) (hwindow second)
    rw [hcandidates _ (by rwa [observations_atOnce]) (hwindow first),
      hcandidates _ (by rwa [observations_atOnce]) (hwindow second),observations_atOnce,
        observations_atOnce] at hsame
    simpa only [hpath,ne_eq,not_false_eq_true,true_and] using hsame
  · intro hnot first second hf hwf hs hws
    rw [hcandidates first hf hwf,hcandidates second hs hws]
    refine and_congr_right ?_
    intro hpath
    by_cases hopen : 0 ≤ policy.findingWindow
    · exact hiff.mpr (fun hdefect => hnot ⟨hopen,hpath,hdefect⟩) _ _ hf hs
    · rw [nil_of_withinWindow hopen hwf,nil_of_withinWindow hopen hws]

/-- The key of the fixture observations. -/
def fixtureKey : Str := "0:c:/temp/sample.exe".toList

/-- A heuristic source and a deterministic one share the fixture subject. -/
theorem oneSubject_fixture : OneSubject .default fixtureKey "C:/Temp/sample.exe".toList
    [fixtureObservation "a".toList false,fixtureObservation "b".toList true] :=
  ⟨by decide +kernel,by decide +kernel,by decide +kernel,by decide +kernel,by decide +kernel⟩

/-- One heuristic source does not saturate the score, so the two sources
make a candidate in either order. -/
theorem candidate_order_independent_fixture :
    OneSubject .default fixtureKey "C:/Temp/sample.exe".toList
      [fixtureObservation "a".toList false,fixtureObservation "b".toList true] ∧
    ∀ first second : List Arrival,
      (first.map Arrival.observation).Perm
        [fixtureObservation "a".toList false,fixtureObservation "b".toList true] →
      WithinWindow .default first →
      (second.map Arrival.observation).Perm
        [fixtureObservation "a".toList false,fixtureObservation "b".toList true] →
      WithinWindow .default second →
      ((processAll .default first).candidates≠[] ↔
        (processAll .default second).candidates≠[]) := by
  refine ⟨oneSubject_fixture,?_⟩
  apply (candidate_order_independent_iff oneSubject_fixture).mpr
  rintro ⟨-,-,-,-,hsame⟩
  revert hsame
  decide +kernel

/-- Two full-confidence heuristic sources saturate the score at one
hundred. A deterministic source that arrives third is recorded and never
reported; when it arrives first, a candidate is made. -/
theorem candidate_depends_on_order :
    ¬∀ (policy : LocalSecurityPolicy) (key path : Str) (observations : List SecurityObservation),
      OneSubject policy key path observations → ∀ first second : List Arrival,
      (first.map Arrival.observation).Perm observations → WithinWindow policy first →
      (second.map Arrival.observation).Perm observations → WithinWindow policy second →
      ((processAll policy first).candidates≠[] ↔ (processAll policy second).candidates≠[]) := by
  intro h
  have hsubject : OneSubject .default fixtureKey "C:/Temp/sample.exe".toList
      [fixtureObservation "a".toList false,fixtureObservation "b".toList false,
        fixtureObservation "c".toList true] :=
    ⟨by decide +kernel,by decide +kernel,by decide +kernel,by decide +kernel,by decide +kernel⟩
  have hsame := h _ _ _ _ hsubject
    [⟨fixtureObservation "a".toList false,0,.storage _ _⟩,
      ⟨fixtureObservation "b".toList false,seconds 1,.storage _ _⟩,
      ⟨fixtureObservation "c".toList true,seconds 2,.storage _ _⟩]
    [⟨fixtureObservation "c".toList true,0,.storage _ _⟩,
      ⟨fixtureObservation "a".toList false,seconds 1,.storage _ _⟩,
      ⟨fixtureObservation "b".toList false,seconds 2,.storage _ _⟩]
    (by decide +kernel) (by unfold WithinWindow; decide +kernel)
    (by decide +kernel) (by unfold WithinWindow; decide +kernel)
  revert hsame
  decide +kernel

end Gcad.CorrelationOrder
