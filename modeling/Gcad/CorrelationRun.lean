import Gcad.Correlation
import Gcad.StableSort

/-!
# Whole runs of the correlation engine

Every sequence of ingest and expire calls, at arbitrary times and with
arbitrary container iteration orders, from a fresh engine. The bounds,
finding numbers and last reported levels are invariants of the state; the
strict increase of the scores reported for one key relates a state to its
history since the key was last created.
-/

namespace Gcad.CorrelationRun

open Common Observation StepSystem KeyedMap Correlation

/-- The labelled steps of the engine. -/
abbrev EngineStep := Deterministic Correlation.step

/-- An event creates the active state of a key: a valid observation for it
arrives when the sweep has left no state for it. -/
def Creates (key : Str) (e : EngineEvent) : Prop :=
  ∃ order o now, e.label.1=.ingest order o now ∧ o.valid=true ∧ o.correlationKey=key ∧
    (expire e.before now).active.lookup key=none

/-- Recording changes neither reported field. -/
theorem record_reported (state : ActiveState) (o : SecurityObservation) (now : TimePoint) :
    (record state o now).lastReportedScore=state.lastReportedScore ∧
      (record state o now).lastReportedLevel=state.lastReportedLevel := ⟨rfl,rfl⟩

/-- With the reported level kept equal to the level of the reported score,
a report that is not suppressed carries a strictly higher score. -/
theorem score_lt_of_not_suppressed (state : ActiveState)
    (hlevel : state.lastReportedLevel=levelFor state.lastReportedScore)
    (h : suppressed state=false) : state.lastReportedScore < scoreFor state := by
  by_contra hle
  have hscore : scoreFor state ≤ state.lastReportedScore := by omega
  have hrank := levelFor_mono hscore
  rw [←hlevel] at hrank
  simp only [suppressed,decide_eq_true hscore,decide_eq_true hrank,Bool.and_self,
    Bool.true_eq_false] at h

/-- Facts about the current state that do not mention the history. -/
structure StateInv (engine : CorrelationEngine) : Prop where
  /-- At most `MAX_ACTIVE_KEYS` keys. -/
  active : count engine.active ≤ maxActiveKeys
  /-- At most `MAX_FINDINGS` stored findings. -/
  findings : engine.findings.length ≤ maxFindings
  /-- The reported level is the level of the reported score. -/
  levels : ∀ key state, engine.active.lookup key=some state →
    state.lastReportedLevel=levelFor state.lastReportedScore

/-- The bounded deque never exceeds its bound. -/
theorem pushFinding_length {findings : List SecurityFinding} (h : findings.length ≤ maxFindings)
    (finding : SecurityFinding) : (pushFinding findings finding).length ≤ maxFindings := by
  unfold pushFinding
  dsimp only
  split
  · rw [List.length_tail,List.length_append,List.length_singleton]
    omega
  · omega

/-- A sweep keeps the state invariant. -/
theorem expire_stateInv {engine : CorrelationEngine} (inv : StateInv engine) (now : TimePoint) :
    StateInv (expire engine now) :=
  ⟨(count_retain_le _ _).trans inv.active,inv.findings,
    fun key state h => inv.levels key state (lookup_of_lookup_expire h)⟩

/-- The found or emplaced state has its reported level in order. -/
theorem target_level {order : IterationOrder Str ActiveState} {engine : CorrelationEngine}
    (inv : StateInv engine) (o : SecurityObservation) (now : TimePoint) :
    (target order engine o now).2.lastReportedLevel=
      levelFor (target order engine o now).2.lastReportedScore := by
  unfold target
  cases hl : (expire engine now).active.lookup o.correlationKey with
  | none =>
    rw [findOrEmplace_new hl]
    rfl
  | some state =>
    rw [findOrEmplace_found hl]
    exact (expire_stateInv inv now).levels _ _ hl

/-- Writing one key of the found table keeps the state invariant. -/
theorem insert_stateInv {order : IterationOrder Str ActiveState} {engine : CorrelationEngine}
    (inv : StateInv engine) (o : SecurityObservation) (now : TimePoint) (state : ActiveState)
    (hstate : state.lastReportedLevel=levelFor state.lastReportedScore)
    {findings : List SecurityFinding} (hf : findings.length ≤ maxFindings) (next : ℕ) :
    StateInv ⟨engine.policy,(target order engine o now).1.insert o.correlationKey state,
      findings,next⟩ := by
  have hswept := expire_stateInv inv now
  obtain ⟨hfound,hcount,hother⟩ := findOrEmplace_spec order hswept.active o.correlationKey
  have hmem : o.correlationKey ∈ (target order engine o now).1 := by
    rw [←AList.lookup_isSome]
    exact Option.isSome_of_eq_some hfound
  refine ⟨?_,hf,?_⟩
  · change count (AList.insert o.correlationKey state (target order engine o now).1) ≤ _
    rw [count_insert_of_mem hmem]
    exact hcount
  · intro key s hl
    rcases eq_or_ne key o.correlationKey with rfl | hne
    · change AList.lookup _ (AList.insert _ _ _)=_ at hl
      rw [AList.lookup_insert] at hl
      obtain rfl := Option.some.inj hl
      exact hstate
    · change AList.lookup _ (AList.insert _ _ _)=_ at hl
      rw [AList.lookup_insert_ne hne] at hl
      exact hswept.levels _ _ (hother key s hne hl)

/-- A table holding the found state unchanged keeps the state invariant. -/
theorem target_stateInv {order : IterationOrder Str ActiveState} {engine : CorrelationEngine}
    (inv : StateInv engine) (o : SecurityObservation) (now : TimePoint) :
    StateInv {expire engine now with active := (target order engine o now).1} := by
  have hswept := expire_stateInv inv now
  obtain ⟨hfound,hcount,hother⟩ := findOrEmplace_spec order hswept.active o.correlationKey
  refine ⟨hcount,inv.findings,?_⟩
  intro key s hl
  rcases eq_or_ne key o.correlationKey with rfl | hne
  · have heq := Option.some.inj (hfound.symm.trans hl)
    rw [←heq]
    exact target_level inv o now
  · exact hswept.levels _ _ (hother key s hne hl)

/-- Every call keeps the state invariant. -/
theorem step_stateInv {engine : CorrelationEngine} (inv : StateInv engine) (call : Call) :
    StateInv (Correlation.step engine call).1 := by
  cases call with
  | expire now => exact expire_stateInv inv now
  | ingest order o now =>
    change StateInv (ingest order engine o now).1
    rcases ingest_cases order engine o now with ⟨-,h⟩ | ⟨-,-,h⟩ | ⟨-,-,-,h⟩ | ⟨-,-,-,h⟩ <;> rw [h]
    · exact inv
    · exact target_stateInv inv o now
    · exact insert_stateInv inv o now (record (target order engine o now).2 o now)
        (target_level inv o now) inv.findings _
    · exact insert_stateInv inv o now
        (markReported (record (target order engine o now).2 o now)) rfl
        (pushFinding_length inv.findings _) _

/-- The state an observation is recorded into is new, or it was there
before the call. -/
theorem target_found (order : IterationOrder Str ActiveState) (engine : CorrelationEngine)
    (o : SecurityObservation) (now : TimePoint) :
    (expire engine now).active.lookup o.correlationKey=none ∨
      engine.active.lookup o.correlationKey=some (target order engine o now).2 := by
  cases hl : (expire engine now).active.lookup o.correlationKey with
  | none => exact .inl rfl
  | some state =>
    refine .inr ?_
    rw [target,findOrEmplace_found hl]
    exact lookup_of_lookup_expire hl

/-- Keys other than the observation's are at most forgotten. -/
theorem target_other {order : IterationOrder Str ActiveState} {engine : CorrelationEngine}
    (inv : StateInv engine) {o : SecurityObservation} {now : TimePoint} {key : Str}
    {state : ActiveState} (hne : key≠o.correlationKey)
    (h : (target order engine o now).1.lookup key=some state) :
    engine.active.lookup key=some state := by
  obtain ⟨-,-,hother⟩ :=
    findOrEmplace_spec order (expire_stateInv inv now).active o.correlationKey
  exact lookup_of_lookup_expire (hother key state hne h)

/-- Writing the observation's key with a reported score that is not lower
makes every surviving state new or not lower than it was. -/
theorem insert_lookup {order : IterationOrder Str ActiveState} {engine : CorrelationEngine}
    (inv : StateInv engine) {o : SecurityObservation} {now : TimePoint} (written : ActiveState)
    (hw : (target order engine o now).2.lastReportedScore ≤ written.lastReportedScore)
    {key : Str} {state : ActiveState}
    (h : ((target order engine o now).1.insert o.correlationKey written).lookup key=some state) :
    (o.correlationKey=key ∧ (expire engine now).active.lookup key=none) ∨
      ∃ earlier, engine.active.lookup key=some earlier ∧
        earlier.lastReportedScore ≤ state.lastReportedScore := by
  rcases eq_or_ne key o.correlationKey with rfl | hne
  · rw [AList.lookup_insert] at h
    obtain rfl := Option.some.inj h
    rcases target_found order engine o now with hnone | hsome
    · exact .inl ⟨rfl,hnone⟩
    · exact .inr ⟨_,hsome,hw⟩
  · rw [AList.lookup_insert_ne hne] at h
    exact .inr ⟨state,target_other inv hne h,le_rfl⟩

/-- How the active state of a key can come about: it is new, or it was
there and its reported score has not decreased. -/
theorem step_lookup {engine : CorrelationEngine} (inv : StateInv engine) {call : Call}
    {key : Str} {state : ActiveState}
    (h : (Correlation.step engine call).1.active.lookup key=some state) :
    (∃ order o now, call=.ingest order o now ∧ o.valid=true ∧ o.correlationKey=key ∧
      (expire engine now).active.lookup key=none) ∨
    ∃ earlier, engine.active.lookup key=some earlier ∧
      earlier.lastReportedScore ≤ state.lastReportedScore := by
  cases call with
  | expire now => exact .inr ⟨state,lookup_of_lookup_expire h,le_rfl⟩
  | ingest order o now =>
    change (ingest order engine o now).1.active.lookup key=some state at h
    rcases ingest_cases order engine o now with ⟨-,hc⟩ | ⟨hv,-,hc⟩ | ⟨hv,-,-,hc⟩ | ⟨hv,-,hs,hc⟩ <;>
      rw [hc] at h
    · exact .inr ⟨state,h,le_rfl⟩
    · obtain ⟨hfound,-,-⟩ :=
        findOrEmplace_spec order (expire_stateInv inv now).active o.correlationKey
      rcases eq_or_ne key o.correlationKey with rfl | hne
      · have heq := Option.some.inj (hfound.symm.trans h)
        rcases target_found order engine o now with hnone | hsome
        · exact .inl ⟨order,o,now,rfl,hv,rfl,hnone⟩
        · exact .inr ⟨_,hsome,by rw [←heq]; exact le_rfl⟩
      · exact .inr ⟨state,target_other inv hne h,le_rfl⟩
    · rcases insert_lookup inv (record (target order engine o now).2 o now) le_rfl h with
        ⟨hk,hnone⟩ | hsome
      · exact .inl ⟨order,o,now,rfl,hv,hk,hnone⟩
      · exact .inr hsome
    · have hlt := score_lt_of_not_suppressed (record (target order engine o now).2 o now)
        (target_level inv o now) hs
      rcases insert_lookup inv
        (markReported (record (target order engine o now).2 o now)) hlt.le h with
        ⟨hk,hnone⟩ | hsome
      · exact .inl ⟨order,o,now,rfl,hv,hk,hnone⟩
      · exact .inr hsome

/-- What a call that returns a finding does: the finding takes the next
number, its score is now the key's reported score and above the earlier
one, and its sources are those recorded for the key. -/
theorem step_finding {engine : CorrelationEngine} (inv : StateInv engine) {call : Call}
    {finding : SecurityFinding} (h : (Correlation.step engine call).2=some finding) :
    finding.id=engine.nextFindingId ∧
      (Correlation.step engine call).1.nextFindingId=engine.nextFindingId+1 ∧
      finding.level=levelFor finding.riskScore ∧
      (∃ state, (Correlation.step engine call).1.active.lookup finding.correlationKey=some state ∧
        state.lastReportedScore=finding.riskScore ∧
        finding.contributingSources=sortedSources state) ∧
      ∃ order o now, call=.ingest order o now ∧ o.valid=true ∧
        o.correlationKey=finding.correlationKey ∧
        ((expire engine now).active.lookup finding.correlationKey=none ∨
          ∃ earlier, engine.active.lookup finding.correlationKey=some earlier ∧
            earlier.lastReportedScore < finding.riskScore) := by
  cases call with
  | expire now => cases h
  | ingest order o now =>
    change (ingest order engine o now).2=some finding at h
    change finding.id=_ ∧ (ingest order engine o now).1.nextFindingId=_ ∧ _ ∧
      (∃ state, (ingest order engine o now).1.active.lookup _=_ ∧ _) ∧ _
    rcases ingest_cases order engine o now with ⟨-,hc⟩ | ⟨-,-,hc⟩ | ⟨-,-,-,hc⟩ | ⟨hv,-,hs,hc⟩ <;>
      rw [hc] at h ⊢
    · cases h
    · cases h
    · cases h
    · obtain rfl := Option.some.inj h
      have hlt := score_lt_of_not_suppressed (record (target order engine o now).2 o now)
        (target_level inv o now) hs
      refine ⟨rfl,rfl,rfl,⟨_,AList.lookup_insert _,rfl,rfl⟩,order,o,now,rfl,hv,rfl,?_⟩
      rcases target_found order engine o now with hnone | hsome
      · exact .inl hnone
      · exact .inr ⟨_,hsome,hlt⟩

/-- A call without a finding leaves the number of the next one alone. -/
theorem step_no_finding {engine : CorrelationEngine} {call : Call}
    (h : (Correlation.step engine call).2=none) :
    (Correlation.step engine call).1.nextFindingId=engine.nextFindingId := by
  cases call with
  | expire now => rfl
  | ingest order o now =>
    change (ingest order engine o now).2=none at h
    change (ingest order engine o now).1.nextFindingId=engine.nextFindingId
    rcases ingest_cases order engine o now with ⟨-,hc⟩ | ⟨-,-,hc⟩ | ⟨-,-,-,hc⟩ | ⟨-,-,-,hc⟩ <;>
      rw [hc] at h ⊢
    · rfl
    · rfl
    · cases h

/-- Facts that relate the current state to its history. -/
structure HistoryInv (events : List EngineEvent) (engine : CorrelationEngine) : Prop where
  /-- The state invariant. -/
  state : StateInv engine
  /-- Issued numbers are below the next one. -/
  below : ∀ f ∈ findingsOf events, f.id < engine.nextFindingId
  /-- Issued numbers increase. -/
  increasing : (findingsOf events).Pairwise fun f g => f.id < g.id
  /-- No score reported since the key's last creation exceeds the key's
  current reported score. -/
  reported : ∀ first e rest f state, events=first++e::rest → e.label.2=some f →
    (∀ x ∈ rest, ¬Creates f.correlationKey x) →
    engine.active.lookup f.correlationKey=some state → f.riskScore ≤ state.lastReportedScore

/-- The findings of one more call. -/
theorem findingsOf_snoc (events : List EngineEvent) (e : EngineEvent) :
    findingsOf (events++[e])=findingsOf events++e.label.2.toList := by
  rw [findingsOf,List.filterMap_append]
  cases h : e.label.2 <;> simp [findingsOf,h]

/-- Every call keeps the history invariant. -/
theorem step_historyInv {events : List EngineEvent} {engine after : CorrelationEngine}
    {label : Call×Option SecurityFinding} (inv : HistoryInv events engine)
    (step : EngineStep engine label after) :
    HistoryInv (events++[⟨engine,label,after⟩]) after := by
  obtain ⟨call,reply⟩ := label
  have hafter : (Correlation.step engine call).1=after := congrArg Prod.fst step
  have hreply : (Correlation.step engine call).2=reply := congrArg Prod.snd step
  refine ⟨?_,?_,?_,?_⟩
  · rw [←hafter]
    exact step_stateInv inv.state call
  · intro f hf
    rw [findingsOf_snoc] at hf
    cases hr : reply with
    | none =>
      simp only [hr,Option.toList_none,List.append_nil] at hf
      rw [←hafter,step_no_finding (hreply.trans hr)]
      exact inv.below f hf
    | some g =>
      obtain ⟨hid,hnext,-⟩ := step_finding inv.state (hreply.trans hr)
      rw [←hafter,hnext]
      simp only [hr,Option.toList_some,List.mem_append,List.mem_singleton] at hf
      rcases hf with hf | rfl
      · have hb := inv.below f hf
        omega
      · omega
  · rw [findingsOf_snoc]
    cases hr : reply with
    | none => simpa only [Option.toList_none,List.append_nil] using inv.increasing
    | some g =>
      obtain ⟨hid,-⟩ := step_finding inv.state (hreply.trans hr)
      refine List.pairwise_append.mpr ⟨inv.increasing,List.pairwise_singleton _ _,?_⟩
      intro f hf g' hg'
      obtain rfl := List.mem_singleton.mp hg'
      rw [hid]
      exact inv.below f hf
  · intro first e rest f state he hf hrest hl
    rcases List.eq_nil_or_concat rest with rfl | ⟨init,last,rfl⟩
    · obtain ⟨-,hlast⟩ := List.append_inj' he rfl
      obtain rfl := List.singleton_inj.mp hlast
      obtain ⟨-,-,-,⟨now,hnow,hscore,-⟩,-⟩ := step_finding inv.state (hreply.trans hf)
      rw [hafter,hl] at hnow
      obtain rfl := Option.some.inj hnow
      exact hscore.ge
    · rw [List.concat_eq_append] at he hrest
      rw [←List.cons_append,←List.append_assoc] at he
      obtain ⟨hinit,hlast⟩ := List.append_inj' he rfl
      obtain rfl := List.singleton_inj.mp hlast
      rw [←hafter] at hl
      rcases step_lookup inv.state hl with ⟨order,o,now,hcall,hv,hk,hnone⟩ | ⟨earlier,hold,hle⟩
      · exact absurd ⟨order,o,now,hcall,hv,hk,hnone⟩
          (hrest _ (List.mem_append_right _ (List.mem_singleton_self _)))
      · exact (inv.reported first e init f earlier hinit hf
          (fun x hx => hrest x (List.mem_append_left _ hx)) hold).trans hle

/-- The history invariant holds along every run. -/
theorem run_historyInv {policy : LocalSecurityPolicy} {events : List EngineEvent}
    {engine : CorrelationEngine} (run : Run EngineStep (create policy) events engine) :
    HistoryInv events engine := by
  refine run.invariant HistoryInv ?_ (fun _ _ _ _ => step_historyInv)
  refine ⟨⟨Nat.zero_le _,Nat.zero_le _,?_⟩,List.forall_mem_nil _,List.Pairwise.nil,?_⟩
  · intro key state h
    cases h
  · intro first e rest f state he
    exact absurd he.symm (List.append_ne_nil_of_right_ne_nil _ (List.cons_ne_nil _ _))

/-- Sorting distinct identifiers gives a strictly increasing list with the
same members. -/
theorem sortedSources_spec (state : ActiveState) :
    (sortedSources state).Pairwise (· < ·) ∧
      ∀ source, source ∈ sortedSources state ↔ source ∈ state.sources := by
  have hperm := List.mergeSort_perm state.sources.keys fun a b => decide (a ≤ b)
  have hsorted : (sortedSources state).Pairwise fun a b => a ≤ b :=
    StableSort.pairwise_mergeSort_rel (fun _ _ _ hab hbc => hab.trans hbc)
      (fun _ _ => le_total _ _) state.sources.keys
  have hnodup : (sortedSources state).Nodup := hperm.nodup_iff.mpr state.sources.keys_nodup
  refine ⟨?_,fun source => hperm.mem_iff⟩
  refine (hsorted.and hnodup).imp ?_
  intro a b hab
  exact lt_of_le_of_ne hab.1 hab.2

/-- A source seen less than the duplicate window ago, under a key that the
sweep of this very call keeps, makes the call a sweep and nothing else. -/
theorem ingest_duplicate {order : IterationOrder Str ActiveState} {engine : CorrelationEngine}
    {o : SecurityObservation} {now : TimePoint} {state : ActiveState} {source : SourceState}
    (hstate : engine.active.lookup o.correlationKey=some state)
    (hkept : expired engine.policy now state=false)
    (hsource : state.sources.lookup o.sourceId=some source)
    (hfrom : source.lastSeen ≤ now) (hto : now < source.lastSeen+duplicateWindow) :
    ingest order engine o now=(if o.valid then expire engine now else engine,none) := by
  have hl : (expire engine now).active.lookup o.correlationKey=some state := by
    rw [lookup_expire,hstate]
    simp only [Option.filter_some,hkept,Bool.not_false,if_true]
  have htarget : target order engine o now=((expire engine now).active,state) :=
    findOrEmplace_found hl
  have hdup : isDuplicate (target order engine o now).2 o.sourceId now=true := by
    rw [htarget]
    simp only [isDuplicate,hsource,Bool.and_eq_true,decide_eq_true_eq]
    exact ⟨hfrom,sub_lt_iff_lt_add'.mpr hto⟩
  rcases ingest_cases order engine o now with ⟨hv,h⟩ | ⟨hv,-,h⟩ | ⟨-,hd,-⟩ | ⟨-,hd,-⟩
  · rw [h,hv]
    rfl
  · rw [h,hv,htarget]
    rfl
  · rw [hd] at hdup
    cases hdup
  · rw [hd] at hdup
    cases hdup

/-- What holds of every run of the engine. -/
structure EngineRunSpec (events : List EngineEvent) (engine : CorrelationEngine) : Prop where
  /-- The number of active keys stays within its bound. -/
  activeBound : count engine.active ≤ maxActiveKeys
  /-- The stored findings stay within their bound. -/
  findingsBound : engine.findings.length ≤ maxFindings
  /-- Finding numbers increase strictly in emission order. -/
  idsIncreasing : (findingsOf events).Pairwise fun f g => f.id < g.id
  /-- A finding's sources are sorted, free of duplicates, and exactly the
  sources recorded for its key when it was returned. -/
  sourcesExact : ∀ e ∈ events, ∀ f, e.label.2=some f →
    ∃ state, e.after.active.lookup f.correlationKey=some state ∧
      f.contributingSources.Pairwise (· < ·) ∧
      ∀ source, source ∈ f.contributingSources ↔ source ∈ state.sources
  /-- A finding's level is the level of its score. -/
  levelExact : ∀ e ∈ events, ∀ f, e.label.2=some f → f.level=levelFor f.riskScore
  /-- Scores reported for one key without a creation of its state in
  between increase strictly. -/
  scoresIncreasing : ∀ first e middle e' rest f f', events=first++e::(middle++e'::rest) →
    e.label.2=some f → e'.label.2=some f' → f'.correlationKey=f.correlationKey →
    (∀ x ∈ middle++[e'], ¬Creates f.correlationKey x) → f.riskScore < f'.riskScore
  /-- An ingest for a recorded source less than the duplicate window after
  it was last counted, under a key that its own sweep does not expire,
  returns nothing and only sweeps. -/
  duplicatesIgnored : ∀ e ∈ events, ∀ order o now state source,
    e.label.1=.ingest order o now → e.before.active.lookup o.correlationKey=some state →
    expired e.before.policy now state=false → state.sources.lookup o.sourceId=some source →
    source.lastSeen ≤ now → now < source.lastSeen+duplicateWindow →
    e.label.2=none ∧ e.after=if o.valid then expire e.before now else e.before

/-- The run invariant of the correlation engine, for every policy, every
sequence of calls and arbitrary times. -/
theorem correlation_run_invariant (policy : LocalSecurityPolicy) (events : List EngineEvent)
    (engine : CorrelationEngine) (run : Run EngineStep (create policy) events engine) :
    EngineRunSpec events engine := by
  have inv := run_historyInv run
  have hevent : ∀ e ∈ events, StateInv e.before ∧ EngineStep e.before e.label e.after := by
    intro e he
    obtain ⟨first,rest,rfl⟩ := List.append_of_mem he
    obtain ⟨hrun,hstep,-⟩ := run.event_step
    exact ⟨(run_historyInv hrun).state,hstep⟩
  refine ⟨inv.state.active,inv.state.findings,inv.increasing,?_,?_,?_,?_⟩
  · intro e he f hf
    obtain ⟨hstate,hstep⟩ := hevent e he
    have hreply := (congrArg Prod.snd hstep).trans hf
    obtain ⟨-,-,-,⟨state,hl,-,hsources⟩,-⟩ := step_finding hstate hreply
    have hafter : (Correlation.step e.before e.label.1).1=e.after := congrArg Prod.fst hstep
    rw [hafter] at hl
    obtain ⟨hsorted,hmem⟩ := sortedSources_spec state
    rw [hsources]
    exact ⟨state,hl,hsorted,hmem⟩
  · intro e he f hf
    obtain ⟨hstate,hstep⟩ := hevent e he
    obtain ⟨-,-,hlevel,-⟩ := step_finding hstate ((congrArg Prod.snd hstep).trans hf)
    exact hlevel
  · intro first e middle e' rest f f' he hf hf' hkey hno
    have hsplit : events=(first++e::middle)++e'::rest := by
      rw [he,List.append_assoc,List.cons_append]
    rw [hsplit] at run
    obtain ⟨hrun,hstep,-⟩ := run.event_step
    have hinv := run_historyInv hrun
    obtain ⟨-,-,-,-,order,o,now,hcall,hv,hk,hnew⟩ :=
      step_finding hinv.state ((congrArg Prod.snd hstep).trans hf')
    rw [hkey] at hk hnew
    rcases hnew with hnone | ⟨earlier,hold,hlt⟩
    · exact absurd ⟨order,o,now,hcall,hv,hk,hnone⟩
        (hno e' (List.mem_append_right _ (List.mem_singleton_self _)))
    · have hle := hinv.reported first e middle f earlier rfl hf
        (fun x hx => hno x (List.mem_append_left _ hx)) hold
      omega
  · intro e he order o now state source hcall hl hkept hs hfrom hto
    obtain ⟨-,hstep⟩ := hevent e he
    have hcalled : ingest order e.before o now=(e.after,e.label.2) := by
      have h := hstep
      rw [EngineStep,Deterministic,hcall] at h
      exact h
    rw [ingest_duplicate hl hkept hs hfrom hto] at hcalled
    exact ⟨(congrArg Prod.snd hcalled).symm,(congrArg Prod.fst hcalled).symm⟩

/-- Two sources for one file, one second apart. -/
theorem correlation_run_invariant_fixture :
    (findingsOf (execute Correlation.step (create .default)
        [.ingest (.storage _ _) (fixtureObservation "a".toList false) 0,
          .ingest (.storage _ _) (fixtureObservation "b".toList true) (seconds 1)]).1).map
      (fun f => (f.id,f.riskScore))=[(1,50),(2,100)] ∧
    EngineRunSpec (execute Correlation.step (create .default)
        [.ingest (.storage _ _) (fixtureObservation "a".toList false) 0,
          .ingest (.storage _ _) (fixtureObservation "b".toList true) (seconds 1)]).1
      (execute Correlation.step (create .default)
        [.ingest (.storage _ _) (fixtureObservation "a".toList false) 0,
          .ingest (.storage _ _) (fixtureObservation "b".toList true) (seconds 1)]).2 :=
  ⟨by decide +kernel,correlation_run_invariant .default _ _ (execute_run _ _ _)⟩

/-- The sweep comes first: an observation counted at an earlier time lowers
the key's `last_seen`, so a repetition ten seconds after the source was
counted can find its key expired, start it anew and report. -/
theorem duplicate_reported_after_own_sweep :
    ¬∀ (policy : LocalSecurityPolicy) (events : List EngineEvent) (engine : CorrelationEngine),
      Run EngineStep (create policy) events engine →
      ∀ e ∈ events, ∀ order o now state source,
        e.label.1=.ingest order o now → e.before.active.lookup o.correlationKey=some state →
        state.sources.lookup o.sourceId=some source →
        source.lastSeen ≤ now → now < source.lastSeen+duplicateWindow → e.label.2=none := by
  intro h
  have hrun := execute_run Correlation.step (create .default)
    [.ingest (.storage _ _) (fixtureObservation "a".toList false) (minutes 100),
      .ingest (.storage _ _) (fixtureObservation "b".toList true) 0,
      .ingest (.storage _ _) (fixtureObservation "a".toList false) (minutes 100+seconds 10)]
  have hnone := h _ _ _ hrun _ (List.mem_cons_of_mem _ (List.mem_cons_of_mem _ List.mem_cons_self))
    (.storage _ _) (fixtureObservation "a".toList false) (minutes 100+seconds 10) _ _
    rfl rfl rfl (by decide) (by decide)
  have hsome : (ingest (.storage _ _) (ingest (.storage _ _)
      (ingest (.storage _ _) (create .default) (fixtureObservation "a".toList false)
        (minutes 100)).1 (fixtureObservation "b".toList true) 0).1
      (fixtureObservation "a".toList false) (minutes 100+seconds 10)).2.isSome=true := by
    decide +kernel
  exact absurd hnone (Option.ne_none_iff_isSome.mpr hsome)

end Gcad.CorrelationRun
