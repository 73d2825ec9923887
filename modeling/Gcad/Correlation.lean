import Gcad.KeyedMap
import Gcad.StepSystem
import Gcad.Observation

/-!
# The correlation engine

`CorrelationEngine::ingest` and `expire` over an engine state. Both
unordered maps are tables with open iteration order; the order matters only
where `evict_oldest_locked` breaks ties, so every ingest carries the order
the container used. Finding numbers are a 64-bit counter in the source and
a natural number here. Scores are summed in `unsigned` arithmetic.
-/

namespace Gcad.Correlation

open Common Observation StepSystem KeyedMap

/-- Per-source record of one key. -/
structure SourceState where
  /-- Confidence of the source's last counted observation. -/
  confidence : Double
  /-- Level that observation suggested. -/
  suggestedLevel : ThreatLevel
  /-- Whether that observation was deterministic. -/
  deterministic : Bool
  /-- Time at which it was counted. -/
  lastSeen : TimePoint
  deriving DecidableEq

/-- Everything accumulated under one correlation key. -/
structure ActiveState where
  /-- Time of the last counted observation of any source. -/
  lastSeen : TimePoint
  /-- The unordered map from source identifiers to their records. -/
  sources : Table Str SourceState
  /-- First nonempty file path. -/
  filePath : Str
  /-- First nonempty hash. -/
  sha256 : Str
  /-- First evidence. -/
  rationale : Str
  /-- Score of the last finding. -/
  lastReportedScore : ℕ
  /-- Level of the last finding. -/
  lastReportedLevel : ThreatLevel
  deriving DecidableEq

/-- A default-initialised `ActiveState`. -/
def ActiveState.initial : ActiveState := ⟨0,∅,[],[],[],0,.safe⟩

/-- `MAX_ACTIVE_KEYS`. -/
def maxActiveKeys : ℕ := 4096

/-- `MAX_FINDINGS`. -/
def maxFindings : ℕ := 2000

/-- `DUPLICATE_WINDOW`. -/
def duplicateWindow : ℤ := seconds 30

/-- The state guarded by the engine mutex, with the engine's policy. -/
structure CorrelationEngine where
  /-- Policy given to the constructor. -/
  policy : LocalSecurityPolicy
  /-- The unordered map `active_`. -/
  active : Table Str ActiveState
  /-- The deque `findings_`, oldest first. -/
  findings : List SecurityFinding
  /-- Number of the next finding; its wrap after `2^64` findings is left out. -/
  nextFindingId : ℕ

/-- The constructor. -/
def create (policy : LocalSecurityPolicy) : CorrelationEngine := ⟨policy,∅,[],1⟩

/-- `CorrelationEngine::score_for`. -/
def scoreFor (state : ActiveState) : ℕ :=
  let sum := state.sources.entries.foldl (fun score e => (score+lround50 e.2.confidence)%2^32) 0
  let score := if 2 ≤ count state.sources then (sum+20)%2^32 else sum
  min score 100

/-- `CorrelationEngine::any_source_deterministic`. -/
def anySourceDeterministic (state : ActiveState) : Bool :=
  state.sources.entries.any fun e => e.2.deterministic

/-- `CorrelationEngine::level_for`. -/
def levelFor (score : ℕ) : ThreatLevel :=
  if 90 ≤ score then .critical
  else if 75 ≤ score then .high
  else if 50 ≤ score then .medium
  else if 25 ≤ score then .low
  else .safe

/-- The expiry test of one active state. -/
def expired (policy : LocalSecurityPolicy) (now : TimePoint) (state : ActiveState) : Bool :=
  decide (state.lastSeen ≤ now) && decide (minutes policy.findingWindow < now-state.lastSeen)

/-- `CorrelationEngine::expire`. -/
def expire (engine : CorrelationEngine) (now : TimePoint) : CorrelationEngine :=
  {engine with active := retain (fun state => !expired engine.policy now state) engine.active}

/-- `CorrelationEngine::evict_oldest_locked`. -/
def evictOldestLocked (order : IterationOrder Str ActiveState) (active : Table Str ActiveState) :
    Table Str ActiveState :=
  if count active < maxActiveKeys then active
  else match least ActiveState.lastSeen (order.order active.entries) with
    | none => active
    | some oldest => active.erase oldest.1

/-- Find the key's state, or evict and emplace a default one. -/
def findOrEmplace (order : IterationOrder Str ActiveState) (active : Table Str ActiveState)
    (key : Str) : Table Str ActiveState×ActiveState :=
  match active.lookup key with
  | some state => (active,state)
  | none => ((evictOldestLocked order active).insert key .initial,.initial)

/-- The same source was counted less than the duplicate window ago. -/
def isDuplicate (state : ActiveState) (sourceId : Str) (now : TimePoint) : Bool :=
  match state.sources.lookup sourceId with
  | none => false
  | some source => decide (source.lastSeen ≤ now) && decide (now-source.lastSeen < duplicateWindow)

/-- Record the observation in the key's state. -/
def record (state : ActiveState) (o : SecurityObservation) (now : TimePoint) : ActiveState :=
  { state with
    lastSeen := now
    sources := state.sources.insert o.sourceId
      ⟨o.confidence,o.suggestedLevel,o.deterministic,now⟩
    filePath := if state.filePath.isEmpty && !o.filePath.isEmpty then o.filePath else state.filePath
    sha256 := if state.sha256.isEmpty && !o.sha256.isEmpty then o.sha256 else state.sha256
    rationale := if state.rationale.isEmpty then o.evidence else state.rationale }

/-- `std::sort` of the source identifiers. -/
def sortedSources (state : ActiveState) : List Str :=
  state.sources.keys.mergeSort fun a b => decide (a ≤ b)

/-- The finding reported for a recorded state. -/
def findingOf (id : ℕ) (key : Str) (state : ActiveState) (now : TimePoint) : SecurityFinding where
  id := id
  timestamp := now
  level := levelFor (scoreFor state)
  riskScore := scoreFor state
  deterministicSignature := anySourceDeterministic state
  correlationKey := key
  filePath := state.filePath
  sha256 := state.sha256
  rationale := state.rationale
  contributingSources := sortedSources state

/-- Append to the bounded deque of findings. -/
def pushFinding (findings : List SecurityFinding) (finding : SecurityFinding) :
    List SecurityFinding :=
  let pushed := findings++[finding]
  if maxFindings < pushed.length then pushed.tail else pushed

/-- The report test: nothing to report unless the score or the level rose. -/
def suppressed (state : ActiveState) : Bool :=
  decide (scoreFor state ≤ state.lastReportedScore) &&
    decide ((levelFor (scoreFor state)).rank ≤ state.lastReportedLevel.rank)

/-- Remember the reported score and level. -/
def markReported (state : ActiveState) : ActiveState :=
  { state with
    lastReportedScore := scoreFor state
    lastReportedLevel := levelFor (scoreFor state) }

/-- `CorrelationEngine::ingest`. -/
def ingest (order : IterationOrder Str ActiveState) (engine : CorrelationEngine)
    (o : SecurityObservation) (now : TimePoint) : CorrelationEngine×Option SecurityFinding :=
  if !o.valid then (engine,none)
  else
    let key := o.correlationKey
    let swept := expire engine now
    let found := findOrEmplace order swept.active key
    if isDuplicate found.2 o.sourceId now then ({swept with active := found.1},none)
    else
      let state := record found.2 o now
      if suppressed state then ({swept with active := found.1.insert key state},none)
      else
        let finding := findingOf swept.nextFindingId key state now
        ({swept with
          active := found.1.insert key (markReported state)
          findings := pushFinding swept.findings finding
          nextFindingId := swept.nextFindingId+1},some finding)

/-- A call made on the engine. -/
inductive Call where
  /-- An ingest, with the iteration order its eviction scan used. -/
  | ingest (order : IterationOrder Str ActiveState) (o : SecurityObservation) (now : TimePoint)
  /-- An explicit expiry. -/
  | expire (now : TimePoint)

/-- One call: the state it leaves and the finding it returns. -/
def step (engine : CorrelationEngine) : Call → CorrelationEngine×Option SecurityFinding
  | .ingest order o now => ingest order engine o now
  | .expire now => (expire engine now,none)

/-- A recorded call. -/
abbrev EngineEvent := Event CorrelationEngine (Call×Option SecurityFinding)

/-- The findings a history returned, in order. -/
def findingsOf (events : List EngineEvent) : List SecurityFinding :=
  events.filterMap fun e => e.label.2

/-- A higher score never has a lower level. -/
theorem levelFor_mono {a b : ℕ} (h : a ≤ b) : (levelFor a).rank ≤ (levelFor b).rank := by
  unfold levelFor
  split_ifs <;> simp only [ThreatLevel.rank] <;> omega

/-- Expiry keeps exactly the states that pass its test. -/
theorem lookup_expire (engine : CorrelationEngine) (now : TimePoint) (key : Str) :
    (expire engine now).active.lookup key=
      (engine.active.lookup key).filter fun state => !expired engine.policy now state :=
  lookup_retain _ _ _

/-- A state found after an expiry was there before it. -/
theorem lookup_of_lookup_expire {engine : CorrelationEngine} {now : TimePoint} {key : Str}
    {state : ActiveState} (h : (expire engine now).active.lookup key=some state) :
    engine.active.lookup key=some state := by
  rw [lookup_expire] at h
  exact (Option.filter_eq_some_iff.mp h).1

/-- Eviction only forgets, and leaves room for one more key. -/
theorem evictOldestLocked_spec (order : IterationOrder Str ActiveState)
    {active : Table Str ActiveState} (h : count active ≤ maxActiveKeys) :
    count (evictOldestLocked order active) < maxActiveKeys ∧
      ∀ key state, (evictOldestLocked order active).lookup key=some state →
        active.lookup key=some state := by
  unfold evictOldestLocked
  split
  · next hlt => exact ⟨hlt,fun _ _ => id⟩
  · next hge =>
    have hne : order.order active.entries≠[] := by
      intro hnil
      have hlen := (order.perm active.entries).length_eq
      rw [hnil,List.length_nil] at hlen
      have hpos : 0 < maxActiveKeys := by decide
      unfold count at hge
      omega
    obtain ⟨oldest,hleast⟩ := least_isSome ActiveState.lastSeen hne
    rw [hleast]
    have hmem : oldest.1 ∈ active :=
      List.mem_map_of_mem ((order.perm active.entries).mem_iff.mp (least_mem hleast))
    refine ⟨?_,fun _ _ => lookup_of_lookup_erase⟩
    have hcount := count_erase_of_mem hmem
    dsimp only
    omega

/-- What looking a key up or emplacing it does to the table. -/
theorem findOrEmplace_spec (order : IterationOrder Str ActiveState)
    {active : Table Str ActiveState} (h : count active ≤ maxActiveKeys) (key : Str) :
    (findOrEmplace order active key).1.lookup key=some (findOrEmplace order active key).2 ∧
      count (findOrEmplace order active key).1 ≤ maxActiveKeys ∧
      ∀ k state, k≠key → (findOrEmplace order active key).1.lookup k=some state →
        active.lookup k=some state := by
  unfold findOrEmplace
  split
  · next state hs => exact ⟨hs,h,fun _ _ _ => id⟩
  · obtain ⟨hroom,hold⟩ := evictOldestLocked_spec order h
    refine ⟨AList.lookup_insert _,?_,?_⟩
    · have hcount := count_insert_le key ActiveState.initial (evictOldestLocked order active)
      dsimp only
      omega
    · intro k state hk hl
      rw [AList.lookup_insert_ne hk] at hl
      exact hold k state hl

/-- A key that is found is not touched. -/
theorem findOrEmplace_found {order : IterationOrder Str ActiveState}
    {active : Table Str ActiveState} {key : Str} {state : ActiveState}
    (h : active.lookup key=some state) : findOrEmplace order active key=(active,state) := by
  unfold findOrEmplace
  rw [h]

/-- A key that is not found starts from the default state. -/
theorem findOrEmplace_new {order : IterationOrder Str ActiveState}
    {active : Table Str ActiveState} {key : Str} (h : active.lookup key=none) :
    (findOrEmplace order active key).2=.initial := by
  unfold findOrEmplace
  rw [h]

/-- The state a valid observation is recorded into. -/
def target (order : IterationOrder Str ActiveState) (engine : CorrelationEngine)
    (o : SecurityObservation) (now : TimePoint) : Table Str ActiveState×ActiveState :=
  findOrEmplace order (expire engine now).active o.correlationKey

/-- Everything an ingest can do: ignore an invalid observation, ignore a
duplicate, record without reporting, or record and report. -/
theorem ingest_cases (order : IterationOrder Str ActiveState) (engine : CorrelationEngine)
    (o : SecurityObservation) (now : TimePoint) :
    (o.valid=false ∧ ingest order engine o now=(engine,none)) ∨
    (o.valid=true ∧ isDuplicate (target order engine o now).2 o.sourceId now=true ∧
      ingest order engine o now=
        ({expire engine now with active := (target order engine o now).1},none)) ∨
    (o.valid=true ∧ isDuplicate (target order engine o now).2 o.sourceId now=false ∧
      suppressed (record (target order engine o now).2 o now)=true ∧
      ingest order engine o now=({expire engine now with
        active := (target order engine o now).1.insert o.correlationKey
          (record (target order engine o now).2 o now)},none)) ∨
    (o.valid=true ∧ isDuplicate (target order engine o now).2 o.sourceId now=false ∧
      suppressed (record (target order engine o now).2 o now)=false ∧
      ingest order engine o now=({expire engine now with
        active := (target order engine o now).1.insert o.correlationKey
          (markReported (record (target order engine o now).2 o now))
        findings := pushFinding engine.findings
          (findingOf engine.nextFindingId o.correlationKey
            (record (target order engine o now).2 o now) now)
        nextFindingId := engine.nextFindingId+1},
        some (findingOf engine.nextFindingId o.correlationKey
          (record (target order engine o now).2 o now) now))) := by
  unfold ingest target
  cases hv : o.valid with
  | false => exact .inl ⟨rfl,by simp⟩
  | true =>
    refine .inr ?_
    cases hd : isDuplicate (findOrEmplace order (expire engine now).active o.correlationKey).2
        o.sourceId now with
    | true => exact .inl ⟨rfl,rfl,by simp [hd]⟩
    | false =>
      refine .inr ?_
      cases hs : suppressed (record
          (findOrEmplace order (expire engine now).active o.correlationKey).2 o now) with
      | true => exact .inl ⟨rfl,rfl,rfl,by simp [hd,hs]⟩
      | false =>
        refine .inr ⟨rfl,rfl,rfl,?_⟩
        simp only [hd,hs,Bool.not_true,Bool.false_eq_true,if_false]
        rfl

end Gcad.Correlation
