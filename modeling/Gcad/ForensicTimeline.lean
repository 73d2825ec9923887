import Gcad.BoundedLog
import Gcad.Observation
import Gcad.StepSystem
import Gcad.Threat

/-!
# The forensic timeline and its causal links

`ForensicTimelineEngine` of forensic_timeline_engine.cpp. Threat events and
observations become numbered timeline events; each is linked to an earlier
event of its process, appended to a bounded log and put into a causal chain.
`detect_multi_stage` walks the chains and reports those that cover three
stages of the kill chain. One call is one step. Its reply records the event
that was appended, or the alerts with the numbers of their chains.
-/

namespace Gcad.ForensicTimeline

open Common Threat Observation StepSystem BoundedLog

/-- `KillChainStage`. -/
inductive KillChainStage where
  | unknown
  | reconnaissance
  | weaponization
  | delivery
  | exploitation
  | installation
  | commandControl
  | actionsOnObj
  deriving DecidableEq, Repr

/-- The underlying value of a stage. -/
def KillChainStage.value : KillChainStage → ℕ
  | .unknown => 0
  | .reconnaissance => 1
  | .weaponization => 2
  | .delivery => 3
  | .exploitation => 4
  | .installation => 5
  | .commandControl => 6
  | .actionsOnObj => 7

/-- `TimelineEventType`. -/
inductive TimelineEventType where
  | process
  | network
  | fileAccess
  | registry
  | memory
  | dns
  | credential
  | evasion
  deriving DecidableEq, Repr

/-- `TimelineEvent`. -/
structure TimelineEvent where
  /-- Number of the event. -/
  id : UInt64
  /-- Time the caller gave it. -/
  timestamp : TimePoint
  /-- Sort of the event. -/
  type : TimelineEventType
  /-- Stage of the kill chain. -/
  stage : KillChainStage
  /-- Underlying value of the level. -/
  level : UInt8
  /-- Underlying value of the category. -/
  category : UInt16
  /-- Process, zero when unknown. -/
  processId : ℕ
  /-- Name of that process. -/
  processName : Str
  /-- File, empty when unknown. -/
  filePath : Str
  /-- Remote address. -/
  sourceIp : Str
  /-- What happened. -/
  description : Str
  /-- Source of an observation. -/
  evidence : Str
  /-- Number of the linked event, or zero. -/
  causalParent : UInt64
  /-- Confidence of the source. -/
  confidence : Double

/-- `CausalChain`. -/
structure CausalChain where
  /-- Number of the chain; nothing looks a chain up by it. -/
  chainId : ℕ
  /-- Numbers of its events. -/
  eventIds : List UInt64
  /-- Highest stage. -/
  maxStage : KillChainStage
  /-- Highest level. -/
  maxLevel : UInt8
  /-- Text for the user, with the mark of a reported chain. -/
  summary : Str

/-- The members of `ForensicTimelineEngine` the calls below use. -/
structure ForensicTimelineEngine where
  /-- The number of the next event, which wraps. -/
  nextId : UInt64
  /-- The number of the next chain; its wrap after `2^64` chains is left out. -/
  nextChainId : ℕ
  /-- The events kept, oldest first. -/
  events : List TimelineEvent
  /-- The chains kept, oldest first. -/
  chains : List CausalChain
  /-- Events taken in. -/
  eventsProcessed : UInt64
  /-- Threats taken in. -/
  threatsDetected : UInt64
  /-- A callback for threats is installed. -/
  callback : Bool

/-- `MAX_EVENTS`. -/
def MAX_EVENTS : ℕ := 5000

/-- `MAX_CHAINS`. -/
def MAX_CHAINS : ℕ := 200

/-- A new engine whose callback is installed or not. -/
def create (callback : Bool) : ForensicTimelineEngine := ⟨1,1,[],[],0,0,callback⟩

/-- `stage_name`. -/
def stageName : KillChainStage → Str
  | .reconnaissance => "Reconnaissance".toList
  | .weaponization => "Weaponization".toList
  | .delivery => "Delivery".toList
  | .exploitation => "Exploitation".toList
  | .installation => "Installation".toList
  | .commandControl => "Command & Control".toList
  | .actionsOnObj => "Actions on Objectives".toList
  | .unknown => "Unknown".toList

/-- `map_category_to_stage` on an enumerator. -/
def stageOfCategory : ThreatCategory → KillChainStage
  | .networkScan | .rawSocketProbe => .reconnaissance
  | .entropyAnomaly | .suspiciousBinary => .weaponization
  | .synFlood | .udpFlood | .arpPoison => .delivery
  | .memoryInjection | .processHollow | .dllInjection | .apcInjection | .shellcode
  | .reflectiveLoad | .directSyscall | .kerberosAttack | .ntlmCoerce | .credentialDump =>
    .exploitation
  | .backdoorAccount | .registryTamper | .filelessExec | .yaraRuleMatch => .installation
  | .dnsTunnel | .icmpCovert | .dgaDomain => .commandControl
  | .ransomware | .fileEncrypt | .antiForensic | .fileIntegrityViolation => .actionsOnObj
  | .evasionAmsi | .evasionEtw | .evasionUnhook | .ppidSpoof => .exploitation
  | _ => .unknown

/-- `map_category_to_stage`. -/
def mapCategoryToStage (category : UInt16) : KillChainStage :=
  (categoryOf category).elim .unknown stageOfCategory

/-- `map_observation_to_stage`. -/
def mapObservationToStage : ObservationKind → KillChainStage
  | .networkConnection | .dnsAnomaly => .commandControl
  | .processMemory | .processLineage => .exploitation
  | .registryPersistence => .installation
  | .fileIntegrity => .actionsOnObj
  | .artifactSignature | .artifactStructure | .artifactTrust | .invalidPe
  | .unsignedRiskyLocation | .invalidSignature => .weaponization
  | .highEntropy => .weaponization
  | .yaraMatch => .installation
  | _ => .unknown

/-- `map_category_to_type` on an enumerator. -/
def typeOfCategory : ThreatCategory → TimelineEventType
  | .memoryInjection | .processHollow | .dllInjection | .apcInjection | .reflectiveLoad
  | .shellcode => .memory
  | .networkScan | .synFlood | .udpFlood | .arpPoison | .icmpCovert | .rawSocketProbe => .network
  | .dnsTunnel | .dgaDomain => .dns
  | .registryTamper | .backdoorAccount => .registry
  | .ransomware | .fileEncrypt | .fileIntegrityViolation | .antiForensic => .fileAccess
  | .kerberosAttack | .ntlmCoerce | .credentialDump => .credential
  | .evasionAmsi | .evasionEtw | .evasionUnhook | .ppidSpoof | .directSyscall => .evasion
  | _ => .process

/-- `map_category_to_type`. -/
def mapCategoryToType (category : UInt16) : TimelineEventType :=
  (categoryOf category).elim .process typeOfCategory

/-- `map_observation_to_type`. -/
def mapObservationToType : ObservationKind → TimelineEventType
  | .networkConnection => .network
  | .dnsAnomaly => .dns
  | .processMemory => .memory
  | .processLineage => .process
  | .registryPersistence => .registry
  | .fileIntegrity => .fileAccess
  | _ => .process

/-- The fields that `ingest_threat` fills in before it links the event. -/
def threatEntry (id : UInt64) (ev : ThreatEvent) : TimelineEvent where
  id := id
  timestamp := ev.timestamp
  type := mapCategoryToType ev.category
  stage := mapCategoryToStage ev.category
  level := ev.level
  category := ev.category
  processId := ev.processId.toNat
  processName := ev.processName
  filePath := ev.filePath
  sourceIp := ev.sourceIp
  description := ev.description
  evidence := []
  causalParent := 0
  confidence := Double.one

/-- The fields that `ingest_observation` fills in before it links the event. -/
def observationEntry (id : UInt64) (obs : SecurityObservation) (timestamp : TimePoint) :
    TimelineEvent where
  id := id
  timestamp := timestamp
  type := mapObservationToType obs.kind
  stage := mapObservationToStage obs.kind
  level := levelValue obs.suggestedLevel
  category := ThreatCategory.none.value
  processId := obs.processId
  processName := obs.processName
  filePath := obs.filePath
  sourceIp := []
  description := obs.evidence
  evidence := obs.sourceId
  causalParent := 0
  confidence := obs.confidence

/-- The age of an event in whole seconds, as `duration_cast` truncates it. -/
def ageSeconds (ev it : TimelineEvent) : ℤ := (ev.timestamp-it.timestamp).tdiv (10^9)

/-- The loop of `link_causal` over the retained events, newest first. -/
def scanCausal (ev : TimelineEvent) : List TimelineEvent → Option TimelineEvent
  | [] => none
  | it::rest =>
    if it.processId=ev.processId ∧ it.id≠ev.id then some it
    else if 300 < ageSeconds ev it then none
    else scanCausal ev rest

/-- The event `link_causal` links to, if any. -/
def causalSource (events : List TimelineEvent) (ev : TimelineEvent) : Option TimelineEvent :=
  if ev.processId=0 then none else scanCausal ev events.reverse

/-- `link_causal`. -/
def linkCausal (events : List TimelineEvent) (ev : TimelineEvent) : TimelineEvent :=
  (causalSource events ev).elim ev fun it => { ev with causalParent := it.id }

/-- `std::max` on stages. -/
def maxStage (a b : KillChainStage) : KillChainStage := if a.value < b.value then b else a

/-- `std::max` on levels. -/
def maxLevel (a b : UInt8) : UInt8 := if a < b then b else a

/-- Append an event to a chain. -/
def extend (chain : CausalChain) (ev : TimelineEvent) : CausalChain :=
  { chain with
    eventIds := chain.eventIds++[ev.id]
    maxStage := maxStage chain.maxStage ev.stage
    maxLevel := maxLevel chain.maxLevel ev.level }

/-- The chains after the first that contains the parent was extended, if one
does. -/
def joinChain (ev : TimelineEvent) : List CausalChain → Option (List CausalChain)
  | [] => none
  | chain::rest =>
    if ev.causalParent ∈ chain.eventIds then some (extend chain ev::rest)
    else (joinChain ev rest).map (chain::·)

/-- The text of a new chain. -/
def openingSummary (ev : TimelineEvent) : Str := stageName ev.stage++": ".toList++ev.description

/-- A new chain. -/
def openChain (chainId : ℕ) (ev : TimelineEvent) : CausalChain :=
  ⟨chainId,[ev.id],ev.stage,ev.level,openingSummary ev⟩

/-- `update_chains`. -/
def updateChains (engine : ForensicTimelineEngine) (ev : TimelineEvent) :
    ForensicTimelineEngine :=
  match (if ev.causalParent≠0 then joinChain ev engine.chains else none) with
  | some chains => { engine with chains := chains }
  | none =>
    if levelValue .medium ≤ ev.level ∨ ev.stage≠.unknown then
      { engine with
        nextChainId := engine.nextChainId+1
        chains := push MAX_CHAINS engine.chains (openChain engine.nextChainId ev) }
    else engine

/-- Link an event, append it and put it into a chain. -/
def record (engine : ForensicTimelineEngine) (entry : TimelineEvent) :
    ForensicTimelineEngine×TimelineEvent :=
  let te := linkCausal engine.events entry
  let stored := { engine with
    nextId := engine.nextId+1
    events := push MAX_EVENTS engine.events te }
  let chained := updateChains stored te
  ({ chained with eventsProcessed := chained.eventsProcessed+1 },te)

/-- `ingest_threat`, with the event it appended. -/
def ingestThreat (engine : ForensicTimelineEngine) (ev : ThreatEvent) :
    ForensicTimelineEngine×TimelineEvent :=
  let recorded := record engine (threatEntry engine.nextId ev)
  if levelValue .high ≤ recorded.2.level then
    ({ recorded.1 with threatsDetected := recorded.1.threatsDetected+1 },recorded.2)
  else recorded

/-- `ingest_observation`, with the event it appended. -/
def ingestObservation (engine : ForensicTimelineEngine) (obs : SecurityObservation)
    (timestamp : TimePoint) : ForensicTimelineEngine×TimelineEvent :=
  record engine (observationEntry engine.nextId obs timestamp)

/-- One round of the loop over the events of a chain. -/
def markStage (events : List TimelineEvent) (stages : List Bool) (eid : UInt64) : List Bool :=
  match events.find? fun ev => ev.id=eid with
  | some ev => stages.set ev.stage.value true
  | none => stages

/-- The stages of the retained events of a chain. -/
def chainStages (events : List TimelineEvent) (chain : CausalChain) : List Bool :=
  chain.eventIds.foldl (markStage events) (List.replicate 8 false)

/-- The number of known stages of a chain. -/
def distinctStages (events : List TimelineEvent) (chain : CausalChain) : ℕ :=
  ((chainStages events chain).drop 1).countP id

/-- The mark of a reported chain. -/
def marker : Str := "[MULTI-STAGE]".toList

/-- The alert for a chain. -/
def multiStageAlert (distinct : ℕ) (chain : CausalChain) (now : TimePoint) : ThreatEvent :=
  { ThreatEvent.default with
    level := levelValue .critical
    category := ThreatCategory.antiForensic.value
    description := "Multi-stage attack detected: ".toList++toDecimal distinct++
      " kill chain stages observed across ".toList++toDecimal chain.eventIds.length++
      " events".toList
    timestamp := now }

/-- The body of the loop of `detect_multi_stage`; the clock shows the time at
which the chain of that number is examined. -/
def detectChain (events : List TimelineEvent) (clock : ℕ → TimePoint) (chain : CausalChain) :
    CausalChain×Option (ℕ×ThreatEvent) :=
  let distinct := distinctStages events chain
  if 3 ≤ distinct ∧ ¬marker.IsInfix chain.summary then
    ({ chain with summary := "[MULTI-STAGE] ".toList++chain.summary },
      some (chain.chainId,multiStageAlert distinct chain (clock chain.chainId)))
  else (chain,none)

/-- `detect_multi_stage`, with the alerts and the numbers of their chains. -/
def detectMultiStage (engine : ForensicTimelineEngine) (clock : ℕ → TimePoint) :
    ForensicTimelineEngine×List (ℕ×ThreatEvent) :=
  if engine.callback then
    ({ engine with
      chains := engine.chains.map fun chain => (detectChain engine.events clock chain).1 },
      engine.chains.filterMap fun chain => (detectChain engine.events clock chain).2)
  else (engine,[])

/-- The calls of the engine. -/
inductive Call where
  /-- A threat is taken in as an event. -/
  | ingestThreat (ev : ThreatEvent)
  /-- `ingest_observation` of an observation with its time. -/
  | ingestObservation (obs : SecurityObservation) (timestamp : TimePoint)
  /-- The chains are searched for attacks of several stages. -/
  | detectMultiStage (clock : ℕ → TimePoint)

/-- What a call leaves to be observed. -/
inductive Reply where
  | ingested (te : TimelineEvent)
  | detected (alerts : List (ℕ×ThreatEvent))

/-- One call. -/
def step (engine : ForensicTimelineEngine) : Call → ForensicTimelineEngine×Reply
  | .ingestThreat ev => ((ingestThreat engine ev).1,.ingested (ingestThreat engine ev).2)
  | .ingestObservation obs timestamp =>
    ((ingestObservation engine obs timestamp).1,
      .ingested (ingestObservation engine obs timestamp).2)
  | .detectMultiStage clock =>
    ((detectMultiStage engine clock).1,.detected (detectMultiStage engine clock).2)

/-- A recorded call. -/
abbrev CallEvent := Event ForensicTimelineEngine (Call×Reply)

/-- The event a call offers, before it is linked. -/
def offered (engine : ForensicTimelineEngine) : Call → Option TimelineEvent
  | .ingestThreat ev => some (threatEntry engine.nextId ev)
  | .ingestObservation obs timestamp => some (observationEntry engine.nextId obs timestamp)
  | .detectMultiStage _ => none

/-- The event a recorded call appended. -/
def ingested (e : CallEvent) : Option TimelineEvent :=
  match e.label.2 with
  | .ingested te => some te
  | .detected _ => none

/-- All events that were ever ingested, oldest first. -/
def history (events : List CallEvent) : List TimelineEvent := events.filterMap ingested

/-- What an ingesting call does. -/
structure Recorded (s t : ForensicTimelineEngine) (entry te : TimelineEvent) : Prop where
  /-- The entry carries the next number. -/
  number : entry.id=s.nextId
  /-- The entry is not linked yet. -/
  unlinked : entry.causalParent=0
  /-- The appended event is the linked entry. -/
  linked : te=linkCausal s.events entry
  /-- The next number. -/
  nextId : t.nextId=s.nextId+1
  /-- The bounded log. -/
  events : t.events=push MAX_EVENTS s.events te
  /-- The event is added to the chains. -/
  chains : t.chains=(updateChains s te).chains
  /-- The next number of a chain. -/
  nextChainId : t.nextChainId=(updateChains s te).nextChainId
  /-- The callback stays. -/
  callback : t.callback=s.callback

/-- The chains are updated independently of the other members. -/
theorem updateChains_congr {s t : ForensicTimelineEngine} (hchains : t.chains=s.chains)
    (hnext : t.nextChainId=s.nextChainId) (te : TimelineEvent) :
    (updateChains t te).chains=(updateChains s te).chains ∧
      (updateChains t te).nextChainId=(updateChains s te).nextChainId ∧
      (updateChains t te).nextId=t.nextId ∧ (updateChains t te).events=t.events ∧
      (updateChains t te).callback=t.callback := by
  unfold updateChains
  rw [hchains,hnext]
  split
  · exact ⟨rfl,rfl,rfl,rfl,rfl⟩
  · split_ifs
    · exact ⟨rfl,rfl,rfl,rfl,rfl⟩
    · exact ⟨hchains,hnext,rfl,rfl,rfl⟩

/-- `record` on an entry with the next number. -/
theorem record_recorded {s : ForensicTimelineEngine} {entry : TimelineEvent}
    (number : entry.id=s.nextId) (unlinked : entry.causalParent=0) :
    Recorded s (record s entry).1 entry (record s entry).2 := by
  obtain ⟨hchains,hnext,hid,hevents,hcallback⟩ := @updateChains_congr s
    { s with
      nextId := s.nextId+1
      events := push MAX_EVENTS s.events (linkCausal s.events entry) } rfl rfl
    (linkCausal s.events entry)
  have hlinked : (record s entry).2=linkCausal s.events entry := by rw [record]
  rw [hlinked]
  unfold record
  constructor
  · exact number
  · exact unlinked
  · rfl
  · rw [hid]
  · rw [hevents]
  · exact hchains
  · exact hnext
  · rw [hcallback]

/-- What one call does: it appends the event it offers, or it examines the
chains. -/
theorem step_cases {s t : ForensicTimelineEngine} {label : Call×Reply}
    (h : Deterministic step s label t) :
    (∃ entry te,offered s label.1=some entry ∧ label.2=.ingested te ∧ Recorded s t entry te) ∨
    ∃ clock,label=(.detectMultiStage clock,.detected (detectMultiStage s clock).2) ∧
      t=(detectMultiStage s clock).1 := by
  obtain ⟨call,reply⟩ := label
  have hafter : t=(step s call).1 := (congrArg Prod.fst h).symm
  have hreply : reply=(step s call).2 := (congrArg Prod.snd h).symm
  subst hafter hreply
  cases call with
  | ingestThreat ev =>
    have hrecord := @record_recorded s (threatEntry s.nextId ev) rfl rfl
    have hthreat : (ingestThreat s ev).2=(record s (threatEntry s.nextId ev)).2 ∧
        Recorded s (ingestThreat s ev).1 (threatEntry s.nextId ev)
          (record s (threatEntry s.nextId ev)).2 := by
      unfold ingestThreat
      dsimp only
      split_ifs
      · exact ⟨rfl,hrecord.number,hrecord.unlinked,hrecord.linked,hrecord.nextId,hrecord.events,
          hrecord.chains,hrecord.nextChainId,hrecord.callback⟩
      · exact ⟨rfl,hrecord⟩
    exact .inl ⟨_,_,rfl,congrArg Reply.ingested hthreat.1,hthreat.2⟩
  | ingestObservation obs timestamp => exact .inl ⟨_,_,rfl,rfl,record_recorded rfl rfl⟩
  | detectMultiStage clock => exact .inr ⟨clock,rfl,rfl⟩

/-- Examining the chains changes nothing but their summaries. -/
theorem detectMultiStage_same (s : ForensicTimelineEngine) (clock : ℕ → TimePoint) :
    (detectMultiStage s clock).1.nextId=s.nextId ∧
      (detectMultiStage s clock).1.nextChainId=s.nextChainId ∧
      (detectMultiStage s clock).1.events=s.events ∧
      (detectMultiStage s clock).1.callback=s.callback := by
  unfold detectMultiStage
  split_ifs
  · exact ⟨rfl,rfl,rfl,rfl⟩
  · exact ⟨rfl,rfl,rfl,rfl⟩

/-- Linking changes the parent only. -/
theorem linkCausal_eq (events : List TimelineEvent) (ev : TimelineEvent) :
    linkCausal events ev=
      { ev with causalParent := (causalSource events ev).elim ev.causalParent TimelineEvent.id } := by
  unfold linkCausal
  cases causalSource events ev with
  | none => rfl
  | some it => rfl

/-- One more call of the history. -/
theorem history_snoc (events : List CallEvent) (e : CallEvent) :
    history (events++[e])=history events++(ingested e).toList := by
  rw [history,List.filterMap_append]
  cases h : ingested e with
  | none =>
    rw [List.filterMap_cons_none h]
    rfl
  | some te =>
    rw [List.filterMap_cons_some h]
    rfl

/-- An engine that carries its history: the log is the end of it, and its
events are numbered one after the other. -/
structure Logged (events : List CallEvent) (engine : ForensicTimelineEngine) : Prop where
  /-- The retained events. -/
  retained : engine.events=retain MAX_EVENTS (history events)
  /-- The next number. -/
  next : engine.nextId=UInt64.ofNat ((history events).length+1)
  /-- Events are numbered from one in their order. -/
  numbers : ∀ i te,(history events)[i]?=some te → te.id=UInt64.ofNat (i+1)

/-- Every call keeps the log. -/
theorem step_logged {events : List CallEvent} {s t : ForensicTimelineEngine} {label : Call×Reply}
    (inv : Logged events s) (h : Deterministic step s label t) :
    Logged (events++[⟨s,label,t⟩]) t := by
  rcases step_cases h with ⟨entry,te,-,hreply,hrec⟩ | ⟨clock,hlabel,rfl⟩
  · have hingested : ingested ⟨s,label,t⟩=some te := by rw [ingested,hreply]
    have hid : te.id=s.nextId := by rw [hrec.linked,linkCausal_eq,hrec.number]
    have hhistory : history (events++[⟨s,label,t⟩])=history events++[te] := by
      rw [history_snoc,hingested,Option.toList_some]
    refine ⟨?_,?_,fun i other hother => ?_⟩
    · rw [hhistory,hrec.events,inv.retained,push_retain]
    · rw [hhistory,hrec.nextId,inv.next,List.length_append,List.length_singleton,UInt64.ofNat_add (_+1)]
      rfl
    · rw [hhistory] at hother
      rcases Nat.lt_trichotomy i (history events).length with hlt | heq | hgt
      · rw [List.getElem?_append_left hlt] at hother
        exact inv.numbers i other hother
      · rw [heq,List.getElem?_concat_length] at hother
        rw [←Option.some.inj hother,hid,inv.next,heq]
      · rw [List.getElem?_eq_none (by rw [List.length_append,List.length_singleton]; omega)]
          at hother
        exact absurd hother nofun
  · have hingested : ingested ⟨s,label,(detectMultiStage s clock).1⟩=none := by
      rw [ingested,hlabel]
    obtain ⟨hid,-,hevents,-⟩ := detectMultiStage_same s clock
    have hhistory : history (events++[⟨s,label,(detectMultiStage s clock).1⟩])=history events := by
      rw [history_snoc,hingested,Option.toList_none,List.append_nil]
    refine ⟨?_,?_,?_⟩
    · rw [hhistory,hevents,inv.retained]
    · rw [hhistory,hid,inv.next]
    · rw [hhistory]
      exact inv.numbers

/-- In every run the log is the end of the history. -/
theorem run_logged {events : List CallEvent} {engine : ForensicTimelineEngine} {callback : Bool}
    (run : Run (Deterministic step) (create callback) events engine) : Logged events engine :=
  run.invariant Logged ⟨rfl,rfl,fun _ _ h => absurd h nofun⟩
    fun _ _ _ _ inv h => step_logged inv h

end Gcad.ForensicTimeline
