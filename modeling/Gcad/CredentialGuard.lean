import Gcad.BurstPatterns
import Gcad.StepSystem

/-!
# The credential guard

`ingest` and `decay_indicators` of credential_guard_engine.cpp. The stem of a
path, a call of the standard library, is a parameter. An indicator takes the
name of the tool from the event that opened it; later events of the same
process identifier, also of another process, add to its counts. The score adds
doubles as the code does, each sum rounded.
-/

namespace Gcad.CredentialGuard

open Common Threat Observation BoundedLog StepSystem
open KeyedMap (Table)
open PeStaticAnalysis (ge zero)
open DnsMonitor (gt)
open NetworkDpi (dash)

/-- `CredentialAttackType`. -/
inductive CredentialAttackType where
  | lsassAccess
  | tokenImpersonate
  | tokenDuplicate
  | passTheHash
  | passTheTicket
  | samDump
  | dcsync
  | kerberoasting
  | goldenTicket
  | silverTicket
  deriving DecidableEq

/-- `CredentialAccessEvent`. -/
structure CredentialAccessEvent where
  /-- The number the guard gives it on arrival. -/
  id : UInt64
  /-- When the access happened. -/
  timestamp : TimePoint
  /-- The kind of access. -/
  type : CredentialAttackType
  /-- The process that made it. -/
  sourcePid : UInt32
  /-- Its name. -/
  sourceProcess : Str
  /-- The process it was made to. -/
  targetPid : UInt32
  /-- The name of that process. -/
  targetProcess : Str
  /-- The rights asked for. -/
  accessMask : UInt32
  /-- Free text that ends the description. -/
  detail : Str

/-- `CredentialThreatIndicator`. -/
structure CredentialThreatIndicator where
  /-- Its number, zero before the first use. -/
  id : UInt64
  /-- The process it counts for. -/
  pid : UInt32
  /-- The name of the process that opened it. -/
  processName : Str
  /-- Accesses to LSASS. -/
  lsassAccessCount : ℕ
  /-- Impersonated and duplicated tokens. -/
  tokenManipulationCount : ℕ
  /-- Stolen hashes and tickets, and forged ones. -/
  lateralMovementCount : ℕ
  /-- Dumps of the SAM. -/
  samAccessCount : ℕ
  /-- The score after the last event. -/
  riskScore : Double
  /-- The process that opened it is a known dump tool. -/
  knownTool : Bool
  /-- The time of the event that opened it. -/
  firstSeen : TimePoint
  /-- The time of the last event. -/
  lastSeen : TimePoint

/-- The members of `CredentialGuardEngine` that these functions use. -/
structure CredentialGuardEngine where
  /-- The events kept, oldest first. -/
  events : List CredentialAccessEvent
  /-- What each process did so far. -/
  indicators : Table UInt32 CredentialThreatIndicator
  /-- The number of the next event. -/
  nextId : UInt64
  /-- The number of the next indicator. -/
  nextIndicatorId : UInt64
  /-- A callback for threats is installed. -/
  threatCallback : Bool
  /-- A callback for observations is installed. -/
  observationCallback : Bool

/-- `MAX_EVENTS`. -/
def MAX_EVENTS : ℕ := 2000

/-- `RISK_THRESHOLD_SUSPICIOUS`, the double nearest to 0.35. -/
def RISK_THRESHOLD_SUSPICIOUS : Double := .ofScaled false 0x16666666666666 (-54)

/-- `RISK_THRESHOLD_MALICIOUS`, the double nearest to 0.70. -/
def RISK_THRESHOLD_MALICIOUS : Double := .ofScaled false 0x16666666666666 (-53)

/-- `known_dump_tools`. -/
def knownDumpTools : List Str :=
  ["mimikatz".toList,"procdump".toList,"procdump64".toList,"sqldumper".toList,"comsvcs".toList,
    "rundll32".toList,"task_manager_dump".toList,"processhacker".toList,"processhacker2".toList,
    "nanodump".toList,"pypykatz".toList,"lsassy".toList,"secretsdump".toList,"lazagne".toList,
    "credentialfileview".toList,"ntdsutil".toList,"fgdump".toList,"gsecdump".toList,"wce".toList,
    "pwdump".toList,"samdump2".toList]

/-- The member initialisers of `CredentialThreatIndicator`. -/
def CredentialThreatIndicator.default : CredentialThreatIndicator :=
  ⟨0,0,[],0,0,0,0,zero,false,0,0⟩

/-- A new engine. -/
def create (threatCallback observationCallback : Bool) : CredentialGuardEngine :=
  ⟨[],∅,1,1,threatCallback,observationCallback⟩

/-- `classify_attack`. -/
def classifyAttack : CredentialAttackType → ThreatLevel
  | .goldenTicket | .dcsync | .passTheHash | .passTheTicket => .critical
  | .lsassAccess | .samDump | .kerberoasting => .high
  | .tokenImpersonate | .tokenDuplicate | .silverTicket => .high

/-- `map_to_category`. -/
def mapToCategory : CredentialAttackType → ThreatCategory
  | .lsassAccess | .samDump | .dcsync => .credentialDump
  | .passTheHash | .goldenTicket | .silverTicket | .kerberoasting | .passTheTicket =>
    .kerberosAttack
  | .tokenImpersonate | .tokenDuplicate => .ntlmCoerce

/-- `attack_type_name`. -/
def attackTypeName : CredentialAttackType → Str
  | .lsassAccess => "LSASS Access".toList
  | .tokenImpersonate => "Token Impersonation".toList
  | .tokenDuplicate => "Token Duplication".toList
  | .passTheHash => "Pass-the-Hash".toList
  | .passTheTicket => "Pass-the-Ticket".toList
  | .samDump => "SAM Dump".toList
  | .dcsync => "DCSync".toList
  | .kerberoasting => "Kerberoasting".toList
  | .goldenTicket => "Golden Ticket".toList
  | .silverTicket => "Silver Ticket".toList

/-- The `switch` of `ingest`. -/
def countAttack (ind : CredentialThreatIndicator) : CredentialAttackType → CredentialThreatIndicator
  | .lsassAccess => { ind with lsassAccessCount := ind.lsassAccessCount+1 }
  | .tokenImpersonate | .tokenDuplicate =>
    { ind with tokenManipulationCount := ind.tokenManipulationCount+1 }
  | .passTheHash | .passTheTicket | .dcsync | .kerberoasting | .goldenTicket | .silverTicket =>
    { ind with lateralMovementCount := ind.lateralMovementCount+1 }
  | .samDump => { ind with samAccessCount := ind.samAccessCount+1 }

/-- The threat of an event. -/
def attackThreat (ev : CredentialAccessEvent) (now : TimePoint) : ThreatEvent :=
  { ThreatEvent.default with
    level :=
      if levelValue (classifyAttack ev.type) < levelValue .high then levelValue .high
      else levelValue (classifyAttack ev.type)
    category := (mapToCategory ev.type).value
    processId := ev.sourcePid
    processName := ev.sourceProcess
    description := attackTypeName ev.type++" by ".toList++ev.sourceProcess++" (PID ".toList++
      toDecimal ev.sourcePid.toNat++")".toList++
      if ev.detail.isEmpty then [] else " ".toList++dash++" ".toList++ev.detail
    timestamp := now }

/-- The observation of a suspicious score. -/
def suspicion (ind : CredentialThreatIndicator) (ev : CredentialAccessEvent) :
    SecurityObservation where
  sourceId := "CredentialGuard".toList
  kind := .processMemory
  suggestedLevel := .medium
  confidence := ind.riskScore
  deterministic := false
  processId := ev.sourcePid.toNat
  processName := ev.sourceProcess
  filePath := []
  sha256 := []
  evidence := "Suspicious credential access: ".toList++attackTypeName ev.type

/-- The doubles nearest to the points of `score_indicator`: 0.50, 0.25, 0.20,
0.15 and 0.10. -/
def fifty : Double := .ofScaled false (2^52) (-53)

/-- A quarter. -/
def twentyFive : Double := .ofScaled false (2^52) (-54)

/-- A fifth. -/
def twenty : Double := .ofScaled false 0x1999999999999A (-55)

/-- Three twentieths. -/
def fifteen : Double := .ofScaled false 0x13333333333333 (-55)

/-- A tenth. -/
def ten : Double := .ofScaled false 0x1999999999999A (-56)

/-- `std::clamp(score, 0.0, 1.0)`. -/
def clampUnit (score : Double) : Double :=
  if gt zero score then zero else if gt score Double.one then Double.one else score

/-- `score_indicator`. -/
def scoreIndicator (ind : CredentialThreatIndicator) : Double :=
  let score := zero
  let score := if ind.knownTool then score.plus fifty else score
  let score :=
    if 3 ≤ ind.lsassAccessCount then score.plus twentyFive
    else if 1 ≤ ind.lsassAccessCount then score.plus fifteen
    else score
  let score :=
    if 3 ≤ ind.tokenManipulationCount then score.plus twenty
    else if 1 ≤ ind.tokenManipulationCount then score.plus ten
    else score
  let score := if 1 ≤ ind.lateralMovementCount then score.plus twentyFive else score
  let score := if 1 ≤ ind.samAccessCount then score.plus twenty else score
  clampUnit score

section Ingest

variable (stem : Str → Str)

/-- `is_known_dump_tool`. -/
def isKnownDumpTool (processName : Str) : Bool :=
  !processName.isEmpty && knownDumpTools.contains (stem (processName.map toLower))

/-- The indicator of a process identifier before an event. -/
def indicatorOf (engine : CredentialGuardEngine) (pid : UInt32) : CredentialThreatIndicator :=
  (engine.indicators.lookup pid).getD .default

/-- The indicator of an event, opened if it is new, with the event counted. -/
def counted (engine : CredentialGuardEngine) (ev : CredentialAccessEvent) :
    CredentialThreatIndicator :=
  let ind := indicatorOf engine ev.sourcePid
  let opened :=
    if ind.id=0 then
      { ind with
        id := engine.nextIndicatorId
        pid := ev.sourcePid
        processName := ev.sourceProcess
        firstSeen := ev.timestamp
        knownTool := isKnownDumpTool stem ev.sourceProcess }
    else ind
  countAttack { opened with lastSeen := ev.timestamp } ev.type

/-- `ingest`, with what it sends. -/
def ingest (engine : CredentialGuardEngine) (ev : CredentialAccessEvent) (now : TimePoint) :
    CredentialGuardEngine×List ThreatEvent×List SecurityObservation :=
  let ind := counted stem engine ev
  let ind := { ind with riskScore := scoreIndicator ind }
  ({ engine with
    events := push MAX_EVENTS engine.events { ev with id := engine.nextId }
    indicators := engine.indicators.insert ev.sourcePid ind
    nextId := engine.nextId+1
    nextIndicatorId :=
      if (indicatorOf engine ev.sourcePid).id=0 then engine.nextIndicatorId+1
      else engine.nextIndicatorId },
    if ge ind.riskScore RISK_THRESHOLD_MALICIOUS || ind.knownTool then
      (if engine.threatCallback then [attackThreat ev now] else [],[])
    else if ge ind.riskScore RISK_THRESHOLD_SUSPICIOUS && engine.observationCallback then
      ([],[suspicion ind ev])
    else ([],[]))

/-- The test of `decay_indicators` that keeps an indicator. -/
def lasts (now : TimePoint) (ind : CredentialThreatIndicator) : Bool :=
  !(decide (30 < (now-ind.lastSeen).tdiv (60*10^9)) && gt RISK_THRESHOLD_SUSPICIOUS ind.riskScore)

/-- `decay_indicators`. -/
def decayIndicators (engine : CredentialGuardEngine) (now : TimePoint) : CredentialGuardEngine :=
  { engine with indicators := KeyedMap.retain (lasts now) engine.indicators }

/-- The calls of the engine. -/
inductive Call where
  /-- An access is reported. -/
  | ingest (ev : CredentialAccessEvent) (now : TimePoint)
  /-- Old indicators of low score are dropped. -/
  | decayIndicators (now : TimePoint)

/-- One call with the threats and observations it sends. -/
def step (engine : CredentialGuardEngine) :
    Call → CredentialGuardEngine×List ThreatEvent×List SecurityObservation
  | .ingest ev now => ingest stem engine ev now
  | .decayIndicators now => (decayIndicators engine now,[],[])

end Ingest

/-- A recorded call. -/
abbrev CallEvent :=
  Event CredentialGuardEngine (Call×List ThreatEvent×List SecurityObservation)

/-- The event that opened the current indicator of a process identifier. -/
def opener (events : List CallEvent) (pid : UInt32) : Option CredentialAccessEvent :=
  (events.filterMap fun e =>
    match e.label.1 with
    | .ingest ev _ =>
      if ev.sourcePid=pid ∧ (indicatorOf e.before pid).id=0 then some ev else none
    | .decayIndicators _ => none).getLast?

/-- A new event opens the indicator or leaves it to its opener. -/
theorem opener_ingest (events : List CallEvent) (s t : CredentialGuardEngine)
    (ev : CredentialAccessEvent) (now : TimePoint) (sent : List ThreatEvent×List SecurityObservation)
    (pid : UInt32) :
    opener (events++[⟨s,(.ingest ev now,sent),t⟩]) pid=
      if ev.sourcePid=pid ∧ (indicatorOf s pid).id=0 then some ev else opener events pid := by
  rw [opener,List.filterMap_append,List.filterMap_cons,List.filterMap_nil]
  dsimp only
  split_ifs
  · exact List.getLast?_concat
  · rw [List.append_nil]
    rfl

/-- A decay opens nothing. -/
theorem opener_decay (events : List CallEvent) (s t : CredentialGuardEngine) (now : TimePoint)
    (sent : List ThreatEvent×List SecurityObservation) (pid : UInt32) :
    opener (events++[⟨s,(.decayIndicators now,sent),t⟩]) pid=opener events pid := by
  rw [opener,List.filterMap_append,List.filterMap_cons,List.filterMap_nil,List.append_nil]
  rfl

/-- Counting an attack changes neither the identifier nor the flag. -/
theorem countAttack_same (ind : CredentialThreatIndicator) (type : CredentialAttackType) :
    (countAttack ind type).id=ind.id ∧ (countAttack ind type).knownTool=ind.knownTool := by
  cases type <;> exact ⟨rfl,rfl⟩

/-- Without the points of a known tool the score is malicious exactly after a
lateral movement together with two of the other three kinds of access, both in
force enough. -/
theorem malicious_iff {ind : CredentialThreatIndicator} (unknown : ind.knownTool=false) :
    ge (scoreIndicator ind) RISK_THRESHOLD_MALICIOUS=true ↔
      1 ≤ ind.lateralMovementCount ∧
        (3 ≤ ind.lsassAccessCount ∧ (3 ≤ ind.tokenManipulationCount ∨ 1 ≤ ind.samAccessCount) ∨
          1 ≤ ind.lsassAccessCount ∧ 1 ≤ ind.tokenManipulationCount ∧ 1 ≤ ind.samAccessCount) := by
  unfold scoreIndicator
  simp only [unknown,Bool.false_eq_true,if_false]
  split_ifs <;>
    first
    | exact iff_of_true (by decide +kernel) (by omega)
    | exact iff_of_false (by decide +kernel) (by omega)

section Runs

variable (stem : Str → Str)

/-- Every indicator carries the flag of its opener. -/
structure Tracks (events : List CallEvent) (engine : CredentialGuardEngine) : Prop where
  /-- The callback is installed. -/
  callback : engine.threatCallback=true
  /-- The flag was computed from the opener. -/
  flagged : ∀ pid ind,engine.indicators.lookup pid=some ind → ind.id≠0 →
    ∃ opened,opener events pid=some opened ∧
      ind.knownTool=isKnownDumpTool stem opened.sourceProcess

/-- The indicator of an event carries the flag of its opener. -/
theorem counted_flag {events : List CallEvent} {s : CredentialGuardEngine}
    (h : Tracks stem events s) (t : CredentialGuardEngine) (ev : CredentialAccessEvent)
    (now : TimePoint) (sent : List ThreatEvent×List SecurityObservation) :
    ∃ opened,opener (events++[⟨s,(.ingest ev now,sent),t⟩]) ev.sourcePid=some opened ∧
      (counted stem s ev).knownTool=isKnownDumpTool stem opened.sourceProcess := by
  rw [opener_ingest]
  by_cases hnew : (indicatorOf s ev.sourcePid).id=0
  · rw [if_pos ⟨rfl,hnew⟩]
    refine ⟨ev,rfl,?_⟩
    rw [counted,(countAttack_same _ _).2,if_pos hnew]
  · rw [if_neg fun hboth => hnew hboth.2]
    cases hlookup : s.indicators.lookup ev.sourcePid with
    | none =>
      rw [indicatorOf,hlookup] at hnew
      exact absurd rfl hnew
    | some ind =>
      have hind : indicatorOf s ev.sourcePid=ind := by rw [indicatorOf,hlookup,Option.getD_some]
      rw [hind] at hnew
      obtain ⟨opened,hopened,hflag⟩ := h.flagged ev.sourcePid ind hlookup hnew
      refine ⟨opened,hopened,?_⟩
      rw [counted,(countAttack_same _ _).2,hind,if_neg hnew]
      exact hflag

/-- A new engine has no indicators. -/
theorem create_tracks (observationCallback : Bool) :
    Tracks stem [] (create true observationCallback) where
  callback := rfl
  flagged := fun pid ind h => by
    rw [create,AList.lookup_empty] at h
    exact absurd h nofun

/-- The members after an event that the flags depend on. -/
theorem ingest_members (s : CredentialGuardEngine) (ev : CredentialAccessEvent)
    (now : TimePoint) :
    (ingest stem s ev now).1.threatCallback=s.threatCallback ∧
      (ingest stem s ev now).1.indicators=s.indicators.insert ev.sourcePid
        { counted stem s ev with riskScore := scoreIndicator (counted stem s ev) } := by
  rw [ingest]
  exact ⟨rfl,rfl⟩

/-- An event keeps what the indicators carry. -/
theorem ingest_tracks {events : List CallEvent} {s : CredentialGuardEngine}
    (h : Tracks stem events s) (ev : CredentialAccessEvent) (now : TimePoint)
    (sent : List ThreatEvent×List SecurityObservation) :
    Tracks stem (events++[⟨s,(.ingest ev now,sent),(ingest stem s ev now).1⟩])
      (ingest stem s ev now).1 := by
  obtain ⟨hcallback,hindicators⟩ := ingest_members stem s ev now
  refine ⟨hcallback.trans h.callback,fun pid ind hlookup hid => ?_⟩
  rw [hindicators] at hlookup
  by_cases hpid : pid=ev.sourcePid
  · subst hpid
    rw [AList.lookup_insert] at hlookup
    obtain rfl := Option.some.inj hlookup
    exact counted_flag stem h _ ev now sent
  · rw [AList.lookup_insert_ne hpid] at hlookup
    rw [opener_ingest,if_neg fun hboth => hpid hboth.1.symm]
    exact h.flagged pid ind hlookup hid

/-- A decay keeps what the indicators carry. -/
theorem decay_tracks {events : List CallEvent} {s : CredentialGuardEngine}
    (h : Tracks stem events s) (now : TimePoint)
    (sent : List ThreatEvent×List SecurityObservation) :
    Tracks stem (events++[⟨s,(.decayIndicators now,sent),decayIndicators s now⟩])
      (decayIndicators s now) where
  callback := h.callback
  flagged := by
    intro pid ind hlookup hid
    rw [decayIndicators,KeyedMap.lookup_retain] at hlookup
    rw [opener_decay]
    exact h.flagged pid ind (Option.eq_some_of_filter_eq_some hlookup) hid

/-- What the indicators carry after every run. -/
theorem run_tracks {observationCallback : Bool} {events : List CallEvent}
    {engine : CredentialGuardEngine}
    (run : Run (Deterministic (step stem)) (create true observationCallback) events engine) :
    Tracks stem events engine := by
  refine run.invariant (Tracks stem) (create_tracks stem observationCallback) ?_
  rintro events s ⟨call,sent⟩ t h hstep
  cases call with
  | ingest ev now =>
    have heq : ingest stem s ev now=(t,sent) := hstep
    obtain rfl := congrArg Prod.fst heq
    exact ingest_tracks stem h ev now sent
  | decayIndicators now =>
    have heq : (decayIndicators s now,[],[])=(t,sent) := hstep
    obtain rfl := congrArg Prod.fst heq
    exact decay_tracks stem h now sent

/-- With a callback, the threat of an event is sent exactly for a flagged or
malicious indicator. -/
theorem attackThreat_mem_iff {s : CredentialGuardEngine} (callback : s.threatCallback=true)
    (ev : CredentialAccessEvent) (now : TimePoint) :
    attackThreat ev now ∈ (ingest stem s ev now).2.1 ↔
      (counted stem s ev).knownTool=true ∨
        ge (scoreIndicator (counted stem s ev)) RISK_THRESHOLD_MALICIOUS=true := by
  rw [ingest]
  dsimp only
  split_ifs with hloud hquiet
  · rw [Bool.or_eq_true] at hloud
    exact iff_of_true List.mem_cons_self hloud.symm
  · rw [Bool.or_eq_true] at hloud
    exact iff_of_false List.not_mem_nil fun h => hloud h.symm
  · rw [Bool.or_eq_true] at hloud
    exact iff_of_false List.not_mem_nil fun h => hloud h.symm

/-- In every run with a callback installed an event, of a dump tool or not,
raises its threat exactly when the event that opened the indicator of its
process identifier came from a known dump tool, or the risk score of the
indicator is malicious. An event of a new identifier is its own opener. -/
theorem dump_tool_raised_iff {observationCallback : Bool} {events first rest : List CallEvent}
    {e : CallEvent} {engine : CredentialGuardEngine}
    (run : Run (Deterministic (step stem)) (create true observationCallback) events engine)
    (hsplit : events=first++e::rest) {ev : CredentialAccessEvent} {now : TimePoint}
    (hcall : e.label.1=.ingest ev now) :
    attackThreat ev now ∈ e.label.2.1 ↔
      (∃ opened,opener (first++[e]) ev.sourcePid=some opened ∧
        isKnownDumpTool stem opened.sourceProcess=true) ∨
      ge (scoreIndicator (counted stem e.before ev)) RISK_THRESHOLD_MALICIOUS=true := by
  subst hsplit
  obtain ⟨hfirst,hstep,-⟩ := run.event_step
  obtain ⟨s,⟨call,sent⟩,t⟩ := e
  obtain rfl : call=.ingest ev now := hcall
  have h := run_tracks stem hfirst
  have heq : ingest stem s ev now=(t,sent) := hstep
  obtain ⟨opened,hopened,hflag⟩ := counted_flag stem h t ev now sent
  have hsent := attackThreat_mem_iff stem h.callback ev now
  rw [heq] at hsent
  rw [hsent,hflag,hopened]
  refine or_congr_left ⟨fun hknown => ⟨opened,rfl,hknown⟩,?_⟩
  rintro ⟨other,hother,hknown⟩
  obtain rfl := Option.some.inj hother
  exact hknown

end Runs

/-- The stem of a file name with at most one dot, and that not in front. -/
def beforeDot (name : Str) : Str := name.takeWhile fun c => c≠ '.'

/-- An access to LSASS by a process with the identifier 7. -/
def access (process : Str) (seconds : ℕ) : CredentialAccessEvent :=
  ⟨0,seconds*10^9,.lsassAccess,7,process,500,"lsass.exe".toList,0x10,[]⟩

/-- A dump tool with a new process identifier. -/
def freshRun : List CallEvent×CredentialGuardEngine :=
  execute (step beforeDot) (create true false) [.ingest (access "mimikatz.exe".toList 60) 0]

/-- Its threat is raised. -/
theorem dump_tool_raised_fresh : ∃ e,freshRun.1[0]?=some e ∧
    attackThreat (access "mimikatz.exe".toList 60) 0 ∈ e.label.2.1 := by
  have run := execute_run (step beforeDot) (create true false)
    [.ingest (access "mimikatz.exe".toList 60) 0]
  have hsplit : freshRun.1=[]++_::[] := rfl
  refine ⟨_,rfl,(dump_tool_raised_iff beforeDot run hsplit rfl).mpr (.inl ⟨_,rfl,?_⟩)⟩
  decide

/-- A dump tool with the process identifier of a harmless process. -/
def reusedRun : List CallEvent×CredentialGuardEngine :=
  execute (step beforeDot) (create true false)
    [.ingest (access "explorer.exe".toList 0) 0,.ingest (access "mimikatz.exe".toList 60) 0]

/-- Its threat is not raised. -/
theorem reused_pid_not_raised :
    isKnownDumpTool beforeDot (access "mimikatz.exe".toList 60).sourceProcess=true ∧
    ∃ e,reusedRun.1[1]?=some e ∧ e.label.1=.ingest (access "mimikatz.exe".toList 60) 0 ∧
      attackThreat (access "mimikatz.exe".toList 60) 0 ∉ e.label.2.1 := by
  have hiff := @attackThreat_mem_iff beforeDot
    (ingest beforeDot (create true false) (access "explorer.exe".toList 0) 0).1 rfl
    (access "mimikatz.exe".toList 60) 0
  refine ⟨by decide,_,rfl,rfl,fun hmem => ?_⟩
  rcases hiff.mp hmem with hknown | hrisk
  · exact absurd hknown (by decide)
  · have hlateral := ((malicious_iff (by decide)).mp hrisk).1
    exact absurd hlateral (by decide)

end Gcad.CredentialGuard
