import Gcad.BoundedLog
import Gcad.DnsMonitor
import Gcad.KeyedMap
import Gcad.NetworkDpi

/-!
# Bursts of file operations

`ingest_file_io` and `analyze_burst_patterns` of
ransomware_shield_engine.cpp. Floating-point arithmetic and the parsing of
paths are parameters. The events are kept in order of arrival, with the
timestamps of the caller; the scan for the events of the last seconds runs
from the newest back and stops at the first that is too old.
-/

namespace Gcad.BurstPatterns

open Common Threat Observation BoundedLog
open KeyedMap (Table IterationOrder)
open PeStaticAnalysis (ge zero)
open DnsMonitor (gt)
open NetworkDpi (dash)

/-- `FileIOType`. -/
inductive FileIOType where
  | ioWrite
  | ioRename
  | ioDelete
  | ioCreate
  deriving DecidableEq

/-- `FileIOEvent`. -/
structure FileIOEvent where
  /-- The number the shield gives it on arrival. -/
  id : UInt64
  /-- When the access happened. -/
  timestamp : TimePoint
  /-- What was done to the file. -/
  type : FileIOType
  /-- The process that did it. -/
  processId : UInt32
  /-- Its name. -/
  processName : Str
  /-- The file. -/
  filePath : Str
  /-- The name after a rename, else empty. -/
  newPath : Str
  /-- The entropy of the bytes written. -/
  entropy : Double

/-- `RansomwareIndicator`. -/
structure RansomwareIndicator where
  /-- Its number, zero before the first use. -/
  id : UInt64
  /-- The process at its first event. -/
  processName : Str
  /-- The process it counts for. -/
  processId : UInt32
  /-- Writes and creations. -/
  filesModified : ℕ
  /-- Renames. -/
  filesRenamed : ℕ
  /-- Renames to an extension of a known family. -/
  ransomwareExtRenames : ℕ
  /-- Deletions. -/
  filesDeleted : ℕ
  /-- The smoothed entropy of the writes, negative before the first one. -/
  avgEntropy : Double
  /-- A deletion of shadow copies was reported. -/
  shadowCopyDelete : Bool
  /-- A decoy file was touched. -/
  honeyfileTriggered : Bool
  /-- The score after the last event. -/
  riskScore : Double
  /-- The time of the first event. -/
  firstSeen : TimePoint
  /-- The time of the last event. -/
  lastSeen : TimePoint

/-- Arithmetic and library calls that the engine relies on. -/
structure Scoring where
  /-- The risk score of the counts, `score_indicator`. -/
  score : RansomwareIndicator → Double
  /-- The running average of the entropy. -/
  average : Double → Double → Double
  /-- A score in whole percent, as the threat prints it. -/
  percent : Double → Str
  /-- The extension of a path. -/
  extension : Str → Str

/-- The members of `RansomwareShieldEngine` that these functions use. -/
structure RansomwareShieldEngine where
  /-- The events kept, oldest first. -/
  ioEvents : List FileIOEvent
  /-- What each process did so far. -/
  indicators : Table UInt32 RansomwareIndicator
  /-- The number of the next event. -/
  nextId : UInt64
  /-- The number of the next indicator. -/
  nextIndicatorId : UInt64
  /-- A callback for threats is installed. -/
  threatCallback : Bool
  /-- A callback for observations is installed. -/
  observationCallback : Bool

/-- `BURST_THRESHOLD`. -/
def BURST_THRESHOLD : ℕ := 10

/-- `BURST_WINDOW_SECONDS`. -/
def BURST_WINDOW_SECONDS : ℕ := 5

/-- `MAX_IO_EVENTS`. -/
def MAX_IO_EVENTS : ℕ := 5000

/-- `RISK_THRESHOLD_SUSPICIOUS`. -/
def RISK_THRESHOLD_SUSPICIOUS : Double :=
  .ofScaled false 0x1999999999999A (-54)

/-- `RISK_THRESHOLD_MALICIOUS`. -/
def RISK_THRESHOLD_MALICIOUS : Double :=
  .ofScaled false (3*2^51) (-53)

/-- `known_ransomware_extensions`. -/
def knownRansomwareExtensions : List Str :=
  [".encrypted".toList,".locked".toList,".crypt".toList,".crypto".toList,".enc".toList,
    ".locky".toList,".zepto".toList,".cerber".toList,".cerber3".toList,".wallet".toList,
    ".onion".toList,".zzzzz".toList,".micro".toList,".xxx".toList,".ttt".toList,
    ".aaa".toList,".abc".toList,".xyz".toList,".ecc".toList,".ezz".toList,
    ".vvv".toList,".exx".toList,".wncry".toList,".wncryt".toList,".wcry".toList,
    ".crinf".toList,".r5a".toList,".xrnt".toList,".xtbl".toList,".crypt1".toList,
    ".da_vinci_code".toList,".no_more_ransom".toList,".cryptolocker".toList,
    ".petya".toList,".gandcrab".toList,".hermes".toList,".ryuk".toList]

/-- `is_ransomware_extension`. -/
def isRansomwareExtension (ext : Str) : Bool :=
  !ext.isEmpty && knownRansomwareExtensions.contains (ext.map toLower)

/-- The member initialisers of `RansomwareIndicator`. -/
def RansomwareIndicator.default : RansomwareIndicator :=
  ⟨0,[],0,0,0,0,0,.ofScaled true (2^52) (-52),false,false,zero,0,0⟩

/-- A new engine. -/
def create (threatCallback observationCallback : Bool) : RansomwareShieldEngine :=
  ⟨[],∅,1,1,threatCallback,observationCallback⟩

section Ingest

variable (scoring : Scoring)

/-- What an event counts for. -/
def countEvent (ind : RansomwareIndicator) (ev : FileIOEvent) : RansomwareIndicator :=
  match ev.type with
  | .ioWrite | .ioCreate =>
    { ind with
      filesModified := ind.filesModified+1
      avgEntropy :=
        if gt zero ind.avgEntropy then ev.entropy else scoring.average ind.avgEntropy ev.entropy }
  | .ioRename =>
    { ind with
      filesRenamed := ind.filesRenamed+1
      ransomwareExtRenames :=
        if isRansomwareExtension (scoring.extension ev.newPath) then ind.ransomwareExtRenames+1
        else ind.ransomwareExtRenames }
  | .ioDelete => { ind with filesDeleted := ind.filesDeleted+1 }

/-- The indicator of a process, identified at its first use. -/
def identify (engine : RansomwareShieldEngine) (ev : FileIOEvent) : RansomwareIndicator×UInt64 :=
  let ind := (engine.indicators.lookup ev.processId).getD .default
  if ind.id=0 then
    ({ ind with
      id := engine.nextIndicatorId
      processId := ev.processId
      processName := ev.processName
      firstSeen := ev.timestamp },engine.nextIndicatorId+1)
  else (ind,engine.nextIndicatorId)

/-- The threat of a malicious score. -/
def ransomwareThreat (ind : RansomwareIndicator) (ev : FileIOEvent) (now : TimePoint) :
    ThreatEvent :=
  { ThreatEvent.default with
    level := levelValue .critical
    category := ThreatCategory.ransomware.value
    processId := ev.processId
    processName := ev.processName
    filePath := ev.filePath
    description := "Ransomware behavior detected: ".toList++ev.processName++" (PID ".toList++
      toDecimal ev.processId.toNat++") ".toList++dash++" ".toList++toDecimal ind.filesModified++
      " files modified, ".toList++toDecimal ind.filesRenamed++" renamed, risk=".toList++
      scoring.percent ind.riskScore++"%".toList
    timestamp := now }

/-- The observation of a suspicious score. -/
def suspicion (ind : RansomwareIndicator) (ev : FileIOEvent) : SecurityObservation where
  sourceId := "RansomwareShield".toList
  kind := .fileIntegrity
  suggestedLevel := .medium
  confidence := ind.riskScore
  deterministic := false
  processId := ev.processId.toNat
  processName := ev.processName
  filePath := ev.filePath
  sha256 := []
  evidence := "Suspicious file activity: ".toList++ev.processName++" ".toList++dash++
    " ".toList++toDecimal ind.filesModified++" modifications".toList

/-- `ingest_file_io`, with what it sends. -/
def ingestFileIo (engine : RansomwareShieldEngine) (ev : FileIOEvent) (now : TimePoint) :
    RansomwareShieldEngine×List ThreatEvent×List SecurityObservation :=
  let identified := identify engine ev
  let counted := countEvent scoring { identified.1 with lastSeen := ev.timestamp } ev
  let ind := { counted with riskScore := scoring.score counted }
  ({ engine with
    ioEvents := push MAX_IO_EVENTS engine.ioEvents { ev with id := engine.nextId }
    indicators := engine.indicators.insert ev.processId ind
    nextId := engine.nextId+1
    nextIndicatorId := identified.2 },
    if ge ind.riskScore RISK_THRESHOLD_MALICIOUS then
      (if engine.threatCallback then [ransomwareThreat scoring ind ev now] else [],[])
    else if ge ind.riskScore RISK_THRESHOLD_SUSPICIOUS && engine.observationCallback then
      ([],[suspicion ind ev])
    else ([],[]))

end Ingest

/-- The start of the window that ends now. -/
def windowStart (now : TimePoint) : TimePoint := now-BURST_WINDOW_SECONDS*10^9

/-- The loop that counts, over the events from the newest back. -/
def countBurst (start : TimePoint) : List FileIOEvent → Table UInt32 ℕ → Table UInt32 ℕ
  | [],counts => counts
  | ev::older,counts =>
    if ev.timestamp < start then counts
    else countBurst start older
      (counts.insert ev.processId ((counts.lookup ev.processId).getD 0+1))

/-- `burst_counts`. -/
def burstCounts (ioEvents : List FileIOEvent) (now : TimePoint) : Table UInt32 ℕ :=
  countBurst (windowStart now) ioEvents.reverse ∅

/-- The threat of a burst. -/
def burstThreat (pid : UInt32) (ind : RansomwareIndicator) (count : ℕ) (now : TimePoint) :
    ThreatEvent :=
  { ThreatEvent.default with
    level := levelValue .high
    category := ThreatCategory.fileEncrypt.value
    processId := pid
    processName := ind.processName
    description := "File I/O burst: ".toList++ind.processName++" ".toList++dash++" ".toList++
      toDecimal count++" operations in ".toList++toDecimal BURST_WINDOW_SECONDS++
      "s window".toList
    timestamp := now }

/-- The body of the loop over the counts. -/
def burstOf (engine : RansomwareShieldEngine) (now : TimePoint) (entry : (_ : UInt32)×ℕ) :
    Option ThreatEvent :=
  if entry.2 < BURST_THRESHOLD then none
  else
    match engine.indicators.lookup entry.1 with
    | none => none
    | some ind =>
      if ge ind.riskScore RISK_THRESHOLD_SUSPICIOUS then
        some (burstThreat entry.1 ind entry.2 now)
      else none

/-- `analyze_burst_patterns`, with what it sends. -/
def analyzeBurstPatterns (order : IterationOrder UInt32 ℕ) (engine : RansomwareShieldEngine)
    (now : TimePoint) : List ThreatEvent :=
  if !engine.threatCallback || engine.ioEvents.isEmpty then []
  else (order.order (burstCounts engine.ioEvents now).entries).filterMap (burstOf engine now)

/-- The events as they are stored, numbered from an identifier on. -/
def number (id : UInt64) : List FileIOEvent → List FileIOEvent
  | [] => []
  | ev::rest => { ev with id := id }::number (id+1) rest

/-- The engine after events that arrive at given times. -/
def ingestAll (scoring : Scoring) (engine : RansomwareShieldEngine)
    (calls : List (FileIOEvent×TimePoint)) : RansomwareShieldEngine :=
  calls.foldl (fun engine call => (ingestFileIo scoring engine call.1 call.2).1) engine

/-- One more event is stored. -/
theorem ingestFileIo_ioEvents (scoring : Scoring) (engine : RansomwareShieldEngine)
    (ev : FileIOEvent) (now : TimePoint) :
    (ingestFileIo scoring engine ev now).1.ioEvents=
      push MAX_IO_EVENTS engine.ioEvents { ev with id := engine.nextId } := by
  rw [ingestFileIo]

/-- The engine retains the latest arrivals, whatever their timestamps. -/
theorem ingestAll_ioEvents (scoring : Scoring) (calls : List (FileIOEvent×TimePoint))
    {engine : RansomwareShieldEngine} {log : List FileIOEvent}
    (h : engine.ioEvents=retain MAX_IO_EVENTS log) :
    (ingestAll scoring engine calls).ioEvents=
      retain MAX_IO_EVENTS (log++number engine.nextId (calls.map Prod.fst)) := by
  induction calls generalizing engine log with
  | nil => rw [List.map_nil,number,List.append_nil,ingestAll,List.foldl_nil,h]
  | cons call calls ih =>
    have hnext : (ingestFileIo scoring engine call.1 call.2).1.nextId=engine.nextId+1 := rfl
    have hall : ingestAll scoring engine (call::calls)=
        ingestAll scoring (ingestFileIo scoring engine call.1 call.2).1 calls := by
      rw [ingestAll,List.foldl_cons,ingestAll]
    have hpush := ingestFileIo_ioEvents scoring engine call.1 call.2
    rw [h,push_retain] at hpush
    rw [hall,ih hpush,hnext,List.append_assoc,List.singleton_append,List.map_cons,number]

/-- The loop counts the events of a process up to the first that is too old. -/
theorem countBurst_lookup (start : TimePoint) (events : List FileIOEvent)
    (counts : Table UInt32 ℕ) (pid : UInt32) :
    ((countBurst start events counts).lookup pid).getD 0=(counts.lookup pid).getD 0+
      (events.takeWhile fun ev => start ≤ ev.timestamp).countP fun ev => ev.processId=pid := by
  induction events generalizing counts with
  | nil => rfl
  | cons ev older ih =>
    rw [countBurst]
    split_ifs with hold
    · rw [List.takeWhile_cons_of_neg (by rw [decide_eq_true_iff]; exact not_le.mpr hold),
        List.countP_nil,Nat.add_zero]
    · rw [List.takeWhile_cons_of_pos (by rw [decide_eq_true_iff]; exact not_lt.mp hold),ih,List.countP_cons]
      by_cases hpid : ev.processId=pid
      · rw [hpid,AList.lookup_insert,Option.getD_some,decide_eq_true rfl,if_pos rfl]
        omega
      · rw [AList.lookup_insert_ne (Ne.symm hpid),decide_eq_false hpid,if_neg Bool.false_ne_true,
          Nat.add_zero]

/-- The count of a process. -/
def burstCount (ioEvents : List FileIOEvent) (now : TimePoint) (pid : UInt32) : ℕ :=
  ((burstCounts ioEvents now).lookup pid).getD 0

/-- What the body of the loop sends. -/
theorem burstOf_eq_some_iff {engine : RansomwareShieldEngine} {now : TimePoint} {pid : UInt32}
    {count : ℕ} {threat : ThreatEvent} : burstOf engine now ⟨pid,count⟩=some threat ↔
      BURST_THRESHOLD ≤ count ∧ ∃ ind,engine.indicators.lookup pid=some ind ∧
        ge ind.riskScore RISK_THRESHOLD_SUSPICIOUS=true ∧
        threat=burstThreat pid ind count now := by
  rw [burstOf]
  constructor
  · intro hthreat
    split_ifs at hthreat with hlow
    cases hind : engine.indicators.lookup pid with
    | none =>
      rw [hind] at hthreat
      exact absurd hthreat nofun
    | some ind =>
      rw [hind] at hthreat
      dsimp only at hthreat
      split_ifs at hthreat with hrisk
      exact ⟨not_lt.mp hlow,ind,rfl,hrisk,(Option.some.inj hthreat).symm⟩
  · rintro ⟨hcount,ind,hind,hrisk,rfl⟩
    rw [if_neg (not_lt.mpr hcount),hind]
    exact if_pos hrisk

/-- Threats are sent for the processes whose count reaches the threshold and
whose indicator is suspicious. -/
theorem mem_analyzeBurstPatterns (order : IterationOrder UInt32 ℕ)
    (engine : RansomwareShieldEngine) (now : TimePoint) (threat : ThreatEvent) :
    threat ∈ analyzeBurstPatterns order engine now ↔ engine.threatCallback=true ∧
      ∃ pid ind,BURST_THRESHOLD ≤ burstCount engine.ioEvents now pid ∧
        engine.indicators.lookup pid=some ind ∧
        ge ind.riskScore RISK_THRESHOLD_SUSPICIOUS=true ∧
        threat=burstThreat pid ind (burstCount engine.ioEvents now pid) now := by
  have hbound : 0 < BURST_THRESHOLD := by decide
  rw [analyzeBurstPatterns]
  by_cases hquiet : (!engine.threatCallback || engine.ioEvents.isEmpty)=true
  · rw [if_pos hquiet]
    refine iff_of_false List.not_mem_nil ?_
    rintro ⟨hcallback,pid,ind,hcount,-⟩
    rw [hcallback,Bool.not_true,Bool.false_or,List.isEmpty_iff] at hquiet
    rw [hquiet] at hcount
    exact absurd hcount (not_le.mpr hbound)
  · rw [if_neg hquiet,List.mem_filterMap]
    rw [Bool.or_eq_true,not_or,Bool.not_eq_true',Bool.not_eq_false] at hquiet
    have hmem : ∀ pid count,⟨pid,count⟩ ∈ order.order (burstCounts engine.ioEvents now).entries ↔
        (burstCounts engine.ioEvents now).lookup pid=some count :=
      fun pid count => (order.perm _).mem_iff.trans AList.mem_lookup_iff.symm
    constructor
    · rintro ⟨⟨pid,count⟩,hentry,hthreat⟩
      have hcount : burstCount engine.ioEvents now pid=count := by
        rw [burstCount,(hmem pid count).mp hentry,Option.getD_some]
      obtain ⟨hhigh,ind,hind,hrisk,heq⟩ := burstOf_eq_some_iff.mp hthreat
      exact ⟨hquiet.1,pid,ind,hcount.symm ▸ hhigh,hind,hrisk,hcount.symm ▸ heq⟩
    · rintro ⟨-,pid,ind,hcount,hind,hrisk,rfl⟩
      cases hlookup : (burstCounts engine.ioEvents now).lookup pid with
      | none =>
        rw [burstCount,hlookup] at hcount
        exact absurd hcount (not_le.mpr hbound)
      | some count =>
        rw [burstCount,hlookup,Option.getD_some] at hcount ⊢
        refine ⟨⟨pid,count⟩,(hmem pid count).mpr hlookup,?_⟩
        exact burstOf_eq_some_iff.mpr ⟨hcount,ind,hind,hrisk,rfl⟩

/-- The count of a process is the number of its retained events in the window
exactly when every event of it in front of one that is too old is too old. -/
theorem burst_count_iff (ioEvents : List FileIOEvent) (now : TimePoint) (pid : UInt32) :
    burstCount ioEvents now pid=
      (ioEvents.countP fun ev => windowStart now ≤ ev.timestamp ∧ ev.processId=pid) ↔
    ioEvents.Pairwise fun older newer => newer.timestamp < windowStart now →
      older.processId=pid → older.timestamp < windowStart now := by
  have hscan := countP_takeWhile_iff (fun ev : FileIOEvent => decide (windowStart now ≤ ev.timestamp))
    (fun ev => decide (ev.processId=pid)) ioEvents.reverse
  have hcount : burstCount ioEvents now pid=
      (ioEvents.reverse.takeWhile fun ev => windowStart now ≤ ev.timestamp).countP
        fun ev => ev.processId=pid := by
    rw [burstCount,burstCounts,countBurst_lookup]
    exact Nat.zero_add _
  rw [←hcount,List.countP_reverse,List.pairwise_reverse] at hscan
  simp only [←Bool.decide_and,decide_eq_true_iff,decide_eq_false_iff_not,not_le] at hscan
  exact hscan

/-- A write of a process at a time in seconds. -/
def write (pid : UInt32) (seconds : ℕ) : FileIOEvent :=
  ⟨1,seconds*10^9,.ioWrite,pid,"p".toList,"f".toList,[],zero⟩

/-- Ten writes of one process within a second, then a minute-old write of
another one that arrives late. -/
def lateArrival : List FileIOEvent := List.replicate 10 (write 7 59)++[write 9 0]

/-- The late arrival hides the ten writes. -/
theorem late_arrival_hides_burst : ¬burstCount lateArrival (60*10^9) 7=
    lateArrival.countP fun ev => windowStart (60*10^9) ≤ ev.timestamp ∧ ev.processId=7 := by
  decide +kernel

end Gcad.BurstPatterns
