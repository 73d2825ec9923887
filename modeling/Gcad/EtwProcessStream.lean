import Gcad.DecodedNames
import Gcad.KeyedMap
import Gcad.LegacyAdapter
import Gcad.StepSystem

/-!
# The stream of process events

`EtwKernelProcessEngine` of etw_kernel_process_engine.cpp as a state machine.
Records arrive one by one on the consumer thread while the session is open;
`stop` waits for that thread before it clears what is known. The engine keeps
creation times in a map that is wiped when it is full and asks the operating
system about a parent it does not know. Where the records tell what happens
to processes, the wiped map never changes an answer.
-/

namespace Gcad.EtwProcessStream

open Common ByteView KeyedMap Observation DecodedNames StepSystem
open LegacyAdapter (conf90 conf95)

/-- `GUID`. -/
structure Guid where
  /-- The first four bytes. -/
  data1 : UInt32
  /-- The next two. -/
  data2 : UInt16
  /-- Two more. -/
  data3 : UInt16
  /-- The last eight. -/
  data4 : Bytes
  deriving DecidableEq

/-- `kKernelProcessProviderGuid`. -/
def kernelProcessProviderGuid : Guid :=
  ⟨0x22fb2cd6,0x0e7b,0x422b,[0xa0,0xc7,0x2f,0xad,0x1f,0xd0,0xe7,0x16]⟩

/-- `kEventProcessStart`. -/
def eventProcessStart : UInt16 := 1

/-- `kEventProcessStop`. -/
def eventProcessStop : UInt16 := 2

/-- `kEventThreadStart`. -/
def eventThreadStart : UInt16 := 3

/-- `MAX_KNOWN_CREATE_TIMES`. -/
def maxKnownCreateTimes : ℕ := 8192

/-- `kValidationSampleCount`. -/
def validationSampleCount : ℕ := 5

/-- The fields of `EVENT_RECORD` that the engine reads. -/
structure EventRecord where
  /-- Who wrote the record. -/
  providerId : Guid
  /-- Which of its events it is. -/
  eventId : UInt16
  /-- The process that caused it. -/
  processId : UInt32
  /-- The payload with its length; none stands for a null pointer. -/
  userData : Option Bytes

/-- What the operating system answers while a record is handled. -/
structure SystemAnswers where
  /-- `QueryFullProcessImageNameA` on the process of the record: none where it
  cannot be opened, an empty name where the query fails. -/
  imageName : Option Bytes
  /-- Creation time of the parent, zero where it cannot be opened or asked. -/
  parentCreated : UInt64

/-- `DecodedThreadStart`. -/
structure DecodedThreadStart where
  /-- The process the thread runs in. -/
  targetPid : UInt32
  /-- The thread. -/
  threadId : UInt32

/-- `decode_process_stop_pid`. -/
def decodeProcessStopPid : Option Bytes → Option UInt32
  | none => none
  | some data =>
    if data.length < 4 then none
    else if readU32le data 0=0 then none
    else some (readU32le data 0)

/-- `decode_thread_start`. -/
def decodeThreadStart : Option Bytes → Option DecodedThreadStart
  | none => none
  | some data =>
    if data.length < 8 then none
    else if readU32le data 0=0 then none
    else some ⟨readU32le data 0,readU32le data 4⟩

/-- `is_impossible_parent_order`. -/
def isImpossibleParentOrder (childCreated parentCreated : UInt64) : Bool :=
  childCreated≠0 && parentCreated≠0 && decide (childCreated < parentCreated)

/-- `is_remote_thread`. -/
def isRemoteThread (creatorPid targetPid : UInt32) : Bool :=
  creatorPid≠0 && targetPid≠0 && creatorPid≠targetPid

/-- The bytes of a name as characters. -/
def nameText (name : Bytes) : Str := name.map fun b => Char.ofNat b.toNat

/-- `make_lineage_observation`. -/
def makeLineageObservation (pid parentPid : UInt32) (imageName : Bytes) : SecurityObservation where
  sourceId := "etw-kernel-process".toList
  kind := .processLineage
  suggestedLevel := .high
  confidence := conf90
  deterministic := true
  processId := pid.toNat
  processName := nameText imageName
  filePath := nameText imageName
  sha256 := []
  evidence := "Kernel-Process ETW reported live parent PID ".toList++toDecimal parentPid.toNat++
    " created after this process (CreateTime order violation)".toList

/-- `make_remote_thread_observation`. -/
def makeRemoteThreadObservation (creatorPid targetPid threadId : UInt32) :
    SecurityObservation where
  sourceId := "etw-kernel-process".toList
  kind := .processMemory
  suggestedLevel := .critical
  confidence := conf95
  deterministic := true
  processId := targetPid.toNat
  processName := []
  filePath := []
  sha256 := []
  evidence := "Kernel-Process ETW detected remote thread injection: Creator PID ".toList++
    toDecimal creatorPid.toNat++" injected thread ID ".toList++toDecimal threadId.toNat++
    " into Target PID ".toList++toDecimal targetPid.toNat

/-- The part of a path after the last separator. -/
def fileName (path : Bytes) : Bytes :=
  (path.reverse.takeWhile fun b => b≠0x5C ∧ b≠0x2F).reverse

/-- The lambda `lo`. -/
def lower (b : UInt8) : UInt8 := if 0x41 ≤ b ∧ b ≤ 0x5A then b+0x20 else b

/-- Whether the decoded name agrees with the one the system reports. -/
def nameOk (decoded system : Bytes) : Bool :=
  decoded.isEmpty || system.isEmpty ||
    decide ((fileName decoded).map lower=(fileName system).map lower)

/-- A call of one of the callbacks. -/
inductive Output where
  /-- An observation is handed on. -/
  | observation (observation : SecurityObservation)
  /-- A new process is announced. -/
  | processStart (pid : UInt32) (imageName : Bytes)
  /-- A thread in another process is announced. -/
  | remoteThread (creatorPid targetPid threadId : UInt32)

/-- The members of `EtwKernelProcessEngine`. -/
structure State where
  /-- The trace session is open. -/
  running : Bool
  /-- Whether `observation_cb_` is set. -/
  observationCb : Bool
  /-- Whether `process_start_cb_` is set. -/
  processStartCb : Bool
  /-- Whether `remote_thread_cb_` is set. -/
  remoteThreadCb : Bool
  /-- When each process that lives was created. -/
  knownCreateTimes : Table UInt32 UInt64
  /-- Records compared with what the system says. -/
  validationSamples : ℕ
  /-- Those that differed. -/
  validationFailures : ℕ

/-- A new engine. -/
def State.initial : State := ⟨false,false,false,false,∅,0,0⟩

/-- What happens to the engine. -/
inductive Action where
  /-- `start`; the session can be opened or not. -/
  | start (opened : Bool)
  /-- The session is closed. -/
  | stop
  /-- A record is delivered. -/
  | record (event : EventRecord) (system : SystemAnswers)
  /-- The callback for observations is installed. -/
  | onObservation
  /-- The callback for new processes is installed. -/
  | onProcessStart
  /-- The callback for remote threads is installed. -/
  | onRemoteThread

/-- `dispatch`. -/
def dispatch (s : State) (observation : SecurityObservation) : List Output :=
  if s.observationCb then [.observation observation] else []

/-- `dispatch_process_start`. -/
def dispatchProcessStart (s : State) (pid : UInt32) (imageName : Bytes) : List Output :=
  if s.processStartCb then [.processStart pid imageName] else []

/-- `dispatch_remote_thread`. -/
def dispatchRemoteThread (s : State) (creatorPid targetPid threadId : UInt32) : List Output :=
  if s.remoteThreadCb then [.remoteThread creatorPid targetPid threadId] else []

/-- `validate_decoded_event`. -/
def validateDecodedEvent (s : State) (decoded : DecodedProcessStart) (system : SystemAnswers) :
    State :=
  if validationSampleCount ≤ s.validationSamples then s
  else
    let s := { s with validationSamples := s.validationSamples+1 }
    match system.imageName with
    | none => s
    | some name =>
      if nameOk decoded.imageName name then s
      else { s with validationFailures := s.validationFailures+1 }

/-- The map after a process start: wiped first when it is full. -/
def learn (known : Table UInt32 UInt64) (pid : UInt32) (created : UInt64) : Table UInt32 UInt64 :=
  (if maxKnownCreateTimes ≤ count known then ∅ else known).insert pid created

/-- `parent_created`: what the map knows, or the answer of the system. -/
def parentCreated (known : Table UInt32 UInt64) (parentPid : UInt32) (system : SystemAnswers) :
    UInt64 :=
  let parentCreated := (known.lookup parentPid).getD 0
  if parentCreated=0 then system.parentCreated else parentCreated

/-- The dispatches of `handle_process_event` for a start, with the creation
time of the parent. -/
def startOutputs (s : State) (decoded : DecodedProcessStart) (parentCreated : UInt64) :
    List Output :=
  (if decoded.parentPid≠0 ∧ decoded.parentPid≠decoded.pid ∧
      isImpossibleParentOrder decoded.createTimeFiletime parentCreated=true then
    dispatch s (makeLineageObservation decoded.pid decoded.parentPid decoded.imageName)
  else [])++dispatchProcessStart s decoded.pid decoded.imageName

/-- `handle_process_event` for a start. -/
def handleStart (s : State) (decoded : DecodedProcessStart) (system : SystemAnswers) :
    State×List Output :=
  let s := { s with
    knownCreateTimes := learn s.knownCreateTimes decoded.pid decoded.createTimeFiletime }
  (s,startOutputs s decoded (parentCreated s.knownCreateTimes decoded.parentPid system))

/-- `handle_process_event` for a stop. -/
def handleStop (s : State) (pid : UInt32) : State :=
  { s with knownCreateTimes := s.knownCreateTimes.erase pid }

/-- The branch of `on_event_record` for a thread. -/
def handleThread (s : State) (creatorPid : UInt32) (decoded : DecodedThreadStart) : List Output :=
  if isRemoteThread creatorPid decoded.targetPid then
    dispatch s (makeRemoteThreadObservation creatorPid decoded.targetPid decoded.threadId)++
      dispatchRemoteThread s creatorPid decoded.targetPid decoded.threadId
  else []

/-- What a record says. -/
inductive Content where
  /-- A process started. -/
  | start (decoded : DecodedProcessStart)
  /-- A process stopped. -/
  | stop (pid : UInt32)
  /-- A thread started. -/
  | thread (creatorPid : UInt32) (decoded : DecodedThreadStart)

/-- The decisions of `on_event_record` before it acts. -/
def content (event : EventRecord) : Option Content :=
  if event.providerId≠kernelProcessProviderGuid then none
  else if event.eventId=eventProcessStart then (decodeProcessStart event.userData).map .start
  else if event.eventId=eventProcessStop then (decodeProcessStopPid event.userData).map .stop
  else if event.eventId=eventThreadStart then
    (decodeThreadStart event.userData).map (.thread event.processId)
  else none

/-- `on_event_record`. -/
def onEventRecord (s : State) (event : EventRecord) (system : SystemAnswers) :
    State×List Output :=
  match content event with
  | some (.start decoded) => handleStart (validateDecodedEvent s decoded system) decoded system
  | some (.stop pid) => (handleStop s pid,[])
  | some (.thread creatorPid decoded) => (s,handleThread s creatorPid decoded)
  | none => (s,[])

/-- One step, with the calls of the callbacks. Records are delivered only
while the session is open. -/
def step (s : State) : Action → State×List Output
  | .start opened => (if s.running then s else { s with running := opened },[])
  | .stop => (if s.running then { s with running := false,knownCreateTimes := ∅ } else s,[])
  | .record event system => if s.running then onEventRecord s event system else (s,[])
  | .onObservation => ({ s with observationCb := true },[])
  | .onProcessStart => ({ s with processStartCb := true },[])
  | .onRemoteThread => ({ s with remoteThreadCb := true },[])

/-- A recorded step. -/
abbrev StreamEvent := Event State (Action×List Output)

/-- What a step is told by a record. -/
def told (e : StreamEvent) : Option Content :=
  match e.label.1 with
  | .record event _ => if e.before.running then content event else none
  | _ => none

/-- What the system answers at a step. -/
def answers (e : StreamEvent) : SystemAnswers :=
  match e.label.1 with
  | .record _ system => system
  | _ => ⟨none,0⟩

/-- What a step tells about a process: when it was created, or that it is
gone. -/
def fate (pid : UInt32) (e : StreamEvent) : Option (Option UInt64) :=
  match told e with
  | some (.start decoded) => if decoded.pid=pid then some (some decoded.createTimeFiletime) else none
  | some (.stop stopped) => if stopped=pid then some none else none
  | _ => none

/-- Whether the session is about to be opened, or closed, at a step. -/
def switches (e : StreamEvent) : Bool :=
  match e.label.1 with
  | .start _ => !e.before.running
  | .stop => e.before.running
  | _ => false

/-- Whether a step wipes the map. -/
def wipes (e : StreamEvent) : Bool :=
  match e.label.1,told e with
  | .stop,_ => e.before.running
  | _,some (.start _) => decide (maxKnownCreateTimes ≤ count e.before.knownCreateTimes)
  | _,_ => false

/-- What the engine remembers of a step about a process. -/
def note (pid : UInt32) (e : StreamEvent) : Option (Option UInt64) :=
  match fate pid e with
  | some fate => some fate
  | none => if wipes e then some none else none

/-- What the engine remembers about a process after a history: the last note,
if there is one. -/
def remembered (events : List StreamEvent) (pid : UInt32) : Option UInt64 :=
  ((events.filterMap (note pid)).getLast?).getD none

/-- What the map holds, as a function of the history. -/
structure Remembers (events : List StreamEvent) (s : State) : Prop where
  /-- The map is bounded. -/
  bounded : count s.knownCreateTimes ≤ maxKnownCreateTimes
  /-- Nothing is known while the session is closed. -/
  closed : s.running=false → s.knownCreateTimes=∅
  /-- What is known is the last note since the map was wiped. -/
  lookup : ∀ pid,s.knownCreateTimes.lookup pid=remembered events pid
  /-- No more samples are taken than planned, and no more fail than are
  taken. -/
  sampled : s.validationFailures ≤ s.validationSamples ∧
    s.validationSamples ≤ validationSampleCount

section Steps

variable {s t : State} {outputs : List Output}

/-- The map never grows beyond its bound. -/
theorem count_learn (known : Table UInt32 UInt64) (pid : UInt32) (created : UInt64) :
    count (learn known pid created) ≤ maxKnownCreateTimes := by
  unfold learn
  split_ifs with hfull
  · have hempty : count (∅ : Table UInt32 UInt64)=0 := rfl
    have hone := count_insert_le pid created (∅ : Table UInt32 UInt64)
    rw [hempty] at hone
    exact hone.trans (by decide)
  · have hone := count_insert_le pid created known
    omega

/-- What the map knows after a process start. -/
theorem lookup_learn (known : Table UInt32 UInt64) (pid other : UInt32) (created : UInt64) :
    (learn known pid created).lookup other=
      if pid=other then some created
      else if maxKnownCreateTimes ≤ count known then none else known.lookup other := by
  unfold learn
  by_cases heq : pid=other
  · rw [if_pos heq,heq,AList.lookup_insert]
  · rw [if_neg heq,AList.lookup_insert_ne (Ne.symm heq)]
    split_ifs
    · rfl
    · rfl

/-- Erasing forgets one process. -/
theorem lookup_stop (known : Table UInt32 UInt64) (pid other : UInt32) :
    (known.erase pid).lookup other=if pid=other then none else known.lookup other := by
  split_ifs with heq
  · rw [heq,AList.lookup_erase]
  · rw [AList.lookup_erase_ne (Ne.symm heq)]

/-- Validation leaves everything but its counters alone. -/
theorem validate_fields (decoded : DecodedProcessStart) (system : SystemAnswers) :
    (validateDecodedEvent s decoded system).knownCreateTimes=s.knownCreateTimes ∧
      (validateDecodedEvent s decoded system).running=s.running := by
  unfold validateDecodedEvent
  split_ifs
  · exact ⟨rfl,rfl⟩
  · dsimp only
    split
    · exact ⟨rfl,rfl⟩
    · split_ifs <;> exact ⟨rfl,rfl⟩

/-- The counters of the validation. -/
theorem validate_sampled (decoded : DecodedProcessStart) (system : SystemAnswers)
    (h : s.validationFailures ≤ s.validationSamples ∧
      s.validationSamples ≤ validationSampleCount) :
    (validateDecodedEvent s decoded system).validationFailures ≤
        (validateDecodedEvent s decoded system).validationSamples ∧
      (validateDecodedEvent s decoded system).validationSamples ≤ validationSampleCount := by
  unfold validateDecodedEvent
  split_ifs
  · exact h
  · dsimp only
    split
    · dsimp only
      omega
    · split_ifs <;> dsimp only <;> omega

/-- What a delivered record does to the map and to the counters. -/
theorem onEventRecord_state (event : EventRecord) (system : SystemAnswers) :
    (onEventRecord s event system).1.running=s.running ∧
      (onEventRecord s event system).1.knownCreateTimes=
        match content event with
        | some (.start decoded) =>
          learn s.knownCreateTimes decoded.pid decoded.createTimeFiletime
        | some (.stop pid) => s.knownCreateTimes.erase pid
        | _ => s.knownCreateTimes := by
  unfold onEventRecord
  cases hcontent : content event with
  | none => exact ⟨rfl,rfl⟩
  | some said =>
    cases said with
    | start decoded =>
      obtain ⟨hknown,hrunning⟩ := validate_fields (s:=s) decoded system
      refine ⟨hrunning,?_⟩
      dsimp only [handleStart]
      rw [hknown]
    | stop pid => exact ⟨rfl,rfl⟩
    | thread creatorPid decoded => exact ⟨rfl,rfl⟩

/-- What is known of a process after a step: what the step notes, or what was
known before. -/
theorem known_step {action : Action} (h : step s action=(t,outputs)) (pid : UInt32) :
    t.knownCreateTimes.lookup pid=
      (note pid ⟨s,(action,outputs),t⟩).getD (s.knownCreateTimes.lookup pid) := by
  cases action with
  | record event system =>
    cases hrunning : s.running with
    | false =>
      rw [step,hrunning,if_neg Bool.false_ne_true,Prod.mk.injEq] at h
      rw [← h.1]
      simp [note,fate,told,wipes,hrunning]
    | true =>
      rw [step,hrunning,if_pos rfl] at h
      have ht : t.knownCreateTimes=_ := congrArg (·.1.knownCreateTimes) h.symm
      have hstate := (onEventRecord_state (s:=s) event system).2
      rw [ht,hstate]
      cases hcontent : content event with
      | none => simp [note,fate,told,wipes,hrunning,hcontent]
      | some said =>
        cases said with
        | start decoded =>
          dsimp only
          rw [lookup_learn]
          by_cases heq : decoded.pid=pid
          · simp [note,fate,told,hrunning,hcontent,heq]
          · by_cases hfull : maxKnownCreateTimes ≤ count s.knownCreateTimes
            · simp [note,fate,told,wipes,hrunning,hcontent,heq,hfull]
            · simp [note,fate,told,wipes,hrunning,hcontent,heq,hfull]
        | stop stopped =>
          dsimp only
          rw [lookup_stop]
          by_cases heq : stopped=pid
          · simp [note,fate,told,hrunning,hcontent,heq]
          · simp [note,fate,told,wipes,hrunning,hcontent,heq]
        | thread creatorPid decoded => simp [note,fate,told,wipes,hrunning,hcontent]
  | stop =>
    cases hrunning : s.running with
    | false =>
      rw [step,hrunning,if_neg Bool.false_ne_true,Prod.mk.injEq] at h
      rw [← h.1]
      simp [note,fate,told,wipes,hrunning]
    | true =>
      rw [step,hrunning,if_pos rfl,Prod.mk.injEq] at h
      rw [← h.1]
      simp [note,fate,told,wipes,hrunning]
  | start opened =>
    rw [step,Prod.mk.injEq] at h
    rw [← h.1]
    split_ifs <;> simp [note,fate,told,wipes]
  | _ =>
    rw [step,Prod.mk.injEq] at h
    rw [← h.1]
    simp [note,fate,told,wipes]

/-- The session, the size of the map and the samples after a step. -/
theorem bounds_step {action : Action} (h : step s action=(t,outputs))
    (bounded : count s.knownCreateTimes ≤ maxKnownCreateTimes)
    (closed : s.running=false → s.knownCreateTimes=∅)
    (sampled : s.validationFailures ≤ s.validationSamples ∧
      s.validationSamples ≤ validationSampleCount) :
    count t.knownCreateTimes ≤ maxKnownCreateTimes ∧
      (t.running=false → t.knownCreateTimes=∅) ∧
      t.validationFailures ≤ t.validationSamples ∧ t.validationSamples ≤ validationSampleCount := by
  cases action with
  | record event system =>
    cases hrunning : s.running with
    | false =>
      rw [step,hrunning,if_neg Bool.false_ne_true,Prod.mk.injEq] at h
      rw [← h.1]
      exact ⟨bounded,closed,sampled⟩
    | true =>
      rw [step,hrunning,if_pos rfl] at h
      obtain ⟨hsame,hknown⟩ := onEventRecord_state (s:=s) event system
      rw [h] at hsame hknown
      refine ⟨?_,fun hstopped => ?_,?_⟩
      · rw [hknown]
        split
        · exact count_learn _ _ _
        · next pid _ =>
          rw [count_eq_keys,AList.keys_erase]
          exact (List.erase_sublist.length_le).trans (count_eq_keys _ ▸ bounded)
        · exact bounded
      · rw [hsame,hrunning] at hstopped
        cases hstopped
      · have ht : t=(onEventRecord s event system).1 := congrArg Prod.fst h.symm
        rw [ht,onEventRecord]
        split
        · next decoded _ => exact validate_sampled decoded system sampled
        · exact sampled
        · exact sampled
        · exact sampled
  | stop =>
    cases hrunning : s.running with
    | false =>
      rw [step,hrunning,if_neg Bool.false_ne_true,Prod.mk.injEq] at h
      rw [← h.1]
      exact ⟨bounded,closed,sampled⟩
    | true =>
      rw [step,hrunning,if_pos rfl,Prod.mk.injEq] at h
      rw [← h.1]
      exact ⟨Nat.zero_le _,fun _ => rfl,sampled⟩
  | start opened =>
    rw [step,Prod.mk.injEq] at h
    rw [← h.1]
    cases hrunning : s.running with
    | true => simpa [hrunning] using ⟨bounded,sampled⟩
    | false => simpa [closed hrunning] using ⟨closed hrunning ▸ bounded,sampled⟩
  | _ =>
    rw [step,Prod.mk.injEq] at h
    rw [← h.1]
    exact ⟨bounded,closed,sampled⟩

/-- The calls of the callbacks at a step. -/
theorem outputs_step {action : Action} (h : step s action=(t,outputs)) :
    outputs=match told ⟨s,(action,outputs),t⟩ with
      | some (.start decoded) => startOutputs t decoded
        (parentCreated t.knownCreateTimes decoded.parentPid (answers ⟨s,(action,outputs),t⟩))
      | some (.thread creatorPid decoded) => handleThread t creatorPid decoded
      | _ => [] := by
  cases action with
  | record event system =>
    cases hrunning : s.running with
    | false =>
      rw [step,hrunning,if_neg Bool.false_ne_true,Prod.mk.injEq] at h
      simp [told,hrunning,← h.2]
    | true =>
      rw [step,hrunning,if_pos rfl,onEventRecord] at h
      cases hcontent : content event with
      | none =>
        simp only [hcontent,Prod.mk.injEq] at h
        simp [told,hrunning,hcontent,← h.2]
      | some said =>
        cases said with
        | start decoded =>
          simp only [hcontent,handleStart,Prod.mk.injEq] at h
          simp [told,answers,hrunning,hcontent,← h.2,← h.1]
        | stop pid =>
          simp only [hcontent,Prod.mk.injEq] at h
          simp [told,hrunning,hcontent,← h.2]
        | thread creatorPid decoded =>
          simp only [hcontent,Prod.mk.injEq] at h
          simp [told,hrunning,hcontent,← h.2,← h.1]
  | _ =>
    rw [step,Prod.mk.injEq] at h
    simp [told,← h.2]

end Steps

/-- What is remembered after one more step. -/
theorem remembered_event (events : List StreamEvent) (e : StreamEvent) (pid : UInt32) :
    remembered (events++[e]) pid=(note pid e).getD (remembered events pid) := by
  rw [remembered,List.filterMap_append]
  cases h : note pid e with
  | none => simp [h,remembered]
  | some fate => simp [h]

/-- In every run the map holds the last notes. -/
theorem remembers_run {events : List StreamEvent} {s : State}
    (run : Run (Deterministic step) State.initial events s) : Remembers events s := by
  refine run.invariant Remembers ⟨by decide,fun _ => rfl,fun pid => rfl,by decide⟩ ?_
  intro events s label t remembers h
  obtain ⟨hbounded,hclosed,hsampled⟩ :=
    bounds_step h remembers.bounded remembers.closed remembers.sampled
  refine ⟨hbounded,hclosed,fun pid => ?_,hsampled⟩
  rw [remembered_event,← remembers.lookup pid]
  exact known_step h pid

end Gcad.EtwProcessStream
