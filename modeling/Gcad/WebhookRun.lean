import Gcad.StepSystem
import Gcad.Webhook

/-!
# Runs of the webhook engine

`WebhookEngine` of webhook_engine.cpp as an interleaving of its critical
sections. Callers enqueue events and change the format at any time; the
worker takes the oldest event together with the format of that moment and
records the payload in a second critical section. Of the configuration only
the format is ever read. The record of payloads drops its oldest hundred
entries when it passes five hundred.
-/

namespace Gcad.WebhookRun

open Common Threat StepSystem Webhook Json

/-- Where the worker thread stands. -/
inductive Worker where
  | stopped
  | idle
  | holding (event : ThreatEvent) (format : WebhookFormat)

/-- The state of a `WebhookEngine`. -/
structure WebhookEngine where
  /-- The sender thread runs. -/
  running : Bool
  /-- The worker thread. -/
  worker : Worker
  /-- How payloads are written. -/
  format : WebhookFormat
  /-- Events not sent yet, oldest first. -/
  queue : List ThreatEvent
  /-- Payloads sent, oldest first. -/
  dispatched : List Str
  /-- Events sent. -/
  eventsProcessed : UInt64

/-- A new engine. -/
def create : WebhookEngine := ⟨false,.stopped,.jsonGeneric,[],[],0⟩

/-- Append a payload to the record and shorten a record that is too long. -/
def record (dispatched : List Str) (payload : Str) : List Str :=
  if 500 < (dispatched++[payload]).length then (dispatched++[payload]).drop 100
  else dispatched++[payload]

/-- `recent_dispatches`. -/
def recentDispatches (engine : WebhookEngine) (limit : ℕ) : List Str :=
  if engine.dispatched=[] ∨ limit=0 then []
  else engine.dispatched.drop (engine.dispatched.length-min limit engine.dispatched.length)

/-- One critical section of some thread. -/
inductive Operation where
  /-- The engine is started. -/
  | start
  /-- The first half of `stop`, up to the join. -/
  | stop
  /-- An event is queued. -/
  | enqueue (event : ThreatEvent)
  /-- The format is chosen. -/
  | setConfig (format : WebhookFormat)
  /-- The worker takes an event. -/
  | take (event : ThreatEvent) (format : WebhookFormat)
  /-- The worker records a payload. -/
  | dispatch (payload : Str)
  /-- The worker leaves its loop. -/
  | exit

/-- The effect of a critical section. The worker may still take an event
after the running flag has been cleared, because it looks at the flag
before. -/
inductive Step : WebhookEngine → Operation → WebhookEngine → Prop where
  | start (engine : WebhookEngine) (idle : engine.worker=.stopped) :
      Step engine .start { engine with running := true,worker := .idle }
  | restart (engine : WebhookEngine) (running : engine.running=true) : Step engine .start engine
  | stop (engine : WebhookEngine) : Step engine .stop { engine with running := false }
  | enqueue (engine : WebhookEngine) (event : ThreatEvent) :
      Step engine (.enqueue event) { engine with queue := engine.queue++[event] }
  | setConfig (engine : WebhookEngine) (format : WebhookFormat) :
      Step engine (.setConfig format) { engine with format := format }
  | take (engine : WebhookEngine) (event : ThreatEvent) (rest : List ThreatEvent)
      (idle : engine.worker=.idle) (queued : engine.queue=event::rest) :
      Step engine (.take event engine.format)
        { engine with worker := .holding event engine.format,queue := rest }
  | dispatch (engine : WebhookEngine) (event : ThreatEvent) (format : WebhookFormat)
      (held : engine.worker=.holding event format) :
      Step engine (.dispatch (formatPayload event format))
        { engine with
          worker := .idle
          dispatched := record engine.dispatched (formatPayload event format)
          eventsProcessed := engine.eventsProcessed+1 }
  | exit (engine : WebhookEngine) (idle : engine.worker=.idle) (cleared : engine.running=false) :
      Step engine .exit { engine with worker := .stopped }

/-- A recorded critical section. -/
abbrev EngineEvent := Event WebhookEngine Operation

/-- The event an operation enqueued. -/
def Operation.enqueued : Operation → List ThreatEvent
  | .enqueue event => [event]
  | _ => []

/-- The event an operation handed to the worker, with its format. -/
def Operation.taken : Operation → List (ThreatEvent×WebhookFormat)
  | .take event format => [(event,format)]
  | _ => []

/-- The payload an operation recorded. -/
def Operation.dispatched : Operation → List Str
  | .dispatch payload => [payload]
  | _ => []

/-- Events that were enqueued, in order. -/
def enqueuedOf (events : List EngineEvent) : List ThreatEvent :=
  events.flatMap fun e => e.label.enqueued

/-- Events that the worker took, with their formats, in order. -/
def takenOf (events : List EngineEvent) : List (ThreatEvent×WebhookFormat) :=
  events.flatMap fun e => e.label.taken

/-- Payloads that were recorded, in order. -/
def dispatchedOf (events : List EngineEvent) : List Str :=
  events.flatMap fun e => e.label.dispatched

/-- The event the worker holds. -/
def Worker.held : Worker → List (ThreatEvent×WebhookFormat)
  | .holding event format => [(event,format)]
  | _ => []

/-- The payload of an event in a format. -/
def payloadOf (item : ThreatEvent×WebhookFormat) : Str := formatPayload item.1 item.2

/-- The history invariant of the engine. -/
structure Delivered (events : List EngineEvent) (engine : WebhookEngine) : Prop where
  /-- Taken events followed by the queue are the enqueued ones. -/
  fifo : (takenOf events).map Prod.fst++engine.queue=enqueuedOf events
  /-- Recorded payloads are those of the taken events but the held one. -/
  written : dispatchedOf events++engine.worker.held.map payloadOf=(takenOf events).map payloadOf
  /-- The record holds the latest payloads. -/
  latest : engine.dispatched <:+ dispatchedOf events
  /-- The record is bounded. -/
  bounded : engine.dispatched.length ≤ 500
  /-- The record is short only while few payloads were recorded. -/
  recent : min 401 (dispatchedOf events).length ≤ engine.dispatched.length
  /-- Every recorded payload is counted. -/
  counted : engine.eventsProcessed=UInt64.ofNat (dispatchedOf events).length

/-- What recording does to the record. -/
theorem record_spec {dispatched all : List Str} (payload : Str) (hlatest : dispatched <:+ all)
    (hbounded : dispatched.length ≤ 500) (hrecent : min 401 all.length ≤ dispatched.length) :
    record dispatched payload <:+ all++[payload] ∧ (record dispatched payload).length ≤ 500 ∧
      min 401 (all++[payload]).length ≤ (record dispatched payload).length := by
  have hsuffix : dispatched++[payload] <:+ all++[payload] := by
    obtain ⟨older,rfl⟩ := hlatest
    exact ⟨older,(List.append_assoc ..).symm⟩
  have hlength : (dispatched++[payload]).length=dispatched.length+1 := by simp
  have hall : (all++[payload]).length=all.length+1 := by simp
  unfold record
  split_ifs with hlong
  · refine ⟨(List.drop_suffix 100 _).trans hsuffix,?_,?_⟩
    · rw [List.length_drop]
      omega
    · rw [List.length_drop]
      omega
  · exact ⟨hsuffix,by omega,by omega⟩

/-- What a critical section does to the queue, the worker and the record. -/
theorem step_spec {s t : WebhookEngine} {op : Operation} (step : Step s op t) :
    op.taken.map Prod.fst++t.queue=s.queue++op.enqueued ∧
    op.dispatched++t.worker.held.map payloadOf=
      s.worker.held.map payloadOf++op.taken.map payloadOf ∧
    ((op.dispatched=[] ∧ t.dispatched=s.dispatched ∧ t.eventsProcessed=s.eventsProcessed) ∨
      ∃ payload, op.dispatched=[payload] ∧ t.dispatched=record s.dispatched payload ∧
        t.eventsProcessed=s.eventsProcessed+1) := by
  cases step with
  | start idle =>
    refine ⟨(List.append_nil _).symm,?_,.inl ⟨rfl,rfl,rfl⟩⟩
    rw [idle]
    rfl
  | restart running =>
    exact ⟨(List.append_nil _).symm,(List.append_nil _).symm,.inl ⟨rfl,rfl,rfl⟩⟩
  | stop => exact ⟨(List.append_nil _).symm,(List.append_nil _).symm,.inl ⟨rfl,rfl,rfl⟩⟩
  | enqueue event => exact ⟨rfl,(List.append_nil _).symm,.inl ⟨rfl,rfl,rfl⟩⟩
  | setConfig format =>
    exact ⟨(List.append_nil _).symm,(List.append_nil _).symm,.inl ⟨rfl,rfl,rfl⟩⟩
  | take event rest idle queued =>
    refine ⟨?_,?_,.inl ⟨rfl,rfl,rfl⟩⟩
    · rw [queued]
      exact (List.append_nil _).symm
    · rw [idle]
      rfl
  | dispatch event format held =>
    refine ⟨(List.append_nil _).symm,?_,.inr ⟨_,rfl,rfl,rfl⟩⟩
    rw [held]
    rfl
  | exit idle cleared =>
    refine ⟨(List.append_nil _).symm,?_,.inl ⟨rfl,rfl,rfl⟩⟩
    rw [idle]
    rfl

/-- Every run delivers its events in order. -/
theorem run_delivered {events : List EngineEvent} {engine : WebhookEngine}
    (run : Run Step create events engine) : Delivered events engine := by
  refine run.invariant Delivered ?_ ?_
  · exact ⟨rfl,rfl,List.suffix_refl _,Nat.zero_le _,Nat.zero_le _,rfl⟩
  · intro events s op t ih step
    obtain ⟨hqueue,hheld,hrecord⟩ := step_spec step
    have hdispatched : dispatchedOf (events++[⟨s,op,t⟩])=dispatchedOf events++op.dispatched := by
      simp only [dispatchedOf,List.flatMap_append,List.flatMap_singleton]
    have htaken : takenOf (events++[⟨s,op,t⟩])=takenOf events++op.taken := by
      simp only [takenOf,List.flatMap_append,List.flatMap_singleton]
    have henqueued : enqueuedOf (events++[⟨s,op,t⟩])=enqueuedOf events++op.enqueued := by
      simp only [enqueuedOf,List.flatMap_append,List.flatMap_singleton]
    have hfifo : (takenOf (events++[⟨s,op,t⟩])).map Prod.fst++t.queue=
        enqueuedOf (events++[⟨s,op,t⟩]) := by
      rw [htaken,henqueued,List.map_append,List.append_assoc,hqueue,← List.append_assoc,ih.fifo]
    have hwritten : dispatchedOf (events++[⟨s,op,t⟩])++t.worker.held.map payloadOf=
        (takenOf (events++[⟨s,op,t⟩])).map payloadOf := by
      rw [hdispatched,htaken,List.map_append,List.append_assoc,hheld,← List.append_assoc,
        ih.written]
    rcases hrecord with ⟨hnone,hsame,hcount⟩ | ⟨payload,hone,hnew,hcount⟩
    · rw [hnone,List.append_nil] at hdispatched
      refine ⟨hfifo,hwritten,?_,?_,?_,?_⟩
      · rw [hdispatched,hsame]
        exact ih.latest
      · rw [hsame]
        exact ih.bounded
      · rw [hdispatched,hsame]
        exact ih.recent
      · rw [hdispatched,hcount]
        exact ih.counted
    · obtain ⟨hlatest,hbounded,hrecent⟩ := record_spec payload ih.latest ih.bounded ih.recent
      rw [hone] at hdispatched
      refine ⟨hfifo,hwritten,?_,?_,?_,?_⟩
      · rw [hdispatched,hnew]
        exact hlatest
      · rw [hnew]
        exact hbounded
      · rw [hdispatched,hnew]
        exact hrecent
      · rw [hdispatched,hcount,ih.counted,List.length_append,List.length_singleton,UInt64.ofNat_add]
        rfl

/-- A payload of a run is the payload of an enqueued event in a format in
which the worker took one. -/
theorem dispatched_enqueued {events : List EngineEvent} {engine : WebhookEngine}
    (run : Run Step create events engine) (Allowed : WebhookFormat → Prop)
    (hformat : ∀ item ∈ takenOf events, Allowed item.2) {payload : Str}
    (h : payload ∈ engine.dispatched) :
    ∃ event ∈ enqueuedOf events, ∃ format, Allowed format ∧ payload=formatPayload event format := by
  have hdelivered := run_delivered run
  have hall := hdelivered.latest.subset h
  have htaken : payload ∈ (takenOf events).map payloadOf := by
    rw [← hdelivered.written]
    exact List.mem_append_left _ hall
  obtain ⟨⟨event,format⟩,hmem,rfl⟩ := List.mem_map.mp htaken
  refine ⟨event,?_,format,hformat _ hmem,rfl⟩
  rw [← hdelivered.fifo]
  exact List.mem_append_left _ (List.mem_map_of_mem hmem)

/-- As long as at most 401 payloads are asked for, `recent_dispatches`
returns the latest payloads of the whole run. -/
theorem recentDispatches_eq {events : List EngineEvent} {engine : WebhookEngine}
    (run : Run Step create events engine) {limit : ℕ} (hlimit : limit ≤ 401) :
    recentDispatches engine limit=
      (dispatchedOf events).drop ((dispatchedOf events).length-limit) := by
  obtain ⟨-,-,⟨older,hall⟩,-,hrecent,-⟩ := run_delivered run
  have hlength := congrArg List.length hall
  rw [List.length_append] at hlength
  unfold recentDispatches
  split_ifs with hnone
  · rcases hnone with hnone | rfl
    · rw [hnone,List.length_nil] at hrecent hlength
      have hempty : (dispatchedOf events).length=0 := by omega
      rw [List.length_eq_zero_iff.mp hempty,List.drop_nil]
    · exact (List.drop_eq_nil_of_le (by omega)).symm
  · have hmin : older.length ≤ (dispatchedOf events).length-limit ∧
        (dispatchedOf events).length-limit-older.length=
          engine.dispatched.length-min limit engine.dispatched.length := by omega
    rw [← hmin.2]
    nth_rewrite 3 [← hall]
    rw [List.drop_append,List.drop_eq_nil_of_le hmin.1,List.nil_append]

/-- A run whose events need no escape and whose formats are JSON formats
records JSON texts only. -/
theorem dispatched_json {events : List EngineEvent} {engine : WebhookEngine}
    (run : Run Step create events engine)
    (hclean : ∀ event ∈ enqueuedOf events,
      NeedsNoEscape event.description ∧ NeedsNoEscape event.processName)
    (hformat : ∀ item ∈ takenOf events, item.2≠.syslogCef) {payload : Str}
    (h : payload ∈ engine.dispatched) : ∃ value, parse payload=some value := by
  obtain ⟨event,hevent,format,hne,rfl⟩ :=
    dispatched_enqueued run (fun format => format≠.syslogCef) hformat h
  have hneeds := hclean event hevent
  cases format with
  | jsonGeneric =>
    obtain ⟨labels,hparse⟩ := (generic_iff event).mpr hneeds
    exact ⟨_,hparse⟩
  | discord =>
    obtain ⟨labels,hparse⟩ := (discord_iff event).mpr hneeds
    exact ⟨_,hparse⟩
  | slack => exact ⟨_,(slack_iff event).mpr hneeds⟩
  | splunkHec =>
    obtain ⟨labels,hparse⟩ := (splunk_iff event).mpr hneeds
    exact ⟨_,hparse⟩
  | syslogCef => exact absurd rfl hne

end Gcad.WebhookRun
