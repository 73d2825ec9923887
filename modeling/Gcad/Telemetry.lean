import Gcad.StepSystem
import Gcad.Observation

/-!
# The bounded telemetry bus

Every operation of `TelemetryBus` holds the bus mutex for its whole effect,
so an interleaving of any number of threads is a sequence of atomic
operations. Popped observations followed by the queue are exactly the
accepted ones, in order, at every point of every such sequence.
-/

namespace Gcad.Telemetry

open Common Observation StepSystem

/-- The `PublishResult` enumeration. -/
inductive PublishResult where
  | accepted
  | droppedFull
  | rejectedInvalid
  | closed
  deriving DecidableEq, Repr

/-- The four publish counters; their wraps after `2^64` calls are left out. -/
structure TelemetryMetrics where
  /-- Observations stored in the queue. -/
  accepted : ℕ
  /-- Observations refused because the queue was full. -/
  droppedFull : ℕ
  /-- Observations refused by `valid`. -/
  rejectedInvalid : ℕ
  /-- Observations refused because the bus was closed. -/
  rejectedClosed : ℕ
  deriving DecidableEq

/-- The counter sum, one for every completed publish call. -/
def TelemetryMetrics.total (m : TelemetryMetrics) : ℕ :=
  m.accepted+m.droppedFull+m.rejectedInvalid+m.rejectedClosed

/-- The state guarded by the bus mutex. -/
structure TelemetryBus where
  /-- Queue bound, at least one. -/
  capacity : ℕ
  /-- Stored observations, oldest first. -/
  queue : List SecurityObservation
  /-- Set by `close` and never cleared. -/
  closed : Bool
  /-- Publish counters. -/
  metrics : TelemetryMetrics
  deriving DecidableEq

/-- The constructor: a capacity of zero is raised to one. -/
def create (capacity : ℕ) : TelemetryBus := ⟨max 1 capacity,[],false,⟨0,0,0,0⟩⟩

/-- `TelemetryBus::publish`. -/
def publish (bus : TelemetryBus) (o : SecurityObservation) : TelemetryBus×PublishResult :=
  if !o.valid then
    ({bus with metrics.rejectedInvalid := bus.metrics.rejectedInvalid+1},.rejectedInvalid)
  else if bus.closed then
    ({bus with metrics.rejectedClosed := bus.metrics.rejectedClosed+1},.closed)
  else if bus.capacity ≤ bus.queue.length then
    ({bus with metrics.droppedFull := bus.metrics.droppedFull+1},.droppedFull)
  else
    ({bus with queue := bus.queue++[o],metrics.accepted := bus.metrics.accepted+1},.accepted)

/-- `TelemetryBus::try_pop`. -/
def tryPop (bus : TelemetryBus) : TelemetryBus×Option SecurityObservation :=
  match bus.queue with
  | [] => (bus,none)
  | o::rest => ({bus with queue := rest},some o)

/-- `TelemetryBus::wait_pop` at the moment it returns. The condition
variable lets the call return once the bus is closed or an element is
queued, or once the time-out has passed; `none` means it still waits.
Whatever ended the wait, the queue is looked at again under the mutex. -/
def waitPop (bus : TelemetryBus) (timedOut : Bool) :
    Option (TelemetryBus×Option SecurityObservation) :=
  if bus.closed || !bus.queue.isEmpty || timedOut then some (tryPop bus) else none

/-- `TelemetryBus::close`. -/
def close (bus : TelemetryBus) : TelemetryBus := {bus with closed := true}

/-- One atomic operation by some thread, with what the call returned. -/
inductive Operation where
  /-- A publish call and its result. -/
  | publish (o : SecurityObservation) (result : PublishResult)
  /-- A non-blocking pop and the element it handed out, if any. -/
  | tryPop (popped : Option SecurityObservation)
  /-- A returning blocking pop, whether its time-out had passed, and the
  element it handed out, if any. -/
  | waitPop (timedOut : Bool) (popped : Option SecurityObservation)
  /-- A close call. -/
  | close
  deriving DecidableEq

/-- The effect of one operation on the guarded state. -/
inductive Step : TelemetryBus → Operation → TelemetryBus → Prop
  | publish (bus : TelemetryBus) (o : SecurityObservation) :
      Step bus (.publish o (publish bus o).2) (publish bus o).1
  | tryPop (bus : TelemetryBus) : Step bus (.tryPop (tryPop bus).2) (tryPop bus).1
  | waitPop {bus after : TelemetryBus} {timedOut : Bool} {popped : Option SecurityObservation}
      (returns : waitPop bus timedOut=some (after,popped)) :
      Step bus (.waitPop timedOut popped) after
  | close (bus : TelemetryBus) : Step bus .close (close bus)

/-- A recorded bus operation. -/
abbrev BusEvent := Event TelemetryBus Operation

/-- The observation an operation put into the queue. -/
def Operation.accepted : Operation → List SecurityObservation
  | .publish o .accepted => [o]
  | _ => []

/-- The observation an operation handed out. -/
def Operation.popped : Operation → List SecurityObservation
  | .tryPop popped => popped.toList
  | .waitPop _ popped => popped.toList
  | _ => []

/-- Whether an operation is a completed publish call. -/
def Operation.isPublish : Operation → Bool
  | .publish _ _ => true
  | _ => false

/-- All accepted observations of a history, in order. -/
def acceptedOf (events : List BusEvent) : List SecurityObservation :=
  events.flatMap fun e => e.label.accepted

/-- All handed-out observations of a history, in order. -/
def poppedOf (events : List BusEvent) : List SecurityObservation :=
  events.flatMap fun e => e.label.popped

/-- Number of completed publish calls of a history. -/
def publishCount (events : List BusEvent) : ℕ := events.countP fun e => e.label.isPublish

/-- What one publish can do: it stores a valid observation in an open bus
with room left, or it changes nothing but one refusal counter. -/
theorem publish_cases (bus : TelemetryBus) (o : SecurityObservation) :
    ((publish bus o).2=.accepted ∧ o.valid=true ∧ bus.closed=false ∧
      bus.queue.length < bus.capacity ∧ (publish bus o).1.queue=bus.queue++[o]) ∨
    ((publish bus o).2≠.accepted ∧ (publish bus o).1.queue=bus.queue) := by
  unfold publish
  split
  · exact .inr ⟨by simp,rfl⟩
  · next hv =>
    split
    · exact .inr ⟨by simp,rfl⟩
    · next hc =>
      split
      · exact .inr ⟨by simp,rfl⟩
      · next hl =>
        refine .inl ⟨rfl,?_,Bool.eq_false_of_not_eq_true hc,Nat.not_le.mp hl,rfl⟩
        simpa only [Bool.not_eq_true',Bool.not_eq_false] using hv

/-- Publishing changes neither the bound nor the closed flag. -/
theorem publish_frame (bus : TelemetryBus) (o : SecurityObservation) :
    (publish bus o).1.capacity=bus.capacity ∧ (publish bus o).1.closed=bus.closed := by
  unfold publish
  split
  · exact ⟨rfl,rfl⟩
  · split
    · exact ⟨rfl,rfl⟩
    · split <;> exact ⟨rfl,rfl⟩

/-- Every publish call increments exactly one counter. -/
theorem publish_total (bus : TelemetryBus) (o : SecurityObservation) :
    (publish bus o).1.metrics.total=bus.metrics.total+1 := by
  unfold publish TelemetryMetrics.total
  split
  · dsimp only
    omega
  · split
    · dsimp only
      omega
    · split <;> dsimp only <;> omega

/-- A pop hands out the queue's head and keeps everything else. -/
theorem tryPop_spec (bus : TelemetryBus) :
    (tryPop bus).2.toList++(tryPop bus).1.queue=bus.queue ∧
      (tryPop bus).1.capacity=bus.capacity ∧ (tryPop bus).1.closed=bus.closed ∧
      (tryPop bus).1.metrics=bus.metrics := by
  unfold tryPop
  split
  · next h => exact ⟨by rw [h]; rfl,rfl,rfl,rfl⟩
  · next o rest h => exact ⟨by rw [h]; rfl,rfl,rfl,rfl⟩

/-- A blocking pop that returns does what a non-blocking one does. -/
theorem waitPop_eq_some {bus : TelemetryBus} {timedOut : Bool}
    {result : TelemetryBus×Option SecurityObservation}
    (h : waitPop bus timedOut=some result) : result=tryPop bus := by
  unfold waitPop at h
  split at h
  · exact (Option.some.inj h).symm
  · cases h

/-- What a pop that hands out `taken` does, in the terms of `step_spec`. -/
theorem pop_spec {bus after : TelemetryBus} {op : Operation} {taken : Option SecurityObservation}
    (hresult : (after,taken)=tryPop bus) (hpopped : op.popped=taken.toList)
    (haccepted : op.accepted=[]) :
    op.popped++after.queue=bus.queue++op.accepted ∧ after.capacity=bus.capacity ∧
      (bus.closed=true → after.closed=true ∧ op.accepted=[]) ∧
      (∀ o ∈ op.accepted, o.valid=true ∧ bus.queue.length < bus.capacity) ∧
      after.metrics.total=bus.metrics.total := by
  obtain ⟨hq,hcap,hclosed,hm⟩ := tryPop_spec bus
  rw [←hresult] at hq hcap hclosed hm
  refine ⟨?_,hcap,fun hc => ⟨hclosed.trans hc,haccepted⟩,?_,congrArg _ hm⟩
  · rw [hpopped,haccepted,List.append_nil]
    exact hq
  · rw [haccepted]
    exact List.forall_mem_nil _

/-- What one operation does to the queue, the bound, the closed flag and
the counters, for all four operations at once. -/
theorem step_spec {bus after : TelemetryBus} {op : Operation} (h : Step bus op after) :
    op.popped++after.queue=bus.queue++op.accepted ∧ after.capacity=bus.capacity ∧
      (bus.closed=true → after.closed=true ∧ op.accepted=[]) ∧
      (∀ o ∈ op.accepted, o.valid=true ∧ bus.queue.length < bus.capacity) ∧
      after.metrics.total=bus.metrics.total+(if op.isPublish then 1 else 0) := by
  cases h with
  | publish o =>
    obtain ⟨hcap,hclosed⟩ := publish_frame bus o
    have htotal := publish_total bus o
    rcases publish_cases bus o with ⟨hr,hv,hc,hl,hq⟩ | ⟨hr,hq⟩
    · rw [hr]
      refine ⟨by rw [hq]; rfl,hcap,?_,?_,by rw [htotal]; rfl⟩
      · intro hclosed'
        rw [hc] at hclosed'
        cases hclosed'
      · intro o' ho'
        obtain rfl := List.mem_singleton.mp ho'
        exact ⟨hv,hl⟩
    · have hacc : (Operation.publish o (publish bus o).2).accepted=[] := by
        cases hres : (publish bus o).2 with
        | accepted => exact absurd hres hr
        | droppedFull => rfl
        | rejectedInvalid => rfl
        | closed => rfl
      refine ⟨?_,hcap,?_,?_,by rw [htotal]; rfl⟩
      · rw [hacc,hq,List.append_nil]
        rfl
      · intro hc
        exact ⟨by rw [hclosed,hc],hacc⟩
      · rw [hacc]
        intro o' ho'
        cases ho'
  | tryPop => exact pop_spec rfl rfl rfl
  | waitPop returns => exact pop_spec (waitPop_eq_some returns) rfl rfl
  | close =>
    refine ⟨by simp [Operation.popped,Operation.accepted,close],rfl,fun _ => ⟨rfl,rfl⟩,?_,rfl⟩
    intro o ho
    cases ho

/-- A close operation leaves the bus closed. -/
theorem step_close_closed {bus after : TelemetryBus} (h : Step bus .close after) :
    after.closed=true := by
  cases h with
  | close => rfl

/-- The history invariant of the bus. -/
structure Conserved (capacity : ℕ) (events : List BusEvent) (bus : TelemetryBus) : Prop where
  /-- Popped observations followed by the queue are the accepted ones. -/
  fifo : poppedOf events++bus.queue=acceptedOf events
  /-- The bound never changes. -/
  bound : bus.capacity=max 1 capacity
  /-- The queue stays within its bound. -/
  bounded : bus.queue.length ≤ max 1 capacity
  /-- Only valid observations were ever stored. -/
  valid : ∀ o ∈ acceptedOf events, o.valid=true
  /-- Every completed publish call is counted once. -/
  counted : bus.metrics.total=publishCount events

/-- Every run of every capacity conserves its accepted observations. -/
theorem run_conserved {capacity : ℕ} {events : List BusEvent} {bus : TelemetryBus}
    (run : Run Step (create capacity) events bus) : Conserved capacity events bus := by
  refine run.invariant (Conserved capacity) ?_ ?_
  · exact ⟨rfl,rfl,Nat.zero_le _,List.forall_mem_nil _,rfl⟩
  · intro events s op t ih step
    obtain ⟨hq,hcap,-,hacc,htotal⟩ := step_spec step
    have hbound := ih.bound
    refine ⟨?_,hcap.trans hbound,?_,?_,?_⟩
    · simp only [poppedOf,acceptedOf,List.flatMap_append,List.flatMap_singleton]
      rw [List.append_assoc,hq,←List.append_assoc]
      exact congrArg (·++op.accepted) ih.fifo
    · have hlen := congrArg List.length hq
      simp only [List.length_append] at hlen
      cases ha : op.accepted with
      | nil =>
        rw [ha,List.length_nil] at hlen
        have hb := ih.bounded
        omega
      | cons o rest =>
        have hroom := (hacc o (by rw [ha]; exact List.mem_cons_self)).2
        have hone : op.accepted.length ≤ 1 := by
          unfold Operation.accepted
          split <;> simp
        omega
    · intro o ho
      simp only [acceptedOf,List.flatMap_append,List.flatMap_singleton,List.mem_append] at ho
      rcases ho with ho | ho
      · exact ih.valid o ho
      · exact (hacc o ho).1
    · rw [htotal,ih.counted]
      simp only [publishCount,List.countP_append,List.countP_singleton]

/-- A closed bus stays closed and accepts nothing more. -/
theorem run_closed {start bus : TelemetryBus} {events : List BusEvent}
    (hclosed : start.closed=true) (run : Run Step start events bus) :
    bus.closed=true ∧ acceptedOf events=[] := by
  refine run.invariant (fun events bus => bus.closed=true ∧ acceptedOf events=[]) ⟨hclosed,rfl⟩ ?_
  intro events s op t ih step
  obtain ⟨-,-,hc,-,-⟩ := step_spec step
  obtain ⟨hclosed',hnone⟩ := hc ih.1
  refine ⟨hclosed',?_⟩
  simp only [acceptedOf,List.flatMap_append,List.flatMap_singleton,hnone,List.append_nil]
  exact ih.2

/-- Popping without waiting empties any bus, closed or not, handing out
exactly its queue. -/
theorem drain (bus : TelemetryBus) :
    ∃ events after, Run Step bus events after ∧ (∀ e ∈ events, ∃ o, e.label=.tryPop (some o)) ∧
      poppedOf events=bus.queue ∧ after.queue=[] ∧ after.closed=bus.closed := by
  generalize hq : bus.queue=queue
  induction queue generalizing bus with
  | nil => exact ⟨[],bus,.nil,List.forall_mem_nil _,rfl,hq,rfl⟩
  | cons o rest ih =>
    have hpop : tryPop bus=({bus with queue := rest},some o) := by
      unfold tryPop
      rw [hq]
    have hfirst : Run Step bus ([]++[⟨bus,.tryPop (tryPop bus).2,(tryPop bus).1⟩]) (tryPop bus).1 :=
      Run.nil.snoc (.tryPop bus)
    rw [hpop] at hfirst
    obtain ⟨events,after,hrun,hlabel,hpopped,hempty,hclosed⟩ := ih {bus with queue := rest} rfl
    refine ⟨_,after,hfirst.append hrun,?_,?_,hempty,hclosed⟩
    · intro e he
      rcases List.mem_append.mp he with he | he
      · obtain rfl := List.mem_singleton.mp he
        exact ⟨o,rfl⟩
      · exact hlabel e he
    · rw [poppedOf,List.flatMap_append]
      exact congrArg (o::·) hpopped

/-- Conservation and order of the bus, over every capacity and every
sequence of atomic operations: the handed-out observations followed by the
queue are the accepted ones in order; the queue respects its bound; only
valid observations are handed out; nothing is accepted after a close; what
is still queued at a close can still be popped; and the four counters add
up to the number of completed publish calls. -/
theorem telemetry_bus_conservation (capacity : ℕ) (events : List BusEvent) (bus : TelemetryBus)
    (run : Run Step (create capacity) events bus) :
    poppedOf events++bus.queue=acceptedOf events ∧
      bus.queue.length ≤ max 1 capacity ∧
      (∀ o ∈ poppedOf events, o.valid=true) ∧
      (∀ first rest e, events=first++e::rest → e.label=.close → acceptedOf rest=[]) ∧
      (bus.closed=true → ∃ pops after, Run Step bus pops after ∧
        (∀ e ∈ pops, ∃ o, e.label=.tryPop (some o)) ∧ poppedOf pops=bus.queue ∧ after.queue=[]) ∧
      bus.metrics.accepted+bus.metrics.droppedFull+bus.metrics.rejectedInvalid+
        bus.metrics.rejectedClosed=publishCount events := by
  have hc := run_conserved run
  refine ⟨hc.fifo,hc.bounded,?_,?_,?_,hc.counted⟩
  · intro o ho
    apply hc.valid
    rw [←hc.fifo]
    exact List.mem_append_left _ ho
  · intro first rest e he hl
    subst he
    obtain ⟨-,hstep,hrest⟩ := run.event_step
    rw [hl] at hstep
    exact (run_closed (step_close_closed hstep) hrest).2
  · intro _
    obtain ⟨pops,after,hrun,hlabel,hpopped,hempty,-⟩ := drain bus
    exact ⟨pops,after,hrun,hlabel,hpopped,hempty⟩

/-- One accepted observation survives a close and is popped afterwards. -/
theorem telemetry_bus_conservation_fixture :
    ∃ events bus, Run Step (create 0) events bus ∧ events.length=3 ∧
      poppedOf events=[fixtureObservation "a".toList true] ∧
      poppedOf events++bus.queue=acceptedOf events := by
  have hrun := ((Run.nil.snoc (Step.publish (create 0) (fixtureObservation "a".toList true))).snoc
    (Step.close _)).snoc (Step.tryPop _)
  exact ⟨_,_,hrun,rfl,by decide,(telemetry_bus_conservation 0 _ _ hrun).1⟩

end Gcad.Telemetry
