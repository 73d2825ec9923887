import Gcad.Telemetry

/-!
# Shutdown of the security pipeline

Producers, the worker loop and one `stop` call share the bus. Each locked
section and each atomic flag access is one step. The worker decides to exit
from two separately locked reads, so a publish and the close may fall
between them. A run loses accepted observations exactly when the close is
taken in that window with something queued.
-/

namespace Gcad.PipelineShutdown

open Common Observation StepSystem Telemetry

/-- Where the worker loop stands. -/
inductive WorkerPhase where
  /-- In `wait_pop`. -/
  | waiting
  /-- Holding a popped observation, about to call `process`. -/
  | processing (o : SecurityObservation)
  /-- Back from `wait_pop` with nothing, about to read `closed`. -/
  | checking
  /-- Left the loop. -/
  | exited
  deriving DecidableEq

/-- The observation the worker holds between its pop and `process`. -/
def WorkerPhase.held : WorkerPhase → List SecurityObservation
  | .processing o => [o]
  | _ => []

/-- Where the single `stop` call stands. -/
inductive StopPhase where
  /-- Not called yet. -/
  | idle
  /-- `running_` has been exchanged to false. -/
  | exchanged
  /-- The bus has been closed; the call waits in `join`. -/
  | joining
  /-- The call returned. -/
  | returned
  deriving DecidableEq

/-- Shared state of a started pipeline. -/
structure PipelineState where
  /-- The atomic flag `running_`. -/
  running : Bool
  /-- The telemetry bus. -/
  bus : TelemetryBus
  /-- Phase of the worker thread. -/
  worker : WorkerPhase
  /-- Phase of the `stop` call. -/
  stopper : StopPhase
  /-- Publish calls that have read `running_` as true and not yet entered
  the bus. -/
  inFlight : List SecurityObservation
  /-- Observations handed to `process`, in order. -/
  processed : List SecurityObservation

/-- The state right after `start` returned. -/
def started (capacity : ℕ) : PipelineState := ⟨true,create capacity,.waiting,.idle,[],[]⟩

/-- One atomic step of some thread. -/
inductive Action where
  /-- `publish` read `running_` as false and returned `CLOSED`. -/
  | publishRefused (o : SecurityObservation)
  /-- `publish` read `running_` as true. -/
  | publishAdmitted (o : SecurityObservation)
  /-- An admitted `publish` ran `bus_.publish` with this result. -/
  | publishBus (o : SecurityObservation) (result : PublishResult)
  /-- The worker's `wait_pop` returned. -/
  | waitPop (timedOut : Bool) (popped : Option SecurityObservation)
  /-- The worker ran `process`. -/
  | process (o : SecurityObservation)
  /-- The worker read `bus_.closed()`. -/
  | closedCheck (closed : Bool)
  /-- `stop` exchanged `running_`. -/
  | stopExchange
  /-- `stop` closed the bus. -/
  | stopClose
  /-- `stop` joined the worker. -/
  | stopJoin
  deriving DecidableEq

/-- The steps of producers, worker and `stop`, in any order. -/
inductive Step : PipelineState → Action → PipelineState → Prop
  | publishRefused {s : PipelineState} (o : SecurityObservation) (stopped : s.running=false) :
      Step s (.publishRefused o) s
  | publishAdmitted {s : PipelineState} (o : SecurityObservation) (running : s.running=true) :
      Step s (.publishAdmitted o) {s with inFlight := o::s.inFlight}
  | publishBus {s : PipelineState} {o : SecurityObservation} (admitted : o ∈ s.inFlight) :
      Step s (.publishBus o (publish s.bus o).2)
        {s with bus := (publish s.bus o).1,inFlight := s.inFlight.erase o}
  | popped {s : PipelineState} {bus : TelemetryBus} {o : SecurityObservation} (timedOut : Bool)
      (phase : s.worker=.waiting) (returns : waitPop s.bus timedOut=some (bus,some o)) :
      Step s (.waitPop timedOut (some o)) {s with bus := bus,worker := .processing o}
  | empty {s : PipelineState} {bus : TelemetryBus} (timedOut : Bool)
      (phase : s.worker=.waiting) (returns : waitPop s.bus timedOut=some (bus,none)) :
      Step s (.waitPop timedOut none) {s with bus := bus,worker := .checking}
  | process {s : PipelineState} {o : SecurityObservation} (phase : s.worker=.processing o) :
      Step s (.process o) {s with worker := .waiting,processed := s.processed++[o]}
  | closedCheck {s : PipelineState} (phase : s.worker=.checking) :
      Step s (.closedCheck s.bus.closed)
        {s with worker := if s.bus.closed then .exited else .waiting}
  | stopExchange {s : PipelineState} (phase : s.stopper=.idle) :
      Step s .stopExchange {s with running := false,stopper := .exchanged}
  | stopClose {s : PipelineState} (phase : s.stopper=.exchanged) :
      Step s .stopClose {s with bus := close s.bus,stopper := .joining}
  | stopJoin {s : PipelineState} (phase : s.stopper=.joining) (exited : s.worker=.exited) :
      Step s .stopJoin {s with stopper := .returned}

/-- A recorded pipeline step. -/
abbrev PipelineEvent := Event PipelineState Action

/-- The observation a step made a publish call return `ACCEPTED` for. -/
def Action.accepted : Action → List SecurityObservation
  | .publishBus o .accepted => [o]
  | _ => []

/-- All observations whose publish call returned `ACCEPTED`, in order. -/
def acceptedOf (events : List PipelineEvent) : List SecurityObservation :=
  events.flatMap fun e => e.label.accepted

/-- A step closes the bus while the worker has come back empty-handed from
`wait_pop`, has not yet read `closed`, and an observation is queued. -/
def InWindow (e : PipelineEvent) : Prop :=
  e.label=.stopClose ∧ e.before.worker=.checking ∧ e.before.bus.queue≠[]

/-- No step of the history closed the bus in the window. -/
def NoWindow (events : List PipelineEvent) : Prop := ∀ e ∈ events, ¬InWindow e

/-- What a history says about the current state. -/
structure ShutdownInv (events : List PipelineEvent) (s : PipelineState) : Prop where
  /-- Processed, held and queued observations are the accepted ones. -/
  conserved : s.processed++s.worker.held++s.bus.queue=acceptedOf events
  /-- Only the `stop` call closes the bus, after its exchange. -/
  unclosed : s.stopper=.idle ∨ s.stopper=.exchanged → s.bus.closed=false
  /-- While the bus is open the worker runs and no window was hit. -/
  opened : s.bus.closed=false → s.worker≠.exited ∧ NoWindow events
  /-- A worker that still pops was not in the window at the close. -/
  draining : s.worker≠.checking → s.worker≠.exited → NoWindow events
  /-- A worker about to read the closed flag, or gone, leaves observations
  behind exactly when the close hit the window. -/
  deciding : s.bus.closed=true → s.worker=.checking ∨ s.worker=.exited →
    (s.bus.queue=[] ↔ NoWindow events)

/-- A step other than the close keeps the window predicate. -/
theorem noWindow_snoc (events : List PipelineEvent) (s t : PipelineState) {action : Action}
    (h : action≠.stopClose) : NoWindow (events++[⟨s,action,t⟩]) ↔ NoWindow events := by
  simp only [NoWindow,List.mem_append,List.mem_singleton]
  constructor
  · intro hall x hx
    exact hall x (.inl hx)
  · rintro hall x (hx | rfl)
    · exact hall x hx
    · exact fun hw => h hw.1

/-- The accepted observations of one more step. -/
theorem acceptedOf_snoc (events : List PipelineEvent) (e : PipelineEvent) :
    acceptedOf (events++[e])=acceptedOf events++e.label.accepted := by
  simp only [acceptedOf,List.flatMap_append,List.flatMap_singleton]

/-- An admitted publish appends what it accepted to the queue, and accepts
nothing once the bus is closed. -/
theorem publishBus_spec (bus : TelemetryBus) (o : SecurityObservation) :
    (publish bus o).1.queue=bus.queue++(Action.publishBus o (publish bus o).2).accepted ∧
      (publish bus o).1.closed=bus.closed ∧
      (bus.closed=true → (publish bus o).1.queue=bus.queue) := by
  obtain ⟨-,hclosed⟩ := publish_frame bus o
  rcases publish_cases bus o with ⟨hr,-,hc,-,hq⟩ | ⟨hr,hq⟩
  · refine ⟨by rw [hr,hq]; rfl,hclosed,?_⟩
    intro hclosed'
    rw [hc] at hclosed'
    cases hclosed'
  · refine ⟨?_,hclosed,fun _ => hq⟩
    rw [hq]
    cases hres : (publish bus o).2 with
    | accepted => exact absurd hres hr
    | droppedFull => exact (List.append_nil _).symm
    | rejectedInvalid => exact (List.append_nil _).symm
    | closed => exact (List.append_nil _).symm

/-- A returning `wait_pop` hands out the head or found the queue empty. -/
theorem waitPop_spec {bus after : TelemetryBus} {timedOut : Bool}
    {popped : Option SecurityObservation} (h : waitPop bus timedOut=some (after,popped)) :
    popped.toList++after.queue=bus.queue ∧ after.closed=bus.closed ∧
      (popped=none → after.queue=[]) := by
  have he := waitPop_eq_some h
  obtain ⟨hq,-,hclosed,-⟩ := tryPop_spec bus
  rw [←he] at hq hclosed
  refine ⟨hq,hclosed,?_⟩
  rintro rfl
  unfold tryPop at he
  split at he
  · next hnil =>
    cases he
    exact hnil
  · cases he

/-- What a step other than the close has to show. The window predicate of
the longer history is that of the shorter one. -/
theorem ShutdownInv.snoc {events : List PipelineEvent} {s t : PipelineState} {action : Action}
    (inv : ShutdownInv events s) (hlabel : action≠.stopClose)
    (hcons : t.processed++t.worker.held++t.bus.queue=
      s.processed++s.worker.held++s.bus.queue++action.accepted)
    (hclosed : t.bus.closed=s.bus.closed)
    (hstop : t.stopper=.idle ∨ t.stopper=.exchanged → s.stopper=.idle ∨ s.stopper=.exchanged)
    (hexit : s.bus.closed=false → t.worker≠.exited)
    (hdrain : t.worker≠.checking → t.worker≠.exited → NoWindow events)
    (hdecide : s.bus.closed=true → t.worker=.checking ∨ t.worker=.exited →
      (t.bus.queue=[] ↔ NoWindow events)) :
    ShutdownInv (events++[⟨s,action,t⟩]) t := by
  have hw := noWindow_snoc events s t hlabel
  refine ⟨?_,?_,?_,?_,?_⟩
  · rw [acceptedOf_snoc,hcons,inv.conserved]
  · intro hp
    exact hclosed.trans (inv.unclosed (hstop hp))
  · intro hc
    rw [hclosed] at hc
    exact ⟨hexit hc,hw.mpr (inv.opened hc).2⟩
  · intro h1 h2
    exact hw.mpr (hdrain h1 h2)
  · intro hc hp
    rw [hclosed] at hc
    exact (hdecide hc hp).trans hw.symm

/-- A step that leaves worker, queue and processed list alone keeps every
clause about them. -/
theorem ShutdownInv.frame {events : List PipelineEvent} {s t : PipelineState} {action : Action}
    (inv : ShutdownInv events s) (hlabel : action≠.stopClose) (hacc : action.accepted=[])
    (hprocessed : t.processed=s.processed) (hworker : t.worker=s.worker) (hbus : t.bus=s.bus)
    (hstop : t.stopper=.idle ∨ t.stopper=.exchanged → s.stopper=.idle ∨ s.stopper=.exchanged) :
    ShutdownInv (events++[⟨s,action,t⟩]) t := by
  refine inv.snoc hlabel ?_ (by rw [hbus]) hstop ?_ ?_ ?_
  · rw [hprocessed,hworker,hbus,hacc,List.append_nil]
  · rw [hworker]
    exact fun hc => (inv.opened hc).1
  · rw [hworker]
    exact inv.draining
  · rw [hworker,hbus]
    exact inv.deciding

/-- Closing the bus hits the window exactly when the worker is between its
two reads with something queued. -/
theorem ShutdownInv.stopClose {events : List PipelineEvent} {s : PipelineState}
    (inv : ShutdownInv events s) (phase : s.stopper=.exchanged) :
    ShutdownInv (events++[⟨s,.stopClose,{s with bus := close s.bus,stopper := .joining}⟩])
      {s with bus := close s.bus,stopper := .joining} := by
  obtain ⟨hexit,hbefore⟩ := inv.opened (inv.unclosed (.inr phase))
  have hlast : ∀ x ∈ events++[⟨s,.stopClose,{s with bus := close s.bus,stopper := .joining}⟩],
      InWindow x → s.worker=.checking ∧ s.bus.queue≠[] := by
    intro x hx hwin
    rcases List.mem_append.mp hx with hx | hx
    · exact absurd hwin (hbefore x hx)
    · obtain rfl := List.mem_singleton.mp hx
      exact hwin.2
  refine ⟨?_,?_,?_,?_,?_⟩
  · rw [acceptedOf_snoc]
    exact inv.conserved.trans (List.append_nil _).symm
  · rintro (hp | hp) <;> cases hp
  · intro hc
    cases hc
  · intro hcheck _ x hx hwin
    exact hcheck (hlast x hx hwin).1
  · rintro - (hp | hp)
    · constructor
      · intro hq x hx hwin
        exact (hlast x hx hwin).2 hq
      · intro hall
        by_contra hq
        exact hall _ (List.mem_append_right _ (List.mem_singleton_self _)) ⟨rfl,hp,hq⟩
    · exact absurd hp hexit

/-- Every step of every thread preserves the shutdown invariant. -/
theorem step_inv {events : List PipelineEvent} {s t : PipelineState} {action : Action}
    (inv : ShutdownInv events s) (step : Step s action t) :
    ShutdownInv (events++[⟨s,action,t⟩]) t := by
  cases step with
  | publishRefused o stopped => exact inv.frame (by simp) rfl rfl rfl rfl id
  | publishAdmitted o running => exact inv.frame (by simp) rfl rfl rfl rfl id
  | @publishBus o admitted =>
    obtain ⟨hq,hclosed,hkeep⟩ := publishBus_spec s.bus o
    refine inv.snoc (by simp) ?_ hclosed id (fun hc => (inv.opened hc).1) inv.draining ?_
    · rw [hq,←List.append_assoc]
    · intro hc hp
      rw [hkeep hc]
      exact inv.deciding hc hp
  | popped timedOut phase returns =>
    obtain ⟨hq,hclosed,-⟩ := waitPop_spec returns
    refine inv.snoc (by simp) ?_ hclosed id (by simp) ?_ ?_
    · rw [←hq,phase]
      simp [WorkerPhase.held,Action.accepted]
    · intro _ _
      exact inv.draining (by rw [phase]; simp) (by rw [phase]; simp)
    · rintro - (hp | hp) <;> cases hp
  | empty timedOut phase returns =>
    obtain ⟨hq,hclosed,hnone⟩ := waitPop_spec returns
    have hbefore := inv.draining (by rw [phase]; simp) (by rw [phase]; simp)
    refine inv.snoc (by simp) ?_ hclosed id (by simp) (fun _ _ => hbefore) ?_
    · rw [←hq,phase]
      simp [WorkerPhase.held,Action.accepted]
    · intro _ _
      exact iff_of_true (hnone rfl) hbefore
  | process phase =>
    refine inv.snoc (by simp) ?_ rfl id (by simp) ?_ ?_
    · rw [phase]
      simp [WorkerPhase.held,Action.accepted]
    · intro _ _
      exact inv.draining (by rw [phase]; simp) (by rw [phase]; simp)
    · rintro - (hp | hp) <;> cases hp
  | closedCheck phase =>
    refine inv.snoc (by simp) ?_ rfl id ?_ ?_ ?_
    · rw [phase]
      split <;> simp [WorkerPhase.held,Action.accepted]
    · intro hc
      simp [hc]
    · intro _ hexit
      have hopen : s.bus.closed=false := by
        by_contra hc
        exact hexit (if_pos (Bool.eq_true_of_not_eq_false hc))
      exact (inv.opened hopen).2
    · intro hc _
      exact inv.deciding hc (.inl phase)
  | stopExchange phase => exact inv.frame (by simp) rfl rfl rfl rfl (fun _ => .inl phase)
  | stopClose phase => exact inv.stopClose phase
  | stopJoin phase exited =>
    refine inv.frame (by simp) rfl rfl rfl rfl ?_
    rintro (hp | hp) <;> cases hp

/-- The shutdown invariant holds along every interleaving. -/
theorem run_inv {capacity : ℕ} {events : List PipelineEvent} {s : PipelineState}
    (run : Run Step (started capacity) events s) : ShutdownInv events s := by
  refine run.invariant ShutdownInv ?_ (fun _ _ _ _ => step_inv)
  refine ⟨rfl,fun _ => rfl,fun _ => ⟨by simp [started],?_⟩,fun _ _ => ?_,?_⟩
  · exact List.forall_mem_nil _
  · exact List.forall_mem_nil _
  · intro hc
    cases hc

/-- For every interleaving of any number of producers, the worker and one
`stop` call: when the worker has left its loop, the observations handed to
`process` are exactly the accepted ones if and only if the close was not
taken while the worker stood between a `wait_pop` that found nothing and
its read of the closed flag with an observation queued in the meantime. -/
theorem accepted_processed_at_exit_iff (capacity : ℕ) (events : List PipelineEvent)
    (s : PipelineState) (run : Run Step (started capacity) events s)
    (exited : s.worker=.exited) :
    s.processed=acceptedOf events ↔
      ∀ e ∈ events, e.label=.stopClose →
        ¬(e.before.worker=.checking ∧ e.before.bus.queue≠[]) := by
  have inv := run_inv run
  have hclosed : s.bus.closed=true := by
    by_contra hc
    exact (inv.opened (Bool.eq_false_of_not_eq_true hc)).1 exited
  have hcons := inv.conserved
  rw [exited] at hcons
  simp only [WorkerPhase.held,List.append_nil] at hcons
  have hqueue : s.processed=acceptedOf events ↔ s.bus.queue=[] := by
    rw [←hcons]
    exact List.self_eq_append_right
  rw [hqueue,inv.deciding hclosed (.inr exited)]
  constructor
  · intro h e he hl hw
    exact h e he ⟨hl,hw⟩
  · intro h e he hw
    exact h e he hw.1 hw.2

/-- A normal shutdown: the observation is accepted while the worker waits,
the bus is closed, and the worker drains it and exits. -/
theorem accepted_processed_at_exit_fixture :
    ∃ events s, Run Step (started 8) events s ∧ s.worker=.exited ∧
      acceptedOf events=[fixtureObservation "a".toList true] ∧ s.processed=acceptedOf events := by
  have h1 := Run.nil.snoc (Step.publishAdmitted (s:=started 8) (fixtureObservation "a".toList true) rfl)
  have h2 := h1.snoc (Step.publishBus List.mem_cons_self)
  have h3 := (h2.snoc (Step.stopExchange rfl)).snoc (Step.stopClose rfl)
  have h4 := (h3.snoc (Step.popped false rfl rfl)).snoc (Step.process rfl)
  have h5 := (h4.snoc (Step.empty false rfl rfl)).snoc (Step.closedCheck rfl)
  refine ⟨_,_,h5,rfl,by decide,
    (accepted_processed_at_exit_iff 8 _ _ h5 rfl).mpr (by decide)⟩

/-- The window: the worker times out on the empty queue, an observation is
accepted, the bus is closed, and only then the worker reads the closed flag
and leaves. The accepted observation stays in the queue. -/
theorem accepted_not_processed_at_exit :
    ¬∀ (capacity : ℕ) (events : List PipelineEvent) (s : PipelineState),
      Run Step (started capacity) events s → s.worker=.exited →
      ∀ o ∈ acceptedOf events, o ∈ s.processed := by
  intro h
  have h1 := Run.nil.snoc (Step.empty (s:=started 8) true rfl rfl)
  have h2 := h1.snoc (Step.publishAdmitted (fixtureObservation "a".toList true) rfl)
  have h3 := h2.snoc (Step.publishBus List.mem_cons_self)
  have h4 := (h3.snoc (Step.stopExchange rfl)).snoc (Step.stopClose rfl)
  have h5 := h4.snoc (Step.closedCheck rfl)
  have hlost := h 8 _ _ h5 rfl (fixtureObservation "a".toList true) (by decide)
  cases hlost

end Gcad.PipelineShutdown
