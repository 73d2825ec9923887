import Gcad.EtwProcessStream

/-!
# Parents created after their children

What the process event stream reports in a whole run. Without any assumption
every report about a parent goes back to the last record about that parent or
to the answer of the system. Where the records tell everything that happens to
processes while the session is open, and the system answers by the state of
the moment, the reports are those of an engine that keeps no map and asks
about every parent, however often the bounded map is wiped.
-/

namespace Gcad.EtwParentOrder

open Common KeyedMap Observation DecodedNames StepSystem EtwProcessStream
open LegacyAdapter (conf90 conf95 valid_iff_level)

/-- The processes that are alive after a history, with their creation times,
as the records and the system tell. -/
structure Truthful (alive : List StreamEvent → UInt32 → Option UInt64)
    (events : List StreamEvent) : Prop where
  /-- While the session is open or closed, every change is in a record. -/
  moves : ∀ first e rest,events=first++e::rest → switches e=false →
    ∀ pid,alive (first++[e]) pid=(fate pid e).getD (alive first pid)
  /-- The system answers with the creation time of the live parent, or zero. -/
  queries : ∀ first e rest decoded,events=first++e::rest → told e=some (.start decoded) →
    (answers e).parentCreated=(alive (first++[e]) decoded.parentPid).getD 0

/-- The creation time of a parent that an event is judged by: the last note
about the parent, or the answer of the system. -/
def judgedBy (first : List StreamEvent) (e : StreamEvent) (decoded : DecodedProcessStart) :
    UInt64 :=
  match remembered (first++[e]) decoded.parentPid with
  | some created => if created=0 then (answers e).parentCreated else created
  | none => (answers e).parentCreated

/-- What is called at a step that is told this, with a creation time for the
parent of a process that starts. -/
def expected (s : State) (created : DecodedProcessStart → UInt64) : Option Content → List Output
  | some (.start decoded) => startOutputs s decoded (created decoded)
  | some (.thread creatorPid decoded) => handleThread s creatorPid decoded
  | _ => []

/-- An observation that the pipeline accepts and counts as exact. -/
def Exact (observation : SecurityObservation) : Prop :=
  observation.valid=true ∧ observation.deterministic=true

/-- What a run of the event stream keeps. -/
structure StreamReports (events : List StreamEvent) : Prop where
  /-- Every call of a callback is the one its record calls for. -/
  judged : ∀ first e rest,events=first++e::rest →
    e.label.2=expected e.after (judgedBy first e) (told e)
  /-- Under truthful records and answers the live parent decides. -/
  live : ∀ alive,Truthful alive events → ∀ first e rest,events=first++e::rest →
    e.label.2=expected e.after
      (fun decoded => (alive (first++[e]) decoded.parentPid).getD 0) (told e)
  /-- Every observation is valid and exact. -/
  exact : ∀ e ∈ events,∀ observation,.observation observation ∈ e.label.2 → Exact observation

/-- Both confidences lie between zero and one. -/
theorem confidence_valid :
    (conf90.isFinite && conf90.geZero && conf90.leOne)=true ∧
      (conf95.isFinite && conf95.geZero && conf95.leOne)=true := by decide

/-- An observation of the order of a parent is valid and exact. -/
theorem exact_lineage (pid parentPid : UInt32) (imageName : ByteView.Bytes) :
    Exact (makeLineageObservation pid parentPid imageName) := by
  refine ⟨(valid_iff_level (List.cons_ne_nil _ _) ?_ confidence_valid.1).mpr nofun,rfl⟩
  exact List.append_ne_nil_of_left_ne_nil
    (List.append_ne_nil_of_left_ne_nil (List.cons_ne_nil _ _) _) _

/-- An observation of a remote thread is valid and exact. -/
theorem exact_remoteThread (creatorPid targetPid threadId : UInt32) :
    Exact (makeRemoteThreadObservation creatorPid targetPid threadId) := by
  refine ⟨(valid_iff_level (List.cons_ne_nil _ _) ?_ confidence_valid.2).mpr nofun,rfl⟩
  refine List.append_ne_nil_of_left_ne_nil (List.append_ne_nil_of_left_ne_nil ?_ _) _
  refine List.append_ne_nil_of_left_ne_nil (List.append_ne_nil_of_left_ne_nil ?_ _) _
  exact List.append_ne_nil_of_left_ne_nil (List.cons_ne_nil _ _) _

/-- Every observation that a record calls for is valid and exact. -/
theorem expected_exact {s : State} {created : DecodedProcessStart → UInt64}
    {said : Option Content} {observation : SecurityObservation}
    (h : .observation observation ∈ expected s created said) : Exact observation := by
  unfold expected at h
  split at h
  · next decoded =>
    rw [startOutputs,List.mem_append] at h
    rcases h with h | h
    · split_ifs at h
      · unfold dispatch at h
        split_ifs at h
        · rw [List.mem_singleton,Output.observation.injEq] at h
          exact h ▸ exact_lineage _ _ _
        · cases h
      · cases h
    · unfold dispatchProcessStart at h
      split_ifs at h <;> simp at h
  · next creatorPid decoded =>
    unfold handleThread at h
    split_ifs at h
    · rw [List.mem_append] at h
      rcases h with h | h
      · unfold dispatch at h
        split_ifs at h
        · rw [List.mem_singleton,Output.observation.injEq] at h
          exact h ▸ exact_remoteThread _ _ _
        · cases h
      · unfold dispatchRemoteThread at h
        split_ifs at h <;> simp at h
    · cases h
  · cases h

/-- Opening and closing the session leaves nothing known. -/
theorem switches_step {s t : State} {label : Action×List Output}
    (h : Deterministic step s label t) (closed : s.running=false → s.knownCreateTimes=∅)
    (hswitch : switches ⟨s,label,t⟩=true) : t.knownCreateTimes=∅ := by
  obtain ⟨action,outputs⟩ := label
  cases action with
  | start opened =>
    have hrunning : s.running=false := by simpa [switches] using hswitch
    rw [Deterministic,step,hrunning,if_neg Bool.false_ne_true,Prod.mk.injEq] at h
    rw [← h.1]
    exact closed hrunning
  | stop =>
    have hrunning : s.running=true := by simpa [switches] using hswitch
    rw [Deterministic,step,hrunning,if_pos rfl,Prod.mk.injEq] at h
    rw [← h.1]
  | _ => simp [switches] at hswitch

/-- What is told of a history is told of its beginning. -/
theorem Truthful.init {alive : List StreamEvent → UInt32 → Option UInt64}
    {events later : List StreamEvent} (truthful : Truthful alive (events++later)) :
    Truthful alive events := by
  refine ⟨fun first e rest heq => ?_,fun first e rest decoded heq => ?_⟩
  · exact truthful.moves first e (rest++later) (by simp [heq])
  · exact truthful.queries first e (rest++later) decoded (by simp [heq])

/-- What the map knows is true of the live processes. -/
theorem known_alive {alive : List StreamEvent → UInt32 → Option UInt64}
    {events : List StreamEvent} {s : State}
    (run : Run (Deterministic step) State.initial events s) (truthful : Truthful alive events)
    {pid : UInt32} {created : UInt64} (h : s.knownCreateTimes.lookup pid=some created) :
    alive events pid=some created := by
  induction run with
  | nil => exact absurd h (by simp [State.initial])
  | @snoc events s t label run hstep ih =>
    cases hswitch : switches ⟨s,label,t⟩ with
    | true =>
      rw [switches_step hstep (remembers_run run).closed hswitch] at h
      exact absurd h (by simp)
    | false =>
      rw [truthful.moves events ⟨s,label,t⟩ [] rfl hswitch pid]
      have hknown := known_step hstep pid
      rw [h,note] at hknown
      cases hfate : fate pid ⟨s,label,t⟩ with
      | some fate =>
        have hsome : some created=fate := by simpa [hfate] using hknown
        rw [Option.getD_some,hsome]
      | none =>
        rw [Option.getD_none]
        cases hwipes : wipes ⟨s,label,t⟩ with
        | true => simp [hfate,hwipes] at hknown
        | false =>
          refine ih truthful.init ?_
          simpa [hfate,hwipes] using hknown.symm

/-- Over every run of the event stream: every call of a callback is the one
its record calls for, judged by the last note about the parent or the answer
of the system. Where records and answers are truthful, wiping the map changes
no call: a process is reported exactly if its live parent was created after
it. Every reported observation is valid and exact. -/
theorem stream_reports {events : List StreamEvent} {s : State}
    (run : Run (Deterministic step) State.initial events s) : StreamReports events := by
  have hcalls : ∀ first e rest,events=first++e::rest →
      e.label.2=expected e.after (fun decoded =>
        parentCreated e.after.knownCreateTimes decoded.parentPid (answers e)) (told e) := by
    rintro first e rest rfl
    obtain ⟨-,hstep,-⟩ := run.event_step
    rw [outputs_step hstep]
    cases told e with
    | none => rfl
    | some said => cases said <;> rfl
  have htaken : ∀ first e rest,events=first++e::rest →
      Run (Deterministic step) State.initial (first++[e]) e.after := by
    rintro first e rest rfl
    obtain ⟨hbefore,hstep,-⟩ := run.event_step
    exact hbefore.snoc hstep
  refine ⟨fun first e rest heq => ?_,fun alive truthful first e rest heq => ?_,?_⟩
  · rw [hcalls first e rest heq]
    refine congrArg (expected e.after · (told e)) (funext fun decoded => ?_)
    have hlookup := (remembers_run (htaken first e rest heq)).lookup decoded.parentPid
    unfold parentCreated judgedBy
    rw [hlookup]
    cases remembered (first++[e]) decoded.parentPid with
    | none => simp
    | some created => simp
  · rw [hcalls first e rest heq]
    cases htold : told e with
    | none => rfl
    | some said =>
      cases said with
      | start decoded =>
        have hanswer := truthful.queries first e rest decoded heq htold
        have htruthful : Truthful alive (first++[e]) := by
          rw [heq,List.append_cons] at truthful
          exact truthful.init
        refine congrArg (startOutputs e.after decoded) ?_
        unfold parentCreated
        rw [hanswer]
        cases hknown : e.after.knownCreateTimes.lookup decoded.parentPid with
        | none => simp [hknown]
        | some created =>
          have halive := known_alive (htaken first e rest heq) htruthful hknown
          by_cases hzero : created=0
          · simp [hknown,halive,hzero]
          · simp [hknown,halive,hzero]
      | stop pid => rfl
      | thread creatorPid decoded => rfl
  · intro e he observation hobservation
    obtain ⟨first,rest,heq⟩ := List.append_of_mem he
    rw [hcalls first e rest heq] at hobservation
    exact expected_exact hobservation

/-- The payload of a process start with a process, a time and a parent below
256. -/
def startPayload (pid created parent : UInt8) : ByteView.Bytes :=
  [pid,0,0,0]++List.replicate 8 0++[created]++List.replicate 7 0++[parent,0,0,0]++
    List.replicate 16 0

/-- A record of the provider. -/
def providerRecord (eventId : UInt16) (payload : ByteView.Bytes) : EventRecord :=
  ⟨kernelProcessProviderGuid,eventId,0,some payload⟩

/-- A process, its child, and a child that claims a younger parent. -/
def youngerParent : List Action :=
  [.start true,.onObservation,
    .record (providerRecord 1 (startPayload 7 90 0)) ⟨none,0⟩,
    .record (providerRecord 1 (startPayload 8 95 7)) ⟨none,0⟩,
    .record (providerRecord 1 (startPayload 9 80 7)) ⟨none,0⟩]

/-- Only the last process is reported. -/
theorem stream_reports_younger :
    StreamReports (execute step State.initial youngerParent).1 ∧
      (execute step State.initial youngerParent).1.map (fun e => e.label.2.length)=[0,0,0,0,1] :=
  ⟨stream_reports (execute_run step State.initial youngerParent),by decide⟩

end Gcad.EtwParentOrder
