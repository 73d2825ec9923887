import Gcad.RansomwareRollback
import Gcad.Threat

/-!
# Acting on suspended processes

A process is suspended by arhs_engine.cpp, shown by quarantine_view.cpp, and
resumed or terminated by platform_compat.cpp after a request has passed the
gate of incident_actions.hpp. In between processes end and their numbers are
given to others. Every block under a lock, every click and every change of the
process table is one step, in any order. The view acts on the process that was
suspended or on none.
-/

namespace Gcad.ProcessSandbox

open Common ByteView Threat StepSystem
open RansomwareRollback (CowSnapshot)

/-- `IncidentAction`. -/
inductive IncidentAction where
  | none
  | rollbackFiles
  | resumeProcess
  | terminateProcess
  deriving DecidableEq

/-- `requires_confirmation`. -/
def requiresConfirmation (action : IncidentAction) : Bool := action≠.none

/-- `SandboxedProcess`. -/
structure SandboxedProcess where
  /-- The process. -/
  pid : UInt32
  /-- When it was created, which tells it from a later one of that number. -/
  creationTime : UInt64
  /-- What the list shows. -/
  name : Str
  /-- What it was held for. -/
  reason : ThreatCategory
  /-- When it was held. -/
  suspendedAt : TimePoint
  /-- The files to be restored if it is killed. -/
  snapshots : List (CowSnapshot Str)

/-- `PendingIncidentAction`. -/
structure PendingIncidentAction where
  /-- What the user chose. -/
  action : IncidentAction
  /-- The process it is about. -/
  pid : UInt32
  /-- When that process was created. -/
  creationTime : UInt64
  /-- Its name. -/
  processName : Str

/-- `IncidentActionGate::request` on `pending_`. -/
def gateRequest (pending : Option PendingIncidentAction) (action : PendingIncidentAction) :
    Option PendingIncidentAction :=
  if requiresConfirmation action.action then some action else pending

/-- The process table, the engine and the view. -/
structure State where
  /-- Creation time of the process that has a number now. -/
  live : UInt32 → Option UInt64
  /-- Calls of `suspend_process` that wait for the lock. -/
  suspending : List SandboxedProcess
  /-- The processes that are held. -/
  sandboxed : List SandboxedProcess
  /-- `rollbacks_performed_`, as far as `rollback_process` counts it. -/
  rollbacksPerformed : UInt64
  /-- `selected_item_`, none for a negative one. -/
  selectedItem : Option ℕ
  /-- `pending_` of `action_gate_`. -/
  pending : Option PendingIncidentAction

/-- A new engine and a new view on a machine with some processes. -/
def State.initial (live : UInt32 → Option UInt64) : State := ⟨live,[],[],0,none,none⟩

/-- What happens. -/
inductive Action where
  /-- A process starts. -/
  | spawn (pid : UInt32) (created : UInt64)
  /-- A process ends. -/
  | exit (pid : UInt32)
  /-- `suspend_process` up to the lock; the process can be opened and asked for
  its times or not. -/
  | suspend (pid : UInt32) (reason : ThreatCategory) (now : TimePoint) (granted : Bool)
  /-- The locked block of `suspend_process`. -/
  | file (i : ℕ)
  /-- A click on an item of the list. -/
  | select (i : ℕ)
  /-- A click on a button of the selected item. -/
  | press (action : IncidentAction)
  /-- A click on `Cancel`. -/
  | cancel
  /-- A click on `Confirm`; the process can be opened and the files can be
  written or not. -/
  | confirm (granted : Bool) (writable : ℕ → Bool)

/-- What a step does to the machine. -/
inductive Reply where
  /-- Nothing. -/
  | silent
  /-- A process is suspended. -/
  | suspended (pid : UInt32) (created : UInt64)
  /-- A process is resumed or terminated. -/
  | acted (action : IncidentAction) (pid : UInt32) (created : UInt64)
  /-- Files are written. -/
  | rolledBack (code : ErrorCode) (writes : List (Str×Bytes))

/-- `creation_time_matches`. -/
def creationTimeMatches (actual expected : UInt64) : Bool := expected≠0 && actual=expected

/-- `resume_process_if_same_instance` and `terminate_process_if_same_instance`,
on the process that has the number when it is opened. -/
def actIfSameInstance (s : State) (action : IncidentAction) (pid : UInt32) (creationTime : UInt64)
    (granted : Bool) : Reply :=
  match s.live pid with
  | none => .silent
  | some actual =>
    if granted && creationTimeMatches actual creationTime then .acted action pid actual
    else .silent

/-- The files that `rollback_process` writes for a process. -/
def rollbackWrites (process : SandboxedProcess) (writable : ℕ → Bool) : List (Str×Bytes) :=
  (process.snapshots.zipIdx.filter fun snap => writable snap.2).map fun snap =>
    (snap.1.path,snap.1.originalData)

/-- `rollback_process`. -/
def rollbackProcess (s : State) (pid : UInt32) (writable : ℕ → Bool) : State×Reply :=
  match s.sandboxed.find? fun process => process.pid=pid with
  | none => (s,.rolledBack .errRollbackFail [])
  | some process =>
    ({ s with
      rollbacksPerformed :=
        s.rollbacksPerformed+UInt64.ofNat (rollbackWrites process writable).length },
      .rolledBack .ok (rollbackWrites process writable))

/-- `execute_pending_action`. -/
def executePendingAction (s : State) (pending : PendingIncidentAction) (granted : Bool)
    (writable : ℕ → Bool) : State×Reply :=
  match pending.action with
  | .rollbackFiles => rollbackProcess s pending.pid writable
  | .resumeProcess =>
    (s,actIfSameInstance s .resumeProcess pending.pid pending.creationTime granted)
  | .terminateProcess =>
    (s,actIfSameInstance s .terminateProcess pending.pid pending.creationTime granted)
  | .none => (s,.silent)

/-- The item that is selected, if it is in the list. -/
def selected (s : State) : Option SandboxedProcess :=
  s.selectedItem.bind fun i => s.sandboxed[i]?

/-- One step. -/
def step (s : State) : Action → State×Reply
  | .spawn pid created =>
    (if s.live pid=none then { s with live := Function.update s.live pid (some created) } else s,
      .silent)
  | .exit pid => ({ s with live := Function.update s.live pid none },.silent)
  | .suspend pid reason now granted =>
    match s.live pid with
    | none => (s,.silent)
    | some created =>
      if granted then
        ({ s with suspending := s.suspending++[⟨pid,created,[],reason,now,[]⟩] },
          .suspended pid created)
      else (s,.silent)
  | .file i =>
    match s.suspending[i]? with
    | none => (s,.silent)
    | some process =>
      ({ s with
        suspending := s.suspending.eraseIdx i
        sandboxed := s.sandboxed++[process] },.silent)
  | .select i =>
    (if i < s.sandboxed.length then { s with selectedItem := some i } else s,.silent)
  | .press action =>
    match selected s with
    | none => (s,.silent)
    | some process =>
      let request : PendingIncidentAction :=
        ⟨action,process.pid,process.creationTime,process.name⟩
      ({ s with pending := gateRequest s.pending request },.silent)
  | .cancel => ({ s with pending := none },.silent)
  | .confirm granted writable =>
    match s.pending with
    | none => (s,.silent)
    | some pending => executePendingAction { s with pending := none } pending granted writable

/-- A recorded step. -/
abbrev SandboxEvent := Event State (Action×Reply)

/-- No process gets the number and the creation time of one that lived
before. -/
def Fresh (events : List SandboxEvent) : Prop :=
  events.Pairwise fun x e =>
    ∀ pid created,e.label.1=.spawn pid created → x.before.live pid≠some created

/-- A process that a step leaves alive was alive or has just started. -/
theorem live_step {s t : State} {label : Action×Reply} (h : Deterministic step s label t)
    {pid : UInt32} {created : UInt64} (alive : t.live pid=some created) :
    s.live pid=some created ∨ label.1=.spawn pid created := by
  obtain ⟨action,reply⟩ := label
  have hstep : (step s action).1=t := congrArg Prod.fst h
  subst hstep
  cases action with
  | spawn q c =>
    simp only [step] at alive
    split at alive
    · by_cases hq : pid=q
      · subst hq
        have hc : c=created := by simpa using alive
        exact .inr (by rw [hc])
      · exact .inl (by simpa [hq] using alive)
    · exact .inl alive
  | exit q =>
    by_cases hq : pid=q
    · simp [step,hq] at alive
    · exact .inl (by simpa [step,hq] using alive)
  | suspend q reason now granted =>
    simp only [step] at alive
    split at alive
    · exact .inl alive
    · split at alive <;> exact .inl alive
  | file i =>
    simp only [step] at alive
    split at alive <;> exact .inl alive
  | select i =>
    simp only [step] at alive
    split at alive <;> exact .inl alive
  | press a =>
    simp only [step] at alive
    split at alive <;> exact .inl alive
  | cancel => exact .inl alive
  | confirm granted writable =>
    simp only [step,executePendingAction,rollbackProcess] at alive
    split at alive
    · exact .inl alive
    · split at alive
      · split at alive <;> exact .inl alive
      · exact .inl alive
      · exact .inl alive
      · exact .inl alive

/-- The process that is acted on is the one that was asked for. -/
theorem actIfSameInstance_iff {s : State} {action done : IncidentAction} {pid q : UInt32}
    {creationTime created : UInt64} {granted : Bool} :
    actIfSameInstance s action pid creationTime granted=.acted done q created ↔
      (action=done ∧ pid=q ∧ creationTime=created) ∧
        granted=true ∧ creationTime≠0 ∧ s.live pid=some creationTime := by
  unfold actIfSameInstance creationTimeMatches
  cases hl : s.live pid with
  | none => simp
  | some actual =>
    by_cases hsame : actual=creationTime
    · subst hsame
      simp only [decide_true,Bool.and_true,Bool.and_eq_true,decide_eq_true_eq]
      by_cases hok : granted=true ∧ actual≠0
      · simp [hok]
      · rw [if_neg hok]
        constructor
        · intro h
          cases h
        · rintro ⟨-,hg,hc,-⟩
          exact absurd ⟨hg,hc⟩ hok
    · simp [hsame]

/-- Resuming and terminating write no files. -/
theorem actIfSameInstance_ne (s : State) (action : IncidentAction) (pid : UInt32)
    (creationTime : UInt64) (granted : Bool) (code : ErrorCode) (writes : List (Str×Bytes)) :
    actIfSameInstance s action pid creationTime granted≠.rolledBack code writes := by
  unfold actIfSameInstance
  split
  · simp
  · split <;> simp

/-- What a step leaves to confirm was there before or is requested by it for
the selected process. -/
theorem pending_step {s t : State} {label : Action×Reply} (h : Deterministic step s label t)
    {p : PendingIncidentAction} (held : t.pending=some p) :
    s.pending=some p ∨ label.1=.press p.action ∧ ∃ process,selected s=some process ∧
      p=⟨p.action,process.pid,process.creationTime,process.name⟩ := by
  obtain ⟨action,reply⟩ := label
  have hstep : (step s action).1=t := congrArg Prod.fst h
  subst hstep
  cases action with
  | spawn q c =>
    simp only [step] at held
    split at held <;> exact .inl held
  | exit q => exact .inl held
  | suspend q reason now granted =>
    simp only [step] at held
    split at held
    · exact .inl held
    · split at held <;> exact .inl held
  | file i =>
    simp only [step] at held
    split at held <;> exact .inl held
  | select i =>
    simp only [step] at held
    split at held <;> exact .inl held
  | press a =>
    cases hs : selected s with
    | none =>
      simp only [step,hs] at held
      exact .inl held
    | some process =>
      simp only [step,hs,gateRequest] at held
      split at held
      · have hp := (Option.some.inj held).symm
        subst hp
        exact .inr ⟨rfl,process,rfl,rfl⟩
      · exact .inl held
  | cancel => simp [step] at held
  | confirm granted writable =>
    simp only [step,executePendingAction,rollbackProcess] at held
    split at held
    · exact .inl held
    · split at held
      · split at held <;> simp at held
      · simp at held
      · simp at held
      · simp at held

/-- A suspended process that a step leaves in the engine was there before or is
suspended by it. -/
theorem known_step {s t : State} {label : Action×Reply} (h : Deterministic step s label t)
    {process : SandboxedProcess} (known : process ∈ t.suspending++t.sandboxed) :
    process ∈ s.suspending++s.sandboxed ∨
      label.2=.suspended process.pid process.creationTime ∧
      s.live process.pid=some process.creationTime ∧ process.snapshots=[] := by
  obtain ⟨action,reply⟩ := label
  have hreply : (step s action).2=reply := congrArg Prod.snd h
  have hstep : (step s action).1=t := congrArg Prod.fst h
  subst hstep hreply
  cases action with
  | spawn q c =>
    simp only [step] at known
    split at known <;> exact .inl known
  | exit q => exact .inl known
  | suspend q reason now granted =>
    cases hl : s.live q with
    | none =>
      simp only [step,hl] at known
      exact .inl known
    | some created =>
      cases granted with
      | false =>
        simp only [step,hl] at known
        exact .inl known
      | true =>
        simp only [step,hl,if_true,List.mem_append,List.mem_singleton] at known ⊢
        rcases known with (old | rfl) | old
        · exact .inl (.inl old)
        · exact .inr ⟨rfl,hl,rfl⟩
        · exact .inl (.inr old)
  | file i =>
    cases hi : s.suspending[i]? with
    | none =>
      simp only [step,hi] at known
      exact .inl known
    | some filed =>
      simp only [step,hi,List.mem_append,List.mem_singleton] at known ⊢
      rcases known with waiting | old | rfl
      · exact .inl (.inl (List.mem_of_mem_eraseIdx waiting))
      · exact .inl (.inr old)
      · exact .inl (.inl (List.mem_of_getElem? hi))
  | select i =>
    simp only [step] at known
    split at known <;> exact .inl known
  | press a =>
    simp only [step] at known
    split at known <;> exact .inl known
  | cancel => exact .inl known
  | confirm granted writable =>
    simp only [step,executePendingAction,rollbackProcess] at known
    split at known
    · exact .inl known
    · split at known
      · split at known <;> exact .inl known
      · exact .inl known
      · exact .inl known
      · exact .inl known

section Histories

variable {live : UInt32 → Option UInt64} {events : List SandboxEvent} {t : State}

/-- Every process in the engine was suspended earlier in the run, and nothing
is captured for it. -/
theorem known_run (run : Run (Deterministic step) (State.initial live) events t)
    {process : SandboxedProcess} (known : process ∈ t.suspending++t.sandboxed) :
    process.snapshots=[] ∧ ∃ before f after,events=before++f::after ∧
      f.label.2=.suspended process.pid process.creationTime ∧
      f.before.live process.pid=some process.creationTime := by
  induction run with
  | nil => simp [State.initial] at known
  | @snoc events s t label run step ih =>
    rcases known_step step known with old | ⟨replied,alive,captured⟩
    · obtain ⟨captured,before,f,after,rfl,replied,alive⟩ := ih old
      exact ⟨captured,before,f,after++[⟨s,label,t⟩],by simp,replied,alive⟩
    · exact ⟨captured,events,⟨s,label,t⟩,[],rfl,replied,alive⟩

/-- What waits for a confirmation was requested for the process that was
selected, and has waited unchanged since. -/
theorem pending_run (run : Run (Deterministic step) (State.initial live) events t)
    {p : PendingIncidentAction} (held : t.pending=some p) :
    ∃ front r last,events=front++r::last ∧ r.label.1=.press p.action ∧
      (∃ process,selected r.before=some process ∧
        p=⟨p.action,process.pid,process.creationTime,process.name⟩) ∧
      ∀ x ∈ r::last,x.after.pending=some p := by
  induction run with
  | nil => simp [State.initial] at held
  | @snoc events s t label run step ih =>
    rcases pending_step step held with old | ⟨pressed,process,chosen,hp⟩
    · obtain ⟨front,r,last,rfl,pressed,chosen,waited⟩ := ih old
      refine ⟨front,r,last++[⟨s,label,t⟩],by simp,pressed,chosen,?_⟩
      intro x hx
      rw [←List.cons_append,List.mem_append,List.mem_singleton] at hx
      rcases hx with hx | rfl
      · exact waited x hx
      · exact held
    · refine ⟨events,⟨s,label,t⟩,[],rfl,pressed,⟨process,chosen,hp⟩,?_⟩
      intro x hx
      rw [List.mem_singleton.mp hx]
      exact held

/-- A process that is alive before and after a part of a fresh run is alive all
the time. -/
theorem alive_throughout {start : State} (run : Run (Deterministic step) start events t)
    (fresh : Fresh events) {pid : UInt32} {created : UInt64} (alive : t.live pid=some created)
    {before after : List SandboxEvent} {f : SandboxEvent} (split : events=before++f::after)
    (lived : f.before.live pid=some created) :
    ∀ x ∈ f::after,x.after.live pid=some created := by
  induction run generalizing after with
  | nil => simp at split
  | @snoc events s t label run step ih =>
    rcases List.eq_nil_or_concat after with rfl | ⟨after,last,rfl⟩
    · have hlast : [⟨s,label,t⟩]=[f] := (List.append_inj' split rfl).2
      intro x hx
      rw [←hlast,List.mem_singleton] at hx
      rw [hx]
      exact alive
    · rw [List.concat_eq_append,←List.cons_append,←List.append_assoc] at split
      obtain ⟨hevents,hlast⟩ := List.append_inj' split rfl
      have hfresh := List.pairwise_append.mp fresh
      have hpast : s.live pid=some created := by
        rcases live_step step alive with old | spawned
        · exact old
        · have hf : f ∈ events := by simp [hevents]
          exact absurd lived (hfresh.2.2 f hf _ List.mem_cons_self pid created spawned)
      intro x hx
      rw [List.concat_eq_append,←List.cons_append,List.mem_append] at hx
      rcases hx with hx | hx
      · exact ih hfresh.1 hpast hevents x hx
      · rw [←hlast,List.mem_singleton] at hx
        rw [hx]
        exact alive

/-- The last of the recorded states is the one that is reached. -/
theorem reached {start : State} (run : Run (Deterministic step) start events t)
    {before after : List SandboxEvent} {f : SandboxEvent} (split : events=before++f::after) :
    ∃ x ∈ f::after,x.after=t := by
  rcases List.eq_nil_or_concat (f::after) with hnil | ⟨front,x,hx⟩
  · exact absurd hnil (List.cons_ne_nil _ _)
  · rw [List.concat_eq_append] at hx
    rw [split,hx,←List.append_assoc] at run
    exact ⟨x,by simp [hx],run.last_step.2.2⟩

end Histories

/-- A history that ends with a suspension and what followed it: the request for
the suspended process is made and has waited since. -/
def Requested (first since : List SandboxEvent) (p : PendingIncidentAction) : Prop :=
  ∃ before f middle r last,first=before++since ∧ since=f::(middle++r::last) ∧
    f.label.2=.suspended p.pid p.creationTime ∧
    f.before.live p.pid=some p.creationTime ∧ r.label.1=.press p.action ∧
    ∀ x ∈ r::last,x.after.pending=some p

/-- What waits for a confirmation is about a process that was suspended before
the request was made. -/
theorem requested_run {live : UInt32 → Option UInt64} {first : List SandboxEvent} {s : State}
    (run : Run (Deterministic step) (State.initial live) first s) {p : PendingIncidentAction}
    (held : s.pending=some p) : ∃ since,Requested first since p := by
  obtain ⟨front,r,last,rfl,pressed,⟨process,chosen,hp⟩,waited⟩ := pending_run run held
  have hmem : process ∈ r.before.suspending++r.before.sandboxed := by
    obtain ⟨i,-,hi⟩ := Option.bind_eq_some_iff.mp chosen
    exact List.mem_append_right _ (List.mem_of_getElem? hi)
  obtain ⟨-,before,f,middle,rfl,replied,alive⟩ := known_run run.event_step.1 hmem
  have hpid : process.pid=p.pid := by rw [hp]
  have hcreated : process.creationTime=p.creationTime := by rw [hp]
  rw [hpid,hcreated] at replied alive
  exact ⟨f::(middle++r::last),before,f,middle,r,last,by simp,rfl,replied,alive,pressed,waited⟩

/-- A process is resumed or terminated by a confirmation of the request for
it only. -/
theorem acted_step {s t : State} {label : Action×Reply} (h : Deterministic step s label t)
    {action : IncidentAction} {pid : UInt32} {created : UInt64}
    (acted : label.2=.acted action pid created) :
    ∃ granted writable name,label.1=.confirm granted writable ∧
      s.pending=some ⟨action,pid,created,name⟩ := by
  obtain ⟨done,reply⟩ := label
  have hreply : (step s done).2=reply := congrArg Prod.snd h
  simp only at acted
  rw [←hreply] at acted
  cases done with
  | spawn q c => simp [step] at acted
  | exit q => simp [step] at acted
  | suspend q reason now granted =>
    simp only [step] at acted
    split at acted
    · simp at acted
    · split at acted <;> simp at acted
  | file i =>
    simp only [step] at acted
    split at acted <;> simp at acted
  | select i => simp [step] at acted
  | press a =>
    simp only [step] at acted
    split at acted <;> simp at acted
  | cancel => simp [step] at acted
  | confirm granted writable =>
    cases hp : s.pending with
    | none => simp [step,hp] at acted
    | some p =>
      obtain ⟨wanted,q,c,name⟩ := p
      cases wanted with
      | none => simp [step,hp,executePendingAction] at acted
      | rollbackFiles =>
        simp only [step,hp,executePendingAction,rollbackProcess] at acted
        split at acted <;> simp at acted
      | resumeProcess =>
        simp only [step,hp,executePendingAction] at acted
        obtain ⟨⟨rfl,rfl,rfl⟩,-⟩ := actIfSameInstance_iff.mp acted
        exact ⟨granted,writable,name,rfl,rfl⟩
      | terminateProcess =>
        simp only [step,hp,executePendingAction] at acted
        obtain ⟨⟨rfl,rfl,rfl⟩,-⟩ := actIfSameInstance_iff.mp acted
        exact ⟨granted,writable,name,rfl,rfl⟩

/-- A confirmation of a request to resume or terminate settles it and acts as
the check of the instance allows. -/
theorem confirm_settles {s : State} {p : PendingIncidentAction} (held : s.pending=some p)
    (wanted : p.action=.resumeProcess ∨ p.action=.terminateProcess) (granted : Bool)
    (writable : ℕ → Bool) :
    step s (.confirm granted writable)=({ s with pending := none },
      actIfSameInstance s p.action p.pid p.creationTime granted) := by
  rcases wanted with hw | hw <;>
    simp only [step,held,executePendingAction,hw] <;> rfl

/-- Nothing else than resuming and terminating acts on a process. -/
theorem acted_wanted {s : State} {p : PendingIncidentAction} (held : s.pending=some p)
    {granted : Bool} {writable : ℕ → Bool} {pid : UInt32} {created : UInt64}
    (acted : (step s (.confirm granted writable)).2=.acted p.action pid created) :
    p.action=.resumeProcess ∨ p.action=.terminateProcess := by
  cases hw : p.action with
  | none => simp [step,held,executePendingAction,hw] at acted
  | rollbackFiles =>
    simp only [step,held,executePendingAction,hw,rollbackProcess] at acted
    split at acted <;> simp at acted
  | resumeProcess => exact .inl rfl
  | terminateProcess => exact .inr rfl

/-- In every run a step resumes or terminates a process exactly when it
confirms a request that was made for this process after the process was
suspended, that has waited unchanged since, and the same process has been alive
all the time. The request is settled. -/
theorem acts_on_suspended {live : UInt32 → Option UInt64} {first : List SandboxEvent} {s : State}
    (run : Run (Deterministic step) (State.initial live) first s) (fresh : Fresh first)
    (done : Action) (action : IncidentAction) (pid : UInt32) (created : UInt64) :
    ((step s done).2=.acted action pid created ↔
      ∃ writable name since,done=.confirm true writable ∧
        (action=.resumeProcess ∨ action=.terminateProcess) ∧
        s.pending=some ⟨action,pid,created,name⟩ ∧ created≠0 ∧
        Requested first since ⟨action,pid,created,name⟩ ∧
        ∀ x ∈ since,x.after.live pid=some created) ∧
    ((step s done).2=.acted action pid created → (step s done).1.pending=none) := by
  have hacted : (step s done).2=.acted action pid created →
      ∃ granted writable name,done=.confirm granted writable ∧
        (action=.resumeProcess ∨ action=.terminateProcess) ∧
        s.pending=some ⟨action,pid,created,name⟩ := by
    intro acted
    have hstep : Deterministic step s (done,(step s done).2) (step s done).1 := rfl
    obtain ⟨granted,writable,name,hdone,held⟩ := acted_step hstep acted
    simp only at hdone
    subst hdone
    exact ⟨granted,writable,name,rfl,acted_wanted held acted,held⟩
  refine ⟨⟨fun acted => ?_,?_⟩,fun acted => ?_⟩
  · obtain ⟨granted,writable,name,rfl,wanted,held⟩ := hacted acted
    rw [confirm_settles held wanted] at acted
    obtain ⟨-,hgranted,hcreated,halive⟩ := actIfSameInstance_iff.mp acted
    obtain ⟨since,before,f,middle,r,last,split,hsince,replied,lived,pressed,waited⟩ :=
      requested_run run held
    have hthroughout := alive_throughout run fresh halive (hsince ▸ split) lived
    refine ⟨writable,name,since,by rw [hgranted],wanted,held,hcreated,
      ⟨before,f,middle,r,last,split,hsince,replied,lived,pressed,waited⟩,?_⟩
    rw [hsince]
    exact hthroughout
  · rintro ⟨writable,name,since,rfl,wanted,held,hcreated,
      ⟨before,f,middle,r,last,split,hsince,-⟩,halive⟩
    obtain ⟨x,hx,hreached⟩ := reached run (hsince ▸ split)
    rw [confirm_settles held wanted]
    refine actIfSameInstance_iff.mpr ⟨⟨rfl,rfl,rfl⟩,rfl,hcreated,?_⟩
    rw [←hreached]
    exact halive x (hsince ▸ hx)
  · obtain ⟨granted,writable,name,rfl,wanted,held⟩ := hacted acted
    rw [confirm_settles held wanted]

/-- The actions of the example: a process is suspended, shown, selected and
asked to be terminated. -/
def terminateRequested : List Action :=
  [.spawn 7 100,.suspend 7 .ransomware 0 true,.file 0,.select 0,.press .terminateProcess]

/-- The process that is terminated was suspended and asked for. -/
theorem acts_on_suspended_terminate :
    ∃ name since,Requested (execute step (State.initial fun _ => none) terminateRequested).1 since
      ⟨.terminateProcess,7,100,name⟩ := by
  have fresh : Fresh (execute step (State.initial fun _ => none) terminateRequested).1 := by
    simp [Fresh,terminateRequested,execute,State.initial]
  have acted := acts_on_suspended (execute_run step _ terminateRequested) fresh
    (.confirm true fun _ => true) .terminateProcess 7 100
  obtain ⟨writable,name,since,-,-,-,-,requested,-⟩ := acted.1.mp rfl
  exact ⟨name,since,requested⟩

/-- In every run a roll back from the view writes no file: nothing is captured
for a suspended process. -/
theorem nothing_restored {live : UInt32 → Option UInt64} {first : List SandboxEvent} {s : State}
    (run : Run (Deterministic step) (State.initial live) first s) {done : Action}
    {code : ErrorCode} {writes : List (Str×Bytes)}
    (rolledBack : (step s done).2=.rolledBack code writes) : writes=[] := by
  cases done with
  | confirm granted writable =>
    cases hp : s.pending with
    | none => simp [step,hp] at rolledBack
    | some p =>
      cases hw : p.action with
      | none => simp [step,hp,executePendingAction,hw] at rolledBack
      | rollbackFiles =>
        simp only [step,hp,executePendingAction,hw,rollbackProcess] at rolledBack
        split at rolledBack
        · simp only [Reply.rolledBack.injEq] at rolledBack
          exact rolledBack.2.symm
        · next process hfound =>
          have hmem : process ∈ s.suspending++s.sandboxed :=
            List.mem_append_right _ (List.mem_of_find?_eq_some hfound)
          have hnone : process.snapshots=[] := (known_run run hmem).1
          simp only [Reply.rolledBack.injEq,rollbackWrites,hnone] at rolledBack
          exact rolledBack.2.symm
      | resumeProcess =>
        rw [confirm_settles hp (.inl hw)] at rolledBack
        exact absurd rolledBack (actIfSameInstance_ne _ _ _ _ _ _ _)
      | terminateProcess =>
        rw [confirm_settles hp (.inr hw)] at rolledBack
        exact absurd rolledBack (actIfSameInstance_ne _ _ _ _ _ _ _)
  | spawn pid created => simp [step] at rolledBack
  | exit pid => simp [step] at rolledBack
  | suspend pid reason now granted =>
    simp only [step] at rolledBack
    split at rolledBack
    · simp at rolledBack
    · split at rolledBack <;> simp at rolledBack
  | file i =>
    simp only [step] at rolledBack
    split at rolledBack <;> simp at rolledBack
  | select i => simp [step] at rolledBack
  | press a =>
    simp only [step] at rolledBack
    split at rolledBack <;> simp at rolledBack
  | cancel => simp [step] at rolledBack

end Gcad.ProcessSandbox
