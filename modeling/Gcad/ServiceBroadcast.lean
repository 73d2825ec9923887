import Gcad.ServiceIpc
import Gcad.StepSystem

/-!
# Broadcasts from the service to its clients

`ServiceIpcServer` and `ServiceIpcClient` of service_ipc.cpp on Windows. The
accepting loop, the broadcasting engines, `stop` and the listener of every
client are separate threads; the lock `clients_mtx_` is held by a broadcast
or by the end of `stop`, and everything else interleaves. A pipe instance
passes whole messages in order, is written to while both ends are open, and
loses what is unread when the server disconnects it; whether a call of the
operating system fails otherwise is an argument of its step. The messages
from clients to the server are left out: the server never reads.
-/

namespace Gcad.ServiceBroadcast

open Common ByteView Threat ServiceIpc StepSystem

/-- A pipe instance, named by the order of creation. -/
abbrev Handle := ℕ

/-- A pipe instance as the operating system keeps it. -/
structure Pipe where
  /-- Messages written by the server that the client has not read. -/
  queue : List Bytes
  /-- Whether the server's end is open and connected. -/
  serverEnd : Bool
  /-- Whether the client's handle is open. -/
  clientEnd : Bool
  deriving DecidableEq

/-- Where a listener thread stands. -/
inductive Listener where
  /-- There is none yet. -/
  | none
  /-- At the top of the loop. -/
  | waiting
  /-- The payload of a threat event has been parsed. -/
  | holding (payload : Bytes)
  /-- The loop has ended. -/
  | ended
  deriving DecidableEq

/-- One connection of a `ServiceIpcClient`. -/
structure Session where
  /-- The client believes it is connected. -/
  connected : Bool
  /-- Whether `disconnect` has not closed the handle yet. -/
  closing : Bool
  /-- Whether `threat_cb_` is set. -/
  threatCb : Bool
  /-- The thread that reads the pipe. -/
  listener : Listener

/-- Where the thread of `server_loop` stands. -/
inductive ServerLoop where
  /-- There is no such thread. -/
  | ended
  /-- At the top of the loop. -/
  | top
  /-- Behind the test of `running_`. -/
  | creating
  /-- In `ConnectNamedPipe` on an instance. -/
  | listening (h : Handle)
  /-- Behind it, with the result. -/
  | returned (h : Handle) (connected : Bool)
  /-- Waiting for the lock to add an instance. -/
  | accepted (h : Handle)

/-- The instance that the loop has in hand. -/
def ServerLoop.handle : ServerLoop → Option Handle
  | .ended | .top | .creating => none
  | .listening h | .returned h _ | .accepted h => some h

/-- Where a call of `stop` stands. -/
inductive Stopping where
  /-- There is none. -/
  | none
  /-- It is about to connect to the pipe to wake the loop. -/
  | waking
  /-- It waits for the thread of `server_loop`. -/
  | joining
  /-- It holds the lock and has these instances to close. -/
  | closing (rest : List Handle)

/-- A broadcast that holds the lock. -/
structure Broadcast where
  /-- The frame that is written. -/
  packet : Bytes
  /-- The instances that are still to be written to. -/
  rest : List Handle
  /-- The pipes it was written to and that still work. -/
  active : List Handle
  /-- An instance whose write failed and that is not closed yet. -/
  failed : Option Handle

/-- The service, the pipe instances and the clients. -/
structure State where
  /-- The server is started. -/
  running : Bool
  /-- The thread that accepts clients. -/
  loop : ServerLoop
  /-- A call of `stop`. -/
  stopping : Stopping
  /-- The pipes of the connected clients. -/
  clientPipes : List Handle
  /-- The broadcast that holds the lock. -/
  job : Option Broadcast
  /-- The next instance to be created. -/
  nextHandle : Handle
  /-- The instances. -/
  pipe : Handle → Pipe
  /-- The client at each instance. -/
  session : Handle → Session

/-- Before the service is started. -/
def State.initial : State :=
  ⟨false,.ended,.none,[],none,0,fun _ => ⟨[],false,false⟩,fun _ => ⟨false,false,false,.none⟩⟩

/-- The steps of all threads. -/
inductive Action where
  /-- The server is started. -/
  | start
  /-- The top of `server_loop`. -/
  | loopTop
  /-- The next pipe instance is created, or not. -/
  | create (ok : Bool)
  /-- A client's `connect` opens the instance; its callback may be set. -/
  | connect (threatCb : Bool)
  /-- `ConnectNamedPipe` fails. -/
  | connectFails
  /-- The loop looks at `running_` after `ConnectNamedPipe`. -/
  | checkRunning
  /-- The loop adds the instance. -/
  | register
  /-- `broadcast_threat` takes the lock. -/
  | broadcastThreat (ev : ThreatEvent)
  /-- `broadcast_status` takes the lock. -/
  | broadcastStatus (statusStr : Bytes)
  /-- `WriteFile` on the next instance. -/
  | write (ok : Bool)
  /-- `DisconnectNamedPipe` and `CloseHandle` after a failed write. -/
  | drop
  /-- The broadcast returns. -/
  | endBroadcast
  /-- `stop` up to its own connection. -/
  | stop
  /-- `stop` connects to the pipe and closes the connection. -/
  | wake (ok : Bool)
  /-- `stop` takes the lock. -/
  | join
  /-- `stop` flushes and closes one instance. -/
  | closeNext
  /-- `stop` returns. -/
  | finish
  /-- A listener's `ReadFile` and `parse_packet`. -/
  | read (h : Handle)
  /-- A listener's `deserialize_threat` and callback. -/
  | deliver (h : Handle) (now : TimePoint)
  /-- A client installs its callback. -/
  | onThreat (h : Handle)
  /-- A client's `disconnect` up to the flag. -/
  | disconnect (h : Handle)
  /-- `disconnect` closes the handle. -/
  | closeHandle (h : Handle)

/-- What a client sees. -/
inductive Reply where
  /-- Nothing. -/
  | silent
  /-- The callback gets an event. -/
  | threat (h : Handle) (ev : ThreatEvent)

/-- The bytes of a text. -/
def bytesOf (text : Str) : Bytes := text.map fun c => UInt8.ofNat c.toNat

/-- The text of some bytes. -/
def textOf (bytes : Bytes) : Str := bytes.map fun b => Char.ofNat b.toNat

/-- The packet of `broadcast_threat`. -/
def threatPacket (ev : ThreatEvent) : Bytes :=
  serializePacket IpcMsgType.threatEvent.value (bytesOf (serializeThreat ev))

/-- The packet of `broadcast_status`. -/
def statusPacket (statusStr : Bytes) : Bytes :=
  serializePacket IpcMsgType.statusResp.value statusStr

/-- Size of the buffer of `listen_loop`. -/
def bufferSize : ℕ := 16384

/-- `WriteFile`: the size is narrowed to 32 bits. -/
def writeFile (pipe : Pipe) (pkt : Bytes) (ok : Bool) : Pipe×Option ℕ :=
  if ok && pipe.serverEnd && pipe.clientEnd then
    ({ pipe with queue := pipe.queue++[pkt.take (pkt.length%2^32)] },some (pkt.length%2^32))
  else (pipe,none)

/-- `DisconnectNamedPipe` and `CloseHandle` at the server's end. -/
def disconnectPipe (pipe : Pipe) : Pipe := { pipe with queue := [],serverEnd := false }

/-- The payload of a message that `listen_loop` decodes. -/
def threatPayload (message : Bytes) : Option Bytes :=
  match parsePacket (some message) ⟨magicValue,0,0⟩ [] with
  | .ok (true,hdr,payload) =>
    if hdr.type=IpcMsgType.threatEvent.value.toNat then some payload else none
  | _ => none

/-- Where `listen_loop` stands behind `parse_packet`. -/
def afterParse (message : Bytes) : Listener :=
  match threatPayload message with
  | none => .waiting
  | some payload => .holding payload

/-- Whether the lock is free. -/
def State.unlocked (s : State) : Bool :=
  match s.job,s.stopping with
  | none,.closing _ => false
  | none,_ => true
  | some _,_ => false

/-- Replace one instance. -/
def State.setPipe (s : State) (h : Handle) (pipe : Pipe) : State :=
  { s with pipe := Function.update s.pipe h pipe }

/-- Replace one client. -/
def State.setSession (s : State) (h : Handle) (session : Session) : State :=
  { s with session := Function.update s.session h session }

/-- A broadcast takes the lock. -/
def State.beginBroadcast (s : State) (packet : Bytes) : State :=
  if s.unlocked then { s with job := some ⟨packet,s.clientPipes,[],none⟩ } else s

/-- The message that a read of `listen_loop` returns whole: the client is
connected, and the oldest message is not empty and fits the buffer. -/
def State.readable (s : State) (h : Handle) : Option Bytes :=
  if (s.session h).listener=.waiting ∧ (s.session h).connected=true ∧
      (s.pipe h).clientEnd=true then
    match (s.pipe h).queue with
    | [] => none
    | message::_ => if 0 < message.length ∧ message.length ≤ bufferSize then some message else none
  else none

/-- One round of `listen_loop` up to the parsed packet. An empty pipe blocks
while the server's end is open. -/
def State.readStep (s : State) (h : Handle) : State :=
  let session := s.session h
  let pipe := s.pipe h
  let closed := s.setSession h { session with connected := false,listener := .ended }
  if session.listener≠.waiting then s
  else if session.connected=false ∨ pipe.clientEnd=false then closed
  else
    match pipe.queue,s.readable h with
    | [],_ => if pipe.serverEnd then s else closed
    | message::rest,none =>
      closed.setPipe h { pipe with queue := message.drop bufferSize::rest }
    | _::rest,some message =>
      (s.setPipe h { pipe with queue := rest }).setSession h
        { session with listener := afterParse message }

/-- One step. A step that its thread cannot take does nothing. -/
def step (s : State) : Action → State×Reply
  | .start =>
    match s.running,s.loop,s.stopping with
    | false,.ended,.none => ({ s with running := true,loop := .top },.silent)
    | _,_,_ => (s,.silent)
  | .loopTop =>
    match s.loop with
    | .top => ({ s with loop := if s.running then .creating else .ended },.silent)
    | _ => (s,.silent)
  | .create ok =>
    match s.loop,ok with
    | .creating,true =>
      ({ s.setPipe s.nextHandle ⟨[],true,false⟩ with
        nextHandle := s.nextHandle+1,loop := .listening s.nextHandle },.silent)
    | .creating,false => ({ s with loop := .top },.silent)
    | _,_ => (s,.silent)
  | .connect threatCb =>
    match s.loop with
    | .listening h =>
      ({ (s.setPipe h { s.pipe h with clientEnd := true }).setSession h
          ⟨true,false,threatCb,.waiting⟩ with loop := .returned h true },.silent)
    | _ => (s,.silent)
  | .connectFails =>
    match s.loop with
    | .listening h => ({ s with loop := .returned h false },.silent)
    | _ => (s,.silent)
  | .checkRunning =>
    match s.loop with
    | .returned h connected =>
      if !s.running then
        ({ s.setPipe h (disconnectPipe (s.pipe h)) with loop := .ended },.silent)
      else if connected then ({ s with loop := .accepted h },.silent)
      else ({ s.setPipe h (disconnectPipe (s.pipe h)) with loop := .top },.silent)
    | _ => (s,.silent)
  | .register =>
    match s.loop,s.unlocked with
    | .accepted h,true => ({ s with clientPipes := s.clientPipes++[h],loop := .top },.silent)
    | _,_ => (s,.silent)
  | .broadcastThreat ev => (s.beginBroadcast (threatPacket ev),.silent)
  | .broadcastStatus statusStr => (s.beginBroadcast (statusPacket statusStr),.silent)
  | .write ok =>
    match s.job with
    | some ⟨packet,h::rest,active,none⟩ =>
      let written := writeFile (s.pipe h) packet ok
      if written.2=some packet.length then
        ({ s.setPipe h written.1 with job := some ⟨packet,rest,active++[h],none⟩ },.silent)
      else ({ s.setPipe h written.1 with job := some ⟨packet,rest,active,some h⟩ },.silent)
    | _ => (s,.silent)
  | .drop =>
    match s.job with
    | some ⟨packet,rest,active,some h⟩ =>
      ({ s.setPipe h (disconnectPipe (s.pipe h)) with
        job := some ⟨packet,rest,active,none⟩ },.silent)
    | _ => (s,.silent)
  | .endBroadcast =>
    match s.job with
    | some ⟨_,[],active,none⟩ => ({ s with clientPipes := active,job := none },.silent)
    | _ => (s,.silent)
  | .stop =>
    if s.running then ({ s with running := false,stopping := .waking },.silent) else (s,.silent)
  | .wake ok =>
    match s.stopping,s.loop,ok with
    | .waking,.listening h,true =>
      ({ s with loop := .returned h true,stopping := .joining },.silent)
    | .waking,_,_ => ({ s with stopping := .joining },.silent)
    | _,_,_ => (s,.silent)
  | .join =>
    match s.stopping,s.loop,s.job with
    | .joining,.ended,none => ({ s with stopping := .closing s.clientPipes },.silent)
    | _,_,_ => (s,.silent)
  | .closeNext =>
    match s.stopping with
    | .closing (h::rest) =>
      if (s.pipe h).queue=[] ∨ (s.pipe h).clientEnd=false then
        ({ s.setPipe h (disconnectPipe (s.pipe h)) with stopping := .closing rest },.silent)
      else (s,.silent)
    | _ => (s,.silent)
  | .finish =>
    match s.stopping with
    | .closing [] => ({ s with clientPipes := [],stopping := .none },.silent)
    | _ => (s,.silent)
  | .read h => (s.readStep h,.silent)
  | .deliver h now =>
    match (s.session h).listener with
    | .holding payload =>
      (s.setSession h { s.session h with listener := .waiting },
        if (s.session h).threatCb then .threat h (deserializeThreat .bits32 (textOf payload) now)
        else .silent)
    | _ => (s,.silent)
  | .onThreat h => (s.setSession h { s.session h with threatCb := true },.silent)
  | .disconnect h =>
    if (s.session h).connected then
      (s.setSession h { s.session h with connected := false,closing := true },.silent)
    else (s,.silent)
  | .closeHandle h =>
    if (s.session h).closing then
      ((s.setPipe h { s.pipe h with clientEnd := false }).setSession h
        { s.session h with closing := false },.silent)
    else (s,.silent)

/-- A recorded step. -/
abbrev Step := Event State (Action×Reply)

/-- The packet of a broadcast that begins while an instance is registered. -/
def begunBy (h : Handle) (e : Step) : Option Bytes :=
  if e.before.unlocked=true ∧ h ∈ e.before.clientPipes then
    match e.label.1 with
    | .broadcastThreat ev => some (threatPacket ev)
    | .broadcastStatus statusStr => some (statusPacket statusStr)
    | _ => none
  else none

/-- The packet that is written to an instance in full. -/
def sentBy (h : Handle) (e : Step) : Option Bytes :=
  match e.label.1,e.before.job with
  | .write ok,some ⟨packet,first::_,_,none⟩ =>
    if first=h ∧ (writeFile (e.before.pipe h) packet ok).2=some packet.length then some packet
    else none
  | _,_ => none

/-- The message that the client at an instance reads. -/
def gotBy (h : Handle) (e : Step) : Option Bytes :=
  match e.label.1 with
  | .read other => if other=h then e.before.readable h else none
  | _ => none

/-- Packets of the broadcasts that began while an instance was registered. -/
def begun (h : Handle) (events : List Step) : List Bytes := events.filterMap (begunBy h)

/-- Packets that were written to an instance in full. -/
def sent (h : Handle) (events : List Step) : List Bytes := events.filterMap (sentBy h)

/-- Messages that the client at an instance has read. -/
def got (h : Handle) (events : List Step) : List Bytes := events.filterMap (gotBy h)

/-- The instances that a broadcast reaches: those registered, or those that
the running broadcast has not dropped. -/
def State.alive (s : State) : List Handle :=
  match s.job with
  | none => s.clientPipes
  | some job => job.active++job.rest

/-- What the running broadcast still has to write to an instance. -/
def State.owed (s : State) (h : Handle) : List Bytes :=
  match s.job with
  | none => []
  | some job => if h ∈ job.rest then [job.packet] else []

/-- An instance that is not registered yet. -/
def State.Fresh (s : State) (h : Handle) : Prop := s.nextHandle ≤ h ∨ s.loop.handle=some h

/-- A listener whose loop has not ended. -/
def Listener.runs : Listener → Bool
  | .waiting | .holding _ => true
  | _ => false

/-- The registered instances are distinct and none of them is fresh. -/
structure Wellformed (s : State) : Prop where
  /-- They are distinct. -/
  nodup : s.alive.Nodup
  /-- None is fresh. -/
  known : ∀ h ∈ s.alive,¬s.Fresh h
  /-- The instance in hand has been created. -/
  created : ∀ h,s.loop.handle=some h → h < s.nextHandle

section Steps

variable {s t : State} {action : Action} {reply : Reply}

/-- The first state has no instances. -/
theorem wellformed_initial : Wellformed State.initial :=
  ⟨List.nodup_nil,fun _ h => absurd h List.not_mem_nil,fun _ h => nomatch h⟩

/-- What matters for the bookkeeping is kept by a step that changes neither
the registered instances nor the loop. -/
theorem Wellformed.congr (h : Wellformed s) (halive : t.alive=s.alive)
    (hnext : t.nextHandle=s.nextHandle) (hloop : t.loop.handle=s.loop.handle) :
    Wellformed t := by
  refine ⟨halive ▸ h.nodup,fun handle hmem => ?_,fun handle hheld => ?_⟩
  · rw [State.Fresh,hnext,hloop]
    exact h.known handle (halive ▸ hmem)
  · rw [hnext]
    exact h.created handle (hloop ▸ hheld)

/-- A round of a listener touches only its own instance and client. -/
theorem readStep_frame (s : State) (h : Handle) :
    (s.readStep h).alive=s.alive ∧ (s.readStep h).nextHandle=s.nextHandle ∧
      (s.readStep h).loop=s.loop ∧ (s.readStep h).job=s.job := by
  unfold State.readStep
  dsimp only
  split
  · exact ⟨rfl,rfl,rfl,rfl⟩
  · split
    · exact ⟨rfl,rfl,rfl,rfl⟩
    · split
      · split <;> exact ⟨rfl,rfl,rfl,rfl⟩
      · exact ⟨rfl,rfl,rfl,rfl⟩
      · exact ⟨rfl,rfl,rfl,rfl⟩

/-- No broadcast runs while the lock is free. -/
theorem job_of_unlocked (h : s.unlocked=true) : s.job=none := by
  unfold State.unlocked at h
  split at h
  · cases h
  · next hjob _ => exact hjob
  · cases h

/-- A broadcast that begins reaches the registered instances. -/
theorem beginBroadcast_frame (s : State) (packet : Bytes) :
    (s.beginBroadcast packet).alive=s.alive ∧
      (s.beginBroadcast packet).nextHandle=s.nextHandle ∧
      (s.beginBroadcast packet).loop=s.loop ∧ (s.beginBroadcast packet).pipe=s.pipe ∧
      (s.beginBroadcast packet).session=s.session := by
  unfold State.beginBroadcast
  split
  · next hfree => exact ⟨by rw [State.alive,State.alive,job_of_unlocked hfree]; rfl,rfl,rfl,rfl,rfl⟩
  · exact ⟨rfl,rfl,rfl,rfl,rfl⟩

/-- Every step keeps the bookkeeping of the instances. -/
theorem wellformed_step (hwell : Wellformed s) (hstep : step s action=(t,reply)) :
    Wellformed t := by
  have hcongr : s.alive=t.alive → s.nextHandle=t.nextHandle → s.loop.handle=t.loop.handle →
      Wellformed t := fun ha hn hl => hwell.congr ha.symm hn.symm hl.symm
  cases action with
  | start =>
    simp only [step] at hstep
    split at hstep <;> obtain ⟨rfl,-⟩ := Prod.mk.inj hstep
    · next hloop _ => exact hcongr rfl rfl (by rw [hloop]; rfl)
    · exact hwell
  | loopTop =>
    simp only [step] at hstep
    split at hstep <;> obtain ⟨rfl,-⟩ := Prod.mk.inj hstep
    · next hloop => exact hcongr rfl rfl (by rw [hloop]; dsimp only; split <;> rfl)
    · exact hwell
  | create ok =>
    simp only [step] at hstep
    split at hstep <;> obtain ⟨rfl,-⟩ := Prod.mk.inj hstep
    · next hloop =>
      refine ⟨hwell.nodup,fun h hmem hfresh => ?_,fun h hheld => ?_⟩
      · have hold : ¬s.Fresh h := hwell.known h hmem
        change s.nextHandle+1 ≤ h ∨ some s.nextHandle=some h at hfresh
        rw [Option.some.injEq] at hfresh
        exact hold (.inl (hfresh.elim Nat.le_of_succ_le Nat.le_of_eq))
      · obtain rfl := Option.some.inj hheld
        exact Nat.lt_succ_self _
    · next hloop => exact hcongr rfl rfl (by rw [hloop]; rfl)
    · exact hwell
  | connect threatCb =>
    simp only [step] at hstep
    split at hstep <;> obtain ⟨rfl,-⟩ := Prod.mk.inj hstep
    · next hloop => exact hcongr rfl rfl (by rw [hloop]; rfl)
    · exact hwell
  | connectFails =>
    simp only [step] at hstep
    split at hstep <;> obtain ⟨rfl,-⟩ := Prod.mk.inj hstep
    · next hloop => exact hcongr rfl rfl (by rw [hloop]; rfl)
    · exact hwell
  | checkRunning =>
    simp only [step] at hstep
    split at hstep
    · next h connected hloop =>
      have hdone : ∀ loop : ServerLoop,loop.handle=none → ∀ pipe,
          Wellformed { s with pipe := pipe,loop := loop } := by
        intro loop hnone pipe
        refine ⟨hwell.nodup,fun other hmem hfresh => ?_,fun other hheld => ?_⟩
        · simp only [State.Fresh,hnone,reduceCtorEq,or_false] at hfresh
          exact hwell.known other hmem (.inl hfresh)
        · rw [hnone] at hheld
          cases hheld
      split at hstep
      · obtain ⟨rfl,-⟩ := Prod.mk.inj hstep
        exact hdone _ rfl _
      · split at hstep <;> obtain ⟨rfl,-⟩ := Prod.mk.inj hstep
        · exact hcongr rfl rfl (by rw [hloop]; rfl)
        · exact hdone _ rfl _
    · obtain ⟨rfl,-⟩ := Prod.mk.inj hstep
      exact hwell
  | register =>
    simp only [step] at hstep
    split at hstep <;> obtain ⟨rfl,-⟩ := Prod.mk.inj hstep
    · next h hloop hfree =>
      have hjob := job_of_unlocked hfree
      have halive : s.alive=s.clientPipes := by rw [State.alive,hjob]
      have hheld : s.loop.handle=some h := by rw [hloop]; rfl
      refine ⟨?_,fun other hmem hfresh => ?_,fun other hother => nomatch hother⟩
      · simp only [State.alive,hjob]
        rw [← halive]
        refine List.nodup_append.mpr ⟨hwell.nodup,List.nodup_singleton h,?_⟩
        intro other hmem same hsame heq
        rw [List.mem_singleton] at hsame
        exact hwell.known other hmem (.inr (by rw [hheld,heq,hsame]))
      · simp only [State.alive,hjob,List.mem_append,List.mem_singleton] at hmem
        simp only [State.Fresh,ServerLoop.handle,reduceCtorEq,or_false] at hfresh
        rcases hmem with hmem | rfl
        · exact hwell.known other (halive ▸ hmem) (.inl hfresh)
        · exact absurd (hwell.created other hheld) (Nat.not_lt.mpr hfresh)
    · exact hwell
  | broadcastThreat ev =>
    obtain ⟨rfl,-⟩ := Prod.mk.inj hstep
    obtain ⟨halive,hnext,hloop,-⟩ := beginBroadcast_frame s (threatPacket ev)
    exact hcongr halive.symm hnext.symm (by rw [hloop])
  | broadcastStatus statusStr =>
    obtain ⟨rfl,-⟩ := Prod.mk.inj hstep
    obtain ⟨halive,hnext,hloop,-⟩ := beginBroadcast_frame s (statusPacket statusStr)
    exact hcongr halive.symm hnext.symm (by rw [hloop])
  | write ok =>
    simp only [step] at hstep
    split at hstep
    · next packet h rest active hjob =>
      have halive : s.alive=active++h::rest := by rw [State.alive,hjob]
      split at hstep <;> obtain ⟨rfl,-⟩ := Prod.mk.inj hstep
      · refine hcongr ?_ rfl rfl
        rw [halive]
        exact List.append_cons active h rest
      · have hsub : (active++rest).Sublist s.alive := by
          rw [halive]
          exact (List.Sublist.refl active).append (List.sublist_cons_self h rest)
        exact ⟨hwell.nodup.sublist hsub,fun other hmem => hwell.known other (hsub.subset hmem),
          hwell.created⟩
    · obtain ⟨rfl,-⟩ := Prod.mk.inj hstep
      exact hwell
  | drop =>
    simp only [step] at hstep
    split at hstep <;> obtain ⟨rfl,-⟩ := Prod.mk.inj hstep
    · next hjob => exact hcongr (by simp only [State.alive,hjob]) rfl rfl
    · exact hwell
  | endBroadcast =>
    simp only [step] at hstep
    split at hstep <;> obtain ⟨rfl,-⟩ := Prod.mk.inj hstep
    · next hjob => exact hcongr (by simp only [State.alive,hjob,List.append_nil]) rfl rfl
    · exact hwell
  | stop =>
    simp only [step] at hstep
    split at hstep <;> obtain ⟨rfl,-⟩ := Prod.mk.inj hstep <;> exact hcongr rfl rfl rfl
  | wake ok =>
    simp only [step] at hstep
    split at hstep <;> obtain ⟨rfl,-⟩ := Prod.mk.inj hstep
    · next hloop => exact hcongr rfl rfl (by rw [hloop]; rfl)
    · exact hcongr rfl rfl rfl
    · exact hwell
  | join =>
    simp only [step] at hstep
    split at hstep <;> obtain ⟨rfl,-⟩ := Prod.mk.inj hstep
    · next hjob => exact hcongr (by simp only [State.alive,hjob]) rfl rfl
    · exact hwell
  | closeNext =>
    simp only [step] at hstep
    split at hstep
    · split at hstep <;> obtain ⟨rfl,-⟩ := Prod.mk.inj hstep <;> exact hcongr rfl rfl rfl
    · obtain ⟨rfl,-⟩ := Prod.mk.inj hstep
      exact hwell
  | finish =>
    simp only [step] at hstep
    split at hstep <;> obtain ⟨rfl,-⟩ := Prod.mk.inj hstep
    · have hsub : ({ s with clientPipes := [],stopping := .none } : State).alive.Sublist
          s.alive := by
        unfold State.alive
        cases s.job with
        | none => exact List.nil_sublist _
        | some job => exact .refl _
      exact ⟨hwell.nodup.sublist hsub,fun other hmem => hwell.known other (hsub.subset hmem),
        hwell.created⟩
    · exact hwell
  | read h =>
    obtain ⟨rfl,-⟩ := Prod.mk.inj hstep
    obtain ⟨halive,hnext,hloop,-⟩ := readStep_frame s h
    exact hcongr halive.symm hnext.symm (by rw [hloop])
  | deliver h now =>
    simp only [step] at hstep
    split at hstep <;> obtain ⟨rfl,-⟩ := Prod.mk.inj hstep <;> exact hcongr rfl rfl rfl
  | onThreat h =>
    obtain ⟨rfl,-⟩ := Prod.mk.inj hstep
    exact hcongr rfl rfl rfl
  | disconnect h =>
    simp only [step] at hstep
    split at hstep <;> obtain ⟨rfl,-⟩ := Prod.mk.inj hstep <;> exact hcongr rfl rfl rfl
  | closeHandle h =>
    simp only [step] at hstep
    split at hstep <;> obtain ⟨rfl,-⟩ := Prod.mk.inj hstep <;> exact hcongr rfl rfl rfl

end Steps

end Gcad.ServiceBroadcast
