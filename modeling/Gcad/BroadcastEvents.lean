import Gcad.BroadcastDelivery

/-!
# Threat events at the clients

What a client decodes from the messages it has read, and what its callback
gets. The order of the messages is that of the broadcasts, so the decoded
events are the broadcast threat events up to where the client is, for events
that survive the transport as text.
-/

namespace Gcad.BroadcastEvents

open Common ByteView Threat ServiceIpc StepSystem ServiceBroadcast BroadcastDelivery

/-- The payload that a listener holds. -/
def held : Listener → List Bytes
  | .holding payload => [payload]
  | _ => []

/-- The payload that a listener decodes in a step, with the time. -/
def decodedBy (h : Handle) (e : Step) : Option (Bytes×TimePoint) :=
  match e.label.1 with
  | .deliver other now =>
    if other=h then (held (e.before.session h).listener).head?.map (·,now) else none
  | _ => none

/-- The event that the callback of a client gets in a step. -/
def receivedBy (h : Handle) (e : Step) : Option ThreatEvent :=
  match e.label.2 with
  | .threat other ev => if other=h then some ev else none
  | .silent => none

/-- The threat event whose broadcast begins while an instance is registered. -/
def threatBy (h : Handle) (e : Step) : Option ThreatEvent :=
  if e.before.unlocked=true ∧ h ∈ e.before.clientPipes then
    match e.label.1 with
    | .broadcastThreat ev => some ev
    | _ => none
  else none

/-- What `listen_loop` makes of a payload. -/
def decode (item : Bytes×TimePoint) : ThreatEvent :=
  deserializeThreat .bits32 (textOf item.1) item.2

/-- The payloads that a client has decoded. -/
def decodedPayloads (h : Handle) (events : List Step) : List (Bytes×TimePoint) :=
  events.filterMap (decodedBy h)

/-- The events that a client has decoded, with or without a callback. -/
def decoded (h : Handle) (events : List Step) : List ThreatEvent :=
  (decodedPayloads h events).map decode

/-- The events that the callback of a client has got. -/
def received (h : Handle) (events : List Step) : List ThreatEvent :=
  events.filterMap (receivedBy h)

/-- The threat events broadcast since an instance was registered. -/
def threats (h : Handle) (events : List Step) : List ThreatEvent :=
  events.filterMap (threatBy h)

/-- What a step makes of whether `on_threat` has been called for the client at
an instance. A call before `connect` comes with the connection. -/
def callbackAfter (h : Handle) (called : Bool) (e : Step) : Bool :=
  match e.label.1,e.before.loop with
  | .connect threatCb,.listening first => if first=h then threatCb else called
  | .onThreat other,_ => if other=h then true else called
  | _,_ => called

/-- `on_threat` has been called for the client at an instance. -/
def hasCallback (h : Handle) (events : List Step) : Bool :=
  events.foldl (callbackAfter h) false

/-- Every character of a text stands for a byte. -/
def ByteText (text : Str) : Prop := ∀ c ∈ text,c.toNat < 256

section Payloads

/-- A text goes through the pipe unchanged. -/
theorem textOf_bytesOf {text : Str} (h : ByteText text) : textOf (bytesOf text)=text := by
  induction text with
  | nil => rfl
  | cons c rest ih =>
    have hc : Char.ofNat (UInt8.ofNat c.toNat).toNat=c := by
      rw [UInt8.toNat_ofNat',Nat.mod_eq_of_lt (h c List.mem_cons_self),Char.ofNat_toNat]
    have hrest := ih fun c' hmem => h c' (List.mem_cons_of_mem c hmem)
    simp only [textOf,bytesOf,List.map_cons] at hrest ⊢
    rw [hc,hrest]

/-- A client takes the payload out of a packet of the server exactly when it
carries a threat event. -/
theorem threatPayload_serializePacket (type : UInt16) {payload : Bytes}
    (h : payload.length < 2^32) :
    threatPayload (serializePacket type payload)=
      if type.toNat=IpcMsgType.threatEvent.value.toNat then some payload else none := by
  obtain ⟨hholds,hheader,hslice⟩ := serializePacket_holds type h []
  have hparse := parsePacket_holds hholds ⟨magicValue,0,0⟩ []
  rw [hheader,hslice,List.append_nil] at hparse
  rw [threatPayload,hparse]

/-- A packet is longer than its payload. -/
theorem payload_length_lt {type : UInt16} {payload : Bytes} {bound : ℕ}
    (h : (serializePacket type payload).length < bound) : payload.length < bound := by
  rw [serializePacket,List.length_append] at h
  omega

/-- The payload a client would take out of a broadcast is that of its threat
event. -/
theorem begunBy_payload {h : Handle} {e : Step}
    (hsize : ∀ packet,begunBy h e=some packet → packet.length < 2^32) :
    (begunBy h e).bind threatPayload=
      (threatBy h e).map fun ev => bytesOf (serializeThreat ev) := by
  unfold begunBy threatBy at *
  split
  · next hreached =>
    rw [if_pos hreached] at hsize
    obtain ⟨before,⟨action,reply⟩,after⟩ := e
    cases action with
    | broadcastThreat ev =>
      exact (threatPayload_serializePacket _ (payload_length_lt (hsize _ rfl))).trans (if_pos rfl)
    | broadcastStatus statusStr =>
      have hother : ¬IpcMsgType.statusResp.value.toNat=IpcMsgType.threatEvent.value.toNat := by
        decide
      exact (threatPayload_serializePacket _ (payload_length_lt (hsize _ rfl))).trans
        (if_neg hother)
    | _ => rfl
  · rfl

/-- The payloads of all broadcasts are those of the threat events. -/
theorem begun_payloads {h : Handle} {events : List Step}
    (hsize : ∀ packet ∈ begun h events,packet.length < 2^32) :
    (begun h events).filterMap threatPayload=
      (threats h events).map fun ev => bytesOf (serializeThreat ev) := by
  rw [begun,threats,List.filterMap_filterMap,List.map_filterMap]
  refine List.filterMap_congr fun e he => begunBy_payload fun packet hpacket => ?_
  exact hsize packet (List.mem_filterMap.mpr ⟨e,he,hpacket⟩)

end Payloads

section Listeners

variable {s t : State} {action : Action} {reply : Reply} {h : Handle}

/-- What one step does to the client at one instance. -/
inductive Heard (h : Handle) (e : Step) : Prop where
  /-- A message is read, or nothing happens. -/
  | read (decoded : decodedBy h e=none) (received : receivedBy h e=none)
      (held : held (e.after.session h).listener=
        held (e.before.session h).listener++((gotBy h e).bind threatPayload).toList)
      (callback : (e.before.session h).threatCb=true → (e.after.session h).threatCb=true)
  /-- The payload at hand is decoded. -/
  | decoded (item : Bytes×TimePoint) (decoded : decodedBy h e=some item)
      (got : gotBy h e=none)
      (received : receivedBy h e=
        if (e.before.session h).threatCb=true then some (decode item) else none)
      (before : held (e.before.session h).listener=[item.1])
      (after : held (e.after.session h).listener=[])
      (callback : (e.after.session h).threatCb=(e.before.session h).threatCb)
  /-- The connection is made. -/
  | connected (decoded : decodedBy h e=none) (received : receivedBy h e=none)
      (got : gotBy h e=none) (fresh : e.before.Fresh h)
      (held : held (e.after.session h).listener=[])

/-- A step that leaves the client alone. -/
theorem Heard.quiet (hdecoded : decodedBy h ⟨s,(action,reply),t⟩=none)
    (hreceived : receivedBy h ⟨s,(action,reply),t⟩=none)
    (hgot : gotBy h ⟨s,(action,reply),t⟩=none) (hsession : t.session h=s.session h) :
    Heard h ⟨s,(action,reply),t⟩ := by
  refine .read hdecoded hreceived ?_ ?_
  · rw [hsession,hgot,Option.bind_none,Option.toList_none,List.append_nil]
  · rw [hsession]
    exact id

/-- The client at the instance that is read. -/
theorem read_heard (s : State) (h : Handle) :
    Heard h ⟨s,(.read h,.silent),s.readStep h⟩ := by
  have hgot : gotBy h ⟨s,(.read h,.silent),s.readStep h⟩=s.readable h := if_pos rfl
  refine .read rfl rfl ?_ ?_
  · rw [hgot]
    cases hread : s.readable h with
    | some message =>
      obtain ⟨hwaiting,hconnected,hopen,-,-,rest,hqueue⟩ := readable_eq_some hread
      simp only [State.readStep,hwaiting,hconnected,hopen,hqueue,hread,ne_eq,not_true_eq_false,
        if_false,or_self,reduceCtorEq,State.setSession,Function.update_self,Option.bind_some,
        afterParse]
      cases threatPayload message <;> rfl
    | none =>
      rw [Option.bind_none,Option.toList_none,List.append_nil]
      unfold State.readStep
      dsimp only
      rw [hread]
      split
      · rfl
      · next hwaiting =>
        have hnone : held (s.session h).listener=[] := by
          rw [not_not.mp hwaiting]
          rfl
        rw [hnone]
        split
        · simp [State.setSession,held]
        · split
          · split
            · exact hnone
            · simp [State.setSession,held]
          · simp [State.setSession,State.setPipe,held]
          · next hsome => cases hsome
  · unfold State.readStep
    dsimp only
    split
    · exact id
    · split
      · simp [State.setSession]
      · split
        · split
          · exact id
          · simp [State.setSession]
        · simp [State.setSession,State.setPipe]
        · simp [State.setSession]

/-- Whatever a step does, it has one of the effects on each client. -/
theorem step_heard (hstep : step s action=(t,reply)) : Heard h ⟨s,(action,reply),t⟩ := by
  cases action with
  | connect threatCb =>
    simp only [step] at hstep
    split at hstep <;> obtain ⟨rfl,rfl⟩ := Prod.mk.inj hstep
    · next first hloop =>
      by_cases hfirst : h=first
      · subst hfirst
        refine .connected rfl rfl rfl (.inr ?_) ?_
        · rw [hloop]
          rfl
        · simp [State.setSession,held]
      · exact .quiet rfl rfl rfl (Function.update_of_ne hfirst _ _)
    · exact .quiet rfl rfl rfl rfl
  | broadcastThreat ev =>
    obtain ⟨rfl,rfl⟩ := Prod.mk.inj hstep
    exact .quiet rfl rfl rfl (by rw [(beginBroadcast_frame s _).2.2.2.2])
  | broadcastStatus statusStr =>
    obtain ⟨rfl,rfl⟩ := Prod.mk.inj hstep
    exact .quiet rfl rfl rfl (by rw [(beginBroadcast_frame s _).2.2.2.2])
  | read other =>
    obtain ⟨rfl,rfl⟩ := Prod.mk.inj hstep
    by_cases hother : h=other
    · subst hother
      exact read_heard s h
    · exact .quiet rfl rfl (if_neg (Ne.symm hother)) (read_other (s := s) hother).2
  | deliver other now =>
    simp only [step] at hstep
    split at hstep <;> obtain ⟨rfl,rfl⟩ := Prod.mk.inj hstep
    · next payload hlistener =>
      by_cases hother : h=other
      · subst hother
        refine .decoded (payload,now) ?_ rfl ?_ ?_ ?_ ?_
        · simp [decodedBy,hlistener,held]
        · simp only [receivedBy]
          cases (s.session h).threatCb <;> simp [decode]
        · rw [hlistener]
          rfl
        · simp [State.setSession,held]
        · simp [State.setSession]
      · refine .quiet (if_neg (Ne.symm hother)) ?_ rfl (Function.update_of_ne hother _ _)
        unfold receivedBy
        dsimp only
        cases (s.session other).threatCb with
        | true => exact if_neg (Ne.symm hother)
        | false => rfl
    · next hnone =>
      refine .quiet ?_ rfl rfl rfl
      simp only [decodedBy]
      split
      · next hsame =>
        subst hsame
        cases hlistener : (s.session other).listener with
        | holding payload => exact absurd hlistener (hnone payload)
        | _ => rfl
      · rfl
  | onThreat other =>
    obtain ⟨rfl,rfl⟩ := Prod.mk.inj hstep
    by_cases hother : h=other
    · subst hother
      exact .read rfl rfl (by simp [State.setSession,gotBy]) (by simp [State.setSession])
    · exact .quiet rfl rfl rfl (Function.update_of_ne hother _ _)
  | disconnect other =>
    simp only [step] at hstep
    split at hstep <;> obtain ⟨rfl,rfl⟩ := Prod.mk.inj hstep
    · by_cases hother : h=other
      · subst hother
        exact .read rfl rfl (by simp [State.setSession,gotBy]) (by simp [State.setSession])
      · exact .quiet rfl rfl rfl (Function.update_of_ne hother _ _)
    · exact .quiet rfl rfl rfl rfl
  | closeHandle other =>
    simp only [step] at hstep
    split at hstep <;> obtain ⟨rfl,rfl⟩ := Prod.mk.inj hstep
    · by_cases hother : h=other
      · subst hother
        exact .read rfl rfl (by simp [State.setSession,gotBy]) (by simp [State.setSession])
      · exact .quiet rfl rfl rfl (Function.update_of_ne hother _ _)
    · exact .quiet rfl rfl rfl rfl
  | checkRunning =>
    simp only [step] at hstep
    split at hstep
    · split at hstep
      · obtain ⟨rfl,rfl⟩ := Prod.mk.inj hstep
        exact .quiet rfl rfl rfl rfl
      · split at hstep <;> obtain ⟨rfl,rfl⟩ := Prod.mk.inj hstep <;> exact .quiet rfl rfl rfl rfl
    · obtain ⟨rfl,rfl⟩ := Prod.mk.inj hstep
      exact .quiet rfl rfl rfl rfl
  | write ok =>
    simp only [step] at hstep
    split at hstep
    · split at hstep <;> obtain ⟨rfl,rfl⟩ := Prod.mk.inj hstep <;> exact .quiet rfl rfl rfl rfl
    · obtain ⟨rfl,rfl⟩ := Prod.mk.inj hstep
      exact .quiet rfl rfl rfl rfl
  | closeNext =>
    simp only [step] at hstep
    split at hstep
    · split at hstep <;> obtain ⟨rfl,rfl⟩ := Prod.mk.inj hstep <;> exact .quiet rfl rfl rfl rfl
    · obtain ⟨rfl,rfl⟩ := Prod.mk.inj hstep
      exact .quiet rfl rfl rfl rfl
  | _ =>
    simp only [step] at hstep
    split at hstep <;> obtain ⟨rfl,rfl⟩ := Prod.mk.inj hstep <;> exact .quiet rfl rfl rfl rfl

end Listeners

/-- A read leaves the callbacks alone. -/
theorem readStep_callback (s : State) (other h : Handle) :
    ((s.readStep other).session h).threatCb=(s.session h).threatCb := by
  by_cases hother : h=other
  · subst hother
    unfold State.readStep
    dsimp only
    split
    · rfl
    · split
      · simp [State.setSession]
      · split
        · split
          · rfl
          · simp [State.setSession]
        · simp [State.setSession,State.setPipe]
        · simp [State.setSession]
  · rw [(read_other (s := s) hother).2]

/-- A step that replaces a client by one with the same callback. -/
theorem setSession_callback (s : State) (other h : Handle) {session : Session}
    (same : session.threatCb=(s.session other).threatCb) :
    ((s.setSession other session).session h).threatCb=(s.session h).threatCb := by
  by_cases hother : h=other
  · subst hother
    exact (congrArg Session.threatCb (Function.update_self ..)).trans same
  · exact congrArg Session.threatCb (Function.update_of_ne hother ..)

/-- A client holds a callback exactly if `on_threat` has been called for it. -/
theorem step_callback (hstep : step s action=(t,reply)) (h : Handle) :
    (t.session h).threatCb=callbackAfter h (s.session h).threatCb ⟨s,(action,reply),t⟩ := by
  cases action with
  | connect threatCb =>
    cases hloop : s.loop with
    | listening first =>
      simp only [step,hloop] at hstep
      obtain ⟨rfl,rfl⟩ := Prod.mk.inj hstep
      simp only [callbackAfter,hloop]
      split_ifs with hfirst
      · subst hfirst
        simp [State.setSession]
      · exact congrArg Session.threatCb (Function.update_of_ne (Ne.symm hfirst) ..)
    | _ =>
      simp only [step,hloop] at hstep
      obtain ⟨rfl,rfl⟩ := Prod.mk.inj hstep
      simp only [callbackAfter,hloop]
  | onThreat other =>
    obtain ⟨rfl,rfl⟩ := Prod.mk.inj hstep
    simp only [callbackAfter]
    split_ifs with hother
    · subst hother
      simp [State.setSession]
    · exact congrArg Session.threatCb (Function.update_of_ne (Ne.symm hother) ..)
  | broadcastThreat ev =>
    obtain ⟨rfl,rfl⟩ := Prod.mk.inj hstep
    rw [(beginBroadcast_frame s _).2.2.2.2]
    rfl
  | broadcastStatus statusStr =>
    obtain ⟨rfl,rfl⟩ := Prod.mk.inj hstep
    rw [(beginBroadcast_frame s _).2.2.2.2]
    rfl
  | read other =>
    obtain ⟨rfl,rfl⟩ := Prod.mk.inj hstep
    exact readStep_callback s other h
  | deliver other now =>
    simp only [step] at hstep
    split at hstep <;> obtain ⟨rfl,rfl⟩ := Prod.mk.inj hstep
    · exact setSession_callback s other h rfl
    · rfl
  | disconnect other =>
    simp only [step] at hstep
    split at hstep <;> obtain ⟨rfl,rfl⟩ := Prod.mk.inj hstep
    · exact setSession_callback s other h rfl
    · rfl
  | closeHandle other =>
    simp only [step] at hstep
    split at hstep <;> obtain ⟨rfl,rfl⟩ := Prod.mk.inj hstep
    · exact setSession_callback (s.setPipe other _) other h rfl
    · rfl
  | _ =>
    simp only [step] at hstep
    (repeat' split at hstep) <;> obtain ⟨rfl,rfl⟩ := Prod.mk.inj hstep <;> rfl

/-- In every run a client holds a callback exactly if `on_threat` has been
called for it. -/
theorem callback_run {events : List Step} {s : State}
    (run : Run (Deterministic step) State.initial events s) (h : Handle) :
    (s.session h).threatCb=hasCallback h events := by
  induction run with
  | nil => rfl
  | @snoc events s t label run hstep ih =>
    rw [hasCallback,List.foldl_append,List.foldl_cons,List.foldl_nil,step_callback hstep h,ih]
    rfl

/-- Every event is handed over the moment it is decoded, if `on_threat` has
been called by then, and nothing else is. -/
theorem received_at {events first rest : List Step} {e : Step} {s : State}
    (run : Run (Deterministic step) State.initial events s) (h : Handle)
    (hsplit : events=first++e::rest) :
    receivedBy h e=if hasCallback h first then (decodedBy h e).map decode else none := by
  subst hsplit
  obtain ⟨hfirst,hstep,-⟩ := run.event_step
  have hcallback := callback_run hfirst h
  cases step_heard (h := h) hstep with
  | read hd hr hheld hcb =>
    rw [hd,hr,Option.map_none,ite_self]
  | decoded item hd hg hr hheld hafter hcb =>
    rw [hd,hr]
    dsimp only
    rw [hcallback]
    rfl
  | connected hd hr hg hfresh hheld =>
    rw [hd,hr,Option.map_none,ite_self]

/-- In every run a client has decoded the threat payloads it has read, but
for the one at hand, and its callback has got the last of the decoded
events. -/
theorem heard_run {events : List Step} {s : State} {h : Handle}
    (run : Run (Deterministic step) State.initial events s)
    (hsize : ∀ packet ∈ begun h events,packet.length < 2^32) :
    (got h events).filterMap threatPayload=
        (decodedPayloads h events).map Prod.fst++held (s.session h).listener ∧
      received h events <:+ decoded h events ∧
      ((s.session h).threatCb=false → received h events=[]) := by
  induction run with
  | nil => exact ⟨rfl,List.suffix_refl _,fun _ => rfl⟩
  | @snoc events s t label run hstep ih =>
    have hbefore : ∀ packet ∈ begun h events,packet.length < 2^32 := by
      intro packet hmem
      refine hsize packet ?_
      rw [begun,List.filterMap_append]
      exact List.mem_append_left _ hmem
    obtain ⟨hpayloads,hsuffix,hcallback⟩ := ih hbefore
    obtain ⟨hwell,hdelivery⟩ := delivery_run (h := h) run
    have hgot : (got h (events++[⟨s,label,t⟩])).filterMap threatPayload=
        (got h events).filterMap threatPayload++
          ((gotBy h ⟨s,label,t⟩).bind threatPayload).toList := by
      rw [got,List.filterMap_append,List.filterMap_append]
      cases hread : gotBy h ⟨s,label,t⟩ with
      | none => simp [hread,got]
      | some message => cases hp : threatPayload message <;> simp [hread,hp,got]
    have hpays : decodedPayloads h (events++[⟨s,label,t⟩])=
        decodedPayloads h events++(decodedBy h ⟨s,label,t⟩).toList := by
      rw [decodedPayloads,List.filterMap_append]
      cases hd : decodedBy h ⟨s,label,t⟩ <;> simp [hd,decodedPayloads]
    have hreceived : received h (events++[⟨s,label,t⟩])=
        received h events++(receivedBy h ⟨s,label,t⟩).toList := by
      rw [received,List.filterMap_append]
      cases hr : receivedBy h ⟨s,label,t⟩ <;> simp [hr,received]
    rw [decoded] at hsuffix
    rw [decoded,hgot,hpays,hreceived]
    cases step_heard (h := h) hstep with
    | read hd hr hheld hcb =>
      dsimp only at hheld hcb
      rw [hd,hr,hheld,hpayloads,Option.toList_none,Option.toList_none,List.append_nil,
        List.append_nil,List.append_assoc]
      refine ⟨rfl,hsuffix,fun hoff => hcallback ?_⟩
      by_contra hon
      rw [hcb (Bool.not_eq_false _ ▸ hon)] at hoff
      cases hoff
    | decoded item hd hg hr hheld hafter hcb =>
      dsimp only at hr hheld hafter hcb
      rw [hd,hg,hr,hpayloads,hheld,hafter,hcb]
      refine ⟨by simp,?_,fun hoff => ?_⟩
      · cases hon : (s.session h).threatCb with
        | true =>
          obtain ⟨early,heq⟩ := hsuffix
          exact ⟨early,by simp [← heq]⟩
        | false => simp [hcallback hon]
      · rw [hcallback hoff,hoff]
        rfl
    | connected hd hr hg hfresh hheld =>
      dsimp only at hheld
      have hbegun := ((hdelivery hbefore).fresh hfresh).1
      have hsent := List.prefix_nil.mp (hbegun ▸ (hdelivery hbefore).sentFirst)
      have hnone := List.prefix_nil.mp (hsent ▸ (hdelivery hbefore).gotFirst)
      rw [hnone] at hpayloads
      have hblank := List.append_eq_nil_iff.mp hpayloads.symm
      have hempty := List.map_eq_nil_iff.mp hblank.1
      rw [hempty] at hsuffix
      have hunheard := List.suffix_nil.mp hsuffix
      rw [hd,hr,hg,hnone,hempty,hheld,hunheard]
      exact ⟨rfl,List.suffix_refl _,fun _ => rfl⟩

/-- A threat event of bytes without tabs is decoded as it was broadcast. -/
theorem decode_serializeThreat {ev : ThreatEvent} (hfree : TabFree ev)
    (hbytes : ByteText (serializeThreat ev)) {item : Bytes×TimePoint}
    (h : item.1=bytesOf (serializeThreat ev)) : SameTransport ev (decode item) := by
  have hassigned := assignFields_threatFields .bits32 ev ThreatEvent.default
  have hlong : 11 ≤ (threatFields ev).length := le_refl 11
  rw [decode,h,textOf_bytesOf hbytes]
  unfold deserializeThreat
  dsimp only
  rw [getlineTokens_serializeThreat hfree,if_pos hlong]
  exact ⟨hassigned.1,hassigned.2,hassigned.3,hassigned.4,hassigned.5,hassigned.6,hassigned.7,
    hassigned.8,hassigned.9,hassigned.10,hassigned.11⟩

/-- Decoded payloads of events that can be transported are those events. -/
theorem forall₂_decode {evs : List ThreatEvent} {items : List (Bytes×TimePoint)}
    (htext : ∀ ev ∈ evs,TabFree ev ∧ ByteText (serializeThreat ev))
    (h : items.map Prod.fst=evs.map fun ev => bytesOf (serializeThreat ev)) :
    List.Forall₂ SameTransport evs (items.map decode) := by
  induction evs generalizing items with
  | nil =>
    rw [List.map_nil,List.map_eq_nil_iff] at h
    rw [h]
    exact .nil
  | cons ev rest ih =>
    cases items with
    | nil => cases h
    | cons item items =>
      rw [List.map_cons,List.map_cons,List.cons.injEq] at h
      obtain ⟨hfree,hbytes⟩ := htext ev List.mem_cons_self
      exact .cons (decode_serializeThreat hfree hbytes h.1)
        (ih (fun other hmem => htext other (List.mem_cons_of_mem ev hmem)) h.2)

/-- Nothing of the broadcasts is still on its way to a client. -/
structure Settled (s : State) (h : Handle) : Prop where
  /-- The instance is registered. -/
  alive : h ∈ s.alive
  /-- No broadcast runs. -/
  job : s.job=none
  /-- The server's end is open. -/
  serverEnd : (s.pipe h).serverEnd=true
  /-- The listener is at the top of its loop. -/
  listener : (s.session h).listener=.waiting
  /-- The pipe is empty. -/
  queue : (s.pipe h).queue=[]

/-- The events a client decodes are the threat events broadcast since it was
registered, in their order and without a gap, and all of them once nothing is
on its way. The callback gets every event in the step that decodes it, if
`on_threat` has been called by then, and nothing else: the events it gets are
the last of the decoded ones. This needs packets that are written in one piece
and events whose text is bytes without tabs. -/
theorem threats_delivered_in_order {events : List Step} {s : State}
    (run : Run (Deterministic step) State.initial events s) (h : Handle)
    (hsize : ∀ packet ∈ begun h events,packet.length < 2^32)
    (htext : ∀ ev ∈ threats h events,TabFree ev ∧ ByteText (serializeThreat ev)) :
    (∃ k,List.Forall₂ SameTransport ((threats h events).take k) (decoded h events)) ∧
      (Settled s h → List.Forall₂ SameTransport (threats h events) (decoded h events)) ∧
      (∀ first e rest,events=first++e::rest →
        receivedBy h e=if hasCallback h first then (decodedBy h e).map decode else none) ∧
      received h events <:+ decoded h events := by
  have hdelivery := (delivery_run run).2 hsize
  obtain ⟨hpayloads,hsuffix,-⟩ := heard_run run hsize
  have hbegun := begun_payloads hsize
  refine ⟨?_,fun hsettled => ?_,fun _ _ _ => received_at run h,hsuffix⟩
  · have hfirst := (hdelivery.gotFirst.trans hdelivery.sentFirst).filterMap threatPayload
    rw [hpayloads,hbegun] at hfirst
    have hall := (List.prefix_append _ _).trans hfirst
    refine ⟨((decodedPayloads h events).map Prod.fst).length,?_⟩
    refine forall₂_decode (fun ev hmem => htext ev (List.mem_of_mem_take hmem)) ?_
    rw [List.map_take]
    exact List.prefix_iff_eq_take.mp hall
  · have hlistens : listens s h := by
      rw [listens,hsettled.listener]
      rfl
    have howed : s.owed h=[] := by rw [State.owed,hsettled.job]
    have hsent := hdelivery.queued hlistens hsettled.serverEnd
    have hall := hdelivery.current hsettled.alive
    rw [hsettled.queue,List.append_nil] at hsent
    rw [howed,List.append_nil,← hsent] at hall
    rw [hall,hbegun,hsettled.listener] at hpayloads
    refine forall₂_decode htext ?_
    rw [hpayloads]
    exact (List.append_nil _).symm

/-- A client connects and sets its callback, and one event is broadcast. -/
def oneBroadcast : List Action :=
  [.start,.loopTop,.create true,.connect false,.onThreat 0,.checkRunning,.register,
    .broadcastThreat ThreatEvent.default,.write true,.endBroadcast,.read 0,.deliver 0 7]

/-- The event arrives and is handed over. -/
theorem threats_delivered_in_order_one :
    List.Forall₂ SameTransport [ThreatEvent.default]
      (decoded 0 (execute step State.initial oneBroadcast).1) ∧
      (received 0 (execute step State.initial oneBroadcast).1).length=1 := by
  have hrun := execute_run step State.initial oneBroadcast
  have hthreats : threats 0 (execute step State.initial oneBroadcast).1=[ThreatEvent.default] := rfl
  have hbegun : begun 0 (execute step State.initial oneBroadcast).1=
      [threatPacket ThreatEvent.default] := by decide +kernel
  have hbytes : (serializeThreat ThreatEvent.default).all (fun c => decide (c.toNat < 256))=true := by
    decide +kernel
  have hall := (threats_delivered_in_order hrun 0 (by rw [hbegun]; decide +kernel)
    (by
      rw [hthreats,List.forall_mem_singleton]
      exact ⟨⟨List.not_mem_nil,List.not_mem_nil,List.not_mem_nil,List.not_mem_nil⟩,
        fun c hc => of_decide_eq_true (List.all_eq_true.mp hbytes c hc)⟩)).2.1
    ⟨by decide +kernel,Option.isNone_iff_eq_none.mp (by decide +kernel),by decide +kernel,
      by decide +kernel,by decide +kernel⟩
  rw [hthreats] at hall
  exact ⟨hall,by decide +kernel⟩

end Gcad.BroadcastEvents
