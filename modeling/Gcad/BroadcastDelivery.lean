import Gcad.ServiceBroadcast

/-!
# Order of the broadcasts at one client

What one step of the service, of the operating system or of a client can do
to a pipe instance is said once, and from it follows what every run has done
to it: what is read, what is in the pipe and what the running broadcast still
has to write are together the broadcasts since the instance was registered.
-/

namespace Gcad.BroadcastDelivery

open Common ByteView Threat ServiceIpc StepSystem ServiceBroadcast

/-- The listener of an instance runs. -/
def listens (s : State) (h : Handle) : Prop := (s.session h).listener.runs=true

/-- What one step can do to one instance. -/
inductive Effect (h : Handle) (e : Step) : Prop where
  /-- Nothing is written or read; the instance may be dropped or closed. -/
  | kept (begun : begunBy h e=none) (sent : sentBy h e=none) (got : gotBy h e=none)
      (alive : h ∈ e.after.alive → h ∈ e.before.alive ∧ e.after.owed h=e.before.owed h)
      (fresh : e.after.Fresh h → e.before.Fresh h)
      (empty : (e.before.pipe h).queue=[] → (e.after.pipe h).queue=[])
      (queue : listens e.after h → e.before.Fresh h ∨ listens e.before h ∧
        ((e.after.pipe h).queue=(e.before.pipe h).queue ∧
            (e.after.pipe h).serverEnd=(e.before.pipe h).serverEnd ∨
          (e.after.pipe h).queue=[] ∧ (e.after.pipe h).serverEnd=false))
  /-- The instance is registered. -/
  | registered (begun : begunBy h e=none) (sent : sentBy h e=none) (got : gotBy h e=none)
      (owed : e.after.owed h=[]) (before : e.before.Fresh h) (after : ¬e.after.Fresh h)
      (pipe : e.after.pipe h=e.before.pipe h) (session : e.after.session h=e.before.session h)
  /-- A broadcast begins that reaches it. -/
  | began (packet : Bytes) (begun : begunBy h e=some packet) (sent : sentBy h e=none)
      (got : gotBy h e=none) (alive : h ∈ e.before.alive) (owed : e.before.owed h=[])
      (owes : e.after.owed h=[packet]) (fresh : ¬e.after.Fresh h)
      (pipe : e.after.pipe h=e.before.pipe h) (session : e.after.session h=e.before.session h)
  /-- The packet of the broadcast is written to it. -/
  | wrote (packet : Bytes) (begun : begunBy h e=none) (sent : sentBy h e=some packet)
      (got : gotBy h e=none) (alive : h ∈ e.before.alive) (owed : e.before.owed h=[packet])
      (owes : e.after.owed h=[]) (fresh : ¬e.after.Fresh h)
      (queue : (e.after.pipe h).queue=(e.before.pipe h).queue++[packet])
      (opened : (e.before.pipe h).serverEnd=true)
      (session : e.after.session h=e.before.session h)
  /-- Its client reads a message. -/
  | read (message : Bytes) (begun : begunBy h e=none) (sent : sentBy h e=none)
      (got : gotBy h e=some message)
      (alive : h ∈ e.after.alive → h ∈ e.before.alive ∧ e.after.owed h=e.before.owed h)
      (fresh : e.after.Fresh h → e.before.Fresh h)
      (queue : (e.before.pipe h).queue=message::(e.after.pipe h).queue)
      (serverEnd : (e.after.pipe h).serverEnd=(e.before.pipe h).serverEnd)
      (listens : listens e.before h)

section Effects

variable {s t : State} {action : Action} {reply : Reply} {h : Handle}

/-- A step that leaves an instance, its client and the registration alone. -/
theorem Effect.quiet (hbegun : begunBy h ⟨s,(action,reply),t⟩=none)
    (hsent : sentBy h ⟨s,(action,reply),t⟩=none) (hgot : gotBy h ⟨s,(action,reply),t⟩=none)
    (halive : h ∈ t.alive → h ∈ s.alive ∧ t.owed h=s.owed h)
    (hfresh : t.Fresh h → s.Fresh h) (hpipe : t.pipe h=s.pipe h)
    (hsession : t.session h=s.session h) : Effect h ⟨s,(action,reply),t⟩ := by
  refine .kept hbegun hsent hgot halive hfresh (fun hempty => ?_) fun hlistens => ?_
  · rw [hpipe]
    exact hempty
  · rw [listens,hsession] at hlistens
    exact .inr ⟨hlistens,.inl (by rw [hpipe]; exact ⟨rfl,rfl⟩)⟩

/-- Whether an action begins a broadcast. -/
def begins : Action → Bool
  | .broadcastThreat _ | .broadcastStatus _ => true
  | _ => false

/-- Nothing of a broadcast happens in a step of another kind. -/
theorem begunBy_eq_none (hother : begins action=false) :
    begunBy h ⟨s,(action,reply),t⟩=none := by
  unfold begunBy
  split
  · cases action <;> simp_all [begins]
  · rfl

/-- Where the loop holds no handle a fresh one is new. -/
theorem fresh_left {fresh : Prop} (hfresh : fresh ∨ (none : Option Handle)=some h) : fresh := by
  simpa using hfresh

/-- A broadcast that begins. -/
theorem beginBroadcast_effect (hwell : Wellformed s) (packet : Bytes)
    (hbegun : begunBy h ⟨s,(action,reply),s.beginBroadcast packet⟩=
      if s.unlocked=true ∧ h ∈ s.clientPipes then some packet else none)
    (hsent : sentBy h ⟨s,(action,reply),s.beginBroadcast packet⟩=none)
    (hgot : gotBy h ⟨s,(action,reply),s.beginBroadcast packet⟩=none) :
    Effect h ⟨s,(action,reply),s.beginBroadcast packet⟩ := by
  obtain ⟨halive,hnext,hloop,hpipe,hsession⟩ := beginBroadcast_frame s packet
  have hfresh : (s.beginBroadcast packet).Fresh h → s.Fresh h := by
    rw [State.Fresh,hnext,hloop]
    exact id
  by_cases hfree : s.unlocked=true
  · have hjob := job_of_unlocked hfree
    have howed : s.owed h=[] := by rw [State.owed,hjob]
    have howes : (s.beginBroadcast packet).owed h=if h ∈ s.clientPipes then [packet] else [] := by
      rw [State.beginBroadcast,if_pos hfree,State.owed]
    by_cases hmem : h ∈ s.clientPipes
    · have hreg : h ∈ s.alive := by rwa [State.alive,hjob]
      rw [if_pos ⟨hfree,hmem⟩] at hbegun
      rw [if_pos hmem] at howes
      exact .began packet hbegun hsent hgot hreg howed howes
        (fun h' => hwell.known h hreg (hfresh h')) (by rw [hpipe]) (by rw [hsession])
    · rw [if_neg fun h' => hmem h'.2] at hbegun
      rw [if_neg hmem] at howes
      exact .quiet hbegun hsent hgot (fun h' => ⟨halive ▸ h',howes.trans howed.symm⟩) hfresh
        (by rw [hpipe]) (by rw [hsession])
  · rw [if_neg fun h' => hfree h'.1] at hbegun
    have hsame : s.beginBroadcast packet=s := if_neg hfree
    rw [hsame] at hbegun hsent hgot ⊢
    exact .quiet hbegun hsent hgot (fun h' => ⟨h',rfl⟩) id rfl rfl

/-- Writing the packet of a broadcast. -/
theorem write_effect {ok : Bool} (hwell : Wellformed s)
    (hsize : ∀ packet,s.owed h=[packet] → packet.length < 2^32)
    (hstep : step s (.write ok)=(t,reply)) : Effect h ⟨s,(.write ok,reply),t⟩ := by
  have hbegun : begunBy h ⟨s,(.write ok,reply),t⟩=none := begunBy_eq_none rfl
  simp only [step] at hstep
  split at hstep
  · next packet first rest active hjob =>
    have halive : s.alive=active++first::rest := by rw [State.alive,hjob]
    have hnodup := hwell.nodup
    rw [halive] at hnodup
    by_cases hfirst : first=h
    · subst hfirst
      have hrest : first ∉ rest := (List.nodup_cons.mp hnodup.of_append_right).1
      have hmem : first ∈ s.alive := by rw [halive]; simp
      have howed : s.owed first=[packet] := by simp [State.owed,hjob]
      have hshort : packet.length%2^32=packet.length := Nat.mod_eq_of_lt (hsize packet howed)
      split at hstep <;> obtain ⟨rfl,-⟩ := Prod.mk.inj hstep
      · next hwritten =>
        unfold writeFile at hwritten
        split at hwritten
        · next hopen =>
          have hresult : (writeFile (s.pipe first) packet ok).2=some packet.length := by
            rw [writeFile,if_pos hopen]
            exact hwritten
          have hqueue : (writeFile (s.pipe first) packet ok).1.queue=
              (s.pipe first).queue++[packet] := by
            rw [writeFile,if_pos hopen]
            dsimp only
            rw [hshort,List.take_length]
          refine .wrote packet hbegun ?_ rfl hmem howed ?_ (hwell.known first hmem) ?_ ?_ ?_
          · simp [sentBy,hjob,hresult]
          · simp [State.owed,hrest]
          · simpa [State.setPipe] using hqueue
          · simp only [Bool.and_eq_true] at hopen
            exact hopen.1.2
          · rfl
        · cases hwritten
      · next hwritten =>
        have hsent : sentBy first ⟨s,(.write ok,reply),{ s.setPipe first
            (writeFile (s.pipe first) packet ok).1 with
              job := some ⟨packet,rest,active,some first⟩ }⟩=none := by
          simp only [sentBy,hjob]
          exact if_neg fun h' => hwritten h'.2
        have hpipe : (writeFile (s.pipe first) packet ok).1=s.pipe first := by
          unfold writeFile at hwritten ⊢
          split
          · next hopen =>
            rw [if_pos hopen,hshort] at hwritten
            exact absurd rfl hwritten
          · rfl
        have hgone : first ∉ active++rest := by
          have hcount := List.nodup_append.mp hnodup
          intro hin
          rcases List.mem_append.mp hin with hin | hin
          · exact hcount.2.2 first hin first List.mem_cons_self rfl
          · exact hrest hin
        refine .quiet hbegun hsent rfl (fun h' => absurd h' hgone) id ?_ rfl
        simp [State.setPipe,hpipe]
    · have hsent : ∀ t',sentBy h ⟨s,(.write ok,reply),t'⟩=none := by
        intro t'
        simp only [sentBy,hjob]
        exact if_neg fun h' => hfirst h'.1
      have howed : s.owed h=if h ∈ rest then [packet] else [] := by
        simp [State.owed,hjob,Ne.symm hfirst]
      split at hstep <;> obtain ⟨rfl,-⟩ := Prod.mk.inj hstep
      · refine .quiet hbegun (hsent _) rfl (fun h' => ⟨?_,howed.symm⟩) id ?_ rfl
        · rw [halive,List.append_cons]
          exact h'
        · exact Function.update_of_ne (Ne.symm hfirst) _ _
      · refine .quiet hbegun (hsent _) rfl (fun h' => ⟨?_,howed.symm⟩) id ?_ rfl
        · rw [halive]
          exact ((List.Sublist.refl active).append (List.sublist_cons_self first rest)).subset h'
        · exact Function.update_of_ne (Ne.symm hfirst) _ _
  · next hother =>
    obtain ⟨rfl,-⟩ := Prod.mk.inj hstep
    have hsent : sentBy h ⟨s,(.write ok,reply),s⟩=none := by
      unfold sentBy
      split
      · next hlabel hjob => exact absurd hjob (hother _ _ _ _)
      · rfl
    exact .quiet hbegun hsent rfl (fun h' => ⟨h',rfl⟩) id rfl rfl

/-- What a client can read of a message is the whole of it. -/
theorem readable_eq_some {message : Bytes} (hread : s.readable h=some message) :
    (s.session h).listener=.waiting ∧ (s.session h).connected=true ∧
      (s.pipe h).clientEnd=true ∧ 0 < message.length ∧ message.length ≤ bufferSize ∧
      ∃ rest,(s.pipe h).queue=message::rest := by
  unfold State.readable at hread
  split at hread
  · next hready =>
    split at hread
    · cases hread
    · next first rest hqueue =>
      split at hread
      · next hfits =>
        obtain rfl := Option.some.inj hread
        exact ⟨hready.1,hready.2.1,hready.2.2,hfits.1,hfits.2,rest,hqueue⟩
      · cases hread
  · cases hread

/-- Reading from an empty instance leaves all instances alone. -/
theorem readStep_empty (hempty : (s.pipe h).queue=[]) : (s.readStep h).pipe=s.pipe := by
  simp only [State.readStep,hempty]
  split_ifs <;> rfl

/-- A client's read at one instance. -/
theorem read_effect (s : State) (h : Handle) :
    Effect h ⟨s,(.read h,.silent),s.readStep h⟩ := by
  have hbegun : begunBy h ⟨s,(.read h,.silent),s.readStep h⟩=none := begunBy_eq_none rfl
  obtain ⟨halive,hnext,hloop,hjob⟩ := readStep_frame s h
  have hregistered : h ∈ (s.readStep h).alive →
      h ∈ s.alive ∧ (s.readStep h).owed h=s.owed h := by
    rw [halive,State.owed,State.owed,hjob]
    exact fun h' => ⟨h',rfl⟩
  have hfresh : (s.readStep h).Fresh h → s.Fresh h := by
    rw [State.Fresh,hnext,hloop]
    exact id
  have hgot : gotBy h ⟨s,(.read h,.silent),s.readStep h⟩=s.readable h := if_pos rfl
  cases hread : s.readable h with
  | some message =>
    obtain ⟨hwaiting,hconnected,hopen,-,-,rest,hqueue⟩ := readable_eq_some hread
    have hdone : s.readStep h=(s.setPipe h { s.pipe h with queue := rest }).setSession h
        { s.session h with listener := afterParse message } := by
      simp only [State.readStep,hwaiting,hconnected,hopen,hqueue,hread,ne_eq,not_true_eq_false,
        if_false,or_self,reduceCtorEq]
    refine .read message hbegun rfl (hgot.trans hread) hregistered hfresh ?_ ?_ ?_
    · rw [hdone,hqueue]
      simp [State.setPipe,State.setSession]
    · rw [hdone]
      simp [State.setPipe,State.setSession]
    · rw [listens,hwaiting]
      rfl
  | none =>
    have hnothing : listens (s.readStep h) h →
        (s.readStep h).pipe h=s.pipe h ∧ (s.readStep h).session h=s.session h := by
      unfold State.readStep
      dsimp only
      rw [hread]
      split
      · exact fun _ => ⟨rfl,rfl⟩
      · split
        · intro hlistens
          simp [listens,State.setSession,Listener.runs] at hlistens
        · split
          · split
            · exact fun _ => ⟨rfl,rfl⟩
            · intro hlistens
              simp [listens,State.setSession,Listener.runs] at hlistens
          · intro hlistens
            simp [listens,State.setSession,State.setPipe,Listener.runs] at hlistens
          · next hsome => cases hsome
    refine .kept hbegun rfl (hgot.trans hread) hregistered hfresh ?_ fun hlistens => ?_
    · intro hempty
      have hpipe := readStep_empty (s := s) hempty
      exact (congrArg (fun pipe => (pipe h).queue) hpipe).trans hempty
    · obtain ⟨hpipe,hsession⟩ := hnothing hlistens
      rw [listens,hsession] at hlistens
      exact .inr ⟨hlistens,.inl (by rw [hpipe]; exact ⟨rfl,rfl⟩)⟩

/-- A read at another instance. -/
theorem read_other {other : Handle} (hne : h≠other) :
    (s.readStep other).pipe h=s.pipe h ∧ (s.readStep other).session h=s.session h := by
  unfold State.readStep
  dsimp only
  split
  · exact ⟨rfl,rfl⟩
  · split
    · exact ⟨rfl,Function.update_of_ne hne _ _⟩
    · split
      · split
        · exact ⟨rfl,rfl⟩
        · exact ⟨rfl,Function.update_of_ne hne _ _⟩
      · exact ⟨Function.update_of_ne hne _ _,Function.update_of_ne hne _ _⟩
      · exact ⟨Function.update_of_ne hne _ _,Function.update_of_ne hne _ _⟩

/-- A step that closes an instance at the server's end. -/
theorem Effect.closed {other : Handle} (hbegun : begunBy h ⟨s,(action,reply),t⟩=none)
    (hsent : sentBy h ⟨s,(action,reply),t⟩=none) (hgot : gotBy h ⟨s,(action,reply),t⟩=none)
    (halive : h ∈ t.alive → h ∈ s.alive ∧ t.owed h=s.owed h) (hfresh : t.Fresh h → s.Fresh h)
    (hpipe : t.pipe=Function.update s.pipe other (disconnectPipe (s.pipe other)))
    (hsession : t.session h=s.session h) : Effect h ⟨s,(action,reply),t⟩ := by
  by_cases hsame : h=other
  · subst hsame
    have hself : t.pipe h=disconnectPipe (s.pipe h) := by rw [hpipe,Function.update_self]
    refine .kept hbegun hsent hgot halive hfresh (fun _ => ?_) fun hlistens => ?_
    · rw [hself]
      rfl
    · rw [listens,hsession] at hlistens
      exact .inr ⟨hlistens,.inr (by rw [hself]; exact ⟨rfl,rfl⟩)⟩
  · refine .quiet hbegun hsent hgot halive hfresh ?_ hsession
    rw [hpipe,Function.update_of_ne hsame]

/-- Whatever a step does, it has one of the effects on each instance. -/
theorem step_effect (hwell : Wellformed s)
    (hsize : ∀ packet,s.owed h=[packet] → packet.length < 2^32)
    (hstep : step s action=(t,reply)) : Effect h ⟨s,(action,reply),t⟩ := by
  have hstay : h ∈ s.alive → h ∈ s.alive ∧ s.owed h=s.owed h := fun hmem => ⟨hmem,rfl⟩
  cases action with
  | start =>
    have hbegun : ∀ t',begunBy h ⟨s,(.start,reply),t'⟩=none := fun _ => begunBy_eq_none rfl
    simp only [step] at hstep
    split at hstep <;> obtain ⟨rfl,-⟩ := Prod.mk.inj hstep
    · next hloop _ =>
      refine .quiet (hbegun _) rfl rfl hstay (fun hfresh => ?_) rfl rfl
      rw [State.Fresh,hloop]
      exact hfresh
    · exact .quiet (hbegun _) rfl rfl hstay id rfl rfl
  | loopTop =>
    have hbegun : ∀ t',begunBy h ⟨s,(.loopTop,reply),t'⟩=none :=
      fun _ => begunBy_eq_none rfl
    simp only [step] at hstep
    split at hstep <;> obtain ⟨rfl,-⟩ := Prod.mk.inj hstep
    · next hloop =>
      refine .quiet (hbegun _) rfl rfl hstay (fun hfresh => ?_) rfl rfl
      rw [State.Fresh] at hfresh
      dsimp only at hfresh
      split at hfresh <;> exact .inl (fresh_left hfresh)
    · exact .quiet (hbegun _) rfl rfl hstay id rfl rfl
  | create ok =>
    have hbegun : ∀ t',begunBy h ⟨s,(.create ok,reply),t'⟩=none :=
      fun _ => begunBy_eq_none rfl
    simp only [step] at hstep
    split at hstep <;> obtain ⟨rfl,-⟩ := Prod.mk.inj hstep
    · next hloop =>
      by_cases hnew : h=s.nextHandle
      · subst hnew
        refine .kept (hbegun _) rfl rfl hstay (fun _ => .inl (le_refl _)) (fun _ => ?_)
          fun _ => .inl (.inl (le_refl _))
        simp [State.setPipe]
      · refine .quiet (hbegun _) rfl rfl hstay (fun hfresh => ?_)
          (Function.update_of_ne hnew _ _) rfl
        exact .inl (hfresh.elim Nat.le_of_succ_le fun heq => absurd (Option.some.inj heq).symm hnew)
    · next hloop =>
      exact .quiet (hbegun _) rfl rfl hstay (fun hfresh => .inl (fresh_left hfresh)) rfl rfl
    · exact .quiet (hbegun _) rfl rfl hstay id rfl rfl
  | connect threatCb =>
    have hbegun : ∀ t',begunBy h ⟨s,(.connect threatCb,reply),t'⟩=none :=
      fun _ => begunBy_eq_none rfl
    simp only [step] at hstep
    split at hstep <;> obtain ⟨rfl,-⟩ := Prod.mk.inj hstep
    · next first hloop =>
      have hheld : s.loop.handle=some first := by rw [hloop]; rfl
      by_cases hfirst : h=first
      · subst hfirst
        refine .kept (hbegun _) rfl rfl hstay (fun _ => .inr hheld) (fun hempty => ?_)
          fun _ => .inl (.inr hheld)
        simpa [State.setPipe,State.setSession] using hempty
      · refine .quiet (hbegun _) rfl rfl hstay (fun hfresh => ?_)
          (Function.update_of_ne hfirst _ _) (Function.update_of_ne hfirst _ _)
        exact hfresh.imp_right fun heq => hheld.trans heq
    · exact .quiet (hbegun _) rfl rfl hstay id rfl rfl
  | connectFails =>
    have hbegun : ∀ t',begunBy h ⟨s,(.connectFails,reply),t'⟩=none :=
      fun _ => begunBy_eq_none rfl
    simp only [step] at hstep
    split at hstep <;> obtain ⟨rfl,-⟩ := Prod.mk.inj hstep
    · next first hloop =>
      refine .quiet (hbegun _) rfl rfl hstay (fun hfresh => hfresh.imp_right fun heq => ?_) rfl rfl
      rw [hloop]
      exact heq
    · exact .quiet (hbegun _) rfl rfl hstay id rfl rfl
  | checkRunning =>
    have hbegun : ∀ t',begunBy h ⟨s,(.checkRunning,reply),t'⟩=none :=
      fun _ => begunBy_eq_none rfl
    simp only [step] at hstep
    split at hstep
    · next first connected hloop =>
      split at hstep
      · obtain ⟨rfl,-⟩ := Prod.mk.inj hstep
        exact .closed (hbegun _) rfl rfl hstay (fun hfresh => .inl (fresh_left hfresh))
          rfl rfl
      · split at hstep <;> obtain ⟨rfl,-⟩ := Prod.mk.inj hstep
        · refine .quiet (hbegun _) rfl rfl hstay (fun hfresh => hfresh.imp_right fun heq => ?_)
            rfl rfl
          rw [hloop]
          exact heq
        · exact .closed (hbegun _) rfl rfl hstay (fun hfresh => .inl (fresh_left hfresh))
            rfl rfl
    · obtain ⟨rfl,-⟩ := Prod.mk.inj hstep
      exact .quiet (hbegun _) rfl rfl hstay id rfl rfl
  | register =>
    have hbegun : ∀ t',begunBy h ⟨s,(.register,reply),t'⟩=none :=
      fun _ => begunBy_eq_none rfl
    simp only [step] at hstep
    split at hstep <;> obtain ⟨rfl,-⟩ := Prod.mk.inj hstep
    · next first hloop hfree =>
      have hjob := job_of_unlocked hfree
      have hheld : s.loop.handle=some first := by rw [hloop]; rfl
      by_cases hfirst : h=first
      · subst hfirst
        refine .registered (hbegun _) rfl rfl ?_ (.inr hheld) (fun hfresh => ?_) rfl rfl
        · simp only [State.owed,hjob]
        · exact absurd (hwell.created h hheld) (Nat.not_lt.mpr (fresh_left hfresh))
      · refine .quiet (hbegun _) rfl rfl (fun hmem => ?_)
          (fun hfresh => .inl (fresh_left hfresh)) rfl rfl
        simp only [State.alive,hjob,List.mem_append,List.mem_singleton,hfirst,or_false] at hmem
        exact ⟨by rwa [State.alive,hjob],rfl⟩
    · exact .quiet (hbegun _) rfl rfl hstay id rfl rfl
  | broadcastThreat ev =>
    obtain ⟨rfl,-⟩ := Prod.mk.inj hstep
    exact beginBroadcast_effect hwell (threatPacket ev) rfl rfl rfl
  | broadcastStatus statusStr =>
    obtain ⟨rfl,-⟩ := Prod.mk.inj hstep
    exact beginBroadcast_effect hwell (statusPacket statusStr) rfl rfl rfl
  | write ok => exact write_effect hwell hsize hstep
  | drop =>
    have hbegun : ∀ t',begunBy h ⟨s,(.drop,reply),t'⟩=none := fun _ => begunBy_eq_none rfl
    simp only [step] at hstep
    split at hstep <;> obtain ⟨rfl,-⟩ := Prod.mk.inj hstep
    · next hjob =>
      refine .closed (hbegun _) rfl rfl (fun hmem => ⟨?_,?_⟩) id rfl rfl
      · rw [State.alive,hjob]
        exact hmem
      · simp only [State.owed,hjob]
    · exact .quiet (hbegun _) rfl rfl hstay id rfl rfl
  | endBroadcast =>
    have hbegun : ∀ t',begunBy h ⟨s,(.endBroadcast,reply),t'⟩=none :=
      fun _ => begunBy_eq_none rfl
    simp only [step] at hstep
    split at hstep <;> obtain ⟨rfl,-⟩ := Prod.mk.inj hstep
    · next hjob =>
      refine .quiet (hbegun _) rfl rfl (fun hmem => ⟨?_,?_⟩) id rfl rfl
      · simp only [State.alive,hjob,List.append_nil]
        exact hmem
      · simp [State.owed,hjob]
    · exact .quiet (hbegun _) rfl rfl hstay id rfl rfl
  | stop =>
    have hbegun : ∀ t',begunBy h ⟨s,(.stop,reply),t'⟩=none := fun _ => begunBy_eq_none rfl
    simp only [step] at hstep
    split at hstep <;> obtain ⟨rfl,-⟩ := Prod.mk.inj hstep <;>
      exact .quiet (hbegun _) rfl rfl hstay id rfl rfl
  | wake ok =>
    have hbegun : ∀ t',begunBy h ⟨s,(.wake ok,reply),t'⟩=none :=
      fun _ => begunBy_eq_none rfl
    simp only [step] at hstep
    split at hstep <;> obtain ⟨rfl,-⟩ := Prod.mk.inj hstep
    · next hloop =>
      refine .quiet (hbegun _) rfl rfl hstay (fun hfresh => hfresh.imp_right fun heq => ?_) rfl rfl
      rw [hloop]
      exact heq
    · exact .quiet (hbegun _) rfl rfl hstay id rfl rfl
    · exact .quiet (hbegun _) rfl rfl hstay id rfl rfl
  | join =>
    have hbegun : ∀ t',begunBy h ⟨s,(.join,reply),t'⟩=none := fun _ => begunBy_eq_none rfl
    simp only [step] at hstep
    split at hstep <;> obtain ⟨rfl,-⟩ := Prod.mk.inj hstep
    · exact .quiet (hbegun _) rfl rfl hstay id rfl rfl
    · exact .quiet (hbegun _) rfl rfl hstay id rfl rfl
  | closeNext =>
    have hbegun : ∀ t',begunBy h ⟨s,(.closeNext,reply),t'⟩=none :=
      fun _ => begunBy_eq_none rfl
    simp only [step] at hstep
    split at hstep
    · split at hstep <;> obtain ⟨rfl,-⟩ := Prod.mk.inj hstep
      · exact .closed (hbegun _) rfl rfl hstay id rfl rfl
      · exact .quiet (hbegun _) rfl rfl hstay id rfl rfl
    · obtain ⟨rfl,-⟩ := Prod.mk.inj hstep
      exact .quiet (hbegun _) rfl rfl hstay id rfl rfl
  | finish =>
    have hbegun : ∀ t',begunBy h ⟨s,(.finish,reply),t'⟩=none :=
      fun _ => begunBy_eq_none rfl
    simp only [step] at hstep
    split at hstep <;> obtain ⟨rfl,-⟩ := Prod.mk.inj hstep
    · refine .quiet (hbegun _) rfl rfl (fun hmem => ⟨?_,rfl⟩) id rfl rfl
      simp only [State.alive] at hmem ⊢
      cases hjob : s.job with
      | none => simp [hjob] at hmem
      | some job => simpa [hjob] using hmem
    · exact .quiet (hbegun _) rfl rfl hstay id rfl rfl
  | read other =>
    obtain ⟨rfl,rfl⟩ := Prod.mk.inj hstep
    by_cases hother : h=other
    · subst hother
      exact read_effect s h
    · obtain ⟨halive,hnext,hloop,hjob⟩ := readStep_frame s other
      obtain ⟨hpipe,hsession⟩ := read_other (s := s) hother
      refine .quiet (begunBy_eq_none rfl) rfl (if_neg (Ne.symm hother)) ?_ ?_ hpipe hsession
      · rw [halive,State.owed,State.owed,hjob]
        exact fun hmem => ⟨hmem,rfl⟩
      · rw [State.Fresh,hnext,hloop]
        exact id
  | deliver other now =>
    have hbegun : ∀ t',begunBy h ⟨s,(.deliver other now,reply),t'⟩=none :=
      fun _ => begunBy_eq_none rfl
    simp only [step] at hstep
    split at hstep <;> obtain ⟨rfl,-⟩ := Prod.mk.inj hstep
    · next payload hlistener =>
      refine .kept (hbegun _) rfl rfl hstay id id fun hlistens => .inr ⟨?_,.inl ⟨rfl,rfl⟩⟩
      by_cases hother : h=other
      · rw [listens,hother,hlistener]
        rfl
      · simp only [listens,State.setSession] at hlistens
        rwa [Function.update_of_ne hother] at hlistens
    · exact .quiet (hbegun _) rfl rfl hstay id rfl rfl
  | onThreat other =>
    obtain ⟨rfl,-⟩ := Prod.mk.inj hstep
    refine .kept (begunBy_eq_none rfl) rfl rfl hstay id id
      fun hlistens => .inr ⟨?_,.inl ⟨rfl,rfl⟩⟩
    simp only [listens,State.setSession] at hlistens
    by_cases hother : h=other
    · subst hother
      rwa [Function.update_self] at hlistens
    · rwa [Function.update_of_ne hother] at hlistens
  | disconnect other =>
    have hbegun : ∀ t',begunBy h ⟨s,(.disconnect other,reply),t'⟩=none :=
      fun _ => begunBy_eq_none rfl
    simp only [step] at hstep
    split at hstep <;> obtain ⟨rfl,-⟩ := Prod.mk.inj hstep
    · refine .kept (hbegun _) rfl rfl hstay id id fun hlistens => .inr ⟨?_,.inl ⟨rfl,rfl⟩⟩
      simp only [listens,State.setSession] at hlistens
      by_cases hother : h=other
      · subst hother
        rwa [Function.update_self] at hlistens
      · rwa [Function.update_of_ne hother] at hlistens
    · exact .quiet (hbegun _) rfl rfl hstay id rfl rfl
  | closeHandle other =>
    have hbegun : ∀ t',begunBy h ⟨s,(.closeHandle other,reply),t'⟩=none :=
      fun _ => begunBy_eq_none rfl
    simp only [step] at hstep
    split at hstep <;> obtain ⟨rfl,-⟩ := Prod.mk.inj hstep
    · by_cases hother : h=other
      · subst hother
        refine .kept (hbegun _) rfl rfl hstay id (fun hempty => ?_)
          fun hlistens => .inr ⟨?_,.inl ?_⟩
        · simpa [State.setPipe,State.setSession] using hempty
        · simpa [listens,State.setPipe,State.setSession] using hlistens
        · simp [State.setPipe,State.setSession]
      · exact .quiet (hbegun _) rfl rfl hstay id (Function.update_of_ne hother _ _)
          (Function.update_of_ne hother _ _)
    · exact .quiet (hbegun _) rfl rfl hstay id rfl rfl

end Effects

/-- What has become of the broadcasts at one instance. -/
structure Delivery (h : Handle) (events : List Step) (s : State) : Prop where
  /-- Nothing has happened at an instance that is not registered yet. -/
  fresh : s.Fresh h → begun h events=[] ∧ (s.pipe h).queue=[]
  /-- All that is missing at a registered instance is still to be written. -/
  current : h ∈ s.alive → sent h events++s.owed h=begun h events
  /-- What is written is a first part of what was broadcast. -/
  sentFirst : sent h events <+: begun h events
  /-- What is read is a first part of what is written. -/
  gotFirst : got h events <+: sent h events
  /-- The pipe continues what a listener has read. -/
  queuedFirst : listens s h → got h events++(s.pipe h).queue <+: sent h events
  /-- It holds all the rest while the server's end is open. -/
  queued : listens s h → (s.pipe h).serverEnd=true →
    got h events++(s.pipe h).queue=sent h events

section Runs

variable {events : List Step} {s t : State} {label : Action×Reply} {h : Handle}

/-- Every step keeps the account of an instance. -/
theorem delivery_step (hold : Delivery h events s) (heffect : Effect h ⟨s,label,t⟩) :
    Delivery h (events++[⟨s,label,t⟩]) t := by
  have hblank : s.Fresh h → begun h events=[] ∧ sent h events=[] ∧ got h events=[] := by
    intro hfresh
    have hbegun := (hold.fresh hfresh).1
    have hsent := List.prefix_nil.mp (hbegun ▸ hold.sentFirst)
    exact ⟨hbegun,hsent,List.prefix_nil.mp (hsent ▸ hold.gotFirst)⟩
  cases heffect with
  | kept hb hs hg halive hfresh hempty hqueue =>
    have hbegun : begun h (events++[⟨s,label,t⟩])=begun h events := by simp [begun,hb]
    have hsent : sent h (events++[⟨s,label,t⟩])=sent h events := by simp [sent,hs]
    have hgot : got h (events++[⟨s,label,t⟩])=got h events := by simp [got,hg]
    dsimp only at halive hfresh hempty hqueue
    have hpipe : listens t h → got h events++(t.pipe h).queue <+: sent h events ∧
        ((t.pipe h).serverEnd=true → got h events++(t.pipe h).queue=sent h events) := by
      intro hlistens
      rcases hqueue hlistens with hf | ⟨hbefore,⟨hsame,hend⟩ | ⟨hcut,hend⟩⟩
      · rw [hempty (hold.fresh hf).2,(hblank hf).2.1,(hblank hf).2.2]
        exact ⟨List.prefix_refl _,fun _ => rfl⟩
      · rw [hsame,hend]
        exact ⟨hold.queuedFirst hbefore,hold.queued hbefore⟩
      · rw [hcut,hend,List.append_nil]
        exact ⟨hold.gotFirst,nofun⟩
    refine ⟨fun hf => ?_,fun hmem => ?_,?_,?_,fun hlistens => ?_,fun hlistens => ?_⟩
    · rw [hbegun]
      exact ⟨(hold.fresh (hfresh hf)).1,hempty (hold.fresh (hfresh hf)).2⟩
    · obtain ⟨hmem,howed⟩ := halive hmem
      rw [hbegun,hsent,howed]
      exact hold.current hmem
    · rw [hbegun,hsent]
      exact hold.sentFirst
    · rw [hsent,hgot]
      exact hold.gotFirst
    · rw [hsent,hgot]
      exact (hpipe hlistens).1
    · rw [hsent,hgot]
      exact (hpipe hlistens).2
  | registered hb hs hg howed hbefore hafter hpipe hsession =>
    have hbegun : begun h (events++[⟨s,label,t⟩])=begun h events := by simp [begun,hb]
    have hsent : sent h (events++[⟨s,label,t⟩])=sent h events := by simp [sent,hs]
    have hgot : got h (events++[⟨s,label,t⟩])=got h events := by simp [got,hg]
    obtain ⟨hnone,hnosent,hnogot⟩ := hblank hbefore
    dsimp only at howed hpipe
    have hempty : (t.pipe h).queue=[] := by rw [hpipe]; exact (hold.fresh hbefore).2
    refine ⟨fun hf => absurd hf hafter,fun _ => ?_,?_,?_,fun _ => ?_,fun _ _ => ?_⟩
    · rw [hbegun,hsent,howed,hnone,hnosent,List.append_nil]
    · rw [hbegun,hsent]
      exact hold.sentFirst
    · rw [hsent,hgot]
      exact hold.gotFirst
    · rw [hsent,hgot,hnosent,hnogot,hempty,List.append_nil]
    · rw [hsent,hgot,hnosent,hnogot,hempty,List.append_nil]
  | began packet hb hs hg halive howed howes hfresh hpipe hsession =>
    have hbegun : begun h (events++[⟨s,label,t⟩])=begun h events++[packet] := by
      simp [begun,hb]
    have hsent : sent h (events++[⟨s,label,t⟩])=sent h events := by simp [sent,hs]
    have hgot : got h (events++[⟨s,label,t⟩])=got h events := by simp [got,hg]
    have hall := hold.current halive
    dsimp only at howed howes hpipe hsession
    rw [howed,List.append_nil] at hall
    refine ⟨fun hf => absurd hf hfresh,fun _ => ?_,?_,?_,fun hlistens => ?_,fun hlistens => ?_⟩
    · rw [hbegun,hsent,howes,hall]
    · rw [hbegun,hsent,← hall]
      exact List.prefix_append _ _
    · rw [hsent,hgot]
      exact hold.gotFirst
    · rw [listens,hsession] at hlistens
      rw [hsent,hgot,hpipe]
      exact hold.queuedFirst hlistens
    · rw [listens,hsession] at hlistens
      rw [hsent,hgot,hpipe]
      exact hold.queued hlistens
  | wrote packet hb hs hg halive howed howes hfresh hqueue hopen hsession =>
    have hbegun : begun h (events++[⟨s,label,t⟩])=begun h events := by simp [begun,hb]
    have hsent : sent h (events++[⟨s,label,t⟩])=sent h events++[packet] := by simp [sent,hs]
    have hgot : got h (events++[⟨s,label,t⟩])=got h events := by simp [got,hg]
    have hall := hold.current halive
    dsimp only at howed howes hqueue hopen hsession
    rw [howed] at hall
    have hpipe : listens t h →
        got h events++((s.pipe h).queue++[packet])=sent h events++[packet] := by
      intro hlistens
      rw [listens,hsession] at hlistens
      rw [← List.append_assoc,hold.queued hlistens hopen]
    refine ⟨fun hf => absurd hf hfresh,fun _ => ?_,?_,?_,fun hlistens => ?_,fun hlistens _ => ?_⟩
    · rw [hbegun,hsent,howes,hall,List.append_nil]
    · rw [hbegun,hsent,hall]
    · rw [hsent,hgot]
      exact hold.gotFirst.trans (List.prefix_append _ _)
    · rw [hsent,hgot,hqueue,hpipe hlistens]
    · rw [hsent,hgot,hqueue,hpipe hlistens]
  | read message hb hs hg halive hfresh hqueue hend hlistens =>
    have hbegun : begun h (events++[⟨s,label,t⟩])=begun h events := by simp [begun,hb]
    have hsent : sent h (events++[⟨s,label,t⟩])=sent h events := by simp [sent,hs]
    have hgot : got h (events++[⟨s,label,t⟩])=got h events++[message] := by simp [got,hg]
    dsimp only at halive hfresh hqueue hend hlistens
    have hfirst := hold.queuedFirst hlistens
    rw [hqueue,List.append_cons] at hfirst
    refine ⟨fun hf => ?_,fun hmem => ?_,?_,?_,fun _ => ?_,fun _ hopen => ?_⟩
    · have hempty := (hold.fresh (hfresh hf)).2
      rw [hqueue] at hempty
      cases hempty
    · obtain ⟨hmem,howed⟩ := halive hmem
      rw [hbegun,hsent,howed]
      exact hold.current hmem
    · rw [hbegun,hsent]
      exact hold.sentFirst
    · rw [hsent,hgot]
      exact (List.prefix_append _ _).trans hfirst
    · rw [hsent,hgot]
      exact hfirst
    · have hrest := hold.queued hlistens (hend ▸ hopen)
      rw [hqueue,List.append_cons] at hrest
      rw [hsent,hgot,hrest]

/-- In every run the account of an instance whose packets can be written in
one piece is right. -/
theorem delivery_run (run : Run (Deterministic step) State.initial events s) :
    Wellformed s ∧
      ((∀ packet ∈ begun h events,packet.length < 2^32) → Delivery h events s) := by
  induction run with
  | nil =>
    refine ⟨wellformed_initial,fun _ => ⟨fun _ => ⟨rfl,rfl⟩,fun hmem => ?_,?_,?_,?_,?_⟩⟩
    · exact absurd hmem List.not_mem_nil
    · exact List.prefix_refl _
    · exact List.prefix_refl _
    · exact fun _ => List.prefix_refl _
    · exact fun _ _ => rfl
  | @snoc events s t label run hstep ih =>
    obtain ⟨hwell,hdelivery⟩ := ih
    refine ⟨wellformed_step hwell hstep,fun hsize => ?_⟩
    have hbefore : ∀ packet ∈ begun h events,packet.length < 2^32 := by
      intro packet hmem
      refine hsize packet ?_
      rw [begun,List.filterMap_append]
      exact List.mem_append_left _ hmem
    have hold := hdelivery hbefore
    refine delivery_step hold (step_effect hwell (fun packet howed => ?_) hstep)
    refine hbefore packet ?_
    have hin : h ∈ s.alive := by
      unfold State.owed at howed
      split at howed
      · cases howed
      · next job hjob =>
        split at howed
        · next hrest =>
          rw [State.alive,hjob]
          exact List.mem_append_right _ hrest
        · cases howed
    rw [← hold.current hin,howed]
    exact List.mem_append_right _ (List.mem_singleton_self _)

end Runs

/-- Whatever the order in which the loop, the broadcasts, the clients and
`stop` take their steps, a client reads the broadcasts that began since it
was registered, in their order, none twice and none left out before another:
what it has read continues with what is in the pipe and with what the running
broadcast still has to write. -/
theorem broadcasts_read_in_order {events : List Step} {s : State}
    (run : Run (Deterministic step) State.initial events s) (h : Handle)
    (hsize : ∀ packet ∈ begun h events,packet.length < 2^32) :
    got h events <+: begun h events ∧
      (∀ message ∈ got h events,0 < message.length ∧ message.length ≤ bufferSize) ∧
      (h ∈ s.alive → listens s h → (s.pipe h).serverEnd=true →
        got h events++(s.pipe h).queue++s.owed h=begun h events) := by
  have hdelivery := (delivery_run run).2 hsize
  refine ⟨hdelivery.gotFirst.trans hdelivery.sentFirst,fun message hmem => ?_,?_⟩
  · obtain ⟨e,-,hgot⟩ := List.mem_filterMap.mp hmem
    unfold gotBy at hgot
    split at hgot
    · split at hgot
      · obtain ⟨-,-,-,hpos,hfits,-⟩ := readable_eq_some hgot
        exact ⟨hpos,hfits⟩
      · cases hgot
    · cases hgot
  · intro halive hlistens hopen
    rw [hdelivery.queued hlistens hopen,hdelivery.current halive]

/-- A client connects and a broadcast is written and not read yet. -/
def unreadBroadcast : List Action :=
  [.start,.loopTop,.create true,.connect false,.checkRunning,.register,.broadcastStatus [7],
    .write true]

/-- The packet of the broadcast is in the pipe. -/
theorem broadcasts_read_in_order_unread :
    ((execute step State.initial unreadBroadcast).2.pipe 0).queue=[statusPacket [7]] := by
  have hrun := execute_run step State.initial unreadBroadcast
  have hbegun : begun 0 (execute step State.initial unreadBroadcast).1=[statusPacket [7]] := rfl
  have hall := (broadcasts_read_in_order hrun 0 (by rw [hbegun]; decide +kernel)).2.2
    (by decide +kernel) (by unfold listens; decide +kernel) (by decide +kernel)
  rw [hbegun] at hall
  exact hall

end Gcad.BroadcastDelivery
