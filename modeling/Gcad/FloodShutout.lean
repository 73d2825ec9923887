import Gcad.PacketRuns

/-!
# Shutting out a flooding source

The tracker and the block list of the raw-socket engine run inside the packet
analysis as they do alone, so what is known of their calls decides the fate of
packets: which packet raises the flood alert, and which one is dropped before
it is looked at.
-/

namespace Gcad.FloodShutout

open Common Threat ByteView StepSystem PacketCapture PacketRuns
open FloodWindow (CallEvent floodThresh floodWindow)

variable {measures : Measures}

/-- The calls on the containers after one more step. -/
theorem engineEvents_event (events : List PacketEvent) (e : PacketEvent) :
    engineEvents (events++[e])=engineEvents events++(engineEvent e).toList :=
  filterMap_event engineEvent events e

/-- The containers run inside the packet analysis as they do alone. -/
theorem engine_run {events : List PacketEvent} {s : State}
    (run : Run (Deterministic (step measures)) State.initial events s) :
    Run (Deterministic FloodWindow.step) FloodWindow.create (engineEvents events) s.engine := by
  induction run with
  | nil => exact .nil
  | @snoc events s t label run hstep ih =>
    have hengine : t.engine=(engineCall ⟨s,label,t⟩).elim s.engine fun call =>
        (FloodWindow.step s.engine call).1 :=
      (step_effect hstep (accounts_run run).readable).engine
    rw [engineEvents_event,engineEvent]
    cases hcall : engineCall ⟨s,label,t⟩ with
    | none =>
      rw [hcall,Option.elim_none] at hengine
      rw [Option.map_none,Option.toList_none,List.append_nil,hengine]
      exact ih
    | some call =>
      rw [hcall,Option.elim_some] at hengine
      refine ih.snoc ?_
      rw [Deterministic,hengine]

/-- A flood test of a packet from a source. -/
structure Tests (e : PacketEvent) (srcIp : UInt32) (port : UInt16) (now : TimePoint) : Prop where
  /-- The packet has been recorded. -/
  phase : e.before.phase=.recorded srcIp port
  /-- The test is made at this time. -/
  action : e.label.1=.countFlood now

/-- A readable packet that arrives while the capture thread waits. -/
structure Arrives (e : PacketEvent) (data : Bytes) (header : Header) : Prop where
  /-- The capture thread waits. -/
  phase : e.before.phase=.idle
  /-- The packet arrives. -/
  action : e.label.1=.receive data
  /-- Its header is accepted. -/
  read : readHeader data=.ok header

/-- The flood tests of a source in the window that ends at a time. -/
def testsInWindow (events : List PacketEvent) (srcIp : UInt32) (now : TimePoint) : ℕ :=
  (FloodWindow.calls (engineEvents events) srcIp).countP fun time =>
    decide (now-time ≤ floodWindow)

/-- A step raises the flood alert and leaves the source to be blocked. -/
structure Raises (e : PacketEvent) (srcIp : UInt32) (port : UInt16) : Prop where
  /-- Blocking the source is next. -/
  phase : e.after.phase=.flooding srcIp
  /-- The alert is counted. -/
  detected : e.after.threatsDetected=e.before.threatsDetected+1
  /-- The alert is reported where a callback is set. -/
  reported : e.label.2=if e.before.threatCb then
    .threats [threatOf srcIp port (.synFlood,floodText srcIp)] else .silent

/-- A step ends the analysis of a packet without an alert. -/
structure Passes (e : PacketEvent) : Prop where
  /-- The capture thread waits for the next packet. -/
  phase : e.after.phase=.idle
  /-- No alert is counted. -/
  detected : e.after.threatsDetected=e.before.threatsDetected
  /-- No alert is reported. -/
  reported : e.label.2=.silent

/-- A packet leaves nothing behind but the count of packets. -/
def Dropped (e : PacketEvent) : Prop :=
  e.after={ e.before with packetsCaptured := e.before.packetsCaptured+1 }

/-- What decides about the packets of a history. -/
structure FloodPolicy (events : List PacketEvent) : Prop where
  /-- The flood test of a packet raises the alert exactly if more than
  FLOOD_THRESH tests of its source, this one included, lie in the window. -/
  tested : ∀ first e rest srcIp port now,events=first++e::rest → Tests e srcIp port now →
    (floodThresh < testsInWindow (first++[e]) srcIp now ∧ Raises e srcIp port) ∨
      (testsInWindow (first++[e]) srcIp now ≤ floodThresh ∧ Passes e)
  /-- A packet is dropped exactly if the last verdict on its source was a
  block, and otherwise analysed. -/
  received : ∀ first e rest data header,events=first++e::rest → Arrives e data header →
    (FloodWindow.lastBlocked (engineEvents first) header.srcIp ∧ Dropped e) ∨
      (¬FloodWindow.lastBlocked (engineEvents first) header.srcIp ∧
        e.after.phase=.accepted data header)
  /-- After a flood alert no packet of the source is analysed until somebody
  unblocks it. -/
  shutOut : ∀ first f middle e rest srcIp port now data header,
    events=first++f::(middle++e::rest) → Tests f srcIp port now → Raises f srcIp port →
    (∀ m ∈ middle,m.label.1≠.unblockIp srcIp) → Arrives e data header → header.srcIp=srcIp →
      Dropped e

/-- A source is blocked or about to be. -/
def Shut (srcIp : UInt32) (s : State) : Prop :=
  s.phase=.flooding srcIp ∨ srcIp ∈ s.engine.blockedIps

/-- Blocking an address keeps the others blocked. -/
theorem mem_blockIp {engine : FloodWindow.ETGRIEngine} {srcIp ip : UInt32}
    (h : srcIp=ip ∨ srcIp ∈ engine.blockedIps) :
    srcIp ∈ (FloodWindow.blockIp engine ip).blockedIps := by
  unfold FloodWindow.blockIp
  rcases h with rfl | h
  · split_ifs with hthere
    · exact hthere
    · simp
  · split_ifs
    · exact h
    · simp [h]

/-- Unblocking an address keeps the others blocked. -/
theorem mem_unblockIp {engine : FloodWindow.ETGRIEngine} {srcIp ip : UInt32} (hne : srcIp≠ip)
    (h : srcIp ∈ engine.blockedIps) : srcIp ∈ (FloodWindow.unblockIp engine ip).blockedIps := by
  simp [FloodWindow.unblockIp,h,hne]

/-- Nothing but `unblock_ip` opens a source again. -/
theorem shut_step {s t : State} {action : Action} {reply : Reply} {srcIp : UInt32}
    (shut : Shut srcIp s) (h : step measures s action=(t,reply))
    (hopen : action≠.unblockIp srcIp) : Shut srcIp t := by
  rcases shut with hphase | hblocked
  · cases action with
    | shutOut =>
      simp only [step,hphase,Prod.mk.injEq] at h
      rw [← h.1]
      exact .inr (mem_blockIp (.inl rfl))
    | _ =>
      simp only [step,hphase,Prod.mk.injEq] at h
      rw [← h.1]
      exact .inl (by simp [hphase])
  · refine .inr ?_
    cases action with
    | receive data =>
      simp only [step,receive] at h
      (repeat' split at h) <;> simpa [← (Prod.mk.inj h).1] using hblocked
    | record now =>
      simp only [step,record,emitThreats] at h
      (repeat' split at h) <;> simpa [← (Prod.mk.inj h).1] using hblocked
    | countFlood now =>
      have hsame : ∀ ip,(FloodWindow.isFlood s.engine ip now).1.blockedIps=s.engine.blockedIps :=
        fun ip => rfl
      simp only [step,countFlood,emitThreats] at h
      (repeat' split at h) <;> simpa [← (Prod.mk.inj h).1,hsame] using hblocked
    | shutOut =>
      simp only [step] at h
      split at h
      · rw [← (Prod.mk.inj h).1]
        exact mem_blockIp (.inr hblocked)
      · rwa [← (Prod.mk.inj h).1]
    | blockIp ip =>
      rw [← (Prod.mk.inj h).1]
      exact mem_blockIp (.inr hblocked)
    | unblockIp ip =>
      rw [← (Prod.mk.inj h).1]
      have hne : srcIp≠ip := fun heq => hopen (heq ▸ rfl)
      exact mem_unblockIp hne hblocked
    | _ => rwa [← (Prod.mk.inj h).1]

/-- A source stays shut over a run in which nobody unblocks it. -/
theorem shut_run {s t : State} {events : List PacketEvent} {srcIp : UInt32}
    (run : Run (Deterministic (step measures)) s events t) (shut : Shut srcIp s)
    (hopen : ∀ m ∈ events,m.label.1≠.unblockIp srcIp) : Shut srcIp t := by
  induction run with
  | nil => exact shut
  | @snoc events s t label run hstep ih =>
    have hearlier := ih fun m hm => hopen m (List.mem_append_left _ hm)
    exact shut_step hearlier hstep (hopen _ (List.mem_append_right _ List.mem_cons_self))

section Steps

variable {e : PacketEvent} (hstep : Deterministic (step measures) e.before e.label e.after)
include hstep

/-- What the flood test of a packet does. -/
theorem tests_step {srcIp : UInt32} {port : UInt16} {now : TimePoint}
    (tests : Tests e srcIp port now) :
    ((FloodWindow.isFlood e.before.engine srcIp now).2=true ∧ Raises e srcIp port) ∨
      ((FloodWindow.isFlood e.before.engine srcIp now).2=false ∧ Passes e) := by
  have h : countFlood e.before srcIp port now=(e.after,e.label.2) := by
    rw [← hstep,tests.action,step,tests.phase]
  dsimp only [countFlood] at h
  cases hflood : (FloodWindow.isFlood e.before.engine srcIp now).2 with
  | true =>
    rw [hflood,if_pos rfl,emitThreats,Prod.mk.injEq] at h
    refine .inl ⟨rfl,⟨?_,?_,?_⟩⟩
    · rw [← h.1]
    · rw [← h.1]
      rfl
    · rw [← h.2]
      rfl
  | false =>
    rw [hflood,if_neg Bool.false_ne_true,Prod.mk.injEq] at h
    refine .inr ⟨rfl,⟨?_,?_,?_⟩⟩
    · rw [← h.1]
    · rw [← h.1]
    · rw [← h.2]

/-- What an arriving packet does. -/
theorem arrives_step {data : Bytes} {header : Header} (arrives : Arrives e data header) :
    (header.srcIp ∈ e.before.engine.blockedIps ∧ Dropped e) ∨
      (header.srcIp ∉ e.before.engine.blockedIps ∧ e.after.phase=.accepted data header) := by
  have h : receive e.before data=e.after := by
    rw [Deterministic,arrives.action,step,arrives.phase] at hstep
    exact (Prod.mk.inj hstep).1
  simp only [receive,arrives.read,FloodWindow.isBlocked,decide_eq_true_eq] at h
  by_cases hblocked : header.srcIp ∈ e.before.engine.blockedIps
  · rw [if_pos hblocked] at h
    exact .inl ⟨hblocked,h.symm⟩
  · rw [if_neg hblocked] at h
    exact .inr ⟨hblocked,by rw [← h]⟩

end Steps

/-- The flood test of a packet, as a call on the containers. -/
theorem engineEvent_tests {e : PacketEvent} {srcIp : UInt32} {port : UInt16} {now : TimePoint}
    (tests : Tests e srcIp port now) :
    engineEvent e=some ⟨e.before.engine,(.isFlood srcIp now,
      some (FloodWindow.isFlood e.before.engine srcIp now).2),e.after.engine⟩ := by
  have hcall : engineCall e=some (.isFlood srcIp now) := by
    unfold engineCall
    rw [tests.action,tests.phase]
  rw [engineEvent,hcall,Option.map_some]
  rfl

/-- The answer of the flood test of a packet. -/
theorem tests_exact {first rest : List PacketEvent} {e : PacketEvent} {s : State}
    (run : Run (Deterministic (step measures)) State.initial (first++e::rest) s)
    (steady : FloodWindow.Steady (engineEvents (first++e::rest))) {srcIp : UInt32} {port : UInt16}
    {now : TimePoint} (tests : Tests e srcIp port now) :
    (FloodWindow.isFlood e.before.engine srcIp now).2=
      decide (floodThresh < testsInWindow (first++[e]) srcIp now) := by
  have hone : Run (Deterministic (step measures)) State.initial (first++[e]) e.after := by
    obtain ⟨hbefore,hstep,-⟩ := run.event_step
    exact hbefore.snoc hstep
  have hevents := engineEvents_event first e
  rw [engineEvent_tests tests,Option.toList_some] at hevents
  have hengine := engine_run hone
  rw [hevents] at hengine
  have hsteady : FloodWindow.Steady (engineEvents (first++[e])) := by
    rw [List.append_cons,engineEvents,List.filterMap_append,FloodWindow.Steady,
      List.filterMap_append] at steady
    exact (List.pairwise_append.mp steady).1
  rw [hevents] at hsteady
  obtain ⟨hbefore,hcall,-⟩ := hengine.last_step
  have hexact := FloodWindow.step_exact (FloodWindow.run_tracked hbefore hsteady.init) hcall
    hsteady srcIp now rfl
  rw [testsInWindow,hevents]
  exact Option.some.inj hexact

/-- In every interleaving of packets with callers, on a clock that never goes
back: the flood alert is raised exactly by the packets whose source has more
than FLOOD_THRESH tests in the window, a packet is dropped exactly if the last
verdict on its source was a block, and after a flood alert every packet of its
source is dropped until somebody unblocks it. -/
theorem flooding_source_shut_out {events : List PacketEvent} {s : State}
    (run : Run (Deterministic (step measures)) State.initial events s)
    (steady : FloodWindow.Steady (engineEvents events)) : FloodPolicy events where
  tested := by
    rintro first e rest srcIp port now rfl tests
    have hexact := tests_exact run steady tests
    obtain ⟨-,hstep,-⟩ := run.event_step
    rcases tests_step hstep tests with ⟨hflood,raises⟩ | ⟨hflood,passes⟩
    · rw [hflood,eq_comm,decide_eq_true_eq] at hexact
      exact .inl ⟨hexact,raises⟩
    · rw [hflood,eq_comm,decide_eq_false_iff_not,not_lt] at hexact
      exact .inr ⟨hexact,passes⟩
  received := by
    rintro first e rest data header rfl arrives
    obtain ⟨hbefore,hstep,-⟩ := run.event_step
    have hlisted := (FloodWindow.run_listed (engine_run hbefore)).mem header.srcIp
    rw [← hlisted]
    exact arrives_step hstep arrives
  shutOut := by
    rintro first f middle e rest srcIp port now data header rfl tests raises hopen arrives heq
    obtain ⟨-,-,hrest⟩ := run.event_step
    obtain ⟨hmiddle,hstep,-⟩ := hrest.event_step
    rcases shut_run hmiddle (.inl raises.phase) hopen with hphase | hblocked
    · rw [arrives.phase] at hphase
      cases hphase
    · rw [← heq] at hblocked
      exact ((arrives_step hstep arrives).resolve_right fun h => h.1 hblocked).2

/-- The capture thread waits, nobody is blocked, and a source has been tested
so many times at one moment. -/
structure Waiting (srcIp : UInt32) (now : TimePoint) (n : ℕ) (s : State) : Prop where
  /-- No packet is looked at. -/
  phase : s.phase=.idle
  /-- Every source is let in. -/
  free : s.engine.blockedIps=[]
  /-- The tests of the source. -/
  held : FloodWindow.held s.engine.connTracker srcIp=List.replicate n now

/-- One more test at the same moment is kept, and answers whether it is one too
many. -/
theorem isFlood_again {engine : FloodWindow.ETGRIEngine} {srcIp : UInt32} {now : TimePoint} {n : ℕ}
    (h : FloodWindow.held engine.connTracker srcIp=List.replicate n now) :
    FloodWindow.held (FloodWindow.isFlood engine srcIp now).1.connTracker srcIp=
        List.replicate (n+1) now ∧
      (FloodWindow.isFlood engine srcIp now).2=decide (floodThresh < n+1) := by
  have hfresh : FloodWindow.outdated now now=false := by
    rw [FloodWindow.outdated,sub_self]
    decide
  have htrim : ∀ m,SlidingWindow.trim FloodWindow.outdated now (List.replicate m now)=
      List.replicate m now := by
    intro m
    rw [SlidingWindow.trim,List.dropWhile_replicate,hfresh]
    exact if_neg Bool.false_ne_true
  have hsettled : FloodWindow.held (FloodWindow.settled engine now) srcIp=List.replicate n now := by
    rw [FloodWindow.settled]
    split_ifs
    · rw [FloodWindow.held_prune,h,htrim]
    · exact h
  have htimes : SlidingWindow.trim FloodWindow.outdated now
      (FloodWindow.held (FloodWindow.settled engine now) srcIp++[now])=
        List.replicate (n+1) now := by
    rw [hsettled,← List.replicate_succ',htrim]
  refine ⟨(FloodWindow.held_isFlood engine srcIp now).trans htimes,?_⟩
  have hanswer : (FloodWindow.isFlood engine srcIp now).2=
      decide (floodThresh < (SlidingWindow.trim FloodWindow.outdated now
        (FloodWindow.held (FloodWindow.settled engine now) srcIp++[now])).length) := rfl
  rw [hanswer,htimes,List.length_replicate]

/-- A packet of the source is recorded; the containers stay as they are. -/
theorem record_emptyPacket {s : State} (hidle : s.phase=.idle) (hfree : s.engine.blockedIps=[]) :
    (execute (step emptyMeasures) s [.receive emptyPacket,.record 0]).2.phase=
        .recorded 0x0A000007 0 ∧
      (execute (step emptyMeasures) s [.receive emptyPacket,.record 0]).2.engine=s.engine := by
  have hheader : readHeader emptyPacket=.ok ⟨20,0x0A000007,0x0A000001,6⟩ := rfl
  have hallowed : FloodWindow.isBlocked s.engine 0x0A000007=false := by
    rw [FloodWindow.isBlocked,hfree]
    rfl
  have hreceive : (step emptyMeasures s (.receive emptyPacket)).1=
      { s with
        packetsCaptured := s.packetsCaptured+1
        phase := .accepted emptyPacket ⟨20,0x0A000007,0x0A000001,6⟩ } := by
    simp only [step,hidle,receive,hheader,hallowed,Bool.false_eq_true,if_false]
  rw [execute,execute,execute,hreceive]
  exact ⟨rfl,rfl⟩

/-- Blocking the source lets the capture thread go on. -/
theorem phase_shutOut {s : State} {srcIp : UInt32} (h : s.phase=.flooding srcIp) :
    (step emptyMeasures s .shutOut).1.phase=.idle := by
  rw [step,h]

/-- A packet of the source, analysed at once. -/
def packet : List Action := [.receive emptyPacket,.record 0]++[.countFlood 0]

/-- One packet more, while the limit is not passed. -/
theorem packet_waiting {n : ℕ} {s : State} (h : Waiting 0x0A000007 0 n s)
    (hn : n < floodThresh) :
    Waiting 0x0A000007 0 (n+1) (execute (step emptyMeasures) s packet).2 := by
  obtain ⟨hphase,hengine⟩ := record_emptyPacket h.phase h.free
  obtain ⟨hheld,hanswer⟩ := isFlood_again h.held
  have hquiet : (FloodWindow.isFlood s.engine 0x0A000007 0).2=false := by
    rw [hanswer]
    exact decide_eq_false (by omega)
  rw [packet,execute_append]
  dsimp only
  generalize (execute (step emptyMeasures) s [.receive emptyPacket,.record 0]).2=t at hphase hengine
  have hcount : (step emptyMeasures t (.countFlood 0)).1=
      { t with engine := (FloodWindow.isFlood s.engine 0x0A000007 0).1,phase := .idle } := by
    simp only [step,hphase,countFlood,hengine,hquiet,Bool.false_eq_true,if_false]
  change Waiting _ _ _ (step emptyMeasures t (.countFlood 0)).1
  rw [hcount]
  exact ⟨rfl,h.free,hheld⟩

/-- As many packets as the limit allows. -/
theorem packets_waiting (n : ℕ) (hn : n ≤ floodThresh) :
    Waiting 0x0A000007 0 n
      (execute (step emptyMeasures) State.initial (List.replicate n packet).flatten).2 := by
  induction n with
  | zero => exact ⟨rfl,rfl,rfl⟩
  | succ n ih =>
    rw [List.replicate_succ',List.flatten_append,execute_append,List.flatten_singleton]
    exact packet_waiting (ih (by omega)) (by omega)

/-- A packet that is tested, the block of its source, and another packet. -/
def lastPackets : List Action :=
  [.receive emptyPacket,.record 0]++[.countFlood 0,.shutOut,.receive emptyPacket]

/-- The flood of one source and a packet behind it. -/
def flood : List Action := (List.replicate floodThresh packet).flatten++lastPackets

/-- The flood tests come from the steps that make them. -/
theorem countFlood_of_floodTime {e : PacketEvent} {call : CallEvent} {time : TimePoint}
    (h : engineEvent e=some call) (htime : FloodWindow.floodTime call=some time) :
    e.label.1=.countFlood time := by
  obtain ⟨made,hmade,rfl⟩ := Option.map_eq_some_iff.mp h
  unfold engineCall at hmade
  split at hmade
  · next now srcIp port haction hphase =>
    obtain rfl := Option.some.inj hmade
    rw [haction,Option.some.inj htime]
  · obtain rfl := Option.some.inj hmade
    cases htime
  · obtain rfl := Option.some.inj hmade
    cases htime
  · obtain rfl := Option.some.inj hmade
    cases htime
  · cases hmade

/-- All of it happens at one moment. -/
theorem flood_steady :
    FloodWindow.Steady (engineEvents (execute (step emptyMeasures) State.initial flood).1) := by
  have hzero : ∀ time ∈ (engineEvents
      (execute (step emptyMeasures) State.initial flood).1).filterMap FloodWindow.floodTime,
      time=0 := by
    intro time htime
    obtain ⟨call,hcall,htime⟩ := List.mem_filterMap.mp htime
    obtain ⟨e,he,hevent⟩ := List.mem_filterMap.mp hcall
    have hmem : Action.countFlood time ∈ flood := by
      rw [← countFlood_of_floodTime hevent htime,
        ← map_execute (step emptyMeasures) State.initial flood]
      exact List.mem_map_of_mem he
    have htimes : floodThresh≠0 ∧ time=0 ∨ time=0 := by simpa [flood,packet,lastPackets] using hmem
    exact htimes.elim And.right id
  rw [FloodWindow.Steady,List.eq_replicate_of_mem hzero]
  exact List.pairwise_replicate.mpr (.inr le_rfl)

/-- Once the limit is reached, the next test raises the alert, and the packet
after it is dropped. -/
theorem lastPackets_shut_out {quiet : List Action}
    (hwaiting : Waiting 0x0A000007 0 floodThresh
      (execute (step emptyMeasures) State.initial quiet).2)
    (policy : FloodPolicy (execute (step emptyMeasures) State.initial (quiet++lastPackets)).1) :
    ∃ first f middle e rest,
      (execute (step emptyMeasures) State.initial (quiet++lastPackets)).1=
        first++f::(middle++e::rest) ∧ Raises f 0x0A000007 0 ∧ Dropped e := by
  rw [execute_append,lastPackets,execute_append] at policy ⊢
  dsimp only at policy ⊢
  generalize execute (step emptyMeasures) State.initial quiet=made at policy hwaiting ⊢
  obtain ⟨hphase,hengine⟩ := record_emptyPacket hwaiting.phase hwaiting.free
  have hanswer := (isFlood_again hwaiting.held).2
  rw [← hengine,decide_eq_true (Nat.lt_succ_self floodThresh)] at hanswer
  generalize execute (step emptyMeasures) made.2 [.receive emptyPacket,.record 0]=tested
    at policy hphase hanswer ⊢
  rw [← List.append_assoc] at policy ⊢
  have htests : Tests ⟨tested.2,(.countFlood 0,(step emptyMeasures tested.2 (.countFlood 0)).2),
      (step emptyMeasures tested.2 (.countFlood 0)).1⟩ 0x0A000007 0 0 := ⟨hphase,rfl⟩
  have hflooding : (step emptyMeasures tested.2 (.countFlood 0)).1.phase=
      .flooding 0x0A000007 := by
    simp only [step,hphase,countFlood,hanswer,if_true,emitThreats]
  have hidle : (step emptyMeasures (step emptyMeasures tested.2 (.countFlood 0)).1
      .shutOut).1.phase=.idle := phase_shutOut hflooding
  rcases policy.tested _ _ _ _ _ _ rfl htests with ⟨-,hraises⟩ | ⟨-,hpasses⟩
  · refine ⟨_,_,[_],_,_,rfl,hraises,?_⟩
    refine policy.shutOut _ _ [_] _ _ 0x0A000007 0 0 emptyPacket
      ⟨20,0x0A000007,0x0A000001,6⟩ rfl htests hraises ?_ ⟨hidle,rfl,rfl⟩ rfl
    refine List.forall_mem_singleton.mpr fun hcount => ?_
    cases hcount
  · have hcontra := hpasses.phase
    rw [hflooding] at hcontra
    cases hcontra

/-- The test over the limit raises the alert, and the next packet of the source
is dropped. -/
theorem flood_shut_out : ∃ first f middle e rest,
    (execute (step emptyMeasures) State.initial flood).1=first++f::(middle++e::rest) ∧
      Raises f 0x0A000007 0 ∧ Dropped e :=
  lastPackets_shut_out (packets_waiting floodThresh le_rfl) (flooding_source_shut_out
    (execute_run (step emptyMeasures) State.initial flood) flood_steady)

end Gcad.FloodShutout
