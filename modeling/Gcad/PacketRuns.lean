import Gcad.PacketCapture

/-!
# Runs of the packet analysis

What one step of the packet analysis changes, and from it what every
interleaving of packets with blocking, unblocking and reading callers keeps:
the window and the counters are functions of the packets recorded so far, the
tracker and the block list run as they do alone, and the flood test and the
block list decide which packets are analysed.
-/

namespace Gcad.PacketRuns

open Common Threat BoundedLog ByteView CheckedLogic StepSystem PacketCapture

variable {measures : Measures}

/-- What a step adds to the history, and what it changes accordingly. -/
structure Effect (measures : Measures) (e : PacketEvent) : Prop where
  /-- The packet at hand can be read. -/
  readable : Readable e.after.phase
  /-- An accepted packet waits until it is recorded. -/
  kept : waiting e.before.phase++(acceptedBy e).toList=
    (recordedBy e).toList.map Prod.fst++waiting e.after.phase
  /-- Every recorded packet has statistics. -/
  measured : (statsBy measures e).toList.length=(recordedBy e).toList.length
  /-- The last packets that were analysed. -/
  window : e.after.slidingWindow=
    (statsBy measures e).toList.foldl pushWindow e.before.slidingWindow
  /-- The count of analysed packets. -/
  processed : e.after.eventsProcessed=
    e.before.eventsProcessed+UInt64.ofNat (recordedBy e).toList.length
  /-- The count of alerts. -/
  detected : e.after.threatsDetected=
    e.before.threatsDetected+UInt64.ofNat (alertsBy measures e).length
  /-- The count of packets. -/
  captured : e.after.packetsCaptured=
    e.before.packetsCaptured+UInt64.ofNat (receives e).toNat
  /-- The tracker and the block list. -/
  engine : e.after.engine=(engineCall e).elim e.before.engine fun call =>
    (FloodWindow.step e.before.engine call).1

section Steps

variable {s t : State} {reply : Reply}

/-- A step that adds nothing to the history and changes nothing counted. -/
theorem effect_quiet {action : Action} (readable : Readable s.phase) (hphase : t.phase=s.phase)
    (haccepted : acceptedBy ⟨s,(action,reply),t⟩=none)
    (hrecorded : recordedBy ⟨s,(action,reply),t⟩=none)
    (halerts : alertsBy measures ⟨s,(action,reply),t⟩=[])
    (hreceives : receives ⟨s,(action,reply),t⟩=false)
    (hwindow : t.slidingWindow=s.slidingWindow) (hprocessed : t.eventsProcessed=s.eventsProcessed)
    (hdetected : t.threatsDetected=s.threatsDetected)
    (hcaptured : t.packetsCaptured=s.packetsCaptured)
    (hengine : t.engine=(engineCall ⟨s,(action,reply),t⟩).elim s.engine fun call =>
      (FloodWindow.step s.engine call).1) :
    Effect measures ⟨s,(action,reply),t⟩ where
  readable := by rwa [hphase]
  kept := by simp [haccepted,hrecorded,hphase]
  measured := by simp [statsBy,hrecorded]
  window := by simp [statsBy,hrecorded,hwindow]
  processed := by simp [hrecorded,hprocessed]
  detected := by simp [halerts,hdetected]
  captured := by simp [hreceives,hcaptured]
  engine := hengine

/-- A packet arrives. -/
theorem effect_receive {data : Bytes} (h : step measures s (.receive data)=(t,reply))
    (readable : Readable s.phase) : Effect measures ⟨s,(.receive data,reply),t⟩ := by
  cases hphase : s.phase with
  | idle =>
    simp only [step,hphase,Prod.mk.injEq] at h
    obtain ⟨rfl,-⟩ := h
    have hstays := readHeader_stays data
    cases hread : readHeader data with
    | error fault =>
      cases fault with
      | rejected =>
        constructor <;> simp [receive,hread,hphase,acceptedBy,recordedBy,statsBy,alertsBy,receives,
          engineCall,Readable,waiting]
      | outOfBounds => exact absurd hread hstays.ne_outOfBounds
    | ok header =>
      have hihl : header.ihl ≤ data.length := hstays.of_ok hread
      by_cases hblocked : FloodWindow.isBlocked s.engine header.srcIp=true
      · constructor <;> simp [receive,hread,hphase,hblocked,acceptedBy,recordedBy,statsBy,alertsBy,
          receives,engineCall,Readable,waiting]
      · constructor <;> simp [receive,hread,hphase,hblocked,acceptedBy,recordedBy,statsBy,alertsBy,
          receives,engineCall,Readable,waiting,hihl]
  | _ =>
    simp only [step,hphase,Prod.mk.injEq] at h
    obtain ⟨rfl,-⟩ := h
    refine effect_quiet readable rfl ?_ ?_ ?_ ?_ rfl rfl rfl rfl ?_ <;>
      simp [acceptedBy,recordedBy,alertsBy,statsBy,receives,engineCall,hphase]

/-- A packet is recorded. -/
theorem effect_record {now : TimePoint} (h : step measures s (.record now)=(t,reply))
    (readable : Readable s.phase) : Effect measures ⟨s,(.record now,reply),t⟩ := by
  cases hphase : s.phase with
  | accepted data header =>
    rw [hphase] at readable
    obtain ⟨stats,hstats,-⟩ := computeStats_returns measures readable now
    simp only [step,hphase,record,hstats,emitThreats,Prod.mk.injEq] at h
    obtain ⟨rfl,-⟩ := h
    constructor <;> simp [acceptedBy,recordedBy,statsBy,statsOf,alertsBy,receives,engineCall,
      Readable,waiting,hphase,hstats,Except.toOption]
  | _ =>
    simp only [step,hphase,Prod.mk.injEq] at h
    obtain ⟨rfl,-⟩ := h
    refine effect_quiet readable rfl ?_ ?_ ?_ ?_ rfl rfl rfl rfl ?_ <;>
      simp [acceptedBy,recordedBy,alertsBy,statsBy,receives,engineCall,hphase]

/-- The flood test of a packet. -/
theorem effect_countFlood {now : TimePoint} (h : step measures s (.countFlood now)=(t,reply))
    (readable : Readable s.phase) : Effect measures ⟨s,(.countFlood now,reply),t⟩ := by
  cases hphase : s.phase with
  | recorded srcIp port =>
    simp only [step,hphase,countFlood] at h
    by_cases hflood : (FloodWindow.isFlood s.engine srcIp now).2=true
    · rw [if_pos hflood,emitThreats,Prod.mk.injEq] at h
      obtain ⟨rfl,-⟩ := h
      constructor <;> simp [acceptedBy,recordedBy,statsBy,alertsBy,receives,engineCall,
        Readable,waiting,hphase,hflood,FloodWindow.step]
    · rw [if_neg hflood,Prod.mk.injEq] at h
      obtain ⟨rfl,-⟩ := h
      constructor <;> simp [acceptedBy,recordedBy,statsBy,alertsBy,receives,engineCall,
        Readable,waiting,hphase,hflood,FloodWindow.step]
  | _ =>
    simp only [step,hphase,Prod.mk.injEq] at h
    obtain ⟨rfl,-⟩ := h
    refine effect_quiet readable rfl ?_ ?_ ?_ ?_ rfl rfl rfl rfl ?_ <;>
      simp [acceptedBy,recordedBy,alertsBy,statsBy,receives,engineCall,hphase]

/-- The end of the analysis of a packet that flooded. -/
theorem effect_shutOut (h : step measures s .shutOut=(t,reply)) (readable : Readable s.phase) :
    Effect measures ⟨s,(.shutOut,reply),t⟩ := by
  cases hphase : s.phase with
  | flooding srcIp =>
    simp only [step,hphase,Prod.mk.injEq] at h
    obtain ⟨rfl,-⟩ := h
    constructor <;> simp [acceptedBy,recordedBy,statsBy,alertsBy,receives,engineCall,
      Readable,waiting,hphase,FloodWindow.step]
  | _ =>
    simp only [step,hphase,Prod.mk.injEq] at h
    obtain ⟨rfl,-⟩ := h
    refine effect_quiet readable rfl ?_ ?_ ?_ ?_ rfl rfl rfl rfl ?_ <;>
      simp [acceptedBy,recordedBy,alertsBy,statsBy,receives,engineCall,hphase]

/-- What every step does. -/
theorem step_effect {action : Action} (h : step measures s action=(t,reply))
    (readable : Readable s.phase) : Effect measures ⟨s,(action,reply),t⟩ := by
  cases action with
  | receive data => exact effect_receive h readable
  | record now => exact effect_record h readable
  | countFlood now => exact effect_countFlood h readable
  | shutOut => exact effect_shutOut h readable
  | _ =>
    simp only [step,Prod.mk.injEq] at h
    obtain ⟨rfl,-⟩ := h
    refine effect_quiet readable rfl ?_ ?_ ?_ ?_ rfl rfl rfl rfl ?_ <;>
      simp [acceptedBy,recordedBy,alertsBy,statsBy,receives,engineCall,FloodWindow.step]

end Steps

/-- The packets accepted so far, oldest first. -/
def accepted (events : List PacketEvent) : List (Bytes×Header) := events.filterMap acceptedBy

/-- The packets recorded so far, with their times. -/
def recorded (events : List PacketEvent) : List ((Bytes×Header)×TimePoint) :=
  events.filterMap recordedBy

/-- The statistics recorded so far. -/
def statistics (measures : Measures) (events : List PacketEvent) : List PacketStats :=
  events.filterMap (statsBy measures)

/-- The alerts raised so far. -/
def alerts (measures : Measures) (events : List PacketEvent) : List (ThreatCategory×Str) :=
  events.flatMap (alertsBy measures)

/-- What the engine holds, as a function of its history. -/
structure Accounts (measures : Measures) (events : List PacketEvent) (s : State) : Prop where
  /-- No read leaves its packet, and the packet at hand can be read. -/
  readable : Readable s.phase
  /-- Accepted packets are recorded once each, in their order; the last one
  may still wait. -/
  kept : accepted events=(recorded events).map Prod.fst++waiting s.phase
  /-- Every recorded packet has statistics. -/
  measured : (statistics measures events).length=(recorded events).length
  /-- The window is the end of the statistics. -/
  window : s.slidingWindow=retain windowSize (statistics measures events)
  /-- `events_processed_` counts the recorded packets. -/
  processed : s.eventsProcessed=UInt64.ofNat (recorded events).length
  /-- `threats_detected_` counts the alerts. -/
  detected : s.threatsDetected=UInt64.ofNat (alerts measures events).length
  /-- `packets_captured_` counts the packets that arrived. -/
  captured : s.packetsCaptured=UInt64.ofNat (events.countP receives)

/-- The window loses one packet when it is full, which is pruning it. -/
theorem pushWindow_eq {window : List PacketStats} (h : window.length ≤ windowSize)
    (stats : PacketStats) : pushWindow window stats=push windowSize window stats := by
  have hlength : (window++[stats]).length=window.length+1 := by simp
  unfold pushWindow push retain
  split_ifs with hlong
  · have hone : (window++[stats]).length-windowSize=1 := by omega
    rw [hone]
  · have hzero : (window++[stats]).length-windowSize=0 := by omega
    rw [hzero,List.drop_zero]

/-- Appending what a step records keeps the window the end of the
statistics. -/
theorem foldl_pushWindow (history : List PacketStats) (stats : Option PacketStats) :
    stats.toList.foldl pushWindow (retain windowSize history)=
      retain windowSize (history++stats.toList) := by
  cases stats with
  | none => simp
  | some stats =>
    rw [Option.toList_some,List.foldl_cons,List.foldl_nil,
      pushWindow_eq (retain_length windowSize history),push_retain]

/-- One more step of the history. -/
theorem filterMap_event {α : Type} (f : PacketEvent → Option α) (events : List PacketEvent)
    (e : PacketEvent) : (events++[e]).filterMap f=events.filterMap f++(f e).toList := by
  rw [List.filterMap_append]
  cases h : f e <;> simp [h]

/-- The recorded packets after one more step. -/
theorem recorded_event (events : List PacketEvent) (e : PacketEvent) :
    recorded (events++[e])=recorded events++(recordedBy e).toList :=
  filterMap_event recordedBy events e

/-- The statistics after one more step. -/
theorem statistics_event (events : List PacketEvent) (e : PacketEvent) :
    statistics measures (events++[e])=
      statistics measures events++(statsBy measures e).toList :=
  filterMap_event (statsBy measures) events e

/-- The alerts after one more step. -/
theorem alerts_event (events : List PacketEvent) (e : PacketEvent) :
    alerts measures (events++[e])=alerts measures events++alertsBy measures e := by
  simp [alerts]

/-- A step keeps the accounts. -/
theorem accounts_step {events : List PacketEvent} {s t : State} {label : Action×Reply}
    (accounts : Accounts measures events s) (h : Deterministic (step measures) s label t) :
    Accounts measures (events++[⟨s,label,t⟩]) t := by
  have effect : Effect measures ⟨s,label,t⟩ := step_effect h accounts.readable
  constructor
  · exact effect.readable
  · rw [recorded_event,List.map_append,List.append_assoc,← effect.kept,← List.append_assoc,
      ← accounts.kept]
    exact filterMap_event acceptedBy events ⟨s,label,t⟩
  · rw [statistics_event,recorded_event,List.length_append,List.length_append,effect.measured,
      accounts.measured]
  · rw [effect.window,accounts.window,foldl_pushWindow,statistics_event]
  · rw [effect.processed,accounts.processed,recorded_event,List.length_append,UInt64.ofNat_add]
  · rw [effect.detected,accounts.detected,alerts_event,List.length_append,UInt64.ofNat_add]
  · rw [effect.captured,accounts.captured,List.countP_append,UInt64.ofNat_add]
    cases hreceives : receives ⟨s,label,t⟩ <;> simp [hreceives]

/-- Every run keeps the accounts. -/
theorem accounts_run {events : List PacketEvent} {s : State}
    (run : Run (Deterministic (step measures)) State.initial events s) :
    Accounts measures events s := by
  refine run.invariant (Accounts measures) ?_ fun events s label t => accounts_step
  constructor <;> simp [State.initial,accepted,recorded,statistics,alerts,Readable,waiting,retain]

/-- In every interleaving of packets with blocking, unblocking and reading
callers: no read leaves its packet, accepted packets are recorded once each in
their order, the three counters count packets, recorded packets and alerts,
and `recent_packets` answers with the newest statistics, at most 64. -/
theorem packets_accounted {events : List PacketEvent} {s : State}
    (run : Run (Deterministic (step measures)) State.initial events s) :
    Accounts measures events s ∧ ∀ n,
      recentPackets s n=retain (min n windowSize) (statistics measures events) := by
  have accounts := accounts_run run
  refine ⟨accounts,fun n => ?_⟩
  have hdrop : recentPackets s n=retain n s.slidingWindow := by
    unfold recentPackets retain
    split_ifs with h
    · rfl
    · rw [Nat.sub_eq_zero_of_le (by omega)]
  rw [hdrop,accounts.window,retain_retain]

/-- A packet of one source without a payload. -/
def emptyPacket : Bytes := [0x45,0,0,20,0,0,0,0,64,6,0,0,10,0,0,7,10,0,0,1]

/-- A payload without bytes measures zero. -/
def emptyMeasures : Measures := ⟨fun _ => PeStaticAnalysis.zero,fun _ => PeStaticAnalysis.zero⟩

/-- A packet is analysed, its source is blocked, and the next one is not. -/
def twoPackets : List Action :=
  [.onThreat,.receive emptyPacket,.record 0,.countFlood 0,.blockIp 0x0A000007,
    .receive emptyPacket,.recentPackets 5]

/-- The second packet is counted and not recorded. -/
theorem packets_accounted_two :
    (recorded (execute (step emptyMeasures) State.initial twoPackets).1).length=1 ∧
      (execute (step emptyMeasures) State.initial twoPackets).2.packetsCaptured=2 ∧
      (recentPackets (execute (step emptyMeasures) State.initial twoPackets).2 5).length=1 := by
  obtain ⟨accounts,hrecent⟩ := packets_accounted
    (execute_run (step emptyMeasures) State.initial twoPackets)
  have hone : (recorded (execute (step emptyMeasures) State.initial twoPackets).1).length=1 := rfl
  have htwo : (execute (step emptyMeasures) State.initial twoPackets).1.countP receives=2 := rfl
  refine ⟨hone,?_,?_⟩
  · rw [accounts.captured,htwo]
    rfl
  · rw [hrecent,retain,List.length_drop,accounts.measured,hone]
    rfl

end Gcad.PacketRuns
