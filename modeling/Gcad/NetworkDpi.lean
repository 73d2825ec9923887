import Gcad.BoundedLog
import Gcad.KeyedMap
import Gcad.PeStaticAnalysis
import Gcad.StepSystem
import Gcad.Threat

/-!
# Connection timelines and beacon alerts

The timelines of network_dpi_engine.cpp and `analyze_beacons`. What is
computed from the intervals of a timeline in floating point is a parameter.
An unordered map may enumerate its entries in any order, at every call anew.
The set of reported keys makes an alert for every rising edge: a timeline
that qualifies now and did not at the call before.
-/

namespace Gcad.NetworkDpi

open Common Threat KeyedMap BoundedLog StepSystem
open PeStaticAnalysis (ge)

/-- The fields of `PacketMeta` that the timelines read. -/
structure PacketMeta where
  /-- When it was sent. -/
  timestamp : TimePoint
  /-- The address it went to. -/
  dstIp : Str
  /-- The port it went to. -/
  dstPort : UInt16

/-- `ConnectionTimeline`. -/
structure ConnectionTimeline where
  /-- When it was connected to, oldest first. -/
  timestamps : List TimePoint
  /-- The address of the destination. -/
  dstIp : Str
  /-- Its port. -/
  dstPort : UInt16

/-- What is computed from the timestamps of a timeline. -/
structure BeaconMeasure where
  /-- The mean distance in milliseconds. -/
  mean : Double
  /-- How far the distances spread. -/
  stddev : Double
  /-- The spread in relation to the mean. -/
  jitterRatio : Double
  /-- How regular the connections are. -/
  score : Double
  /-- The mean as the threat prints it. -/
  meanText : Str
  /-- The score in whole percent, as the threat prints it. -/
  scoreText : Str

/-- The members of `NetworkDpiEngine` that the beacon analysis reads. The
counters of `stats` are left out. -/
structure NetworkDpiEngine where
  /-- The connections to each destination. -/
  connTimelines : Table Str ConnectionTimeline
  /-- Destinations that were reported. -/
  reportedBeacons : Finset Str
  /-- A callback for threats is installed. -/
  callback : Bool

/-- `BEACON_MIN_CONNECTIONS`. -/
def BEACON_MIN_CONNECTIONS : ℕ := 5

/-- The bound on the timestamps of a timeline. -/
def maxTimestamps : ℕ := 200

/-- `BEACON_SCORE_THRESHOLD`. -/
def BEACON_SCORE_THRESHOLD : Double :=
  .ofScaled false 0x16666666666666 (-53)

/-- A new engine whose callback is installed or not. -/
def create (callback : Bool) : NetworkDpiEngine := ⟨∅,∅,callback⟩

/-- `conn_key`. -/
def connKey (dstIp : Str) (dstPort : UInt16) : Str := dstIp++ ':'::toDecimal dstPort.toNat

/-- The first critical section of `inspect_packet`. The rules behind it raise
alerts of another category and touch none of these members. -/
def inspectPacket (engine : NetworkDpiEngine) (pkt : PacketMeta) : NetworkDpiEngine :=
  let key := connKey pkt.dstIp pkt.dstPort
  let timestamps := ((engine.connTimelines.lookup key).map
    ConnectionTimeline.timestamps).getD []
  { engine with
    connTimelines := engine.connTimelines.insert key
      ⟨push maxTimestamps timestamps pkt.timestamp,pkt.dstIp,pkt.dstPort⟩ }

/-- The intervals of a timeline in milliseconds. -/
def intervals (timestamps : List TimePoint) : List ℤ :=
  timestamps.zipWith (fun earlier later => (later-earlier).tdiv (10^6)) timestamps.tail

/-- The dash in the text of an alert, in UTF-8. -/
def dash : Str := [Char.ofNat 0xE2,Char.ofNat 0x80,Char.ofNat 0x94]

section Analysis

variable (measure : List TimePoint → BeaconMeasure)

/-- The score of a timeline reaches the threshold. -/
def hot (tl : ConnectionTimeline) : Bool := ge (measure tl.timestamps).score BEACON_SCORE_THRESHOLD

/-- The alert for a timeline. -/
def beaconEvent (tl : ConnectionTimeline) (now : TimePoint) : ThreatEvent :=
  { ThreatEvent.default with
    level := levelValue .high
    category := ThreatCategory.c2Beacon.value
    sourceIp := tl.dstIp
    sourcePort := tl.dstPort
    description := "Beaconing detected to ".toList++tl.dstIp++":".toList++
      toDecimal tl.dstPort.toNat++" ".toList++dash++" ".toList++toDecimal tl.timestamps.length++
      " connections, interval=".toList++(measure tl.timestamps).meanText++"ms, score=".toList++
      (measure tl.timestamps).scoreText++"%".toList
    timestamp := now }

/-- What the loop of `analyze_beacons` changes. -/
structure Progress where
  /-- The reported keys. -/
  reported : Finset Str
  /-- The events to be sent after the loop. -/
  deferred : List ThreatEvent

/-- The body of the loop of `analyze_beacons`; the clock shows the time at
which the entry of that key is examined. -/
def analyzeEntry (clock : Str → TimePoint) (progress : Progress)
    (entry : (_ : Str)×ConnectionTimeline) : Progress :=
  if entry.2.timestamps.length < BEACON_MIN_CONNECTIONS then progress
  else if (intervals entry.2.timestamps).isEmpty then progress
  else if hot measure entry.2 then
    if entry.1 ∈ progress.reported then progress
    else
      ⟨insert entry.1 progress.reported,
        progress.deferred++[beaconEvent measure entry.2 (clock entry.1)]⟩
  else { progress with reported := progress.reported.erase entry.1 }

/-- `analyze_beacons`, with the events it sends. -/
def analyzeBeacons (order : IterationOrder Str ConnectionTimeline) (clock : Str → TimePoint)
    (engine : NetworkDpiEngine) : NetworkDpiEngine×List ThreatEvent :=
  if engine.callback then
    let progress := (order.order engine.connTimelines.entries).foldl (analyzeEntry measure clock)
      ⟨engine.reportedBeacons,[]⟩
    ({ engine with reportedBeacons := progress.reported },progress.deferred)
  else (engine,[])

/-- The calls of the engine. -/
inductive Call where
  /-- A packet is seen. -/
  | inspectPacket (pkt : PacketMeta)
  /-- The destinations are measured, in an order of the table. -/
  | analyzeBeacons (order : IterationOrder Str ConnectionTimeline) (clock : Str → TimePoint)

/-- One call with the beacon events it sends. -/
def step (engine : NetworkDpiEngine) : Call → NetworkDpiEngine×List ThreatEvent
  | .inspectPacket pkt => (inspectPacket engine pkt,[])
  | .analyzeBeacons order clock => analyzeBeacons measure order clock engine

end Analysis

/-- A recorded call. -/
abbrev CallEvent := Event NetworkDpiEngine (Call×List ThreatEvent)

/-- A call of `analyze_beacons`. -/
def isAnalysis (e : CallEvent) : Bool :=
  match e.label.1 with
  | .inspectPacket _ => false
  | .analyzeBeacons _ _ => true

/-- The latest call of `analyze_beacons`. -/
def latestAnalysis (events : List CallEvent) : Option CallEvent :=
  (events.filter isAnalysis).getLast?

section Edges

variable (measure : List TimePoint → BeaconMeasure)

/-- A timeline qualifies: enough connections and a hot score. -/
def Beacon (tl : ConnectionTimeline) : Prop :=
  BEACON_MIN_CONNECTIONS ≤ tl.timestamps.length ∧ hot measure tl=true

instance (tl : ConnectionTimeline) : Decidable (Beacon measure tl) :=
  inferInstanceAs (Decidable (_ ∧ _))

/-- The timeline of a destination qualifies. -/
def Qualifies (engine : NetworkDpiEngine) (dstIp : Str) (dstPort : UInt16) : Prop :=
  ∃ tl,engine.connTimelines.lookup (connKey dstIp dstPort)=some tl ∧ Beacon measure tl

/-- The timeline of a destination qualified at the latest call of
`analyze_beacons`, if there was one. -/
def QualifiedBefore (events : List CallEvent) (dstIp : Str) (dstPort : UInt16) : Prop :=
  ∃ e,latestAnalysis events=some e ∧ Qualifies measure e.before dstIp dstPort

/-- The events about a destination. -/
def eventsFor (dstIp : Str) (dstPort : UInt16) (sent : List ThreatEvent) : List ThreatEvent :=
  sent.filter fun ev => ev.category=ThreatCategory.c2Beacon.value ∧ ev.sourceIp=dstIp ∧
    ev.sourcePort=dstPort

/-- A call sees a rising edge of a destination. -/
def RisingEdge (first : List CallEvent) (e : CallEvent) (dstIp : Str) (dstPort : UInt16) : Prop :=
  isAnalysis e=true ∧ Qualifies measure e.before dstIp dstPort ∧
    ¬QualifiedBefore measure first dstIp dstPort

/-- A key determines its destination. -/
theorem connKey_injective {dstIp other : Str} {dstPort port : UInt16}
    (h : connKey dstIp dstPort=connKey other port) : dstIp=other ∧ dstPort=port := by
  have hplain : ∀ n : ℕ,∀ c ∈ (toDecimal n).reverse,decide (c≠ ':')=true := by
    intro n c member
    have hdigit : c.isDigit=true :=
      Nat.isDigit_of_mem_toDigits (by norm_num) (by norm_num) (List.mem_reverse.mp member)
    refine decide_eq_true fun heq => ?_
    rw [heq] at hdigit
    exact absurd hdigit (by decide)
  have htake : ∀ (ip : Str) (n : ℕ),
      ((ip++ ':'::toDecimal n).reverse.takeWhile fun c => c≠ ':')=(toDecimal n).reverse := by
    intro ip n
    rw [List.reverse_append,List.reverse_cons,List.append_assoc,
      List.takeWhile_append_of_pos (hplain n),List.singleton_append,
      List.takeWhile_cons_of_neg (by decide),List.append_nil]
  have hdigits : toDecimal dstPort.toNat=toDecimal port.toNat := by
    refine List.reverse_injective ?_
    rw [←htake dstIp,←htake other]
    exact congrArg (fun key : Str => key.reverse.takeWhile fun c => c≠ ':') h
  refine ⟨?_,UInt16.toNat_inj.mp (toDecimal_injective hdigits)⟩
  rw [connKey,connKey,hdigits] at h
  exact List.append_cancel_right h

/-- A timeline with enough connections has intervals. -/
theorem intervals_ne_nil {timestamps : List TimePoint}
    (h : BEACON_MIN_CONNECTIONS ≤ timestamps.length) : (intervals timestamps).isEmpty=false := by
  match timestamps with
  | [] => exact absurd h (by decide)
  | [time] => exact absurd h (Nat.not_le.mpr (show 1 < 5 by decide))
  | _::_::_ => rfl

/-- What the loop does with one entry. -/
theorem analyzeEntry_cases (clock : Str → TimePoint) (progress : Progress)
    (entry : (_ : Str)×ConnectionTimeline) :
    (Beacon measure entry.2 ∧
      (analyzeEntry measure clock progress entry).reported=insert entry.1 progress.reported ∧
      (analyzeEntry measure clock progress entry).deferred=progress.deferred++
        if entry.1 ∈ progress.reported then [] else [beaconEvent measure entry.2 (clock entry.1)]) ∨
    (¬Beacon measure entry.2 ∧
      (analyzeEntry measure clock progress entry).deferred=progress.deferred ∧
      (analyzeEntry measure clock progress entry).reported=
        if BEACON_MIN_CONNECTIONS ≤ entry.2.timestamps.length then progress.reported.erase entry.1
        else progress.reported) := by
  unfold analyzeEntry
  by_cases hshort : entry.2.timestamps.length < BEACON_MIN_CONNECTIONS
  · rw [if_pos hshort,if_neg (not_le.mpr hshort)]
    exact .inr ⟨fun h => absurd h.1 (not_le.mpr hshort),rfl,rfl⟩
  · have hlong := not_lt.mp hshort
    rw [if_neg hshort,intervals_ne_nil hlong,if_neg Bool.false_ne_true,if_pos hlong]
    cases hhot : hot measure entry.2 with
    | false =>
      rw [if_neg Bool.false_ne_true]
      exact .inr ⟨fun h => absurd (hhot.symm.trans h.2) nofun,rfl,rfl⟩
    | true =>
      rw [if_pos rfl]
      refine .inl ⟨⟨hlong,hhot⟩,?_⟩
      by_cases hknown : entry.1 ∈ progress.reported
      · rw [if_pos hknown,if_pos hknown,Finset.insert_eq_of_mem hknown]
        exact ⟨rfl,(List.append_nil _).symm⟩
      · rw [if_neg hknown,if_neg hknown]
        exact ⟨rfl,rfl⟩

/-- An entry does not change what is reported under another key. -/
theorem analyzeEntry_other (clock : Str → TimePoint) (progress : Progress)
    {entry : (_ : Str)×ConnectionTimeline} {key : Str} (hne : key≠entry.1) :
    key ∈ (analyzeEntry measure clock progress entry).reported ↔ key ∈ progress.reported := by
  rcases analyzeEntry_cases measure clock progress entry with ⟨-,hset,-⟩ | ⟨-,-,hset⟩
  · rw [hset,Finset.mem_insert,or_iff_right hne]
  · rw [hset]
    split_ifs
    · rw [Finset.mem_erase]
      exact and_iff_right hne
    · exact Iff.rfl

/-- After an entry its key is reported when it is a beacon, or when it was
reported and the timeline is too short to be examined. -/
theorem analyzeEntry_self (clock : Str → TimePoint) (progress : Progress)
    (entry : (_ : Str)×ConnectionTimeline) :
    entry.1 ∈ (analyzeEntry measure clock progress entry).reported ↔ Beacon measure entry.2 ∨
      entry.1 ∈ progress.reported ∧ entry.2.timestamps.length < BEACON_MIN_CONNECTIONS := by
  rcases analyzeEntry_cases measure clock progress entry with ⟨hbeacon,hset,-⟩ | ⟨hquiet,-,hset⟩
  · rw [hset]
    exact iff_of_true (Finset.mem_insert_self _ _) (.inl hbeacon)
  · rw [hset,or_iff_right hquiet]
    split_ifs with hlong
    · exact iff_of_false (Finset.notMem_erase _ _) fun h => absurd h.2 (not_lt.mpr hlong)
    · exact (and_iff_left (not_le.mp hlong)).symm

/-- The event of an entry is sent when it is a beacon and its key is not
reported yet. -/
theorem analyzeEntry_deferred (clock : Str → TimePoint) (progress : Progress)
    (entry : (_ : Str)×ConnectionTimeline) :
    (analyzeEntry measure clock progress entry).deferred=progress.deferred++
      ([entry].filter fun entry => Beacon measure entry.2 ∧ entry.1 ∉ progress.reported).map
        fun entry => beaconEvent measure entry.2 (clock entry.1) := by
  rcases analyzeEntry_cases measure clock progress entry with
    ⟨hbeacon,-,hsent⟩ | ⟨hquiet,hsent,-⟩
  · rw [hsent]
    by_cases hknown : entry.1 ∈ progress.reported
    · rw [if_pos hknown,List.filter_cons_of_neg (by simp [hknown])]
      rfl
    · rw [if_neg hknown,List.filter_cons_of_pos (by simp [hknown,hbeacon])]
      rfl
  · rw [hsent,List.filter_cons_of_neg (by simp [hquiet])]
    exact (List.append_nil _).symm

/-- The loop does not change what is reported under a key that no entry
has. -/
theorem foldl_reported_other (clock : Str → TimePoint)
    {entries : List ((_ : Str)×ConnectionTimeline)} {key : Str}
    (others : ∀ entry ∈ entries,key≠entry.1) (progress : Progress) :
    key ∈ (entries.foldl (analyzeEntry measure clock) progress).reported ↔
      key ∈ progress.reported := by
  induction entries generalizing progress with
  | nil => exact Iff.rfl
  | cons entry entries ih =>
    rw [List.foldl_cons,ih fun other member => others other (List.mem_cons_of_mem entry member)]
    exact analyzeEntry_other measure clock progress (others entry List.mem_cons_self)

/-- What the loop leaves under the key of an entry. -/
theorem foldl_reported (clock : Str → TimePoint)
    {entries : List ((_ : Str)×ConnectionTimeline)} (nodup : (entries.map Sigma.fst).Nodup)
    {entry : (_ : Str)×ConnectionTimeline} (hmem : entry ∈ entries) (progress : Progress) :
    entry.1 ∈ (entries.foldl (analyzeEntry measure clock) progress).reported ↔
      Beacon measure entry.2 ∨
        entry.1 ∈ progress.reported ∧ entry.2.timestamps.length < BEACON_MIN_CONNECTIONS := by
  obtain ⟨front,back,rfl⟩ := List.append_of_mem hmem
  rw [List.map_append,List.map_cons,List.nodup_middle,List.nodup_cons,←List.map_append] at nodup
  have hfront : ∀ other ∈ front,entry.1≠other.1 := fun other member heq =>
    nodup.1 (heq ▸ List.mem_map_of_mem (List.mem_append_left back member))
  have hback : ∀ other ∈ back,entry.1≠other.1 := fun other member heq =>
    nodup.1 (heq ▸ List.mem_map_of_mem (List.mem_append_right front member))
  rw [List.foldl_append,List.foldl_cons,foldl_reported_other measure clock hback,
    analyzeEntry_self,foldl_reported_other measure clock hfront]

/-- What the loop sends for entries of different keys. -/
theorem foldl_deferred (clock : Str → TimePoint)
    {entries : List ((_ : Str)×ConnectionTimeline)} (nodup : (entries.map Sigma.fst).Nodup)
    (progress : Progress) :
    (entries.foldl (analyzeEntry measure clock) progress).deferred=progress.deferred++
      (entries.filter fun entry => Beacon measure entry.2 ∧ entry.1 ∉ progress.reported).map
        fun entry => beaconEvent measure entry.2 (clock entry.1) := by
  induction entries generalizing progress with
  | nil => exact (List.append_nil _).symm
  | cons entry entries ih =>
    rw [List.map_cons,List.nodup_cons] at nodup
    have hother : ∀ other ∈ entries,other.1≠entry.1 := fun other member heq =>
      nodup.1 (heq ▸ List.mem_map_of_mem (f := Sigma.fst) member)
    have hfilter : (entries.filter fun other => decide (Beacon measure other.2 ∧
        other.1 ∉ (analyzeEntry measure clock progress entry).reported))=
        entries.filter fun other =>
          decide (Beacon measure other.2 ∧ other.1 ∉ progress.reported) := by
      refine List.filter_congr fun other member => ?_
      simp only [analyzeEntry_other measure clock progress (hother other member)]
    rw [List.foldl_cons,ih nodup.2,analyzeEntry_deferred,hfilter,List.append_assoc,
      ←List.map_append,←List.filter_append,List.singleton_append]

/-- What the members say about the calls so far. -/
structure Tracks (events : List CallEvent) (engine : NetworkDpiEngine) : Prop where
  /-- The callback is installed. -/
  callback : engine.callback=true
  /-- A timeline stands under the key of its destination. -/
  keyed : ∀ key tl,engine.connTimelines.lookup key=some tl → key=connKey tl.dstIp tl.dstPort
  /-- A reported timeline has enough connections. -/
  grown : ∀ key ∈ engine.reportedBeacons,∃ tl,engine.connTimelines.lookup key=some tl ∧
    BEACON_MIN_CONNECTIONS ≤ tl.timestamps.length
  /-- What is reported qualified at the latest analysis. -/
  edges : ∀ dstIp dstPort,connKey dstIp dstPort ∈ engine.reportedBeacons ↔
    QualifiedBefore measure events dstIp dstPort

/-- A new engine has reported nothing. -/
theorem create_tracks : Tracks measure [] (create true) where
  callback := rfl
  keyed := fun _ _ h => absurd h nofun
  grown := fun key h => absurd h (Finset.notMem_empty key)
  edges := fun _ _ => iff_of_false (Finset.notMem_empty _) fun ⟨_,h,_⟩ => nomatch h

/-- A packet leaves the latest analysis as it is. -/
theorem latestAnalysis_packet (events : List CallEvent) {e : CallEvent} (h : isAnalysis e=false) :
    latestAnalysis (events++[e])=latestAnalysis events := by
  rw [latestAnalysis,List.filter_append,List.filter_singleton,h,cond_false,List.append_nil]
  rfl

/-- A new analysis is the latest. -/
theorem latestAnalysis_analysis (events : List CallEvent) {e : CallEvent} (h : isAnalysis e=true) :
    latestAnalysis (events++[e])=some e := by
  rw [latestAnalysis,List.filter_append,List.filter_singleton,h,cond_true,
    List.getLast?_append,List.getLast?_singleton,Option.some_or]

/-- One more connection leaves enough connections. -/
theorem push_long {timestamps : List TimePoint} (time : TimePoint)
    (h : BEACON_MIN_CONNECTIONS ≤ timestamps.length) :
    BEACON_MIN_CONNECTIONS ≤ (push maxTimestamps timestamps time).length := by
  have hbound : BEACON_MIN_CONNECTIONS ≤ maxTimestamps := by decide
  rw [push,BoundedLog.retain,List.length_drop,List.length_append,List.length_singleton]
  omega

/-- A packet keeps what the members say. -/
theorem inspectPacket_tracks {events : List CallEvent} {engine : NetworkDpiEngine}
    (h : Tracks measure events engine) (pkt : PacketMeta) {e : CallEvent}
    (hpacket : isAnalysis e=false) :
    Tracks measure (events++[e]) (inspectPacket engine pkt) where
  callback := h.callback
  keyed := by
    intro key tl hlookup
    by_cases hkey : key=connKey pkt.dstIp pkt.dstPort
    · subst hkey
      obtain rfl := Option.some.inj ((AList.lookup_insert _).symm.trans hlookup)
      rfl
    · exact h.keyed key tl ((AList.lookup_insert_ne hkey).symm.trans hlookup)
  grown := by
    intro key hreported
    obtain ⟨tl,hlookup,hlong⟩ := h.grown key hreported
    by_cases hkey : key=connKey pkt.dstIp pkt.dstPort
    · subst hkey
      refine ⟨_,AList.lookup_insert _,?_⟩
      rw [hlookup]
      simp only [Option.map_some,Option.getD_some]
      exact push_long pkt.timestamp hlong
    · exact ⟨tl,(AList.lookup_insert_ne hkey).trans hlookup,hlong⟩
  edges := by
    intro dstIp dstPort
    rw [QualifiedBefore,latestAnalysis_packet events hpacket]
    exact h.edges dstIp dstPort

/-- An analysis reports the timelines that qualify, and sends an event for
each that was not reported. -/
theorem analyzeBeacons_spec {events : List CallEvent} {engine : NetworkDpiEngine}
    (h : Tracks measure events engine) (order : IterationOrder Str ConnectionTimeline)
    (clock : Str → TimePoint) :
    (analyzeBeacons measure order clock engine).1.connTimelines=engine.connTimelines ∧
    (analyzeBeacons measure order clock engine).1.callback=true ∧
    (∀ key,key ∈ (analyzeBeacons measure order clock engine).1.reportedBeacons ↔
      ∃ tl,engine.connTimelines.lookup key=some tl ∧ Beacon measure tl) ∧
    (analyzeBeacons measure order clock engine).2=
      ((order.order engine.connTimelines.entries).filter fun entry =>
        Beacon measure entry.2 ∧ entry.1 ∉ engine.reportedBeacons).map fun entry =>
          beaconEvent measure entry.2 (clock entry.1) := by
  have hperm := order.perm engine.connTimelines.entries
  have hlookup : ∀ key tl,⟨key,tl⟩ ∈ order.order engine.connTimelines.entries ↔
      engine.connTimelines.lookup key=some tl :=
    fun key tl => hperm.mem_iff.trans AList.mem_lookup_iff.symm
  have hnodup : ((order.order engine.connTimelines.entries).map Sigma.fst).Nodup :=
    (hperm.map _).nodup_iff.mpr engine.connTimelines.nodupKeys
  have hdeferred := foldl_deferred measure clock hnodup ⟨engine.reportedBeacons,[]⟩
  rw [analyzeBeacons,if_pos h.callback]
  refine ⟨rfl,h.callback,fun key => ?_,hdeferred⟩
  cases hfound : engine.connTimelines.lookup key with
  | none =>
    have hothers : ∀ entry ∈ order.order engine.connTimelines.entries,key≠entry.1 := by
      rintro entry member rfl
      exact absurd ((hlookup entry.1 entry.2).mp member) (by rw [hfound]; exact nofun)
    refine (foldl_reported_other measure clock hothers ⟨engine.reportedBeacons,[]⟩).trans ?_
    refine iff_of_false (fun hold => ?_) (fun ⟨_,hsome,_⟩ => absurd hsome nofun)
    obtain ⟨tl,hsome,-⟩ := h.grown key hold
    exact absurd (hfound.symm.trans hsome) nofun
  | some tl =>
    refine (foldl_reported measure clock hnodup ((hlookup key tl).mpr hfound)
      ⟨engine.reportedBeacons,[]⟩).trans ?_
    constructor
    · rintro (hbeacon | ⟨hold,hshort⟩)
      · exact ⟨tl,rfl,hbeacon⟩
      · obtain ⟨other,hsome,hlong⟩ := h.grown key hold
        rw [←Option.some.inj (hfound.symm.trans hsome)] at hlong
        exact absurd hshort (not_lt.mpr hlong)
    · rintro ⟨other,hsome,hbeacon⟩
      rw [Option.some.inj hsome]
      exact .inl hbeacon

/-- An analysis keeps what the members say. -/
theorem analyzeBeacons_tracks {events : List CallEvent} {engine : NetworkDpiEngine}
    (h : Tracks measure events engine) (order : IterationOrder Str ConnectionTimeline)
    (clock : Str → TimePoint) {e : CallEvent} (hanalysis : isAnalysis e=true)
    (hbefore : e.before=engine) :
    Tracks measure (events++[e]) (analyzeBeacons measure order clock engine).1 := by
  obtain ⟨htimelines,hcallback,hreported,-⟩ := analyzeBeacons_spec measure h order clock
  refine ⟨hcallback,?_,?_,?_⟩
  · rw [htimelines]
    exact h.keyed
  · intro key hmem
    obtain ⟨tl,hfound,hbeacon⟩ := (hreported key).mp hmem
    exact ⟨tl,htimelines ▸ hfound,hbeacon.1⟩
  · intro dstIp dstPort
    rw [hreported,QualifiedBefore,latestAnalysis_analysis events hanalysis]
    constructor
    · exact fun hqualifies => ⟨e,rfl,hbefore ▸ hqualifies⟩
    · rintro ⟨_,hlatest,hqualifies⟩
      obtain rfl := Option.some.inj hlatest
      exact hbefore ▸ hqualifies

/-- What the members say after every run. -/
theorem run_tracks {events : List CallEvent} {engine : NetworkDpiEngine}
    (run : Run (Deterministic (step measure)) (create true) events engine) :
    Tracks measure events engine := by
  refine run.invariant (Tracks measure) (create_tracks measure) ?_
  rintro events s ⟨call,sent⟩ t h hstep
  cases call with
  | inspectPacket pkt =>
    obtain ⟨rfl,-⟩ := Prod.mk.inj hstep
    exact inspectPacket_tracks measure h pkt rfl
  | analyzeBeacons order clock =>
    have heq : analyzeBeacons measure order clock s=(t,sent) := hstep
    obtain rfl := congrArg Prod.fst heq
    exact analyzeBeacons_tracks measure h order clock rfl rfl

/-- An alert is about a destination exactly when it comes from the entry of
its key. -/
theorem beaconEvent_about {events : List CallEvent} {engine : NetworkDpiEngine}
    (h : Tracks measure events engine) {entry : (_ : Str)×ConnectionTimeline}
    (hmem : engine.connTimelines.lookup entry.1=some entry.2) (now : TimePoint) (dstIp : Str)
    (dstPort : UInt16) :
    ((beaconEvent measure entry.2 now).category=ThreatCategory.c2Beacon.value ∧
      (beaconEvent measure entry.2 now).sourceIp=dstIp ∧
      (beaconEvent measure entry.2 now).sourcePort=dstPort) ↔ entry.1=connKey dstIp dstPort := by
  rw [h.keyed entry.1 entry.2 hmem]
  constructor
  · rintro ⟨-,rfl,rfl⟩
    rfl
  · intro heq
    exact ⟨rfl,connKey_injective heq⟩

/-- In every run with a callback installed, a call sends exactly one event
about a destination at a rising edge and none otherwise. -/
theorem beacons_edge_triggered {events first rest : List CallEvent} {e : CallEvent}
    {engine : NetworkDpiEngine}
    (run : Run (Deterministic (step measure)) (create true) events engine)
    (hsplit : events=first++e::rest) (dstIp : Str) (dstPort : UInt16) :
    (RisingEdge measure first e dstIp dstPort → (eventsFor dstIp dstPort e.label.2).length=1) ∧
    (¬RisingEdge measure first e dstIp dstPort → eventsFor dstIp dstPort e.label.2=[]) := by
  subst hsplit
  obtain ⟨hfirst,hstep,-⟩ := run.event_step
  have h := run_tracks measure hfirst
  obtain ⟨s,⟨call,sent⟩,t⟩ := e
  cases call with
  | inspectPacket pkt =>
    obtain ⟨-,rfl⟩ := Prod.mk.inj hstep
    exact ⟨fun hedge => absurd hedge.1 nofun,fun _ => rfl⟩
  | analyzeBeacons order clock =>
    obtain ⟨-,-,-,hsent⟩ := analyzeBeacons_spec measure h order clock
    have heq : analyzeBeacons measure order clock s=(t,sent) := hstep
    have hperm := order.perm s.connTimelines.entries
    have hnodup : ((order.order s.connTimelines.entries).map Sigma.fst).Nodup :=
      (hperm.map _).nodup_iff.mpr s.connTimelines.nodupKeys
    have hevents : (eventsFor dstIp dstPort sent).length=
        ((order.order s.connTimelines.entries).filter fun entry =>
          entry.1=connKey dstIp dstPort ∧ Beacon measure entry.2 ∧
            entry.1 ∉ s.reportedBeacons).length := by
      rw [heq] at hsent
      change sent=_ at hsent
      rw [eventsFor,hsent,List.filter_map,List.length_map,List.filter_filter]
      refine congrArg List.length (List.filter_congr fun entry hmem => ?_)
      have hlookup := AList.mem_lookup_iff.mpr (hperm.mem_iff.mp hmem)
      have habout := beaconEvent_about measure h hlookup (clock entry.1) dstIp dstPort
      rw [Function.comp_apply,decide_eq_decide.mpr habout,←Bool.decide_and]
    constructor
    · rintro ⟨-,⟨tl,hfound,hbeacon⟩,hquiet⟩
      have hfresh := (not_congr (h.edges dstIp dstPort)).mpr hquiet
      have hmem := hperm.mem_iff.mpr (AList.mem_lookup_iff.mp hfound)
      rw [hevents]
      exact length_filter_key hnodup hmem (decide_eq_true ⟨rfl,hbeacon,hfresh⟩)
        fun entry hentry => (of_decide_eq_true hentry).1
    · intro hedge
      refine List.eq_nil_of_length_eq_zero (hevents.trans ?_)
      rw [List.length_eq_zero_iff,List.filter_eq_nil_iff]
      intro entry hmem hentry
      obtain ⟨hkey,hbeacon,hfresh⟩ := of_decide_eq_true hentry
      have hlookup := AList.mem_lookup_iff.mpr (hperm.mem_iff.mp hmem)
      rw [hkey] at hlookup hfresh
      exact hedge ⟨rfl,⟨entry.2,hlookup,hbeacon⟩,(not_congr (h.edges dstIp dstPort)).mp hfresh⟩

end Edges

/-- The measure of five or six connections a second apart. -/
def steadyMeasure (timestamps : List TimePoint) : BeaconMeasure where
  mean := .ofScaled false 0x1F400000000000 (-43)
  stddev := PeStaticAnalysis.zero
  jitterRatio := PeStaticAnalysis.zero
  score :=
    if timestamps.length ≤ 5 then
      .ofScaled false 0x18CCCCCCCCCCCC (-53)
    else .ofScaled false 0x1947AE147AE147 (-53)
  meanText := "1000".toList
  scoreText := if timestamps.length ≤ 5 then "77".toList else "78".toList

/-- The score of this measure reaches the threshold. -/
theorem steadyMeasure_hot (tl : ConnectionTimeline) : hot steadyMeasure tl=true := by
  rw [hot,steadyMeasure]
  dsimp only
  split_ifs <;> decide +kernel

/-- Five connections to one destination and two analyses. -/
def steadyCalls : List Call :=
  [.inspectPacket ⟨0,"h".toList,443⟩,.inspectPacket ⟨10^9,"h".toList,443⟩,
    .inspectPacket ⟨2*10^9,"h".toList,443⟩,.inspectPacket ⟨3*10^9,"h".toList,443⟩,
    .inspectPacket ⟨4*10^9,"h".toList,443⟩,
    .analyzeBeacons (IterationOrder.storage _ _) fun _ => 5*10^9,
    .analyzeBeacons (IterationOrder.storage _ _) fun _ => 6*10^9]

/-- The run of these calls. -/
def steadyRun : List CallEvent×NetworkDpiEngine :=
  execute (step steadyMeasure) (create true) steadyCalls

/-- The first analysis sends one event and the second none. -/
theorem beacons_edge_triggered_steady :
    (∃ e,steadyRun.1[5]?=some e ∧ (eventsFor "h".toList 443 e.label.2).length=1) ∧
    ∃ e,steadyRun.1[6]?=some e ∧ eventsFor "h".toList 443 e.label.2=[] := by
  have run := execute_run (step steadyMeasure) (create true) steadyCalls
  have hfirst : steadyRun.1=steadyRun.1.take 5++_::steadyRun.1.drop 6 := rfl
  have hsecond : steadyRun.1=steadyRun.1.take 6++_::steadyRun.1.drop 7 := rfl
  refine ⟨⟨_,rfl,(beacons_edge_triggered steadyMeasure run hfirst "h".toList 443).1 ?_⟩,
    _,rfl,(beacons_edge_triggered steadyMeasure run hsecond "h".toList 443).2 ?_⟩
  · exact ⟨rfl,⟨_,rfl,by decide,steadyMeasure_hot _⟩,fun ⟨_,h,_⟩ => nomatch h⟩
  · exact fun hedge => hedge.2.2 ⟨_,rfl,_,rfl,by decide,steadyMeasure_hot _⟩

end Gcad.NetworkDpi
