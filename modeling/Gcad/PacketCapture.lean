import Gcad.BoundedLog
import Gcad.FloodWindow
import Gcad.Ipv4Text
import Gcad.NetworkDpi

/-!
# Packet analysis of the raw-socket engine

`analyze_packet` of etg_ri_engine.cpp with the members it works on. Every
block under the lock is one step, so the analysis of a packet interleaves with
callers that block, unblock and read. Reads of the packet are checked, and the
two measures that are computed in floating point are parameters. A source that
floods is shut out from its next packet on until somebody unblocks it.
-/

namespace Gcad.PacketCapture

open Common Threat BoundedLog ByteView CheckedLogic StepSystem
open FloodWindow (ETGRIEngine Call CallEvent)
open PeStaticAnalysis (ge roundEven toFixed2)

/-- `PacketStats`. -/
structure PacketStats where
  /-- The entropy of the payload. -/
  shannonEntropy : Double
  /-- How far its bytes are from uniform. -/
  chiSquared : Double
  /-- Where it comes from. -/
  srcIp : UInt32
  /-- Where it goes. -/
  dstIp : UInt32
  /-- The port it comes from. -/
  srcPort : UInt16
  /-- The port it goes to. -/
  dstPort : UInt16
  /-- The protocol byte of its header. -/
  protocol : UInt8
  /-- The bytes behind the headers. -/
  payloadLen : ℕ
  /-- When it was captured. -/
  timestamp : TimePoint

/-- What is computed from a payload in floating point. -/
structure Measures where
  /-- The entropy of a payload. -/
  shannonEntropy : Bytes → Double
  /-- The distance of its bytes from uniform. -/
  chiSquared : Bytes → Double

/-- The comparison `a > b` of doubles. -/
def gt (a b : Double) : Bool := ge a b && !ge b a

/-- `ENTROPY_THRESH_HIGH`. -/
def entropyThreshHigh : Double := .ofScaled false 15 (-1)

/-- `ENTROPY_THRESH_LOW`. -/
def entropyThreshLow : Double := .ofScaled false 1 (-1)

/-- `CHI2_THRESH`. -/
def chi2Thresh : Double := .ofScaled false 400 0

/-- `WINDOW_SIZE`. -/
def windowSize : ℕ := 64

/-- The format `{:.1f}`. -/
def toFixed1 : Double → Str
  | .nan => "nan".toList
  | .infinite negative => if negative then "-inf".toList else "inf".toList
  | .finite negative mantissa exponent _ _ =>
    let tenths := roundEven (10*mantissa) exponent
    (if negative then "-".toList else [])++toDecimal (tenths/10)++".".toList++
      toDecimal (tenths%10)

/-- The fields that `analyze_packet` reads before it looks at the block list. -/
structure Header where
  /-- The length of the header in bytes. -/
  ihl : ℕ
  /-- Where the packet comes from. -/
  srcIp : UInt32
  /-- Where it goes. -/
  dstIp : UInt32
  /-- Its protocol byte. -/
  proto : UInt8

/-- Four bytes in network order. -/
def readAddress (data : Bytes) (offset : ℕ) : Checked UInt32 := do
  let a ← readByte data offset
  let b ← readByte data (offset+1)
  let c ← readByte data (offset+2)
  let d ← readByte data (offset+3)
  return Ipv4Text.joinOctets a b c d

/-- `analyze_packet` up to the look at the block list. -/
def readHeader (data : Bytes) : Checked Header := do
  require (20 ≤ data.length)
  let first ← readByte data 0
  require ((first >>> 4) &&& 0x0F=4)
  let ihl := (first &&& 0x0F)*4
  require (ihl ≤ data.length)
  let srcIp ← readAddress data 12
  let dstIp ← readAddress data 16
  let proto ← readByte data 9
  return ⟨ihl,srcIp,dstIp,UInt8.ofNat proto⟩

/-- Two bytes in network order. -/
def readPort (data : Bytes) (offset : ℕ) : Checked UInt16 := do
  let high ← readByte data offset
  let low ← readByte data (offset+1)
  return UInt16.ofNat (high <<< 8 ||| low)

/-- The two ports of a payload. -/
def readPorts (data : Bytes) (ihl : ℕ) : Checked (UInt16×UInt16) := do
  let sp ← readPort data ihl
  let dp ← readPort data (ihl+2)
  return (sp,dp)

/-- `sp` and `dp`: zero unless the protocol has ports and they are there. -/
def portsOf (data : Bytes) (header : Header) : Checked (UInt16×UInt16) :=
  let plen := data.length-header.ihl
  if header.proto=6 ∧ 4 ≤ plen then readPorts data header.ihl
  else if header.proto=17 ∧ 4 ≤ plen then readPorts data header.ihl
  else pure (0,0)

/-- `compute_stats` with the reads of the ports before it. -/
def computeStats (measures : Measures) (data : Bytes) (header : Header) (now : TimePoint) :
    Checked PacketStats := do
  let plen := data.length-header.ihl
  let ports ← portsOf data header
  let payload ← readSlice data header.ihl plen
  return ⟨measures.shannonEntropy payload,measures.chiSquared payload,header.srcIp,header.dstIp,
    ports.1,ports.2,header.proto,plen,now⟩

/-- The lambda `ip_str`. -/
def ipStr (ip : UInt32) : Str := ['.'].intercalate ((Ipv4Text.octetsOf ip).map toDecimal)

/-- The first alert of a packet: its payload is too random. -/
def highEntropy (stats : PacketStats) : List (ThreatCategory×Str) :=
  if gt stats.shannonEntropy entropyThreshHigh=true ∧ 100 < stats.payloadLen then
    [(.entropyAnomaly,"High entropy payload (".toList++toFixed2 stats.shannonEntropy++
      " bits) from ".toList++ipStr stats.srcIp++":".toList++toDecimal stats.srcPort.toNat)]
  else []

/-- The second alert of a packet: its payload is too regular. -/
def lowEntropy (stats : PacketStats) : List (ThreatCategory×Str) :=
  if gt entropyThreshLow stats.shannonEntropy=true ∧ 200 < stats.payloadLen then
    [(.entropyAnomaly,"Suspiciously low entropy (".toList++toFixed2 stats.shannonEntropy++
      ") ".toList++NetworkDpi.dash++" possible structured attack from ".toList++
      ipStr stats.srcIp)]
  else []

/-- The third alert of a packet: its bytes are not spread evenly. -/
def chiAnomaly (stats : PacketStats) : List (ThreatCategory×Str) :=
  if gt stats.chiSquared chi2Thresh=true ∧ 64 < stats.payloadLen then
    [(.rawSocketProbe,"Chi-squared anomaly (".toList++toFixed1 stats.chiSquared++
      ") from ".toList++ipStr stats.srcIp)]
  else []

/-- The alerts of a packet before the flood test, in their order. -/
def anomalies (stats : PacketStats) : List (ThreatCategory×Str) :=
  highEntropy stats++lowEntropy stats++chiAnomaly stats

/-- The text of a flood alert. -/
def floodText (srcIp : UInt32) : Str :=
  "Flood detected from ".toList++ipStr srcIp++" (".toList++toDecimal FloodWindow.floodThresh++
    "+ pkts/s)".toList

/-- The event of `emit_threat`. -/
def threatOf (srcIp : UInt32) (port : UInt16) (alert : ThreatCategory×Str) : ThreatEvent :=
  { ThreatEvent.default with
    level := levelValue .high
    category := alert.1.value
    description := alert.2
    sourceIp := ipStr srcIp
    sourcePort := port }

/-- Where the capture thread stands. -/
inductive Phase where
  /-- Waiting for a packet. -/
  | idle
  /-- The source of a packet is not blocked. -/
  | accepted (data : Bytes) (header : Header)
  /-- A packet is in the window and the flood test is next. -/
  | recorded (srcIp : UInt32) (port : UInt16)
  /-- The flood alert is out and the source is about to be blocked. -/
  | flooding (srcIp : UInt32)
  /-- A read outside the packet. -/
  | crashed

/-- The members of `ETGRIEngine`, with the place of the capture thread. -/
structure State where
  /-- The connection tracker and the blocked addresses. -/
  engine : ETGRIEngine
  /-- The last packets, oldest first. -/
  slidingWindow : List PacketStats
  /-- Packets analysed. -/
  eventsProcessed : UInt64
  /-- Alerts raised. -/
  threatsDetected : UInt64
  /-- Packets that `recvfrom` has returned. -/
  packetsCaptured : UInt64
  /-- Whether `threat_cb_` is set. -/
  threatCb : Bool
  /-- Where the capture thread stands. -/
  phase : Phase

/-- A new engine. -/
def State.initial : State := ⟨FloodWindow.create,[],0,0,0,false,.idle⟩

/-- What one step of the capture thread or of a caller does. -/
inductive Action where
  /-- A packet arrives; `analyze_packet` up to the look at the block list. -/
  | receive (data : Bytes)
  /-- `compute_stats`, the window and the alerts about the payload. -/
  | record (now : TimePoint)
  /-- The call of `is_flood`, with the alert. -/
  | countFlood (now : TimePoint)
  /-- The call of `block_ip` at the end of `analyze_packet`. -/
  | shutOut
  /-- `block_ip` by a caller. -/
  | blockIp (ip : UInt32)
  /-- `unblock_ip` by a caller. -/
  | unblockIp (ip : UInt32)
  /-- The last packets are asked for. -/
  | recentPackets (n : ℕ)
  /-- The blocked addresses are asked for. -/
  | getBlockedIps
  /-- The callback is installed. -/
  | onThreat

/-- What a step shows to the outside. -/
inductive Reply where
  /-- Nothing. -/
  | silent
  /-- The callback is called with these events. -/
  | threats (events : List ThreatEvent)
  /-- The answer of `recent_packets`. -/
  | packets (stats : List PacketStats)
  /-- The answer of `get_blocked_ips`. -/
  | addresses (ips : List UInt32)

/-- Appending to the window, which loses one packet when it is too long. -/
def pushWindow (window : List PacketStats) (stats : PacketStats) : List PacketStats :=
  if windowSize < (window++[stats]).length then (window++[stats]).drop 1 else window++[stats]

/-- The calls of `emit_threat` for some alerts in a row. -/
def emitThreats (s : State) (srcIp : UInt32) (port : UInt16) (alerts : List (ThreatCategory×Str)) :
    State×Reply :=
  ({ s with threatsDetected := s.threatsDetected+UInt64.ofNat alerts.length },
    if s.threatCb then .threats (alerts.map (threatOf srcIp port)) else .silent)

/-- `recent_packets`. -/
def recentPackets (s : State) (n : ℕ) : List PacketStats :=
  s.slidingWindow.drop (if n < s.slidingWindow.length then s.slidingWindow.length-n else 0)

/-- `analyze_packet` up to the look at the block list. -/
def receive (s : State) (data : Bytes) : State :=
  let s := { s with packetsCaptured := s.packetsCaptured+1 }
  match readHeader data with
  | .error .rejected => s
  | .error .outOfBounds => { s with phase := .crashed }
  | .ok header =>
    if FloodWindow.isBlocked s.engine header.srcIp then s
    else { s with phase := .accepted data header }

/-- `analyze_packet` from `compute_stats` up to the alerts on the payload. -/
def record (measures : Measures) (s : State) (data : Bytes) (header : Header) (now : TimePoint) :
    State×Reply :=
  match computeStats measures data header now with
  | .error _ => ({ s with phase := .crashed },.silent)
  | .ok stats =>
    emitThreats { s with
      slidingWindow := pushWindow s.slidingWindow stats
      eventsProcessed := s.eventsProcessed+1
      phase := .recorded stats.srcIp stats.srcPort } stats.srcIp stats.srcPort (anomalies stats)

/-- `analyze_packet` from the call of `is_flood` up to the alert. -/
def countFlood (s : State) (srcIp : UInt32) (port : UInt16) (now : TimePoint) : State×Reply :=
  let counted := FloodWindow.isFlood s.engine srcIp now
  if counted.2 then
    emitThreats { s with engine := counted.1,phase := .flooding srcIp } srcIp port
      [(.synFlood,floodText srcIp)]
  else ({ s with engine := counted.1,phase := .idle },.silent)

section Run

variable (measures : Measures)

/-- One step. A step of the capture thread that is not its next one does
nothing. -/
def step (s : State) : Action → State×Reply
  | .receive data =>
    match s.phase with
    | .idle => (receive s data,.silent)
    | _ => (s,.silent)
  | .record now =>
    match s.phase with
    | .accepted data header => record measures s data header now
    | _ => (s,.silent)
  | .countFlood now =>
    match s.phase with
    | .recorded srcIp port => countFlood s srcIp port now
    | _ => (s,.silent)
  | .shutOut =>
    match s.phase with
    | .flooding srcIp =>
      ({ s with engine := FloodWindow.blockIp s.engine srcIp,phase := .idle },.silent)
    | _ => (s,.silent)
  | .blockIp ip => ({ s with engine := FloodWindow.blockIp s.engine ip },.silent)
  | .unblockIp ip => ({ s with engine := FloodWindow.unblockIp s.engine ip },.silent)
  | .recentPackets n => (s,.packets (recentPackets s n))
  | .getBlockedIps => (s,.addresses s.engine.blockedIps)
  | .onThreat => ({ s with threatCb := true },.silent)

/-- A recorded step. -/
abbrev PacketEvent := Event State (Action×Reply)

/-- The call that a step makes on the tracker and the block list. -/
def engineCall (e : PacketEvent) : Option Call :=
  match e.label.1,e.before.phase with
  | .countFlood now,.recorded srcIp _ => some (.isFlood srcIp now)
  | .shutOut,.flooding srcIp => some (.blockIp srcIp)
  | .blockIp ip,_ => some (.blockIp ip)
  | .unblockIp ip,_ => some (.unblockIp ip)
  | _,_ => none

/-- That call with the states around it and its answer. -/
def engineEvent (e : PacketEvent) : Option CallEvent :=
  (engineCall e).map fun call =>
    ⟨e.before.engine,(call,(FloodWindow.step e.before.engine call).2),e.after.engine⟩

/-- The calls on the tracker and the block list, oldest first. -/
def engineEvents (events : List PacketEvent) : List CallEvent := events.filterMap engineEvent

/-- The packet that a step accepts. -/
def acceptedBy (e : PacketEvent) : Option (Bytes×Header) :=
  match e.label.1,e.before.phase with
  | .receive data,.idle =>
    match readHeader data with
    | .ok header =>
      if FloodWindow.isBlocked e.before.engine header.srcIp then none else some (data,header)
    | .error _ => none
  | _,_ => none

/-- The packet that a step records, with the time. -/
def recordedBy (e : PacketEvent) : Option ((Bytes×Header)×TimePoint) :=
  match e.label.1,e.before.phase with
  | .record now,.accepted data header => some ((data,header),now)
  | _,_ => none

/-- The statistics of a packet, if it can be read. -/
def statsOf (packet : (Bytes×Header)×TimePoint) : Option PacketStats :=
  (computeStats measures packet.1.1 packet.1.2 packet.2).toOption

/-- The statistics that a step records. -/
def statsBy (e : PacketEvent) : Option PacketStats := (recordedBy e).bind (statsOf measures)

/-- The alerts that a step raises. -/
def alertsBy (e : PacketEvent) : List (ThreatCategory×Str) :=
  match e.label.1,e.before.phase with
  | .countFlood now,.recorded srcIp _ =>
    if (FloodWindow.isFlood e.before.engine srcIp now).2 then [(.synFlood,floodText srcIp)] else []
  | _,_ => (statsBy measures e).toList.flatMap anomalies

/-- Whether a step receives a packet. -/
def receives (e : PacketEvent) : Bool :=
  match e.label.1,e.before.phase with
  | .receive _,.idle => true
  | _,_ => false

/-- The packet that waits for its statistics. -/
def waiting : Phase → List (Bytes×Header)
  | .accepted data header => [(data,header)]
  | _ => []

/-- A packet that has been accepted can be read as far as it says. -/
def Readable : Phase → Prop
  | .accepted data header => header.ihl ≤ data.length
  | .crashed => False
  | _ => True

end Run

/-- Reading an address inside a packet. -/
theorem readAddress_stays {data : Bytes} {offset : ℕ} (h : offset+4 ≤ data.length) :
    Stays (readAddress data offset) fun _ => True := by
  refine (readByte_stays (by omega)).bind fun a _ => ?_
  refine (readByte_stays (by omega)).bind fun b _ => ?_
  refine (readByte_stays (by omega)).bind fun c _ => ?_
  refine (readByte_stays (by omega)).bind fun d _ => ?_
  exact stays_pure trivial

/-- The header is read inside the packet, and the payload starts in it. -/
theorem readHeader_stays (data : Bytes) :
    Stays (readHeader data) fun header => header.ihl ≤ data.length := by
  refine (stays_require _).bind fun _ hlength => ?_
  refine (readByte_stays (by omega)).bind fun first _ => ?_
  refine (stays_require _).bind fun _ hversion => ?_
  refine (stays_require _).bind fun _ hihl => ?_
  refine (readAddress_stays (by omega)).bind fun srcIp _ => ?_
  refine (readAddress_stays (by omega)).bind fun dstIp _ => ?_
  refine (readByte_stays (by omega)).bind fun proto _ => ?_
  exact stays_pure hihl

/-- The ports are read inside the packet. -/
theorem readPorts_returns {data : Bytes} {ihl : ℕ} (h : ihl+4 ≤ data.length) :
    Returns (readPorts data ihl) fun _ => True := by
  have hport : ∀ offset,offset+2 ≤ data.length → Returns (readPort data offset) fun _ => True := by
    intro offset hoffset
    refine (readByte_returns (by omega)).bind fun high _ => ?_
    exact (readByte_returns (by omega)).bind fun low _ => returns_pure trivial
  refine (hport ihl (by omega)).bind fun sp _ => ?_
  exact (hport (ihl+2) (by omega)).bind fun dp _ => returns_pure trivial

/-- The statistics of a packet whose payload starts in it never fault. -/
theorem computeStats_returns (measures : Measures) {data : Bytes} {header : Header}
    (h : header.ihl ≤ data.length) (now : TimePoint) :
    Returns (computeStats measures data header now) fun stats => stats.srcIp=header.srcIp := by
  have hports : Returns (portsOf data header) fun _ => True := by
    refine returns_ite (fun hp => readPorts_returns (by omega)) fun _ => ?_
    exact returns_ite (fun hp => readPorts_returns (by omega)) fun _ => returns_pure trivial
  refine hports.bind fun ports _ => ?_
  exact (readSlice_returns (by omega)).bind fun payload _ => returns_pure rfl

end Gcad.PacketCapture
