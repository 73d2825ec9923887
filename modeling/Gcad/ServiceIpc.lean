import Gcad.ByteView
import Gcad.LedgerText
import Gcad.Threat

/-!
# Messages between the service and its clients

`ServiceIpc` of service_ipc.cpp. A packet is a packed ten-byte header in the
byte order of the machine, little-endian, and a payload. A threat event is
transported as eleven fields joined with tabs, without quoting, and split
again at every tab. The fields are assigned one by one, and a number that
does not parse leaves what was assigned before it.
-/

namespace Gcad.ServiceIpc

open Common ByteView DelimitedText LedgerText Threat

/-- `IpcMsgType`. -/
inductive IpcMsgType where
  | ping
  | pong
  | statusReq
  | statusResp
  | threatEvent
  | command
  deriving DecidableEq, Repr

/-- The underlying value of a message type. -/
def IpcMsgType.value : IpcMsgType → UInt16
  | .ping => 0x0001
  | .pong => 0x0002
  | .statusReq => 0x0003
  | .statusResp => 0x0004
  | .threatEvent => 0x0005
  | .command => 0x0006

/-- `IpcHeader`. -/
structure IpcHeader where
  /-- A `uint32_t` that marks a packet. -/
  magic : ℕ
  /-- A `uint16_t`, the message type. -/
  type : ℕ
  /-- A `uint32_t`, the number of payload bytes. -/
  length : ℕ
  deriving DecidableEq

/-- `ServiceIpc::MAGIC`. -/
def magicValue : ℕ := 0x47434144

/-- `sizeof(IpcHeader)`, packed. -/
def headerSize : ℕ := 10

/-- The bytes of a header in memory. -/
def headerBytes (hdr : IpcHeader) : Bytes :=
  leBytes 4 hdr.magic++leBytes 2 hdr.type++leBytes 4 hdr.length

/-- `serialize_packet`; the length is narrowed to 32 bits. -/
def serializePacket (type : UInt16) (payload : Bytes) : Bytes :=
  headerBytes ⟨magicValue,type.toNat,payload.length%2^32⟩++payload

/-- Copying the front of a buffer over a header. -/
def readHeader (data : Bytes) : Checked IpcHeader := do
  let magic ← readU32 data 0
  let type ← readU16 data 4
  let length ← readU32 data 6
  pure ⟨magic,type,length⟩

/-- `parse_packet`: the result with both output parameters. No data stands
for a null pointer. -/
def parsePacket (data : Option Bytes) (outHdr : IpcHeader) (outPayload : Bytes) :
    Checked (Bool×IpcHeader×Bytes) :=
  match data with
  | none => pure (false,outHdr,outPayload)
  | some data =>
    if data.length < headerSize then pure (false,outHdr,outPayload)
    else do
      let hdr ← readHeader data
      if hdr.magic≠magicValue then pure (false,hdr,outPayload)
      else if data.length < headerSize+hdr.length then pure (false,hdr,outPayload)
      else if 0 < hdr.length then do
        let payload ← readSlice data headerSize hdr.length
        pure (true,hdr,payload)
      else pure (true,hdr,[])

section Packets

/-- The header at the front of a buffer. -/
def headerAt (data : Bytes) : IpcHeader := ⟨u32At data 0,u16At data 4,u32At data 6⟩

/-- A buffer holds a header with the magic value and the announced payload. -/
structure HoldsPacket (data : Bytes) : Prop where
  /-- A full header. -/
  header : headerSize ≤ data.length
  /-- It starts with the magic value. -/
  magic : (headerAt data).magic=magicValue
  /-- The announced bytes follow. -/
  payload : headerSize+(headerAt data).length ≤ data.length

instance (data : Bytes) : Decidable (HoldsPacket data) :=
  decidable_of_iff (headerSize ≤ data.length ∧ (headerAt data).magic=magicValue ∧
    headerSize+(headerAt data).length ≤ data.length)
    ⟨fun h => ⟨h.1,h.2.1,h.2.2⟩,fun h => ⟨h.1,h.2,h.3⟩⟩

/-- A full header is read without leaving the buffer. -/
theorem readHeader_eq {data : Bytes} (h : headerSize ≤ data.length) :
    readHeader data=.ok (headerAt data) := by
  unfold headerSize at h
  rw [readHeader,readU32,if_pos (by omega),readU16,if_pos (by omega),readU32,if_pos (by omega)]
  rfl

/-- A buffer with a packet is parsed into its header and payload. -/
theorem parsePacket_holds {data : Bytes} (h : HoldsPacket data) (outHdr : IpcHeader)
    (outPayload : Bytes) :
    parsePacket (some data) outHdr outPayload=
      .ok (true,headerAt data,slice data headerSize (headerAt data).length) := by
  have hread := readHeader_eq h.header
  have hslice : readSlice data headerSize (headerAt data).length=
      .ok (slice data headerSize (headerAt data).length) := if_pos h.payload
  simp only [parsePacket]
  rw [if_neg (Nat.not_lt.2 h.header),hread]
  simp only [bind,Except.bind]
  rw [if_neg (not_not.2 h.magic),if_neg (Nat.not_lt.2 h.payload),hslice]
  by_cases hpos : 0 < (headerAt data).length
  · rw [if_pos hpos]
    rfl
  · rw [if_neg hpos,Nat.eq_zero_of_not_pos hpos,slice,List.take_zero]
    rfl

/-- A buffer without a packet is refused, without a read outside of it. -/
theorem parsePacket_refuses {data : Bytes} (h : ¬HoldsPacket data) (outHdr : IpcHeader)
    (outPayload : Bytes) :
    ∃ hdr,parsePacket (some data) outHdr outPayload=.ok (false,hdr,outPayload) := by
  simp only [parsePacket]
  by_cases hheader : data.length < headerSize
  · rw [if_pos hheader]
    exact ⟨outHdr,rfl⟩
  · refine ⟨headerAt data,?_⟩
    rw [if_neg hheader,readHeader_eq (Nat.not_lt.1 hheader)]
    simp only [bind,Except.bind]
    by_cases hmagic : (headerAt data).magic=magicValue
    · have hshort : data.length < headerSize+(headerAt data).length := by
        by_contra hlong
        exact h ⟨Nat.not_lt.1 hheader,hmagic,Nat.not_lt.1 hlong⟩
      rw [if_neg (not_not.2 hmagic),if_pos hshort]
      rfl
    · rw [if_pos hmagic]
      rfl

/-- A header has ten bytes. -/
theorem headerBytes_length (hdr : IpcHeader) : (headerBytes hdr).length=headerSize := by
  simp only [headerBytes,List.length_append,leBytes_length]
  rfl

/-- A header that fits its fields is read back from the front of a buffer. -/
theorem headerAt_headerBytes {hdr : IpcHeader} (hmagic : hdr.magic < 2^32) (htype : hdr.type < 2^16)
    (hlength : hdr.length < 2^32) (rest : Bytes) : headerAt (headerBytes hdr++rest)=hdr := by
  have hm : u32At (headerBytes hdr++rest) 0=hdr.magic := by
    apply u32At_leBytes hmagic
    intro k hk
    rw [headerBytes,List.append_assoc,List.append_assoc,Nat.zero_add,
      List.getElem?_append_left (by rw [leBytes_length]; exact hk)]
  have ht : u16At (headerBytes hdr++rest) 4=hdr.type := by
    apply u16At_leBytes htype
    intro k hk
    rw [headerBytes,List.append_assoc,List.append_assoc,
      List.getElem?_append_right (by rw [leBytes_length]; omega),leBytes_length,
      Nat.add_sub_cancel_left,List.getElem?_append_left (by rw [leBytes_length]; exact hk)]
  have hl : u32At (headerBytes hdr++rest) 6=hdr.length := by
    apply u32At_leBytes hlength
    intro k hk
    rw [headerBytes,List.append_assoc,
      List.getElem?_append_right (by rw [List.length_append,leBytes_length,leBytes_length]; omega),
      List.length_append,leBytes_length,leBytes_length,Nat.add_sub_cancel_left,
      List.getElem?_append_left (by rw [leBytes_length]; exact hk)]
  rw [headerAt,hm,ht,hl]

/-- A serialised packet is held by every buffer that starts with it. -/
theorem serializePacket_holds (type : UInt16) {payload : Bytes} (h : payload.length < 2^32)
    (rest : Bytes) :
    HoldsPacket (serializePacket type payload++rest) ∧
    headerAt (serializePacket type payload++rest)=⟨magicValue,type.toNat,payload.length⟩ ∧
    slice (serializePacket type payload++rest) headerSize payload.length=payload := by
  have hheader : headerAt (serializePacket type payload++rest)=
      ⟨magicValue,type.toNat,payload.length⟩ := by
    rw [serializePacket,Nat.mod_eq_of_lt h,List.append_assoc]
    exact headerAt_headerBytes (by decide : magicValue < 2^32) type.toNat_lt h _
  have hsize : (serializePacket type payload).length=headerSize+payload.length := by
    rw [serializePacket,List.length_append,headerBytes_length]
  refine ⟨⟨?_,?_,?_⟩,hheader,?_⟩
  · rw [List.length_append,hsize]
    omega
  · rw [hheader]
  · rw [hheader,List.length_append,hsize]
    dsimp only
    omega
  · rw [slice,serializePacket,List.append_assoc,List.drop_left' (headerBytes_length _),
      List.take_left]

end Packets

/-- Every packet is read back from any buffer that starts with it, and a
buffer is accepted exactly when it holds a packet; parsing never reads
outside the buffer. -/
theorem ipc_framing :
    (∀ (type : UInt16) (payload rest : Bytes) (outHdr : IpcHeader) (outPayload : Bytes),
      payload.length < 2^32 →
      parsePacket (some (serializePacket type payload++rest)) outHdr outPayload=
        .ok (true,⟨magicValue,type.toNat,payload.length⟩,payload)) ∧
    ∀ (data : Bytes) (outHdr : IpcHeader) (outPayload : Bytes),
      ∃ ok hdr bytes,parsePacket (some data) outHdr outPayload=.ok (ok,hdr,bytes) ∧
        (ok=true ↔ headerSize ≤ data.length ∧ u32At data 0=magicValue ∧
          headerSize+u32At data 6 ≤ data.length) := by
  refine ⟨fun type payload rest outHdr outPayload h => ?_,fun data outHdr outPayload => ?_⟩
  · obtain ⟨hholds,hheader,hslice⟩ := serializePacket_holds type h rest
    rw [parsePacket_holds hholds,hheader,hslice]
  · by_cases hholds : HoldsPacket data
    · refine ⟨true,_,_,parsePacket_holds hholds outHdr outPayload,?_⟩
      exact iff_of_true rfl ⟨hholds.header,hholds.magic,hholds.payload⟩
    · obtain ⟨hdr,hparse⟩ := parsePacket_refuses hholds outHdr outPayload
      refine ⟨false,hdr,outPayload,hparse,?_⟩
      exact iff_of_false Bool.false_ne_true fun h => hholds ⟨h.1,h.2.1,h.2.2⟩

/-- A ping with a payload of two bytes, followed by a third. -/
theorem ipc_framing_ping :
    parsePacket (some (serializePacket IpcMsgType.ping.value [0x68,0x69]++[0])) ⟨0,0,0⟩ []=
      .ok (true,⟨magicValue,1,2⟩,[0x68,0x69]) :=
  ipc_framing.1 IpcMsgType.ping.value [0x68,0x69] [0] ⟨0,0,0⟩ [] (by decide)

/-- Width of `unsigned long` on the machine. -/
inductive LongWidth where
  /-- 32 bits, as on Windows. -/
  | bits32
  /-- 64 bits, as on Linux. -/
  | bits64

/-- The number of bits. -/
def LongWidth.bits : LongWidth → ℕ
  | .bits32 => 32
  | .bits64 => 64

/-- `std::stoul`: a minus sign is accepted and wraps around; nothing is
returned where it throws. -/
def stoul (width : LongWidth) (text : Str) : Option ℕ :=
  (scanInteger text).bind fun scanned =>
    if 2^width.bits ≤ scanned.2 then none
    else some (if scanned.1 then (2^width.bits-scanned.2)%2^width.bits else scanned.2)

/-- The eleven fields of a threat event. -/
def threatFields (ev : ThreatEvent) : List Str :=
  [toDecimal ev.id.toNat,toDecimal ev.level.toNat,toDecimal ev.category.toNat,
    toDecimal ev.processId.toNat,ev.processName,ev.filePath,ev.description,ev.sourceIp,
    toDecimal ev.sourcePort.toNat,flagText ev.quarantined,flagText ev.rolledBack]

/-- `serialize_threat`. -/
def serializeThreat (ev : ThreatEvent) : Str := ['\t'].intercalate (threatFields ev)

/-- The tokens that repeated `getline` calls return: the pieces between
tabs, without an empty last one. -/
def getlineTokens (text : Str) : List Str :=
  let pieces := text.splitOn '\t'
  if pieces.getLast?=some [] then pieces.dropLast else pieces

/-- Token with an index that is in range. -/
def token (tokens : List Str) (i : ℕ) : Str := tokens[i]?.getD []

/-- The assignments of `deserialize_threat` in order; a number that does not
parse throws and keeps what was assigned before. -/
def assignFields (width : LongWidth) (tokens : List Str) (ev : ThreatEvent) : ThreatEvent :=
  match stoull (token tokens 0) with
  | none => ev
  | some id =>
  let ev := { ev with id := UInt64.ofNat id }
  match stoi (token tokens 1) with
  | none => ev
  | some level =>
  let ev := { ev with level := UInt8.ofInt level }
  match stoi (token tokens 2) with
  | none => ev
  | some category =>
  let ev := { ev with category := UInt16.ofInt category }
  match stoul width (token tokens 3) with
  | none => ev
  | some processId =>
  let ev := { ev with
    processId := UInt32.ofNat processId,processName := token tokens 4
    filePath := token tokens 5,description := token tokens 6,sourceIp := token tokens 7 }
  match stoul width (token tokens 8) with
  | none => ev
  | some port =>
  { ev with
    sourcePort := UInt16.ofNat port,quarantined := decide (token tokens 9=['1'])
    rolledBack := decide (token tokens 10=['1']) }

/-- `deserialize_threat`. -/
def deserializeThreat (width : LongWidth) (payload : Str) (now : TimePoint) : ThreatEvent :=
  let tokens := getlineTokens payload
  let ev := if 11 ≤ tokens.length then assignFields width tokens ThreatEvent.default
    else ThreatEvent.default
  { ev with timestamp := now }

section Threats

/-- The transported fields of two events agree. -/
structure SameTransport (ev other : ThreatEvent) : Prop where
  /-- Number of the event. -/
  id : other.id=ev.id
  /-- The severity survives. -/
  level : other.level=ev.level
  /-- The kind of threat survives. -/
  category : other.category=ev.category
  /-- Process number. -/
  processId : other.processId=ev.processId
  /-- The process is named alike. -/
  processName : other.processName=ev.processName
  /-- The file is named alike. -/
  filePath : other.filePath=ev.filePath
  /-- The text survives. -/
  description : other.description=ev.description
  /-- Remote address. -/
  sourceIp : other.sourceIp=ev.sourceIp
  /-- Remote port. -/
  sourcePort : other.sourcePort=ev.sourcePort
  /-- Quarantine flag. -/
  quarantined : other.quarantined=ev.quarantined
  /-- Rollback flag. -/
  rolledBack : other.rolledBack=ev.rolledBack

/-- No text field holds a tab. -/
structure TabFree (ev : ThreatEvent) : Prop where
  /-- None where the process is named. -/
  processName : '\t' ∉ ev.processName
  /-- None where the file is named. -/
  filePath : '\t' ∉ ev.filePath
  /-- None in the text, which is the last field. -/
  description : '\t' ∉ ev.description
  /-- The remote address. -/
  sourceIp : '\t' ∉ ev.sourceIp

/-- No token holds a tab. -/
theorem token_tabFree (payload : Str) (i : ℕ) : '\t' ∉ token (getlineTokens payload) i := by
  unfold token
  cases hget : (getlineTokens payload)[i]? with
  | none => exact List.not_mem_nil
  | some piece =>
    have hin : piece ∈ payload.splitOn '\t' := by
      have hmem := List.mem_of_getElem? hget
      simp only [getlineTokens] at hmem
      split at hmem
      · exact List.mem_of_mem_dropLast hmem
      · exact hmem
    exact (mem_splitOn hin).1

/-- Whatever is assigned, the text fields are tokens or stay as they were. -/
theorem assignFields_tabFree (width : LongWidth) (payload : Str) {ev : ThreatEvent}
    (h : TabFree ev) : TabFree (assignFields width (getlineTokens payload) ev) := by
  have htoken := token_tabFree payload
  unfold assignFields
  split
  · exact h
  · split
    · exact ⟨h.1,h.2,h.3,h.4⟩
    · split
      · exact ⟨h.1,h.2,h.3,h.4⟩
      · split
        · exact ⟨h.1,h.2,h.3,h.4⟩
        · split
          · exact ⟨htoken 4,htoken 5,htoken 6,htoken 7⟩
          · exact ⟨htoken 4,htoken 5,htoken 6,htoken 7⟩

/-- A received event holds no tab, whatever was sent. -/
theorem deserializeThreat_tabFree (width : LongWidth) (payload : Str) (now : TimePoint) :
    TabFree (deserializeThreat width payload now) := by
  have hdefault : TabFree ThreatEvent.default :=
    ⟨List.not_mem_nil,List.not_mem_nil,List.not_mem_nil,List.not_mem_nil⟩
  unfold deserializeThreat
  dsimp only
  split
  · have hassigned := assignFields_tabFree width payload hdefault
    exact ⟨hassigned.1,hassigned.2,hassigned.3,hassigned.4⟩
  · exact ⟨hdefault.1,hdefault.2,hdefault.3,hdefault.4⟩

/-- Fields without tabs are read back from their joined text. -/
theorem getlineTokens_serializeThreat {ev : ThreatEvent} (h : TabFree ev) :
    getlineTokens (serializeThreat ev)=threatFields ev := by
  have hdecimal : ∀ n, '\t' ∉ toDecimal n := by
    intro n hc
    have hdigit := isDigit_of_mem_toDecimal hc
    exact absurd hdigit (by decide)
  have hflag : ∀ flag, '\t' ∉ flagText flag := by decide
  have hfields : ∀ field ∈ threatFields ev, '\t' ∉ field := by
    simp only [threatFields,List.forall_mem_cons]
    exact ⟨hdecimal _,hdecimal _,hdecimal _,hdecimal _,h.processName,h.filePath,h.description,
      h.sourceIp,hdecimal _,hflag _,hflag _,fun field hf => absurd hf List.not_mem_nil⟩
  have hsplit : (serializeThreat ev).splitOn '\t'=threatFields ev :=
    List.splitOn_intercalate '\t' hfields (List.cons_ne_nil _ _)
  have hlast : (threatFields ev).getLast?≠some [] := by
    have hget : (threatFields ev).getLast?=some (flagText ev.rolledBack) := rfl
    rw [hget]
    cases ev.rolledBack <;> decide
  rw [getlineTokens,hsplit,if_neg hlast]

/-- Numbers within `unsigned long` are read back. -/
theorem stoul_toDecimal (width : LongWidth) {n : ℕ} (h : n < 2^32) :
    stoul width (toDecimal n)=some n := by
  have hpow : 2^32 ≤ 2^width.bits := by cases width <;> decide
  rw [stoul,scanInteger_toDecimal,Option.bind_some,if_neg (by omega)]
  rfl

/-- Narrowing to eight bits keeps a value of that width. -/
theorem uint8_ofInt_toNat (x : UInt8) : UInt8.ofInt x.toNat=x := by
  have hlt := x.toNat_lt
  have hmod : ((x.toNat : ℤ)%2^8).toNat=x.toNat := by omega
  rw [UInt8.ofInt,hmod,UInt8.ofNat_toNat]

/-- Narrowing to sixteen bits keeps a value of that width. -/
theorem uint16_ofInt_toNat (x : UInt16) : UInt16.ofInt x.toNat=x := by
  have hlt := x.toNat_lt
  have hmod : ((x.toNat : ℤ)%2^16).toNat=x.toNat := by omega
  rw [UInt16.ofInt,hmod,UInt16.ofNat_toNat]

/-- The fields of an event are assigned back. -/
theorem assignFields_threatFields (width : LongWidth) (ev start : ThreatEvent) :
    SameTransport ev (assignFields width (threatFields ev) start) := by
  have hid : stoull (token (threatFields ev) 0)=some ev.id.toNat := by
    have hlt := ev.id.toNat_lt
    refine (stoull_toDecimal _).trans (if_neg (by omega))
  have hlevel : stoi (token (threatFields ev) 1)=some (ev.level.toNat : ℤ) :=
    stoi_toDecimal (by have hlt := ev.level.toNat_lt; omega)
  have hcategory : stoi (token (threatFields ev) 2)=some (ev.category.toNat : ℤ) :=
    stoi_toDecimal (by have hlt := ev.category.toNat_lt; omega)
  have hprocess : stoul width (token (threatFields ev) 3)=some ev.processId.toNat :=
    stoul_toDecimal width ev.processId.toNat_lt
  have hport : stoul width (token (threatFields ev) 8)=some ev.sourcePort.toNat :=
    stoul_toDecimal width (by have hlt := ev.sourcePort.toNat_lt; omega)
  have hflag : ∀ flag,decide (flagText flag=['1'])=flag := by decide
  unfold assignFields
  simp only [hid,hlevel,hcategory,hprocess,hport]
  exact ⟨UInt64.ofNat_toNat,uint8_ofInt_toNat _,uint16_ofInt_toNat _,UInt32.ofNat_toNat,rfl,rfl,rfl,
    rfl,UInt16.ofNat_toNat,hflag _,hflag _⟩

end Threats

/-- An event arrives as it was sent exactly when none of its four text
fields holds a tab. -/
theorem threat_transport_iff (width : LongWidth) (ev : ThreatEvent) (now : TimePoint) :
    SameTransport ev (deserializeThreat width (serializeThreat ev) now) ↔ TabFree ev := by
  constructor
  · intro h
    have hfree := deserializeThreat_tabFree width (serializeThreat ev) now
    exact ⟨h.processName ▸ hfree.processName,h.filePath ▸ hfree.filePath,
      h.description ▸ hfree.description,h.sourceIp ▸ hfree.sourceIp⟩
  · intro h
    have hassigned := assignFields_threatFields width ev ThreatEvent.default
    have hlong : 11 ≤ (threatFields ev).length := le_refl 11
    unfold deserializeThreat
    dsimp only
    rw [getlineTokens_serializeThreat h,if_pos hlong]
    exact ⟨hassigned.1,hassigned.2,hassigned.3,hassigned.4,hassigned.5,hassigned.6,hassigned.7,
      hassigned.8,hassigned.9,hassigned.10,hassigned.11⟩

/-- An event about a process whose name holds a tab. -/
def tabbedEvent : ThreatEvent := { ThreatEvent.default with processName := ['a', '\t', 'b'] }

/-- It does not arrive as it was sent. -/
theorem threat_transport_lossy :
    ¬∀ (width : LongWidth) (ev : ThreatEvent) (now : TimePoint),
      SameTransport ev (deserializeThreat width (serializeThreat ev) now) := by
  intro h
  have hname := (h .bits64 tabbedEvent 0).processName
  revert hname
  decide +kernel

section Decoding

/-- Each of the eleven fields of an event comes from its token. -/
structure Decoded (width : LongWidth) (tokens : List Str) (ev : ThreatEvent) : Prop where
  /-- There is a token for every field. -/
  enough : 11 ≤ tokens.length
  /-- Number of the event. -/
  id : (stoull (token tokens 0)).map UInt64.ofNat=some ev.id
  /-- The second field, cut to eight bits. -/
  level : (stoi (token tokens 1)).map UInt8.ofInt=some ev.level
  /-- The third field, cut to sixteen bits. -/
  category : (stoi (token tokens 2)).map UInt16.ofInt=some ev.category
  /-- Process number. -/
  processId : (stoul width (token tokens 3)).map UInt32.ofNat=some ev.processId
  /-- The fifth field as it is. -/
  processName : token tokens 4=ev.processName
  /-- The sixth field as it is. -/
  filePath : token tokens 5=ev.filePath
  /-- The seventh field as it is. -/
  description : token tokens 6=ev.description
  /-- Remote address. -/
  sourceIp : token tokens 7=ev.sourceIp
  /-- Remote port. -/
  sourcePort : (stoul width (token tokens 8)).map UInt16.ofNat=some ev.sourcePort
  /-- Quarantine flag. -/
  quarantined : decide (token tokens 9=['1'])=ev.quarantined
  /-- Rollback flag. -/
  rolledBack : decide (token tokens 10=['1'])=ev.rolledBack

/-- The event returned is decoded in all its fields, or in none. -/
def AllOrNothing (width : LongWidth) (payload : Str) (now : TimePoint) : Prop :=
  Decoded width (getlineTokens payload) (deserializeThreat width payload now) ∨
    deserializeThreat width payload now={ ThreatEvent.default with timestamp := now }

/-- The five conversions with the assignments up to the next one: whether
they assign the defaults, or `none` where the conversion throws. -/
def conversions (width : LongWidth) (tokens : List Str) : List (Option Bool) :=
  [(stoull (token tokens 0)).map fun id => UInt64.ofNat id=ThreatEvent.default.id,
    (stoi (token tokens 1)).map fun level => UInt8.ofInt level=ThreatEvent.default.level,
    (stoi (token tokens 2)).map fun category => UInt16.ofInt category=ThreatEvent.default.category,
    (stoul width (token tokens 3)).map fun processId =>
      UInt32.ofNat processId=ThreatEvent.default.processId ∧
        token tokens 4=ThreatEvent.default.processName ∧
        token tokens 5=ThreatEvent.default.filePath ∧
        token tokens 6=ThreatEvent.default.description ∧
        token tokens 7=ThreatEvent.default.sourceIp,
    (stoul width (token tokens 8)).map fun port => UInt16.ofNat port=ThreatEvent.default.sourcePort]

variable {width : LongWidth} {tokens : List Str}

/-- Numbers that all convert fill every field. -/
theorem decoded_of_conversions (hlong : 11 ≤ tokens.length)
    (h : (conversions width tokens).all Option.isSome=true) (start : ThreatEvent)
    (now : TimePoint) :
    Decoded width tokens { assignFields width tokens start with timestamp := now } := by
  simp only [conversions,List.all_cons,Option.isSome_map,Bool.and_eq_true] at h
  obtain ⟨hid,hlevel,hcategory,hprocess,hport,-⟩ := h
  obtain ⟨id,hid⟩ := Option.isSome_iff_exists.mp hid
  obtain ⟨level,hlevel⟩ := Option.isSome_iff_exists.mp hlevel
  obtain ⟨category,hcategory⟩ := Option.isSome_iff_exists.mp hcategory
  obtain ⟨processId,hprocess⟩ := Option.isSome_iff_exists.mp hprocess
  obtain ⟨port,hport⟩ := Option.isSome_iff_exists.mp hport
  unfold assignFields
  simp only [hid,hlevel,hcategory,hprocess,hport]
  exact ⟨hlong,congrArg _ hid,congrArg _ hlevel,congrArg _ hcategory,congrArg _ hprocess,rfl,rfl,
    rfl,rfl,congrArg _ hport,rfl,rfl⟩

/-- Fields that all come from the tokens have numbers that convert. -/
theorem Decoded.conversions {ev : ThreatEvent} (h : Decoded width tokens ev) :
    (conversions width tokens).all Option.isSome=true := by
  have hsome : ∀ {α β : Type} {converted : Option α} {f : α → β} {value : β},
      converted.map f=some value → converted.isSome=true := by
    intro α β converted f value hmap
    rw [← Option.isSome_map,hmap]
    rfl
  simp only [ServiceIpc.conversions,List.all_cons,Option.isSome_map,hsome h.id,hsome h.level,
    hsome h.category,hsome h.processId,hsome h.sourcePort]
  rfl

/-- When a number does not convert, the defaults stay exactly when the fields
assigned before it have them. -/
theorem assignFields_default_iff (h : ¬(conversions width tokens).all Option.isSome=true)
    (now : TimePoint) :
    { assignFields width tokens ThreatEvent.default with timestamp := now }=
        { ThreatEvent.default with timestamp := now } ↔
      ∀ kept ∈ (conversions width tokens).takeWhile Option.isSome, kept=some true := by
  unfold assignFields conversions at *
  rw [ThreatEvent.ext_iff]
  cases hid : stoull (token tokens 0) with
  | none => simp
  | some id =>
    cases hlevel : stoi (token tokens 1) with
    | none => simp
    | some level =>
      cases hcategory : stoi (token tokens 2) with
      | none => simp
      | some category =>
        cases hprocess : stoul width (token tokens 3) with
        | none => simp
        | some processId =>
          cases hport : stoul width (token tokens 8) with
          | none => simp
          | some port => simp [hid,hlevel,hcategory,hprocess,hport] at h

/-- Decoding is all or nothing exactly when there are too few tokens, when
all five numbers convert, or when the fields assigned before the first number
that does not convert have their default values. -/
theorem decoding_all_or_nothing_iff (width : LongWidth) (payload : Str) (now : TimePoint) :
    AllOrNothing width payload now ↔
      (getlineTokens payload).length < 11 ∨
      (conversions width (getlineTokens payload)).all Option.isSome=true ∨
      ∀ kept ∈ (conversions width (getlineTokens payload)).takeWhile Option.isSome,
        kept=some true := by
  unfold AllOrNothing deserializeThreat
  dsimp only
  by_cases hlong : 11 ≤ (getlineTokens payload).length
  · rw [if_pos hlong,or_iff_right (Nat.not_lt.mpr hlong)]
    by_cases hall : (conversions width (getlineTokens payload)).all Option.isSome=true
    · exact iff_of_true (Or.inl (decoded_of_conversions hlong hall _ now)) (Or.inl hall)
    · rw [or_iff_right fun h => hall (Decoded.conversions h),or_iff_right hall]
      exact assignFields_default_iff hall now
  · rw [if_neg hlong]
    exact iff_of_true (Or.inr rfl) (Or.inl (Nat.not_le.mp hlong))

/-- A payload of eleven fields whose level is not a number. -/
def brokenPayload : Str := "7\tx\t0\t0\ta\tb\tc\td\t0\t0\t0".toList

/-- The event has the number of the payload and is otherwise the default. -/
theorem decoding_not_all_or_nothing :
    ¬∀ (width : LongWidth) (payload : Str) (now : TimePoint), AllOrNothing width payload now := by
  intro h
  rcases h .bits64 brokenPayload 0 with hdecoded | hdefault
  · have hall := hdecoded.conversions
    revert hall
    decide +kernel
  · have hid := congrArg ThreatEvent.id hdefault
    revert hid
    decide +kernel

end Decoding

end Gcad.ServiceIpc
