import Gcad.Common
import Gcad.StepSystem
import Gcad.Threat

/-!
# The shadow ring of the memory monitor

Ring, registration and monitor pass of pmsr_engine.cpp in a Windows build.
The process memory and what `VirtualQuery` says about it are part of the
state and may change between any two steps. The keys that the random number
generator hands out are chosen by the environment. Every critical section is
one step; the waiting between two passes changes nothing.
-/

namespace Gcad.ShadowRing

open Common StepSystem Threat

/-- `RING_SIZE`. -/
def ringSize : ℕ := 256

/-- `CANARY_MAGIC`. -/
def canaryMagic : UInt64 := 0xDEADBEEFCAFEBABE

/-- `ShadowEntry`, without the time of its last check. -/
structure ShadowEntry where
  /-- The address that is watched. -/
  originalAddr : UInt64 := 0
  /-- The key the canary is masked with. -/
  xorKey : UInt64 := 0
  /-- The masked canary. -/
  canary : UInt64 := 0
  /-- The hash of the entry itself. -/
  shadowHash : UInt64 := 0
  /-- How many bytes are watched, zero for none. -/
  regionSize : UInt64 := 0
  /-- The last known hash of the bytes at the address. -/
  contentHash : UInt64 := 0
  deriving DecidableEq

/-- What `VirtualQuery` fills in. -/
structure MemoryBasicInformation where
  /-- Where the region starts. -/
  baseAddress : UInt64
  /-- How many bytes it has. -/
  regionSize : UInt64
  /-- Committed, reserved or free. -/
  state : UInt32
  /-- What may be done with its pages. -/
  protect : UInt32

/-- The memory of the process. -/
structure Memory where
  /-- What the system answers about an address, or nothing where the call fails. -/
  virtualQuery : UInt64 → Option MemoryBasicInformation
  /-- The bytes at every address. -/
  byte : UInt64 → UInt8

/-- `MEM_COMMIT`. -/
def memCommit : UInt32 := 0x1000

/-- The mask of all protections that allow reading. -/
def readable : UInt32 := 0x02 ||| 0x04 ||| 0x08 ||| 0x20 ||| 0x40 ||| 0x80

/-- `PAGE_GUARD | PAGE_NOACCESS`. -/
def forbidden : UInt32 := 0x100 ||| 0x01

/-- One round of FNV-1a. -/
def mix (h value : UInt64) : UInt64 := (h ^^^ value)*0x100000001b3

/-- The start value of FNV-1a. -/
def fnvOffset : UInt64 := 0xcbf29ce484222325

/-- FNV-1a over bytes. -/
def fnv1a (bytes : List UInt8) : UInt64 :=
  bytes.foldl (fun h b => mix h b.toUInt64) fnvOffset

/-- The bytes that `hash_memory_region` hashes: at most two mebibytes, and
nothing past the end of the queried region. -/
def watchedBytes (memory : Memory) (addr size : UInt64) : Option (List UInt8) :=
  if addr=0 ∨ size=0 then none
  else
    let size := min size (2*1024*1024)
    match memory.virtualQuery addr with
    | none => none
    | some mbi =>
      if mbi.state≠memCommit then none
      else if mbi.protect &&& readable=0 ∨ mbi.protect &&& forbidden≠0 then none
      else
        let regionEnd := mbi.baseAddress+mbi.regionSize
        let size := if regionEnd < addr+size then regionEnd-addr else size
        some ((List.range size.toNat).map fun i => memory.byte (addr+UInt64.ofNat i))

/-- Hash of bytes that may be unreadable. -/
def digest : Option (List UInt8) → UInt64
  | none => 0
  | some bytes => fnv1a bytes

/-- `hash_memory_region`. -/
def hashMemoryRegion (memory : Memory) (addr size : UInt64) : UInt64 :=
  digest (watchedBytes memory addr size)

/-- `compute_shadow_hash`. -/
def computeShadowHash (entry : ShadowEntry) : UInt64 :=
  mix (mix (mix fnvOffset entry.originalAddr) entry.xorKey) entry.canary

/-- `verify_canary`. -/
def verifyCanary (entry : ShadowEntry) : Bool := entry.canary ^^^ entry.xorKey==canaryMagic

/-- A new key, the canary under it and the hash over both. -/
def arm (entry : ShadowEntry) (key magic : UInt64) : ShadowEntry :=
  let keyed := { entry with xorKey := key,canary := magic ^^^ key }
  { keyed with shadowHash := computeShadowHash keyed }

/-- What a pass can find. -/
inductive Violation where
  /-- The canary of an entry is broken. -/
  | canary (index : ℕ) (addr : UInt64)
  /-- The hash over an entry does not fit. -/
  | shadowHash (index : ℕ)
  /-- The bytes of a region have changed. -/
  | modified (addr size : UInt64)
  deriving DecidableEq

/-- `std::format` with the pattern for sixteen hexadecimal digits. -/
def hex16 (value : UInt64) : Str := (Nat.toDigits 16 value.toNat).leftpad 16 '0'

/-- The description of a violation. -/
def Violation.text : Violation → Str
  | .canary index addr =>
    "PMSR canary violation at ring index ".toList++toDecimal index++", addr=0x".toList++hex16 addr
  | .shadowHash index => "PMSR shadow hash mismatch at ring index ".toList++toDecimal index
  | .modified addr size =>
    "PMSR code region modified at 0x".toList++hex16 addr++" (".toList++toDecimal size.toNat++
      " bytes)".toList

/-- The threat that `emit_threat` hands to the callback. -/
def emitThreat (violation : Violation) : ThreatLevel×ThreatCategory×Str :=
  (.critical,.memoryInjection,violation.text)

/-- The engine with the memory it watches. -/
structure PMSREngine where
  /-- The 256 slots. -/
  shadowRing : List ShadowEntry
  /-- Entries checked, and rotations of the keys. -/
  eventsProcessed : UInt64
  /-- Violations reported. -/
  threatsDetected : UInt64
  /-- What the threat callback has received. -/
  delivered : List (ThreatLevel×ThreatCategory×Str)
  /-- The memory of the process. -/
  memory : Memory

/-- The constructor. -/
def create (memory : Memory) : PMSREngine := ⟨[],0,0,[],memory⟩

/-- The loop of `start` that fills the ring. -/
def fillRing (engine : PMSREngine) (keys : ℕ → UInt64) : PMSREngine :=
  { engine with shadowRing :=
      engine.shadowRing++(List.range ringSize).map fun i => arm {} (keys i) canaryMagic }

/-- The slot of an address. -/
def slot (addr : UInt64) : ℕ := addr.toNat%ringSize

/-- `register_region`. -/
def registerRegion (engine : PMSREngine) (addr size key : UInt64) : PMSREngine :=
  let ring := engine.shadowRing++List.replicate (ringSize-engine.shadowRing.length)
    ({} : ShadowEntry)
  let entry := ring.getD (slot addr) {}
  let armed := arm { entry with originalAddr := addr } key canaryMagic
  let entry := { armed with
    regionSize := size
    contentHash := hashMemoryRegion engine.memory addr size }
  { engine with shadowRing := ring.set (slot addr) entry }

/-- `inject_honey_iat`. -/
def injectHoneyIat (engine : PMSREngine) (fakeAddr trapCanary key : UInt64) : PMSREngine :=
  let honey := arm { originalAddr := fakeAddr } key trapCanary
  if engine.shadowRing.length < ringSize*2 then
    { engine with shadowRing := engine.shadowRing++[honey] }
  else engine

/-- The headers of the running module that `start` reads. -/
structure ModuleImage where
  /-- The module handle. -/
  base : UInt64
  /-- Where the code starts, from the base. -/
  baseOfCode : UInt32
  /-- How long it is. -/
  sizeOfCode : UInt32
  /-- Where the import address table starts, from the base. -/
  iatAddress : UInt32
  /-- How long it is. -/
  iatSize : UInt32

/-- `start`, up to the creation of the monitor thread. -/
def start (engine : PMSREngine) (image : Option ModuleImage) (keys : ℕ → UInt64) : PMSREngine :=
  let engine := fillRing engine keys
  match image with
  | none => engine
  | some image =>
    let engine := registerRegion engine (image.base+image.baseOfCode.toUInt64)
      image.sizeOfCode.toUInt64 (keys ringSize)
    let engine := if image.iatAddress≠0 then
        registerRegion engine (image.base+image.iatAddress.toUInt64) image.iatSize.toUInt64
          (keys (ringSize+1))
      else engine
    let engine := injectHoneyIat engine (image.base+0xDEAD0) canaryMagic (keys (ringSize+2))
    injectHoneyIat engine (image.base+0xBEEF0) canaryMagic (keys (ringSize+3))

/-- The canary test of a pass. -/
def checkCanary (key : UInt64) (index : ℕ) (entry : ShadowEntry) : ShadowEntry×List Violation :=
  if verifyCanary entry=false then
    (arm entry key canaryMagic,[.canary index entry.originalAddr])
  else (entry,[])

/-- The test of the hash over an entry. -/
def checkShadowHash (index : ℕ) (entry : ShadowEntry) : ShadowEntry×List Violation :=
  if entry.shadowHash≠computeShadowHash entry then
    ({ entry with shadowHash := computeShadowHash entry },[.shadowHash index])
  else (entry,[])

/-- The test of the watched bytes. -/
def checkRegion (memory : Memory) (entry : ShadowEntry) : ShadowEntry×List Violation :=
  if 0 < entry.regionSize then
    let live := hashMemoryRegion memory entry.originalAddr entry.regionSize
    if live≠0 ∧ entry.contentHash≠0 ∧ live≠entry.contentHash then
      ({ entry with contentHash := live },[.modified entry.originalAddr entry.regionSize])
    else (entry,[])
  else (entry,[])

/-- The body of the loop of a pass over the ring. -/
def checkEntry (memory : Memory) (key : UInt64) (index : ℕ) (entry : ShadowEntry) :
    ShadowEntry×List Violation :=
  let first := checkCanary key index entry
  let second := checkShadowHash index first.1
  let third := checkRegion memory second.1
  (third.1,first.2++second.2++third.2)

/-- One pass of `monitor_loop` over the ring, up to `rotate_keys`. -/
def monitorPass (engine : PMSREngine) (keys : ℕ → UInt64) : PMSREngine×List Violation :=
  let checked := engine.shadowRing.mapIdx fun i entry => checkEntry engine.memory (keys i) i entry
  let violations := checked.flatMap Prod.snd
  ({ engine with
      shadowRing := checked.map Prod.fst
      eventsProcessed := engine.eventsProcessed+UInt64.ofNat engine.shadowRing.length
      threatsDetected := engine.threatsDetected+UInt64.ofNat violations.length
      delivered := engine.delivered++violations.map emitThreat },violations)

/-- `rotate_keys`. -/
def rotateKeys (engine : PMSREngine) (keys : ℕ → UInt64) : PMSREngine :=
  { engine with
    shadowRing := engine.shadowRing.mapIdx fun i entry =>
      arm entry (keys i) (entry.canary ^^^ entry.xorKey)
    eventsProcessed := engine.eventsProcessed+1 }

/-- What can happen to a started engine. -/
inductive Action where
  /-- A call of `register_region`. -/
  | registerRegion (addr size key : UInt64)
  /-- A call of `inject_honey_iat`. -/
  | injectHoneyIat (fakeAddr trapCanary key : UInt64)
  /-- The memory of the process changes. -/
  | writeMemory (memory : Memory)
  /-- The monitor thread checks the ring. -/
  | monitorPass (keys : ℕ → UInt64)
  /-- The monitor thread rotates the keys. -/
  | rotateKeys (keys : ℕ → UInt64)

/-- One step, with the violations it reports. -/
def step (engine : PMSREngine) : Action → PMSREngine×List Violation
  | .registerRegion addr size key => (registerRegion engine addr size key,[])
  | .injectHoneyIat fakeAddr trapCanary key =>
    (injectHoneyIat engine fakeAddr trapCanary key,[])
  | .writeMemory memory => ({ engine with memory := memory },[])
  | .monitorPass keys => monitorPass engine keys
  | .rotateKeys keys => (rotateKeys engine keys,[])

/-- A recorded step. -/
abbrev RingEvent := Event PMSREngine (Action×List Violation)

/-- What is known about a registered region: its size and the memory that a
change is measured against. -/
structure Known where
  /-- The size of the latest registration. -/
  size : UInt64
  /-- The memory at the latest registration or the latest report of the region. -/
  memory : Memory

/-- Two readings of a region whose hashes are both present and differ. -/
def Detected (old live : Option (List UInt8)) : Prop :=
  digest live≠0 ∧ digest old≠0 ∧ digest live≠digest old

instance (old live : Option (List UInt8)) : Decidable (Detected old live) :=
  inferInstanceAs (Decidable (_ ∧ _))

/-- A pass over one region, with its reports. -/
def refresh (reports : List Violation) (memory : Memory) (addr : UInt64) (k : Known) : Known :=
  if .modified addr k.size ∈ reports then { k with memory := memory } else k

/-- What a step adds to the knowledge about all registered regions. -/
def remember (known : UInt64 → Option Known) (e : RingEvent) : UInt64 → Option Known :=
  match e.label.1 with
  | .registerRegion addr size _ =>
    Function.update known addr (some ⟨size,e.before.memory⟩)
  | .monitorPass _ => fun addr => (known addr).map (refresh e.label.2 e.before.memory addr)
  | _ => known

/-- The registered regions after a history. -/
def known (events : List RingEvent) : UInt64 → Option Known :=
  events.foldl remember fun _ => none

/-- An entry watches a region: address, size and content hash are its own. -/
structure Watches (entry : ShadowEntry) (addr : UInt64) (k : Known) : Prop where
  /-- The address is the registered one. -/
  address : entry.originalAddr=addr
  /-- The size is that of the latest registration. -/
  size : entry.regionSize=k.size
  /-- The hash is that of the region in the known memory. -/
  content : entry.contentHash=hashMemoryRegion k.memory addr k.size

/-- Every registered address has an entry that watches it. -/
def Kept (regions : UInt64 → Option Known) (ring : List ShadowEntry) : Prop :=
  ∀ addr k,regions addr=some k → ∃ entry ∈ ring,Watches entry addr k

/-- One of the bytes of a region is not the known one any more. -/
def Changed (memory : Memory) (addr : UInt64) (k : Known) : Prop :=
  ∃ i,i < k.size.toNat ∧ memory.byte (addr+UInt64.ofNat i)≠k.memory.byte (addr+UInt64.ofNat i)

/-- A pass reports every registered region whose bytes have changed. -/
def Reported (regions : UInt64 → Option Known) (e : RingEvent) : Prop :=
  ∀ keys,e.label.1=.monitorPass keys → ∀ addr k,regions addr=some k →
    Changed e.before.memory addr k → .modified addr k.size ∈ e.label.2

/-- After every step every registered address has its entry, and every pass
reports every change. -/
def Watched (events : List RingEvent) : Prop :=
  ∀ first e rest,events=first++e::rest →
    Kept (known (first++[e])) e.after.shadowRing ∧ Reported (known first) e

/-- Different registered addresses have different slots. -/
def Apart (events : List RingEvent) : Prop :=
  ∀ e ∈ events,∀ e' ∈ events,∀ addr size key addr' size' key',
    e.label.1=.registerRegion addr size key → e'.label.1=.registerRegion addr' size' key' →
      slot addr=slot addr' → addr=addr'

/-- Of a region the first `n` bytes can be looked at: the pages at its address
are committed and readable, and `n` is the size of the region, but at most two
mebibytes and not past the end of the pages that one query covers. -/
structure InView (memory : Memory) (addr size n : UInt64) : Prop where
  /-- The address is not null. -/
  nonnull : addr≠0
  /-- What the system says about the pages at the address. -/
  pages : ∃ mbi,memory.virtualQuery addr=some mbi ∧ mbi.state=memCommit ∧
    mbi.protect &&& readable≠0 ∧ mbi.protect &&& forbidden=0 ∧
    n=if mbi.baseAddress+mbi.regionSize < addr+min size 0x200000 then
        mbi.baseAddress+mbi.regionSize-addr
      else min size 0x200000

/-- The first `n` bytes at an address. -/
def bytesAt (memory : Memory) (addr n : UInt64) : List UInt8 :=
  (List.range n.toNat).map fun i => memory.byte (addr+UInt64.ofNat i)

/-- The bytes in view have hashes in both memories that are different and not
zero. -/
def Distinguished (old live : Memory) (addr size : UInt64) : Prop :=
  ∃ m n,InView old addr size m ∧ InView live addr size n ∧
    fnv1a (bytesAt old addr m)≠0 ∧ fnv1a (bytesAt live addr n)≠0 ∧
    fnv1a (bytesAt live addr n)≠fnv1a (bytesAt old addr m)

/-- Where a pass meets a changed region, the bytes in view tell the known
memory from the present one. -/
def Visible (events : List RingEvent) : Prop :=
  ∀ first e rest,events=first++e::rest → ∀ keys,e.label.1=.monitorPass keys →
    ∀ addr k,known first addr=some k → Changed e.before.memory addr k →
      Distinguished k.memory e.before.memory addr k.size

/-- Every registered region has bytes to watch. -/
def NonEmpty (events : List RingEvent) : Prop :=
  ∀ e ∈ events,∀ addr size key,e.label.1=.registerRegion addr size key → size≠0

/-- The bytes that are hashed are those in view. -/
theorem watchedBytes_eq_some {memory : Memory} {addr size : UInt64} (nonEmpty : size≠0)
    {bytes : List UInt8} : watchedBytes memory addr size=some bytes ↔
      ∃ n,InView memory addr size n ∧ bytesAt memory addr n=bytes := by
  constructor
  · intro h
    unfold watchedBytes at h
    split_ifs at h with hnull
    split at h
    · exact absurd h nofun
    · next mbi hquery =>
      split_ifs at h with hstate hprotect
      rw [not_or] at hnull hprotect
      refine ⟨_,⟨hnull.1,mbi,hquery,not_not.mp hstate,hprotect.1,not_not.mp hprotect.2,rfl⟩,?_⟩
      exact Option.some_inj.mp h
  · rintro ⟨n,⟨hnull,mbi,hquery,hstate,hreadable,hforbidden,rfl⟩,rfl⟩
    have hprotect : ¬(mbi.protect &&& readable=0 ∨ mbi.protect &&& forbidden≠0) :=
      not_or.mpr ⟨hreadable,not_not.mpr hforbidden⟩
    have hsome : ¬(addr=0 ∨ size=0) := not_or.mpr ⟨hnull,nonEmpty⟩
    rw [watchedBytes,if_neg hsome]
    dsimp only
    rw [hquery]
    dsimp only
    rw [if_neg (not_not.mpr hstate),if_neg hprotect]
    rfl

/-- A hash that is not zero is the hash of bytes in view. -/
theorem digest_ne_zero {memory : Memory} {addr size : UInt64} (nonEmpty : size≠0)
    (h : digest (watchedBytes memory addr size)≠0) :
    ∃ n,InView memory addr size n ∧
      digest (watchedBytes memory addr size)=fnv1a (bytesAt memory addr n) := by
  cases hbytes : watchedBytes memory addr size with
  | none =>
    rw [hbytes] at h
    exact absurd rfl h
  | some bytes =>
    obtain ⟨n,hview,rfl⟩ := (watchedBytes_eq_some nonEmpty).mp hbytes
    exact ⟨n,hview,rfl⟩

/-- A pass detects what the bytes in view tell apart. -/
theorem detected_iff {old live : Memory} {addr size : UInt64} (nonEmpty : size≠0) :
    Detected (watchedBytes old addr size) (watchedBytes live addr size) ↔
      Distinguished old live addr size := by
  constructor
  · rintro ⟨hlive,hold,hdiffer⟩
    obtain ⟨m,hm,hmold⟩ := digest_ne_zero nonEmpty hold
    obtain ⟨n,hn,hnlive⟩ := digest_ne_zero nonEmpty hlive
    rw [hmold] at hold hdiffer
    rw [hnlive] at hlive hdiffer
    exact ⟨m,n,hm,hn,hold,hlive,hdiffer⟩
  · rintro ⟨m,n,hm,hn,hold,hlive,hdiffer⟩
    have hmold := (watchedBytes_eq_some nonEmpty).mpr ⟨m,hm,rfl⟩
    have hnlive := (watchedBytes_eq_some nonEmpty).mpr ⟨n,hn,rfl⟩
    rw [Detected,hmold,hnlive]
    exact ⟨hlive,hold,hdiffer⟩

/-- A change is told from the known memory only by a byte in view. -/
theorem Distinguished.reaches {old live : Memory} {addr size n : UInt64}
    (h : Distinguished old live addr size) (nonEmpty : size≠0) (before : InView old addr size n)
    (after : InView live addr size n) :
    ∃ i,i < n.toNat ∧ live.byte (addr+UInt64.ofNat i)≠old.byte (addr+UInt64.ofNat i) := by
  by_contra hsame
  push Not at hsame
  have hbytes : bytesAt live addr n=bytesAt old addr n :=
    List.map_congr_left fun i member => hsame i (List.mem_range.mp member)
  have hlive := (watchedBytes_eq_some nonEmpty).mpr ⟨n,after,rfl⟩
  have hold := (watchedBytes_eq_some nonEmpty).mpr ⟨n,before,rfl⟩
  obtain ⟨-,-,hdiffer⟩ := (detected_iff nonEmpty).mpr h
  rw [hlive,hold,hbytes] at hdiffer
  exact hdiffer rfl

/-- A region with a changed byte has a byte. -/
theorem Changed.nonEmpty {memory : Memory} {addr : UInt64} {k : Known}
    (h : Changed memory addr k) : k.size≠0 := by
  obtain ⟨i,hi,-⟩ := h
  intro hzero
  rw [hzero] at hi
  exact absurd hi (Nat.not_lt_zero i)

/-- One more step of a history. -/
theorem known_snoc (events : List RingEvent) (e : RingEvent) :
    known (events++[e])=remember (known events) e := by
  rw [known,List.foldl_append]
  rfl

/-- Registration writes one slot of a full ring. -/
theorem registerRegion_ring {engine : PMSREngine} (addr size key : UInt64)
    (full : ringSize ≤ engine.shadowRing.length) :
    ∃ entry,Watches entry addr ⟨size,engine.memory⟩ ∧
      (registerRegion engine addr size key).shadowRing=
        engine.shadowRing.set (slot addr) entry := by
  have hnone : ringSize-engine.shadowRing.length=0 := Nat.sub_eq_zero_of_le full
  refine ⟨{ arm { engine.shadowRing.getD (slot addr) {} with originalAddr := addr } key
    canaryMagic with
    regionSize := size
    contentHash := hashMemoryRegion engine.memory addr size },⟨rfl,rfl,rfl⟩,?_⟩
  rw [registerRegion]
  dsimp only
  rw [hnone,List.replicate_zero,List.append_nil]

/-- A honey entry watches nothing and comes last. -/
theorem injectHoneyIat_ring (engine : PMSREngine) (fakeAddr trapCanary key : UInt64) :
    ∃ honey : List ShadowEntry,(∀ entry ∈ honey,entry.regionSize=0) ∧
      (injectHoneyIat engine fakeAddr trapCanary key).shadowRing=engine.shadowRing++honey := by
  unfold injectHoneyIat
  dsimp only
  split_ifs
  · refine ⟨[_],?_,rfl⟩
    intro entry member
    rw [List.mem_singleton.mp member]
    rfl
  · exact ⟨[],fun entry member => absurd member List.not_mem_nil,(List.append_nil _).symm⟩

/-- Two entries for the same region with the same content hash. -/
structure SameRegion (entry other : ShadowEntry) : Prop where
  /-- The address is the same. -/
  address : other.originalAddr=entry.originalAddr
  /-- The size is the same. -/
  size : other.regionSize=entry.regionSize
  /-- The content hash is the same. -/
  content : other.contentHash=entry.contentHash

/-- An entry that says the same watches the same region. -/
theorem SameRegion.watches {entry other : ShadowEntry} {addr : UInt64} {k : Known}
    (same : SameRegion entry other) (h : Watches entry addr k) : Watches other addr k :=
  ⟨same.address.trans h.address,same.size.trans h.size,same.content.trans h.content⟩

/-- A new key leaves address, size and content hash alone. -/
theorem sameRegion_arm (entry : ShadowEntry) (key magic : UInt64) :
    SameRegion entry (arm entry key magic) :=
  ⟨rfl,rfl,rfl⟩

/-- So does a new hash over the entry. -/
theorem sameRegion_rehash (entry : ShadowEntry) (value : UInt64) :
    SameRegion entry { entry with shadowHash := value } :=
  ⟨rfl,rfl,rfl⟩

/-- The canary test leaves them alone. -/
theorem sameRegion_checkCanary (key : UInt64) (index : ℕ) (entry : ShadowEntry) :
    SameRegion entry (checkCanary key index entry).1 := by
  unfold checkCanary
  split_ifs
  · exact sameRegion_arm entry key canaryMagic
  · exact ⟨rfl,rfl,rfl⟩

/-- The test of the hash over the entry leaves them alone. -/
theorem sameRegion_checkShadowHash (index : ℕ) (entry : ShadowEntry) :
    SameRegion entry (checkShadowHash index entry).1 := by
  by_cases hstale : entry.shadowHash≠computeShadowHash entry
  · rw [checkShadowHash,if_pos hstale]
    exact sameRegion_rehash entry _
  · rw [checkShadowHash,if_neg hstale]
    exact ⟨rfl,rfl,rfl⟩

/-- The test of the bytes reports a detected change and takes the memory over,
and leaves the entry alone otherwise. -/
theorem checkRegion_watches (memory : Memory) {entry : ShadowEntry} {addr : UInt64} {k : Known}
    (h : Watches entry addr k) :
    (Detected (watchedBytes k.memory addr k.size) (watchedBytes memory addr k.size) →
      .modified addr k.size ∈ (checkRegion memory entry).2 ∧
        Watches (checkRegion memory entry).1 addr { k with memory := memory }) ∧
    (¬Detected (watchedBytes k.memory addr k.size) (watchedBytes memory addr k.size) →
      Watches (checkRegion memory entry).1 addr k) := by
  obtain ⟨rfl,hsize,hcontent⟩ := h
  have hlive : hashMemoryRegion memory entry.originalAddr entry.regionSize=
      digest (watchedBytes memory entry.originalAddr k.size) := by rw [hashMemoryRegion,hsize]
  have hold : entry.contentHash=digest (watchedBytes k.memory entry.originalAddr k.size) := hcontent
  constructor
  · intro hdetected
    have hpos : 0 < entry.regionSize := by
      refine UInt64.pos_iff_ne_zero.mpr fun hzero => hdetected.1 ?_
      rw [←hsize,hzero,watchedBytes,if_pos (Or.inr rfl)]
      rfl
    have hrun : checkRegion memory entry=({ entry with
        contentHash := hashMemoryRegion memory entry.originalAddr entry.regionSize },
        [.modified entry.originalAddr entry.regionSize]) := by
      rw [checkRegion,if_pos hpos]
      dsimp only
      rw [if_pos (by rw [hlive,hold]; exact hdetected)]
    rw [hrun]
    refine ⟨?_,rfl,hsize,hlive⟩
    rw [hsize]
    exact List.mem_singleton_self _
  · intro hdetected
    have hrun : checkRegion memory entry=(entry,[]) := by
      rw [checkRegion]
      split
      · dsimp only
        rw [if_neg (by rw [hlive,hold]; exact hdetected)]
      · rfl
    rw [hrun]
    exact ⟨rfl,hsize,hcontent⟩

/-- The test of the bytes changes neither address nor size, and reports only
a detected change of its own region. -/
theorem checkRegion_region (memory : Memory) (entry : ShadowEntry) :
    (checkRegion memory entry).1.originalAddr=entry.originalAddr ∧
      (checkRegion memory entry).1.regionSize=entry.regionSize ∧
      ∀ violation ∈ (checkRegion memory entry).2,
        violation=.modified entry.originalAddr entry.regionSize ∧ entry.regionSize≠0 ∧
          hashMemoryRegion memory entry.originalAddr entry.regionSize≠0 ∧
          entry.contentHash≠0 ∧
          hashMemoryRegion memory entry.originalAddr entry.regionSize≠entry.contentHash := by
  rw [checkRegion]
  split
  · next hpos =>
    dsimp only
    split
    · next hdiffer =>
      refine ⟨rfl,rfl,fun violation member => ?_⟩
      exact ⟨List.mem_singleton.mp member,UInt64.pos_iff_ne_zero.mp hpos,hdiffer⟩
    · exact ⟨rfl,rfl,fun violation member => absurd member List.not_mem_nil⟩
  · exact ⟨rfl,rfl,fun violation member => absurd member List.not_mem_nil⟩

/-- A pass over an entry that watches a region. -/
theorem checkEntry_watches (memory : Memory) (key : UInt64) (index : ℕ) {entry : ShadowEntry}
    {addr : UInt64} {k : Known} (h : Watches entry addr k) :
    (Detected (watchedBytes k.memory addr k.size) (watchedBytes memory addr k.size) →
      .modified addr k.size ∈ (checkEntry memory key index entry).2 ∧
        Watches (checkEntry memory key index entry).1 addr { k with memory := memory }) ∧
    (¬Detected (watchedBytes k.memory addr k.size) (watchedBytes memory addr k.size) →
      Watches (checkEntry memory key index entry).1 addr k) := by
  have hfirst := (sameRegion_checkCanary key index entry).watches h
  have hsecond := (sameRegion_checkShadowHash index _).watches hfirst
  obtain ⟨hreport,hquiet⟩ := checkRegion_watches memory hsecond
  refine ⟨fun detected => ?_,hquiet⟩
  obtain ⟨hmember,hwatches⟩ := hreport detected
  exact ⟨List.mem_append_right _ hmember,hwatches⟩

/-- A report of a modified region comes from the test of the bytes. -/
theorem modified_checkEntry {memory : Memory} {key : UInt64} {index : ℕ} {entry : ShadowEntry}
    {addr size : UInt64} (h : .modified addr size ∈ (checkEntry memory key index entry).2) :
    entry.originalAddr=addr ∧ entry.regionSize=size ∧ size≠0 ∧
      hashMemoryRegion memory addr size≠0 ∧ entry.contentHash≠0 ∧
      hashMemoryRegion memory addr size≠entry.contentHash := by
  have hfirst := sameRegion_checkCanary key index entry
  have hsecond := sameRegion_checkShadowHash index (checkCanary key index entry).1
  rcases List.mem_append.mp h with h | h
  · exfalso
    rcases List.mem_append.mp h with h | h
    · unfold checkCanary at h
      split_ifs at h
      · exact absurd (List.mem_singleton.mp h) nofun
      · exact List.not_mem_nil h
    · unfold checkShadowHash at h
      split_ifs at h
      · exact absurd (List.mem_singleton.mp h) nofun
      · exact List.not_mem_nil h
  · have hregion := (checkRegion_region memory _).2.2 _ h
    rw [hsecond.address,hsecond.size,hsecond.content,hfirst.address,hfirst.size,
      hfirst.content] at hregion
    obtain ⟨heq,hrest⟩ := hregion
    obtain ⟨rfl,rfl⟩ := Violation.modified.inj heq
    exact ⟨rfl,rfl,hrest⟩

/-- A pass over an entry changes neither address nor size. -/
theorem checkEntry_region (memory : Memory) (key : UInt64) (index : ℕ) (entry : ShadowEntry) :
    (checkEntry memory key index entry).1.originalAddr=entry.originalAddr ∧
      (checkEntry memory key index entry).1.regionSize=entry.regionSize := by
  have hfirst := sameRegion_checkCanary key index entry
  have hsecond := sameRegion_checkShadowHash index (checkCanary key index entry).1
  obtain ⟨haddr,hsize,-⟩ :=
    checkRegion_region memory (checkShadowHash index (checkCanary key index entry).1).1
  exact ⟨haddr.trans (hsecond.address.trans hfirst.address),
    hsize.trans (hsecond.size.trans hfirst.size)⟩

/-- A pass visits every entry in its place. -/
theorem monitorPass_get (engine : PMSREngine) (keys : ℕ → UInt64) (i : ℕ) :
    (monitorPass engine keys).1.shadowRing[i]?=
      engine.shadowRing[i]?.map fun entry => (checkEntry engine.memory (keys i) i entry).1 := by
  rw [monitorPass]
  dsimp only
  rw [List.getElem?_map,List.getElem?_mapIdx,Option.map_map]
  rfl

/-- Every report of a pass is a report about an entry. -/
theorem mem_monitorPass {engine : PMSREngine} {keys : ℕ → UInt64} {violation : Violation} :
    violation ∈ (monitorPass engine keys).2 ↔ ∃ i entry,engine.shadowRing[i]?=some entry ∧
      violation ∈ (checkEntry engine.memory (keys i) i entry).2 := by
  rw [monitorPass]
  dsimp only
  rw [List.mem_flatMap]
  constructor
  · rintro ⟨checked,member,hviolation⟩
    obtain ⟨i,hi⟩ := List.mem_iff_getElem?.mp member
    rw [List.getElem?_mapIdx,Option.map_eq_some_iff] at hi
    obtain ⟨entry,hentry,rfl⟩ := hi
    exact ⟨i,entry,hentry,hviolation⟩
  · rintro ⟨i,entry,hentry,hviolation⟩
    refine ⟨checkEntry engine.memory (keys i) i entry,List.mem_iff_getElem?.mpr ⟨i,?_⟩,hviolation⟩
    rw [List.getElem?_mapIdx,hentry]
    rfl

/-- Rotation visits every entry in its place. -/
theorem rotateKeys_get (engine : PMSREngine) (keys : ℕ → UInt64) (i : ℕ) :
    (rotateKeys engine keys).shadowRing[i]?=engine.shadowRing[i]?.map fun entry =>
      arm entry (keys i) (entry.canary ^^^ entry.xorKey) := by
  rw [rotateKeys]
  dsimp only
  rw [List.getElem?_mapIdx]

/-- Every registered region is watched by the entry in its slot. -/
def Slotted (regions : UInt64 → Option Known) (ring : List ShadowEntry) : Prop :=
  ∀ addr k,regions addr=some k → ∃ entry,ring[slot addr]?=some entry ∧ Watches entry addr k

/-- Entries with bytes to watch sit in the slot of their address. -/
def Located (ring : List ShadowEntry) : Prop :=
  ∀ i entry,ring[i]?=some entry → entry.regionSize≠0 → i=slot entry.originalAddr

/-- A slot is an index of a full ring. -/
theorem slot_lt {ring : List ShadowEntry} (full : ringSize ≤ ring.length) (addr : UInt64) :
    slot addr < ring.length :=
  (Nat.mod_lt _ (by decide)).trans_le full

/-- The ring stays full. -/
theorem step_full {engine : PMSREngine} (full : ringSize ≤ engine.shadowRing.length)
    (action : Action) : ringSize ≤ (step engine action).1.shadowRing.length := by
  cases action with
  | registerRegion addr size key =>
    obtain ⟨entry,-,hring⟩ := registerRegion_ring addr size key full
    rw [step,hring,List.length_set]
    exact full
  | injectHoneyIat fakeAddr trapCanary key =>
    obtain ⟨honey,-,hring⟩ := injectHoneyIat_ring engine fakeAddr trapCanary key
    rw [step,hring,List.length_append]
    exact full.trans (Nat.le_add_right _ _)
  | writeMemory memory => exact full
  | monitorPass keys =>
    rw [step,monitorPass,List.length_map,List.length_mapIdx]
    exact full
  | rotateKeys keys =>
    rw [step,rotateKeys,List.length_mapIdx]
    exact full

/-- Entries stay in the slots of their addresses. -/
theorem step_located {engine : PMSREngine} (full : ringSize ≤ engine.shadowRing.length)
    (h : Located engine.shadowRing) (action : Action) :
    Located (step engine action).1.shadowRing := by
  intro i entry hentry hsize
  cases action with
  | registerRegion addr size key =>
    obtain ⟨written,hwatches,hring⟩ := registerRegion_ring addr size key full
    rw [step,hring,List.getElem?_set] at hentry
    split_ifs at hentry with hi hlt
    · obtain rfl := Option.some_inj.mp hentry
      rw [hwatches.address]
      exact hi.symm
    · exact h i entry hentry hsize
  | injectHoneyIat fakeAddr trapCanary key =>
    obtain ⟨honey,hhoney,hring⟩ := injectHoneyIat_ring engine fakeAddr trapCanary key
    rw [step,hring] at hentry
    rcases Nat.lt_or_ge i engine.shadowRing.length with hi | hi
    · rw [List.getElem?_append_left hi] at hentry
      exact h i entry hentry hsize
    · rw [List.getElem?_append_right hi] at hentry
      exact absurd (hhoney entry (List.mem_of_getElem? hentry)) hsize
  | writeMemory memory => exact h i entry hentry hsize
  | monitorPass keys =>
    rw [step,monitorPass_get,Option.map_eq_some_iff] at hentry
    obtain ⟨old,hold,rfl⟩ := hentry
    obtain ⟨haddr,hregion⟩ := checkEntry_region engine.memory (keys i) i old
    rw [hregion] at hsize
    rw [haddr]
    exact h i old hold hsize
  | rotateKeys keys =>
    rw [step,rotateKeys_get,Option.map_eq_some_iff] at hentry
    obtain ⟨old,hold,rfl⟩ := hentry
    exact h i old hold hsize

/-- A pass over regions in their slots reports exactly the detected changes. -/
theorem Slotted.reports_iff {regions : UInt64 → Option Known} {engine : PMSREngine}
    (h : Slotted regions engine.shadowRing) (located : Located engine.shadowRing)
    (keys : ℕ → UInt64) {addr : UInt64} {k : Known} (hk : regions addr=some k) :
    .modified addr k.size ∈ (monitorPass engine keys).2 ↔
      Detected (watchedBytes k.memory addr k.size) (watchedBytes engine.memory addr k.size) := by
  obtain ⟨own,hown,hwatches⟩ := h addr k hk
  constructor
  · intro reported
    obtain ⟨i,entry,hentry,hmodified⟩ := mem_monitorPass.mp reported
    obtain ⟨haddr,hsize,hnonzero,hlive,hold,hdiffer⟩ := modified_checkEntry hmodified
    have hplace := located i entry hentry (hsize ▸ hnonzero)
    rw [hplace,haddr,hown] at hentry
    rw [←Option.some_inj.mp hentry,hwatches.content] at hold hdiffer
    exact ⟨hlive,hold,hdiffer⟩
  · intro detected
    refine mem_monitorPass.mpr ⟨slot addr,own,hown,?_⟩
    exact ((checkEntry_watches engine.memory (keys (slot addr)) (slot addr) hwatches).1
      detected).1

/-- A step keeps every region in its slot if it registers no address whose
slot belongs to another one. -/
theorem step_slotted {engine : PMSREngine} {regions : UInt64 → Option Known}
    (full : ringSize ≤ engine.shadowRing.length) (located : Located engine.shadowRing)
    (h : Slotted regions engine.shadowRing) {action : Action} (free : ∀ addr size key,action=.registerRegion addr size key →
      ∀ addr' k,regions addr'=some k → slot addr'=slot addr → addr'=addr)
    (after : PMSREngine) :
    Slotted (remember regions ⟨engine,(action,(step engine action).2),after⟩)
      (step engine action).1.shadowRing := by
  intro addr k hk
  cases action with
  | registerRegion target size key =>
    obtain ⟨written,hwatches,hring⟩ := registerRegion_ring target size key full
    rw [remember] at hk
    dsimp only at hk
    rw [step,hring,List.getElem?_set]
    by_cases heq : addr=target
    · subst heq
      rw [Function.update_self] at hk
      rw [if_pos rfl,if_pos (slot_lt full addr),←Option.some_inj.mp hk]
      exact ⟨written,rfl,hwatches⟩
    · rw [Function.update_of_ne heq] at hk
      have hslot : slot target≠slot addr := fun hslot =>
        heq (free target size key rfl addr k hk hslot.symm)
      rw [if_neg hslot]
      exact h addr k hk
  | injectHoneyIat fakeAddr trapCanary key =>
    obtain ⟨honey,-,hring⟩ := injectHoneyIat_ring engine fakeAddr trapCanary key
    rw [step,hring,List.getElem?_append_left (slot_lt full addr)]
    exact h addr k hk
  | writeMemory memory => exact h addr k hk
  | monitorPass keys =>
    obtain ⟨old,hold,rfl⟩ := Option.map_eq_some_iff.mp hk
    obtain ⟨entry,hentry,hwatches⟩ := h addr old hold
    have hpass := checkEntry_watches engine.memory (keys (slot addr)) (slot addr) hwatches
    have hreported := h.reports_iff located keys hold
    refine ⟨(checkEntry engine.memory (keys (slot addr)) (slot addr) entry).1,?_,?_⟩
    · rw [step,monitorPass_get,hentry]
      rfl
    · dsimp only [step]
      by_cases hdetected : Detected (watchedBytes old.memory addr old.size)
          (watchedBytes engine.memory addr old.size)
      · rw [refresh,if_pos (hreported.mpr hdetected)]
        exact (hpass.1 hdetected).2
      · rw [refresh,if_neg (hreported.not.mpr hdetected)]
        exact hpass.2 hdetected
  | rotateKeys keys =>
    obtain ⟨entry,hentry,hwatches⟩ := h addr k hk
    refine ⟨_,?_,(sameRegion_arm entry (keys (slot addr))
      (entry.canary ^^^ entry.xorKey)).watches hwatches⟩
    rw [step,rotateKeys_get,hentry]
    rfl

/-- What a step can do to the knowledge about one address. -/
theorem remember_cases (regions : UInt64 → Option Known) (e : RingEvent) (addr : UInt64) :
    (∃ size key,e.label.1=.registerRegion addr size key ∧
      remember regions e addr=some ⟨size,e.before.memory⟩) ∨
    (remember regions e addr=(regions addr).map (refresh e.label.2 e.before.memory addr)) ∨
    remember regions e addr=regions addr := by
  obtain ⟨before,⟨action,out⟩,after⟩ := e
  cases action with
  | registerRegion target size key =>
    by_cases heq : addr=target
    · subst heq
      exact .inl ⟨size,key,rfl,Function.update_self ..⟩
    · exact .inr (.inr (Function.update_of_ne heq ..))
  | injectHoneyIat fakeAddr trapCanary key => exact .inr (.inr rfl)
  | writeMemory memory => exact .inr (.inr rfl)
  | monitorPass keys => exact .inr (.inl rfl)
  | rotateKeys keys => exact .inr (.inr rfl)

/-- A pass does not change the size of a region. -/
theorem refresh_size (reports : List Violation) (memory : Memory) (addr : UInt64) (k : Known) :
    (refresh reports memory addr k).size=k.size := by
  unfold refresh
  split_ifs
  · rfl
  · rfl

/-- A known region was registered with its size. -/
theorem registered_of_known {events : List RingEvent} {addr : UInt64} {k : Known}
    (h : known events addr=some k) :
    ∃ e ∈ events,∃ key,e.label.1=.registerRegion addr k.size key := by
  induction events using List.reverseRecOn generalizing k with
  | nil => exact absurd h nofun
  | append_singleton events e ih =>
    rw [known_snoc] at h
    rcases remember_cases (known events) e addr with ⟨size,key,hlabel,hnew⟩ | hpass | hsame
    · rw [hnew] at h
      rw [←Option.some_inj.mp h]
      exact ⟨e,List.mem_append_right _ List.mem_cons_self,key,hlabel⟩
    · rw [hpass] at h
      obtain ⟨old,hold,rfl⟩ := Option.map_eq_some_iff.mp h
      obtain ⟨e',member,key,hlabel⟩ := ih hold
      rw [refresh_size]
      exact ⟨e',List.mem_append_left _ member,key,hlabel⟩
    · rw [hsame] at h
      obtain ⟨e',member,key,hlabel⟩ := ih h
      exact ⟨e',List.mem_append_left _ member,key,hlabel⟩

/-- A registered region stays known. -/
theorem known_of_registered {events : List RingEvent} {e : RingEvent} (member : e ∈ events)
    {addr size key : UInt64} (hlabel : e.label.1=.registerRegion addr size key) :
    ∃ k,known events addr=some k := by
  induction events using List.reverseRecOn with
  | nil => exact absurd member List.not_mem_nil
  | append_singleton events last ih =>
    rw [known_snoc]
    rcases List.mem_append.mp member with member | member
    · obtain ⟨k,hk⟩ := ih member
      rcases remember_cases (known events) last addr with ⟨_,_,_,hnew⟩ | hpass | hsame
      · exact ⟨_,hnew⟩
      · exact ⟨_,by rw [hpass,hk]; rfl⟩
      · exact ⟨k,hsame.trans hk⟩
    · obtain rfl := List.mem_singleton.mp member
      rw [remember,hlabel]
      exact ⟨_,Function.update_self ..⟩

section Runs

variable {memory : Memory} {keys : ℕ → UInt64} {events : List RingEvent} {engine : PMSREngine}

/-- The ring of a started engine is full. -/
theorem fillRing_length (memory : Memory) (keys : ℕ → UInt64) :
    (fillRing (create memory) keys).shadowRing.length=ringSize := by
  rw [fillRing,create,List.nil_append,List.length_map,List.length_range]

/-- The entries of a started engine watch nothing. -/
theorem fillRing_located (memory : Memory) (keys : ℕ → UInt64) :
    Located (fillRing (create memory) keys).shadowRing := by
  intro i entry hentry hsize
  obtain ⟨j,-,rfl⟩ := List.mem_map.mp (List.mem_of_getElem? hentry)
  exact absurd rfl hsize

/-- In every run the ring is full and entries sit in the slots of their
addresses. -/
theorem run_located (run : Run (Deterministic step) (fillRing (create memory) keys) events engine) :
    ringSize ≤ engine.shadowRing.length ∧ Located engine.shadowRing := by
  induction run with
  | nil => exact ⟨(fillRing_length memory keys).ge,fillRing_located memory keys⟩
  | @snoc events s t label run hstep ih =>
    have hafter : t=(step s label.1).1 := (congrArg Prod.fst hstep).symm
    rw [hafter]
    exact ⟨step_full ih.1 label.1,step_located ih.1 ih.2 label.1⟩

/-- While registered addresses have different slots, every region is watched
by the entry in its slot. -/
theorem run_slotted (run : Run (Deterministic step) (fillRing (create memory) keys) events engine)
    (apart : Apart events) : Slotted (known events) engine.shadowRing := by
  induction run with
  | nil => exact fun addr k h => absurd h nofun
  | @snoc events s t label run hstep ih =>
    have hbefore : Apart events := fun e member e' member' =>
      apart e (List.mem_append_left _ member) e' (List.mem_append_left _ member')
    have hafter : t=(step s label.1).1 := (congrArg Prod.fst hstep).symm
    have hfree : ∀ addr size key,label.1=.registerRegion addr size key →
        ∀ addr' k,known events addr'=some k → slot addr'=slot addr → addr'=addr := by
      intro addr size key hlabel addr' k hk hslot
      obtain ⟨e',member,key',hlabel'⟩ := registered_of_known hk
      exact apart e' (List.mem_append_left _ member) ⟨s,label,t⟩
        (List.mem_append_right _ List.mem_cons_self) addr' k.size key' addr size key
        hlabel' hlabel hslot
    obtain ⟨hfull,hlocated⟩ := run_located run
    have hslotted := step_slotted hfull hlocated (ih hbefore) hfree t
    have hreply : label=(label.1,(step s label.1).2) :=
      Prod.ext rfl (congrArg Prod.snd hstep).symm
    rw [←hreply] at hslotted
    rw [known_snoc,hafter]
    rw [hafter] at hslotted
    exact hslotted

/-- A registration under the slot of another known region displaces it. -/
theorem displaced {first rest : List RingEvent} {e : RingEvent}
    (run : Run (Deterministic step) (fillRing (create memory) keys) (first++e::rest) engine)
    (watched : Watched (first++e::rest)) (nonEmpty : NonEmpty (first++e::rest))
    {addr size key : UInt64} (hlabel : e.label.1=.registerRegion addr size key)
    {other : UInt64} {k : Known} (hk : known first other=some k) (hslot : slot other=slot addr) :
    other=addr := by
  by_contra hne
  obtain ⟨hbefore,hstep,-⟩ := run.event_step
  obtain ⟨hfull,-⟩ := run_located hbefore
  have hlocated := (run_located (hbefore.snoc hstep)).2
  have hstill : known (first++[e]) other=some k := by
    rw [known_snoc,remember,hlabel]
    exact (Function.update_of_ne hne ..).trans hk
  obtain ⟨entry,member,hwatches⟩ := (watched first e rest rfl).1 other k hstill
  obtain ⟨registration,hmember,key',hregistered⟩ := registered_of_known hk
  have hsize : entry.regionSize≠0 := by
    rw [hwatches.size]
    exact nonEmpty registration (List.mem_append_left _ hmember) other k.size key' hregistered
  obtain ⟨i,hi⟩ := List.mem_iff_getElem?.mp member
  have hplace := hlocated i entry hi hsize
  obtain ⟨written,hwritten,hring⟩ := registerRegion_ring addr size key hfull
  have hafter : e.after.shadowRing=e.before.shadowRing.set (slot addr) written := by
    rw [←hring]
    rw [Deterministic,hlabel] at hstep
    exact (congrArg (fun result => result.1.shadowRing) hstep).symm
  rw [hafter,hplace,hwatches.address,hslot,List.getElem?_set_self (slot_lt hfull addr)] at hi
  have hsame : entry=written := (Option.some_inj.mp hi).symm
  exact hne (hwatches.address.symm.trans (hsame ▸ hwritten.address))

/-- Regions in their slots are kept. -/
theorem Slotted.kept {regions : UInt64 → Option Known} {ring : List ShadowEntry}
    (h : Slotted regions ring) : Kept regions ring := by
  intro addr k hk
  obtain ⟨entry,hentry,hwatches⟩ := h addr k hk
  exact ⟨entry,List.mem_of_getElem? hentry,hwatches⟩

/-- A prefix of a history with separate slots has separate slots. -/
theorem Apart.mono {events more : List RingEvent} (h : Apart more)
    (subset : ∀ e ∈ events,e ∈ more) : Apart events :=
  fun e member e' member' => h e (subset e member) e' (subset e' member')

/-- The reply of a recorded pass. -/
theorem reply_of_pass {e : RingEvent} {keys : ℕ → UInt64}
    (hstep : Deterministic step e.before e.label e.after) (hlabel : e.label.1=.monitorPass keys) :
    e.label.2=(monitorPass e.before keys).2 := by
  rw [Deterministic,hlabel] at hstep
  exact (congrArg Prod.snd hstep).symm

/-- Where all regions have bytes to watch and every one keeps its entry,
different addresses have different slots. -/
theorem apart_of_watched
    (run : Run (Deterministic step) (fillRing (create memory) keys) events engine)
    (nonEmpty : NonEmpty events) (watched : Watched events) : Apart events := by
  intro e member e' member' addr size key addr' size' key' hlabel hlabel' hslot
  obtain ⟨first,rest,rfl⟩ := List.append_of_mem member
  rcases List.mem_append.mp member' with hearlier | hlater
  · obtain ⟨k,hk⟩ := known_of_registered hearlier hlabel'
    exact (displaced run watched nonEmpty hlabel hk hslot.symm).symm
  · rcases List.mem_cons.mp hlater with rfl | hlater
    · rw [hlabel] at hlabel'
      exact (Action.registerRegion.inj hlabel').1
    · obtain ⟨middle,last,rfl⟩ := List.append_of_mem hlater
      rw [←List.cons_append,←List.append_assoc] at run watched nonEmpty
      obtain ⟨k,hk⟩ := known_of_registered
        (List.mem_append_right first List.mem_cons_self : e ∈ first++e::middle) hlabel
      exact displaced run watched nonEmpty hlabel' hk hslot

/-- Over every history of registrations, honey entries, memory changes,
passes and key rotations of a started engine: if registered addresses have
different slots and every change of a region shows in its bytes in view, every
registered region keeps its entry and every change of a byte is reported by the
next pass. Where all regions have bytes to watch, the condition is also
necessary. -/
theorem regions_watched_iff
    (run : Run (Deterministic step) (fillRing (create memory) keys) events engine) :
    (Apart events ∧ Visible events → Watched events) ∧
      (NonEmpty events → Watched events → Apart events ∧ Visible events) := by
  constructor
  · rintro ⟨apart,visible⟩ first e rest rfl
    obtain ⟨hbefore,hstep,-⟩ := run.event_step
    have hmore : ∀ e' ∈ first++[e],e' ∈ first++e::rest := by
      intro e' member
      rw [List.append_cons]
      exact List.mem_append_left _ member
    have hslotted := run_slotted hbefore
      (apart.mono fun e' member => List.mem_append_left _ member)
    refine ⟨(run_slotted (hbefore.snoc hstep) (apart.mono hmore)).kept,?_⟩
    intro keys hlabel addr k hk changed
    have hdistinguished := visible first e rest rfl keys hlabel addr k hk changed
    rw [reply_of_pass hstep hlabel,hslotted.reports_iff (run_located hbefore).2 keys hk]
    exact (detected_iff changed.nonEmpty).mpr hdistinguished
  · intro nonEmpty watched
    have hapart := apart_of_watched run nonEmpty watched
    refine ⟨hapart,?_⟩
    rintro first e rest rfl keys hlabel addr k hk changed
    obtain ⟨hbefore,hstep,-⟩ := run.event_step
    have hslotted := run_slotted hbefore
      (hapart.mono fun e' member => List.mem_append_left _ member)
    have hreported := (watched first e rest rfl).2 keys hlabel addr k hk changed
    rw [reply_of_pass hstep hlabel,hslotted.reports_iff (run_located hbefore).2 keys hk]
      at hreported
    exact (detected_iff changed.nonEmpty).mp hreported

end Runs

/-- A memory of readable code pages filled with one byte. -/
def codePages (value : UInt8) : Memory :=
  ⟨fun addr => some ⟨addr-addr%4096,4096,memCommit,0x20⟩,fun _ => value⟩

/-- Registration of a one-byte region, a change of the byte and a pass. -/
def patchedCode : List Action :=
  [.registerRegion 0x1000 1 7,.writeMemory (codePages 2),.monitorPass fun _ => 9]

/-- One region is watched and its patch is reported. -/
theorem patched_code_reported :
    Watched (execute step (fillRing (create (codePages 1)) fun _ => 5) patchedCode).1 := by
  refine (regions_watched_iff (execute_run step _ patchedCode)).1 ⟨?_,?_⟩
  · intro e member e' member' addr size key addr' size' key' hlabel hlabel' _
    simp only [patchedCode,execute,List.mem_cons,List.not_mem_nil,or_false] at member member'
    rcases member with rfl | rfl | rfl
    · rcases member' with rfl | rfl | rfl
      · exact (Action.registerRegion.inj hlabel).1.symm.trans (Action.registerRegion.inj hlabel').1
      · cases hlabel'
      · cases hlabel'
    · cases hlabel
    · cases hlabel
  · intro first e rest hevents keys hlabel addr k hk _
    rcases first with _ | ⟨e1,_ | ⟨e2,_ | ⟨e3,first⟩⟩⟩
    · cases hk
    · obtain ⟨-,rfl,-⟩ := hevents
      cases hlabel
    · simp only [patchedCode,execute,List.cons_append,List.nil_append,List.cons.injEq] at hevents
      obtain ⟨rfl,rfl,rfl,-⟩ := hevents
      have hupdate : Function.update (fun _ => none) 0x1000
          (some ⟨1,codePages 1⟩) addr=some k := hk
      by_cases heq : addr=0x1000
      · subst heq
        rw [Function.update_self] at hupdate
        rw [←Option.some_inj.mp hupdate]
        exact (detected_iff (by decide)).mp (by decide)
      · rw [Function.update_of_ne heq] at hupdate
        cases hupdate
    · have hlength := congrArg List.length hevents
      simp only [patchedCode,execute,List.length_cons,List.length_append,List.length_nil] at hlength
      omega

/-- Two page-aligned regions share a slot: the second registration leaves the
first one without an entry. -/
theorem page_aligned_regions_collide :
    (0x1000 : UInt64)≠0x2000 ∧
      ¬Watched (execute step (fillRing (create (codePages 1)) fun _ => 5)
        [.registerRegion 0x1000 1 7,.registerRegion 0x2000 1 8]).1 := by
  refine ⟨by decide,fun watched => ?_⟩
  have hrun := execute_run step (fillRing (create (codePages 1)) fun _ => 5)
    [.registerRegion 0x1000 1 7,.registerRegion 0x2000 1 8]
  have hnonEmpty : NonEmpty (execute step (fillRing (create (codePages 1)) fun _ => 5)
      [.registerRegion 0x1000 1 7,.registerRegion 0x2000 1 8]).1 := by
    intro e member addr size key hlabel
    rcases List.mem_cons.mp member with rfl | member
    · rw [←(Action.registerRegion.inj hlabel).2.1]
      decide
    · rw [List.mem_singleton.mp member] at hlabel
      rw [←(Action.registerRegion.inj hlabel).2.1]
      decide
  have hsame := apart_of_watched hrun hnonEmpty watched _ List.mem_cons_self _
    (List.mem_cons_of_mem _ List.mem_cons_self) 0x1000 1 7 0x2000 1 8 rfl rfl (by decide)
  exact absurd hsame (by decide)

/-- `start` fills the ring, then registers regions and injects honey entries. -/
theorem start_keeps {P : PMSREngine → Prop} {engine : PMSREngine} {keys : ℕ → UInt64}
    (register : ∀ e addr size key,P e → P (registerRegion e addr size key))
    (honey : ∀ e fakeAddr key,P e → P (injectHoneyIat e fakeAddr canaryMagic key))
    (h : P (fillRing engine keys)) (image : Option ModuleImage) :
    P (start engine image keys) := by
  cases image with
  | none => exact h
  | some image =>
    rw [start]
    refine honey _ _ _ (honey _ _ _ ?_)
    split_ifs
    · exact register _ _ _ _ (register _ _ _ _ h)
    · exact register _ _ _ _ h

/-- The steps of `start` itself are a history of the filled ring. -/
theorem start_run (memory : Memory) (image : Option ModuleImage) (keys : ℕ → UInt64) :
    ∃ events,Run (Deterministic step) (fillRing (create memory) keys) events
      (start (create memory) image keys) := by
  have hfilled : ∃ events,Run (Deterministic step) (fillRing (create memory) keys) events
      (fillRing (create memory) keys) := ⟨[],.nil⟩
  refine @start_keeps (fun e => ∃ events,Run (Deterministic step)
    (fillRing (create memory) keys) events e) _ _ ?_ ?_ hfilled image
  · rintro e addr size key ⟨events,hrun⟩
    have hstep : Deterministic step e (.registerRegion addr size key,[])
        (registerRegion e addr size key) := rfl
    exact ⟨_,hrun.snoc hstep⟩
  · rintro e fakeAddr key ⟨events,hrun⟩
    have hstep : Deterministic step e (.injectHoneyIat fakeAddr canaryMagic key,[])
        (injectHoneyIat e fakeAddr canaryMagic key) := rfl
    exact ⟨_,hrun.snoc hstep⟩

end Gcad.ShadowRing
