import Gcad.ShadowRing

/-!
# Integrity of the shadow ring

Two questions about pmsr_engine.cpp. The first lets an attacker write the
fields of entries between monitor passes and key rotations: does a rotation
keep what the next pass would have found? The second leaves the attacker out
and takes the public calls in any order: does the ring keep within its two
capacities, with every entry armed, so that no pass has anything to report?
-/

namespace Gcad.ShadowIntegrity

open Common StepSystem Threat ShadowRing

section Tampering

/-- What can happen to a ring under attack. -/
inductive TamperAction where
  /-- An attacker writes four fields of an entry; those left alone are written
  with the values they have. -/
  | tamper (index : ℕ) (addr key canary hash : UInt64)
  /-- The monitor thread checks the ring. -/
  | monitorPass (keys : ℕ → UInt64)
  /-- The monitor thread rotates the keys. -/
  | rotateKeys (keys : ℕ → UInt64)

/-- One step under attack, with the violations it reports. -/
def tamperStep (engine : PMSREngine) : TamperAction → PMSREngine×List Violation
  | .tamper index addr key canary hash =>
    ({ engine with shadowRing := engine.shadowRing.modify index fun entry =>
        { entry with
          originalAddr := addr
          xorKey := key
          canary := canary
          shadowHash := hash } },[])
  | .monitorPass keys => monitorPass engine keys
  | .rotateKeys keys => (rotateKeys engine keys,[])

/-- A recorded step under attack. -/
abbrev TamperEvent := Event PMSREngine (TamperAction×List Violation)

/-- An entry fails the canary test or the comparison of its hash. -/
def Fails (entry : ShadowEntry) : Prop :=
  verifyCanary entry=false ∨ entry.shadowHash≠computeShadowHash entry

/-- A violation of an entry of the ring. -/
def AboutEntry (index : ℕ) : Violation → Prop
  | .canary i _ => i=index
  | .shadowHash i => i=index
  | .modified _ _ => False

/-- Tampering is not hidden: an entry that fails before a rotation fails after
it, and a pass reports every entry that fails. -/
structure Unhidden (e : TamperEvent) : Prop where
  /-- A rotation keeps the failures. -/
  rotated : ∀ keys,e.label.1=.rotateKeys keys → ∀ (i : ℕ) entry,
    e.before.shadowRing[i]?=some entry → Fails entry →
      ∃ later,e.after.shadowRing[i]?=some later ∧ Fails later
  /-- A pass reports the failures. -/
  reported : ∀ keys,e.label.1=.monitorPass keys → ∀ (i : ℕ) entry,
    e.before.shadowRing[i]?=some entry → Fails entry →
      ∃ violation ∈ e.label.2,AboutEntry i violation

/-- A rotation meets no entry whose hash does not fit under an intact canary. -/
def CanaryTells (e : TamperEvent) : Prop :=
  ∀ keys,e.label.1=.rotateKeys keys → ∀ entry ∈ e.before.shadowRing,
    entry.shadowHash≠computeShadowHash entry → verifyCanary entry=false

/-- Two equal keys cancel. -/
theorem xor_cancel (value key : UInt64) : (value ^^^ key) ^^^ key=value := by
  rw [UInt64.xor_assoc,UInt64.xor_self,UInt64.xor_zero]

/-- An armed entry carries its own hash. -/
theorem arm_hash (entry : ShadowEntry) (key magic : UInt64) :
    (arm entry key magic).shadowHash=computeShadowHash (arm entry key magic) := by
  rw [arm,computeShadowHash,computeShadowHash]

/-- An armed entry holds the magic under its key. -/
theorem arm_canary (entry : ShadowEntry) (key magic : UInt64) :
    (arm entry key magic).canary ^^^ (arm entry key magic).xorKey=magic := by
  rw [arm]
  dsimp only
  rw [xor_cancel]

/-- After a rotation only the canary can tell. -/
theorem fails_rotated (entry : ShadowEntry) (key : UInt64) :
    Fails (arm entry key (entry.canary ^^^ entry.xorKey)) ↔ verifyCanary entry=false := by
  have hcanary : verifyCanary (arm entry key (entry.canary ^^^ entry.xorKey))=
      verifyCanary entry := by
    rw [verifyCanary,verifyCanary,arm_canary]
  rw [Fails,hcanary]
  exact or_iff_left fun hhash => hhash (arm_hash _ _ _)

/-- A pass over a failing entry reports it. -/
theorem checkEntry_reports (memory : Memory) (key : UInt64) (index : ℕ) {entry : ShadowEntry}
    (h : Fails entry) : ∃ violation ∈ (checkEntry memory key index entry).2,
      AboutEntry index violation := by
  by_cases hcanary : verifyCanary entry=false
  · refine ⟨.canary index entry.originalAddr,?_,rfl⟩
    rw [checkEntry,checkCanary,if_pos hcanary]
    exact List.mem_append_left _ (List.mem_append_left _ List.mem_cons_self)
  · have hhash := h.resolve_left hcanary
    refine ⟨.shadowHash index,?_,rfl⟩
    rw [checkEntry,checkCanary,if_neg hcanary]
    dsimp only
    rw [checkShadowHash,if_pos hhash]
    exact List.mem_append_left _ (List.mem_append_right _ List.mem_cons_self)

/-- One step hides nothing exactly when it meets no mismatch under an intact
canary. -/
theorem unhidden_iff {e : TamperEvent} (hstep : Deterministic tamperStep e.before e.label e.after) :
    Unhidden e ↔ CanaryTells e := by
  constructor
  · intro unhidden keys hlabel entry member hhash
    obtain ⟨i,hi⟩ := List.mem_iff_getElem?.mp member
    obtain ⟨later,hlater,hfails⟩ := unhidden.rotated keys hlabel i entry hi (.inr hhash)
    rw [Deterministic,hlabel] at hstep
    have hafter := congrArg (fun result => result.1.shadowRing[i]?) hstep
    rw [tamperStep] at hafter
    dsimp only at hafter
    rw [rotateKeys_get,hi,hlater] at hafter
    rw [←Option.some.inj hafter] at hfails
    exact (fails_rotated entry (keys i)).mp hfails
  · intro tells
    refine ⟨fun keys hlabel i entry hi hfails => ?_,fun keys hlabel i entry hi hfails => ?_⟩
    · rw [Deterministic,hlabel] at hstep
      have hafter : e.after=rotateKeys e.before keys := (congrArg Prod.fst hstep).symm
      have hcanary : verifyCanary entry=false :=
        hfails.elim id (tells keys hlabel entry (List.mem_of_getElem? hi))
      refine ⟨_,?_,(fails_rotated entry (keys i)).mpr hcanary⟩
      rw [hafter,rotateKeys_get,hi]
      rfl
    · rw [Deterministic,hlabel] at hstep
      have hreply : e.label.2=(monitorPass e.before keys).2 := (congrArg Prod.snd hstep).symm
      obtain ⟨violation,hmember,habout⟩ :=
        checkEntry_reports e.before.memory (keys i) i hfails
      rw [hreply]
      exact ⟨violation,mem_monitorPass.mpr ⟨i,entry,hi,hmember⟩,habout⟩

/-- From every ring and in every interleaving of attacker writes, passes and
rotations: no step hides tampering exactly when no rotation meets an entry
whose hash does not fit under an intact canary. -/
theorem rotation_unhidden_iff {engine final : PMSREngine} {events : List TamperEvent}
    (run : Run (Deterministic tamperStep) engine events final) :
    (∀ e ∈ events,Unhidden e) ↔ ∀ e ∈ events,CanaryTells e := by
  refine forall₂_congr fun e member => ?_
  obtain ⟨first,rest,rfl⟩ := List.append_of_mem member
  exact unhidden_iff run.event_step.2.1

/-- An armed ring of one entry. -/
def armedRing : PMSREngine := injectHoneyIat (create (codePages 0)) 0x1000 canaryMagic 7

/-- A broken canary is still broken after a rotation and reported by the pass. -/
theorem broken_canary_unhidden :
    (execute tamperStep armedRing [.tamper 0 0x1000 7 0 0,.rotateKeys fun _ => 9,
      .monitorPass fun _ => 11]).1.length=3 ∧
    ∀ e ∈ (execute tamperStep armedRing [.tamper 0 0x1000 7 0 0,.rotateKeys fun _ => 9,
      .monitorPass fun _ => 11]).1,Unhidden e := by
  refine ⟨rfl,(rotation_unhidden_iff (execute_run tamperStep armedRing _)).mpr ?_⟩
  intro e member keys hlabel entry hentry _
  rcases List.mem_cons.mp member with rfl | member
  · exact absurd hlabel nofun
  rcases List.mem_cons.mp member with rfl | member
  · rw [List.mem_singleton.mp hentry]
    decide +kernel
  rcases List.mem_singleton.mp member with rfl
  exact absurd hlabel nofun

/-- An attacker changes the address of an entry; the rotation that follows
computes a fitting hash over the changed entry. -/
theorem rotation_hides_address :
    ¬∀ e ∈ (execute tamperStep armedRing [.tamper 0 0x2000 7 (canaryMagic ^^^ 7)
      (computeShadowHash { originalAddr := 0x1000,xorKey := 7,canary := canaryMagic ^^^ 7 }),
      .rotateKeys fun _ => 9]).1,Unhidden e := by
  intro unhidden
  have hrotation := unhidden _ (List.mem_cons_of_mem _ List.mem_cons_self)
  rw [unhidden_iff] at hrotation
  · have hcanary := hrotation _ rfl _ List.mem_cons_self (by decide +kernel)
    exact absurd hcanary (by decide +kernel)
  · rfl

end Tampering

section Lifecycle

/-- The engine with its `running_` flag. -/
structure Service where
  /-- Ring, counters and memory. -/
  engine : PMSREngine
  /-- The monitor thread runs. -/
  running : Bool

/-- `start`. -/
def Service.start (service : Service) (image : Option ModuleImage) (keys : ℕ → UInt64) : Service :=
  if service.running then service else ⟨ShadowRing.start service.engine image keys,true⟩

/-- `stop`: the entries are zeroed and the ring is cleared. -/
def Service.stop (service : Service) : Service :=
  if service.running then ⟨{ service.engine with shadowRing := [] },false⟩ else service

/-- A call from outside or a turn of the monitor thread. -/
inductive Call where
  /-- A call of `start`. -/
  | start (image : Option ModuleImage) (keys : ℕ → UInt64)
  /-- A call of `stop`. -/
  | stop
  /-- A call of `register_region`. -/
  | registerRegion (addr size key : UInt64)
  /-- A call of `inject_honey_iat` with the magic as its canary. -/
  | injectHoneyIat (fakeAddr key : UInt64)
  /-- A call of `rotate_keys`. -/
  | rotateKeys (keys : ℕ → UInt64)
  /-- A pass of the monitor thread, which there is while the engine runs. -/
  | monitorPass (keys : ℕ → UInt64)

/-- The effect of a call and the violations it reports. -/
def callStep (service : Service) : Call → Service×List Violation
  | .start image keys => (service.start image keys,[])
  | .stop => (service.stop,[])
  | .registerRegion addr size key =>
    ({ service with engine := registerRegion service.engine addr size key },[])
  | .injectHoneyIat fakeAddr key =>
    ({ service with engine := injectHoneyIat service.engine fakeAddr canaryMagic key },[])
  | .rotateKeys keys => ({ service with engine := rotateKeys service.engine keys },[])
  | .monitorPass keys =>
    if service.running then
      ({ service with engine := (monitorPass service.engine keys).1 },
        (monitorPass service.engine keys).2)
    else (service,[])

/-- A recorded call. -/
abbrev CallEvent := Event Service (Call×List Violation)

/-- An entry that holds the magic under its key and its own hash. -/
structure Armed (entry : ShadowEntry) : Prop where
  /-- The magic is under the key. -/
  canary : entry.canary ^^^ entry.xorKey=canaryMagic
  /-- The hash fits. -/
  hash : entry.shadowHash=computeShadowHash entry

/-- The ring keeps within two capacities, every entry is armed, and nothing
has been reported. -/
structure Intact (engine : PMSREngine) : Prop where
  /-- At most two capacities. -/
  bounded : engine.shadowRing.length ≤ 2*ringSize
  /-- Every entry is armed. -/
  armed : ∀ entry ∈ engine.shadowRing,Armed entry
  /-- No violation was reported. -/
  silent : engine.delivered=[]

/-- When a call keeps the ring intact: `start` needs a ring of at most one
capacity, and `register_region` must not leave an entry it has added. -/
def Prepared (service : Service) : Call → Prop
  | .start _ _ => service.running=true ∨ service.engine.shadowRing.length ≤ ringSize
  | .registerRegion addr _ _ => ringSize ≤ service.engine.shadowRing.length ∨
      service.engine.shadowRing.length+1=ringSize ∧ slot addr+1=ringSize
  | _ => True

/-- The content hash of an entry with bytes to watch is that of the bytes. -/
def Current (memory : Memory) (entry : ShadowEntry) : Prop :=
  entry.regionSize=0 ∨
    entry.contentHash=hashMemoryRegion memory entry.originalAddr entry.regionSize

/-- All content hashes are current. -/
def Snapshot (engine : PMSREngine) : Prop :=
  ∀ entry ∈ engine.shadowRing,Current engine.memory entry

/-- Arming with the magic arms. -/
theorem armed_arm (entry : ShadowEntry) (key : UInt64) : Armed (arm entry key canaryMagic) :=
  ⟨arm_canary entry key canaryMagic,arm_hash entry key canaryMagic⟩

/-- Region data do not count. -/
theorem Armed.withRegion {entry : ShadowEntry} (h : Armed entry) (size content : UInt64) :
    Armed { entry with
      regionSize := size
      contentHash := content } :=
  ⟨h.canary,h.hash⟩

/-- A rotation keeps an armed entry armed. -/
theorem Armed.rotated {entry : ShadowEntry} (h : Armed entry) (key : UInt64) :
    Armed (arm entry key (entry.canary ^^^ entry.xorKey)) := by
  rw [h.canary]
  exact armed_arm entry key

/-- A zeroed entry, as `resize` adds it. -/
def zeroed : ShadowEntry := {}

/-- A zeroed entry is not armed. -/
theorem not_armed_zeroed : ¬Armed zeroed := fun h => absurd h.canary (by decide)

/-- Another entry for the same region is as current. -/
theorem Current.same {memory : Memory} {entry other : ShadowEntry} (h : Current memory entry)
    (same : SameRegion entry other) : Current memory other := by
  rw [Current,same.size,same.content,same.address]
  exact h

/-- A current region has nothing to report. -/
theorem Current.quiet {memory : Memory} {entry : ShadowEntry} (h : Current memory entry) :
    checkRegion memory entry=(entry,[]) := by
  rw [checkRegion]
  split
  · next hpos =>
    have hcontent := h.resolve_left (UInt64.pos_iff_ne_zero.mp hpos)
    dsimp only
    rw [if_neg fun hdiffer => hdiffer.2.2 hcontent.symm]
  · rfl

/-- A pass leaves a current entry current. -/
theorem Current.checked {memory : Memory} {entry : ShadowEntry} (h : Current memory entry)
    (key : UInt64) (index : ℕ) : Current memory (checkEntry memory key index entry).1 := by
  have hfirst := h.same (sameRegion_checkCanary key index entry)
  have hsecond := hfirst.same (sameRegion_checkShadowHash index _)
  rw [checkEntry]
  dsimp only
  rw [hsecond.quiet]
  exact hsecond

/-- A pass leaves an armed and current entry as it is and reports nothing. -/
theorem Armed.quiet {memory : Memory} {entry : ShadowEntry} (h : Armed entry)
    (current : Current memory entry) (key : UInt64) (index : ℕ) :
    checkEntry memory key index entry=(entry,[]) := by
  have hverify : verifyCanary entry=true := beq_iff_eq.mpr h.canary
  have hcanary : checkCanary key index entry=(entry,[]) := by
    rw [checkCanary,hverify]
    exact if_neg Bool.noConfusion
  have hhash : checkShadowHash index entry=(entry,[]) := by
    rw [checkShadowHash,if_neg (not_not.mpr h.hash)]
  rw [checkEntry,hcanary]
  dsimp only
  rw [hhash]
  dsimp only
  rw [current.quiet]
  rfl

/-- The entry that a registration writes, and where. -/
theorem registerRegion_writes (engine : PMSREngine) (addr size key : UInt64) :
    ∃ written,Armed written ∧ Current engine.memory written ∧
      (registerRegion engine addr size key).shadowRing=
        (engine.shadowRing++List.replicate (ringSize-engine.shadowRing.length) zeroed).set
          (slot addr) written :=
  ⟨_,(armed_arm _ key).withRegion _ _,.inr rfl,rfl⟩

/-- Registration makes the ring at least one capacity long. -/
theorem registerRegion_length (engine : PMSREngine) (addr size key : UInt64) :
    (registerRegion engine addr size key).shadowRing.length=
      max ringSize engine.shadowRing.length := by
  obtain ⟨written,-,-,hring⟩ := registerRegion_writes engine addr size key
  rw [hring,List.length_set,List.length_append,List.length_replicate]
  omega

/-- Registration keeps armed entries armed exactly when it overwrites every
zeroed entry it has added. -/
theorem registerRegion_armed_iff {engine : PMSREngine} (h : ∀ entry ∈ engine.shadowRing,Armed entry)
    (addr size key : UInt64) :
    (∀ entry ∈ (registerRegion engine addr size key).shadowRing,Armed entry) ↔
      ringSize ≤ engine.shadowRing.length ∨
        engine.shadowRing.length+1=ringSize ∧ slot addr+1=ringSize := by
  obtain ⟨written,hwritten,-,hring⟩ := registerRegion_writes engine addr size key
  rw [hring]
  constructor
  · intro harmed
    have hslot : ∀ i,engine.shadowRing.length ≤ i → i < ringSize → i=slot addr := by
      intro i hlow hhigh
      by_contra hother
      have hzero : ((engine.shadowRing++List.replicate (ringSize-engine.shadowRing.length)
          zeroed).set (slot addr) written)[i]?=some zeroed := by
        rw [List.getElem?_set_ne (Ne.symm hother),List.getElem?_append_right hlow,
          List.getElem?_replicate_of_lt (by omega)]
      exact not_armed_zeroed (harmed _ (List.mem_of_getElem? hzero))
    rcases Nat.lt_or_ge engine.shadowRing.length ringSize with hshort | hfull
    · have hfirst := hslot engine.shadowRing.length (le_refl _) hshort
      have hlast := hslot (ringSize-1) (by omega) (by omega)
      exact .inr (by omega)
    · exact .inl hfull
  · intro hcond entry member
    obtain ⟨i,hi⟩ := List.mem_iff_getElem?.mp member
    by_cases hslot : slot addr=i
    · rw [List.getElem?_set,if_pos hslot] at hi
      split_ifs at hi
      rw [←Option.some.inj hi]
      exact hwritten
    · rw [List.getElem?_set_ne hslot] at hi
      have hlength := (List.getElem?_eq_some_iff.mp hi).1
      rw [List.length_append,List.length_replicate] at hlength
      rw [List.getElem?_append_left (by omega)] at hi
      exact h entry (List.mem_of_getElem? hi)

/-- What the calls inside `start` do to a full ring. -/
structure Extended (engine after : PMSREngine) : Prop where
  /-- The ring stays full. -/
  full : ringSize ≤ after.shadowRing.length
  /-- It does not cross the bound. -/
  bounded : after.shadowRing.length ≤ 2*ringSize ↔ engine.shadowRing.length ≤ 2*ringSize
  /-- Armed entries stay armed and new ones are. -/
  armed : (∀ entry ∈ engine.shadowRing,Armed entry) → ∀ entry ∈ after.shadowRing,Armed entry
  /-- Nothing is reported. -/
  silent : after.delivered=engine.delivered

/-- Registration in a full ring. -/
theorem Extended.register {engine e : PMSREngine} (h : Extended engine e)
    (addr size key : UInt64) : Extended engine (registerRegion e addr size key) := by
  have hlength := registerRegion_length e addr size key
  rw [Nat.max_eq_right h.full] at hlength
  refine ⟨hlength ▸ h.full,hlength ▸ h.bounded,fun harmed => ?_,h.silent⟩
  exact (registerRegion_armed_iff (h.armed harmed) addr size key).mpr (.inl h.full)

/-- Injection of a honey entry. -/
theorem injectHoneyIat_cases (engine : PMSREngine) (fakeAddr key : UInt64) :
    (engine.shadowRing.length < 2*ringSize ∧
      (injectHoneyIat engine fakeAddr canaryMagic key).shadowRing=
        engine.shadowRing++[arm { originalAddr := fakeAddr } key canaryMagic] ∧
      (injectHoneyIat engine fakeAddr canaryMagic key).delivered=engine.delivered ∧
      (injectHoneyIat engine fakeAddr canaryMagic key).memory=engine.memory) ∨
    injectHoneyIat engine fakeAddr canaryMagic key=engine := by
  unfold injectHoneyIat
  dsimp only
  split_ifs with hroom
  · exact .inl ⟨by omega,rfl,rfl,rfl⟩
  · exact .inr rfl

/-- Injection into a full ring. -/
theorem Extended.honey {engine e : PMSREngine} (h : Extended engine e) (fakeAddr key : UInt64) :
    Extended engine (injectHoneyIat e fakeAddr canaryMagic key) := by
  rcases injectHoneyIat_cases e fakeAddr key with ⟨hroom,hring,hsilent,-⟩ | hsame
  · have hlength : (injectHoneyIat e fakeAddr canaryMagic key).shadowRing.length=
        e.shadowRing.length+1 := by
      rw [hring,List.length_append,List.length_singleton]
    have hfull := h.full
    have hbounded := h.bounded
    refine ⟨by omega,by omega,fun harmed entry member => ?_,hsilent.trans h.silent⟩
    rw [hring] at member
    rcases List.mem_append.mp member with hold | hnew
    · exact h.armed harmed entry hold
    · rw [List.mem_singleton.mp hnew]
      exact armed_arm _ key
  · rw [hsame]
    exact h

/-- The ring that `start` fills. -/
theorem fillRing_ring (engine : PMSREngine) (keys : ℕ → UInt64) :
    (fillRing engine keys).shadowRing.length=engine.shadowRing.length+ringSize ∧
    ∀ entry ∈ (fillRing engine keys).shadowRing,entry ∈ engine.shadowRing ∨
      ∃ i,entry=arm {} (keys i) canaryMagic := by
  constructor
  · rw [fillRing,List.length_append,List.length_map,List.length_range]
  · intro entry member
    refine (List.mem_append.mp member).imp_right fun hnew => ?_
    obtain ⟨i,-,rfl⟩ := List.mem_map.mp hnew
    exact ⟨i,rfl⟩

/-- `start` of an engine with an intact ring. -/
theorem start_intact_iff {engine : PMSREngine} (h : Intact engine) (image : Option ModuleImage)
    (keys : ℕ → UInt64) :
    Intact (ShadowRing.start engine image keys) ↔ engine.shadowRing.length ≤ ringSize := by
  obtain ⟨hlength,hentries⟩ := fillRing_ring engine keys
  have hfilled : Extended (fillRing engine keys) (fillRing engine keys) :=
    ⟨by omega,Iff.rfl,id,rfl⟩
  have hstart : Extended (fillRing engine keys) (ShadowRing.start engine image keys) :=
    @start_keeps (Extended (fillRing engine keys)) _ _
      (fun _ addr size key he => he.register addr size key)
      (fun _ fakeAddr key he => he.honey fakeAddr key) hfilled image
  have harmed : ∀ entry ∈ (fillRing engine keys).shadowRing,Armed entry := by
    intro entry member
    rcases hentries entry member with hold | ⟨i,rfl⟩
    · exact h.armed entry hold
    · exact armed_arm _ _
  constructor
  · intro hintact
    have hbound := hstart.bounded.mp hintact.bounded
    omega
  · intro hroom
    exact ⟨hstart.bounded.mpr (by omega),hstart.armed harmed,hstart.silent.trans h.silent⟩

/-- Registration in an engine with an intact ring. -/
theorem registerRegion_intact_iff {engine : PMSREngine} (h : Intact engine)
    (addr size key : UInt64) : Intact (registerRegion engine addr size key) ↔
      ringSize ≤ engine.shadowRing.length ∨
        engine.shadowRing.length+1=ringSize ∧ slot addr+1=ringSize := by
  have hlength := registerRegion_length engine addr size key
  have hbound := h.bounded
  have harmed := registerRegion_armed_iff h.armed addr size key
  exact ⟨fun hintact => harmed.mp hintact.armed,
    fun hcond => ⟨by omega,harmed.mpr hcond,h.silent⟩⟩

/-- Injection keeps the ring intact. -/
theorem Intact.honey {engine : PMSREngine} (h : Intact engine) (fakeAddr key : UInt64) :
    Intact (injectHoneyIat engine fakeAddr canaryMagic key) := by
  rcases injectHoneyIat_cases engine fakeAddr key with ⟨hroom,hring,hsilent,-⟩ | hsame
  · refine ⟨?_,fun entry member => ?_,hsilent.trans h.silent⟩
    · rw [hring,List.length_append,List.length_singleton]
      omega
    · rw [hring] at member
      rcases List.mem_append.mp member with hold | hnew
      · exact h.armed entry hold
      · rw [List.mem_singleton.mp hnew]
        exact armed_arm _ key
  · rw [hsame]
    exact h

/-- Rotation keeps the ring intact. -/
theorem Intact.rotated {engine : PMSREngine} (h : Intact engine) (keys : ℕ → UInt64) :
    Intact (rotateKeys engine keys) := by
  refine ⟨?_,fun entry member => ?_,h.silent⟩
  · rw [rotateKeys,List.length_mapIdx]
    exact h.bounded
  · obtain ⟨i,hi⟩ := List.mem_iff_getElem?.mp member
    rw [rotateKeys_get,Option.map_eq_some_iff] at hi
    obtain ⟨old,hold,rfl⟩ := hi
    exact (h.armed old (List.mem_of_getElem? hold)).rotated (keys i)

/-- A pass over an intact ring whose content hashes are current reports
nothing and keeps it intact. -/
theorem Intact.checked {engine : PMSREngine} (h : Intact engine) (snapshot : Snapshot engine)
    (keys : ℕ → UInt64) :
    (monitorPass engine keys).2=[] ∧ Intact (monitorPass engine keys).1 := by
  have hquiet : ∀ i entry,engine.shadowRing[i]?=some entry →
      checkEntry engine.memory (keys i) i entry=(entry,[]) := by
    intro i entry hi
    have member := List.mem_of_getElem? hi
    exact (h.armed entry member).quiet (snapshot entry member) (keys i) i
  have hnone : (monitorPass engine keys).2=[] := by
    refine List.eq_nil_iff_forall_not_mem.mpr fun violation member => ?_
    obtain ⟨i,entry,hi,hviolation⟩ := mem_monitorPass.mp member
    rw [hquiet i entry hi] at hviolation
    exact List.not_mem_nil hviolation
  have hring : (monitorPass engine keys).1.shadowRing=engine.shadowRing := by
    refine List.ext_getElem? fun i => ?_
    rw [monitorPass_get]
    cases hi : engine.shadowRing[i]? with
    | none => rfl
    | some entry => rw [Option.map_some,hquiet i entry hi]
  have hdelivered : (monitorPass engine keys).1.delivered=
      engine.delivered++(monitorPass engine keys).2.map emitThreat := rfl
  refine ⟨hnone,hring ▸ h.bounded,hring ▸ h.armed,?_⟩
  rw [hdelivered,hnone,h.silent]
  rfl

/-- A registration leaves all content hashes current. -/
theorem Snapshot.register {engine : PMSREngine} (h : Snapshot engine) (addr size key : UInt64) :
    Snapshot (registerRegion engine addr size key) := by
  obtain ⟨written,-,hcurrent,hring⟩ := registerRegion_writes engine addr size key
  intro entry member
  rw [hring] at member
  rcases List.mem_or_eq_of_mem_set member with hold | rfl
  · rcases List.mem_append.mp hold with hold | hzero
    · exact h entry hold
    · rw [List.eq_of_mem_replicate hzero]
      exact .inl rfl
  · exact hcurrent

/-- So does an injection. -/
theorem Snapshot.honey {engine : PMSREngine} (h : Snapshot engine) (fakeAddr key : UInt64) :
    Snapshot (injectHoneyIat engine fakeAddr canaryMagic key) := by
  rcases injectHoneyIat_cases engine fakeAddr key with ⟨-,hring,-,hmemory⟩ | hsame
  · intro entry member
    rw [hring] at member
    rw [hmemory]
    rcases List.mem_append.mp member with hold | hnew
    · exact h entry hold
    · rw [List.mem_singleton.mp hnew]
      exact .inl rfl
  · rw [hsame]
    exact h

/-- Every call leaves all content hashes current. -/
theorem callStep_snapshot {service : Service} (h : Snapshot service.engine) (call : Call) :
    Snapshot (callStep service call).1.engine := by
  cases call with
  | start image keys =>
    rw [callStep,Service.start]
    split_ifs
    · exact h
    · refine @start_keeps Snapshot _ _ (fun _ addr size key he => he.register addr size key)
        (fun _ fakeAddr key he => he.honey fakeAddr key) ?_ image
      intro entry member
      rcases (fillRing_ring service.engine keys).2 entry member with hold | ⟨i,rfl⟩
      · exact h entry hold
      · exact .inl rfl
  | stop =>
    rw [callStep,Service.stop]
    split_ifs
    · exact fun entry member => absurd member List.not_mem_nil
    · exact h
  | registerRegion addr size key => exact Snapshot.register h addr size key
  | injectHoneyIat fakeAddr key => exact Snapshot.honey h fakeAddr key
  | rotateKeys keys =>
    intro entry member
    obtain ⟨i,hi⟩ := List.mem_iff_getElem?.mp member
    rw [callStep] at hi
    dsimp only at hi
    rw [rotateKeys_get,Option.map_eq_some_iff] at hi
    obtain ⟨old,hold,rfl⟩ := hi
    exact (h old (List.mem_of_getElem? hold)).same (sameRegion_arm old _ _)
  | monitorPass keys =>
    rw [callStep]
    split_ifs
    · intro entry member
      obtain ⟨i,hi⟩ := List.mem_iff_getElem?.mp member
      rw [monitorPass_get,Option.map_eq_some_iff] at hi
      obtain ⟨old,hold,rfl⟩ := hi
      exact (h old (List.mem_of_getElem? hold)).checked (keys i) i
    · exact h

/-- A call keeps the ring intact exactly when the ring is prepared for it. -/
theorem callStep_intact_iff {service : Service} (snapshot : Snapshot service.engine)
    (h : Intact service.engine) (call : Call) :
    Intact (callStep service call).1.engine ↔ Prepared service call := by
  cases call with
  | start image keys =>
    rw [callStep,Prepared,Service.start]
    split_ifs with hrunning
    · exact iff_of_true h (.inl hrunning)
    · exact (start_intact_iff h image keys).trans (or_iff_right hrunning).symm
  | stop =>
    rw [callStep,Service.stop]
    refine iff_of_true ?_ trivial
    split_ifs
    · exact ⟨Nat.zero_le _,fun entry member => absurd member List.not_mem_nil,h.silent⟩
    · exact h
  | registerRegion addr size key => exact registerRegion_intact_iff h addr size key
  | injectHoneyIat fakeAddr key => exact iff_of_true (h.honey fakeAddr key) trivial
  | rotateKeys keys => exact iff_of_true (h.rotated keys) trivial
  | monitorPass keys =>
    rw [callStep]
    refine iff_of_true ?_ trivial
    split_ifs
    · exact (h.checked snapshot keys).2
    · exact h

/-- In every sequence of calls on a new engine and without attacker writes,
the ring keeps within two capacities, every entry stays armed and no violation
is reported, if and only if every `start` that takes effect meets a ring of at
most one capacity and no `register_region` leaves a zeroed entry it has added. -/
theorem ring_intact_iff {memory : Memory} {events : List CallEvent} {service : Service}
    (run : Run (Deterministic callStep) ⟨create memory,false⟩ events service) :
    (∀ e ∈ events,Intact e.after.engine) ↔ ∀ e ∈ events,Prepared e.before e.label.1 := by
  refine run.forall_after_iff (fun s => Snapshot s.engine) (fun s => Intact s.engine)
    (fun s label => Prepared s label.1) ?_ ?_ ?_ ?_
  · exact fun entry member => absurd member List.not_mem_nil
  · intro s label t snapshot hstep
    have hkept := callStep_snapshot snapshot label.1
    rw [hstep] at hkept
    exact hkept
  · exact ⟨Nat.zero_le _,fun entry member => absurd member List.not_mem_nil,rfl⟩
  · intro s label t snapshot intact hstep
    have hiff := callStep_intact_iff snapshot intact label.1
    rw [hstep] at hiff
    exact hiff

/-- Starting, rotating, checking and stopping a new engine. -/
theorem started_ring_intact :
    (execute callStep ⟨create (codePages 0),false⟩ [.start none fun _ => 3,
      .injectHoneyIat 0x1000 5,.rotateKeys fun _ => 9,.monitorPass fun _ => 11,.stop]).1.length=5 ∧
    ∀ e ∈ (execute callStep ⟨create (codePages 0),false⟩ [.start none fun _ => 3,
      .injectHoneyIat 0x1000 5,.rotateKeys fun _ => 9,.monitorPass fun _ => 11,.stop]).1,
      Intact e.after.engine := by
  refine ⟨rfl,(ring_intact_iff (execute_run callStep _ _)).mpr ?_⟩
  intro e member
  rcases List.mem_cons.mp member with rfl | member
  · exact .inr (Nat.zero_le _)
  rcases List.mem_cons.mp member with rfl | member
  · trivial
  rcases List.mem_cons.mp member with rfl | member
  · trivial
  rcases List.mem_cons.mp member with rfl | member
  · trivial
  rcases List.mem_singleton.mp member with rfl
  trivial

/-- A pass reports a zeroed entry. -/
theorem zeroed_reported {engine : PMSREngine} {i : ℕ} (h : engine.shadowRing[i]?=some zeroed)
    (keys : ℕ → UInt64) : (monitorPass engine keys).2≠[] := by
  have hfails : Fails zeroed := .inl (by decide)
  obtain ⟨violation,hmember,-⟩ := checkEntry_reports engine.memory (keys i) i hfails
  exact List.ne_nil_of_mem (mem_monitorPass.mpr ⟨i,zeroed,h,hmember⟩)

/-- A new engine in which a region is registered before `start`. -/
def earlyRegistration : PMSREngine := registerRegion (create (codePages 0)) 0x1000 64 5

/-- The registration leaves zeroed entries. -/
theorem early_zeroed : earlyRegistration.shadowRing[1]?=some zeroed := by
  obtain ⟨written,-,-,hring⟩ := registerRegion_writes (create (codePages 0)) 0x1000 64 5
  have hslot : slot 0x1000≠1 := by decide
  rw [earlyRegistration,hring,List.getElem?_set_ne hslot]
  have hroom : 1 < ringSize-(create (codePages 0)).shadowRing.length := by decide
  exact List.getElem?_replicate_of_lt hroom

/-- Registering a region before `start` leaves 255 zeroed entries, and the
first pass reports a canary violation though nobody has written to the ring. -/
theorem early_registration_reported :
    ∃ events service,Run (Deterministic callStep) ⟨create (codePages 0),false⟩ events service ∧
      (¬∀ e ∈ events,Intact e.after.engine) ∧ ∃ e ∈ events,e.label.2≠[] := by
  have hregister : Deterministic callStep ⟨create (codePages 0),false⟩
      (.registerRegion 0x1000 64 5,[]) ⟨earlyRegistration,false⟩ := rfl
  have hstart : Deterministic callStep ⟨earlyRegistration,false⟩ (.start none fun _ => 3,[])
      ⟨ShadowRing.start earlyRegistration none fun _ => 3,true⟩ := rfl
  have hpass : ∀ engine,Deterministic callStep ⟨engine,true⟩
      (.monitorPass fun _ => 11,(monitorPass engine fun _ => 11).2)
      ⟨(monitorPass engine fun _ => 11).1,true⟩ := fun engine => rfl
  have hzero : (ShadowRing.start earlyRegistration none fun _ => 3).shadowRing[1]?=some zeroed := by
    have hlength := (List.getElem?_eq_some_iff.mp early_zeroed).1
    exact (List.getElem?_append_left hlength).trans early_zeroed
  generalize (ShadowRing.start earlyRegistration none fun _ => 3)=started at hstart hzero
  have hreported := zeroed_reported hzero fun _ => 11
  refine ⟨_,_,((Run.nil.snoc hregister).snoc hstart).snoc (hpass started),?_,_,
    List.mem_append_right _ List.mem_cons_self,hreported⟩
  intro intact
  have hfirst := intact _ (List.mem_append_left _ (List.mem_append_left _ List.mem_cons_self))
  exact absurd (hfirst.armed _ (List.mem_of_getElem? early_zeroed)) not_armed_zeroed

end Lifecycle

end Gcad.ShadowIntegrity
