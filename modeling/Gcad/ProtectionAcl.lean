import Gcad.AclBytes

/-!
# Verification of the protection list

`SelfDefenseEngine::verify_process_protection_dacl` and the reader of the
security descriptor in front of it. What the two calls of the query function
of ntdll returned is part of the input. The verification looks for one deny
entry with one dangerous right, while the entry applied at start denies all
of them.
-/

namespace Gcad.ProtectionAcl

open ByteView CheckedLoop CheckedLogic AclBytes

/-- `PROCESS_TERMINATE`. -/
def processTerminate : ℕ := 0x0001

/-- `PROCESS_CREATE_THREAD`. -/
def processCreateThread : ℕ := 0x0002

/-- `PROCESS_VM_OPERATION`. -/
def processVmOperation : ℕ := 0x0008

/-- `PROCESS_VM_WRITE`. -/
def processVmWrite : ℕ := 0x0020

/-- `PROCESS_DUP_HANDLE`. -/
def processDupHandle : ℕ := 0x0040

/-- `PROCESS_SET_INFORMATION`. -/
def processSetInformation : ℕ := 0x0200

/-- `PROCESS_SUSPEND_RESUME`. -/
def processSuspendResume : ℕ := 0x0800

/-- `kDangerousProcessAccessMask`. -/
def dangerousProcessAccessMask : ℕ :=
  processVmWrite ||| processVmOperation ||| processCreateThread ||| processSuspendResume |||
    processSetInformation ||| processTerminate ||| processDupHandle

/-- `is_dangerous_process_access`. -/
def isDangerousProcessAccess (grantedAccess : ℕ) : Bool :=
  decide (grantedAccess &&& dangerousProcessAccessMask≠0)

/-- `sizeof(SelfRelativeSdHeader)`. -/
def selfRelativeSdHeaderSize : ℕ := 20

/-- `kSelfRelativeFlag`. -/
def selfRelativeFlag : ℕ := 0x8000

/-- What the two calls of `NtQuerySecurityObject` returned. -/
structure SecurityQuery where
  /-- The size the first call asks for. -/
  needed : UInt32
  /-- The buffer after the second call, absent when its status is an error. -/
  sdBuffer : Option Bytes
  /-- The buffer was made of the size asked for. -/
  sized : ∀ buffer,sdBuffer=some buffer → buffer.length=needed.toNat

/-- `query_dacl_bytes`, with the bytes it copies out. -/
def queryDaclBytes (query : SecurityQuery) : Checked (Option Bytes) :=
  if query.needed.toNat=0 ∨ 16*1024*1024 < query.needed.toNat then .ok none
  else
    match query.sdBuffer with
    | none => .ok none
    | some sd =>
      if sd.length < selfRelativeSdHeaderSize then .ok none
      else do
        let control ← readU16 sd 2
        if control &&& selfRelativeFlag=0 then return none
        else do
          let daclOffset ← readU32 sd 16
          if daclOffset=0 then return none
          else if sd.length ≤ daclOffset ∨ sd.length < daclOffset+aclHeaderSize then return none
          else do
            let aclSize ← readU16 sd (daclOffset+2)
            if sd.length < daclOffset+aclSize then return none
            else do
              let dacl ← readSlice sd daclOffset aclSize
              return some dacl

/-- The test of one entry. -/
def protects (entry : RawAclEntry) : Bool :=
  decide (entry.aceType=accessDeniedAceType.toNat) && isDangerousProcessAccess entry.mask

/-- The loop over the parsed entries. -/
def verifyDacl (dacl : Bytes) : Checked Bool := do
  let entries ← parseAclEntries (some dacl)
  return entries.any protects

/-- `verify_process_protection_dacl`; the query is absent when ntdll does not
offer the function. -/
def verifyProcessProtectionDacl : Option SecurityQuery → Checked Bool
  | none => .ok false
  | some query => do
    let dacl ← queryDaclBytes query
    match dacl with
    | none => return false
    | some bytes => verifyDacl bytes

/-- The parsed entries deny a right. -/
def Denies (dacl : Bytes) (right : ℕ) : Prop :=
  ∃ entries,parseAclEntries (some dacl)=.ok entries ∧ ∃ entry ∈ entries,
    entry.aceType=accessDeniedAceType.toNat ∧ entry.mask.testBit right=true

/-- The deny entries of a list together cover every dangerous right. -/
def Covered (dacl : Bytes) : Prop :=
  ∀ right,dangerousProcessAccessMask.testBit right=true → Denies dacl right

/-- No deny entry of a list has a dangerous right. -/
def Bare (dacl : Bytes) : Prop :=
  ∀ right,dangerousProcessAccessMask.testBit right=true → ¬Denies dacl right

/-- The DACL a query delivers. -/
def Delivers (query : Option SecurityQuery) (dacl : Bytes) : Prop :=
  ∃ reply,query=some reply ∧ queryDaclBytes reply=.ok (some dacl)

/-- The access mask of a deny entry that was weakened: some of the dangerous
rights, but not all. -/
def Weakened (denyMask : UInt32) : Prop :=
  denyMask.toNat &&& dangerousProcessAccessMask=denyMask.toNat ∧
    denyMask.toNat≠dangerousProcessAccessMask

/-- The reader of the descriptor stays inside its buffer. -/
theorem queryDaclBytes_returns (query : SecurityQuery) :
    Returns (queryDaclBytes query) fun _ => True := by
  refine returns_ite (fun _ => returns_pure trivial) (fun _ => ?_)
  cases hbuffer : query.sdBuffer with
  | none => exact returns_pure trivial
  | some sd =>
    have hsize : selfRelativeSdHeaderSize=20 := rfl
    have hacl : aclHeaderSize=8 := rfl
    refine returns_ite (fun _ => returns_pure trivial) (fun hroom => ?_)
    refine (readU16_returns (by omega)).bind fun control _ => ?_
    refine returns_ite (fun _ => returns_pure trivial) (fun _ => ?_)
    refine (readU32_returns (by omega)).bind fun daclOffset _ => ?_
    refine returns_ite (fun _ => returns_pure trivial) (fun _ => ?_)
    refine returns_ite (fun _ => returns_pure trivial) (fun hheader => ?_)
    refine (readU16_returns (by omega)).bind fun aclSize _ => ?_
    refine returns_ite (fun _ => returns_pure trivial) (fun hfits => ?_)
    exact (readSlice_returns (by omega)).bind fun dacl _ => returns_pure trivial

/-- A mask is dangerous when it shares a right with the dangerous ones. -/
theorem isDangerousProcessAccess_iff (granted : ℕ) : isDangerousProcessAccess granted=true ↔
    ∃ right,dangerousProcessAccessMask.testBit right=true ∧ granted.testBit right=true := by
  rw [isDangerousProcessAccess,decide_eq_true_eq]
  constructor
  · intro hshared
    obtain ⟨right,hright⟩ := Nat.exists_testBit_of_ne_zero hshared
    rw [Nat.testBit_and,Bool.and_eq_true] at hright
    exact ⟨right,hright.2,hright.1⟩
  · rintro ⟨right,hmask,hgranted⟩ hzero
    have hbit := congrArg (fun n => n.testBit right) hzero
    simp only [Nat.testBit_and,hmask,hgranted,Nat.zero_testBit] at hbit
    exact absurd hbit nofun

/-- What the parsed entries of a list deny. -/
theorem denies_iff {dacl : Bytes} {entries : List RawAclEntry}
    (h : parseAclEntries (some dacl)=.ok entries) (right : ℕ) : Denies dacl right ↔
      ∃ entry ∈ entries,entry.aceType=accessDeniedAceType.toNat ∧
        entry.mask.testBit right=true := by
  constructor
  · rintro ⟨parsed,hparsed,hdenied⟩
    rwa [Except.ok.inj (hparsed.symm.trans h)] at hdenied
  · exact fun hdenied => ⟨entries,h,hdenied⟩

/-- The verification returns, and accepts when one dangerous right is denied. -/
theorem verifyDacl_iff (dacl : Bytes) : ∃ accepted,verifyDacl dacl=.ok accepted ∧
    (accepted=true ↔ ¬Bare dacl) := by
  obtain ⟨entries,hentries,-⟩ := parseAclEntries_returns (some dacl)
  refine ⟨entries.any protects,by rw [verifyDacl,bind_of_ok hentries]; rfl,?_⟩
  simp only [Bare,not_forall,not_not,denies_iff hentries,List.any_eq_true]
  constructor
  · rintro ⟨entry,hmem,hprotects⟩
    rw [protects,Bool.and_eq_true,decide_eq_true_eq,isDangerousProcessAccess_iff] at hprotects
    obtain ⟨htype,right,hmask,hgranted⟩ := hprotects
    exact ⟨right,hmask,entry,hmem,htype,hgranted⟩
  · rintro ⟨right,hmask,entry,hmem,htype,hgranted⟩
    refine ⟨entry,hmem,?_⟩
    rw [protects,Bool.and_eq_true,decide_eq_true_eq,isDangerousProcessAccess_iff]
    exact ⟨htype,right,hmask,hgranted⟩

/-- Acceptance by the verification. -/
theorem verifyDacl_accepts (dacl : Bytes) : verifyDacl dacl=.ok true ↔ ¬Bare dacl := by
  obtain ⟨accepted,hverify,hiff⟩ := verifyDacl_iff dacl
  rw [hverify,←hiff]
  exact ⟨Except.ok.inj,congrArg Except.ok⟩

/-- A report of tampering by the verification. -/
theorem verifyDacl_reports (dacl : Bytes) : verifyDacl dacl=.ok false ↔ Bare dacl := by
  obtain ⟨accepted,hverify,hiff⟩ := verifyDacl_iff dacl
  rw [hverify,←not_iff_not,←hiff]
  exact ⟨fun h => Bool.not_eq_false _ ▸ fun hfalse => h (congrArg Except.ok hfalse),
    fun h hok => absurd (h.symm.trans (Except.ok.inj hok)) nofun⟩

/-- Only a delivered list is accepted. -/
theorem verifyProcessProtectionDacl_accepts (query : Option SecurityQuery) :
    verifyProcessProtectionDacl query=.ok true ↔
      ∃ dacl,Delivers query dacl ∧ verifyDacl dacl=.ok true := by
  cases query with
  | none =>
    constructor
    · exact fun h => absurd (Except.ok.inj h) nofun
    · rintro ⟨dacl,⟨reply,hreply,-⟩,-⟩
      exact absurd hreply nofun
  | some reply =>
    obtain ⟨read,hread,-⟩ := queryDaclBytes_returns reply
    rw [verifyProcessProtectionDacl,bind_of_ok hread]
    constructor
    · intro haccepted
      cases read with
      | none => exact absurd (Except.ok.inj haccepted) nofun
      | some dacl => exact ⟨dacl,⟨reply,rfl,hread⟩,haccepted⟩
    · rintro ⟨dacl,⟨other,hother,hdacl⟩,haccepted⟩
      rw [←Option.some.inj hother,hread] at hdacl
      rw [Except.ok.inj hdacl]
      exact haccepted

/-- A deny entry in front adds its rights to the denied ones. -/
theorem denies_extended {existing buffer : Bytes} {denyMask : UInt32}
    (h : buildAclWithPrependedDeny (some existing) denyMask=.ok buffer) (hne : buffer≠[])
    (right : ℕ) :
    Denies buffer right ↔ denyMask.toNat.testBit right=true ∨ Denies existing right := by
  obtain ⟨⟨entries,hold,hnew⟩,-⟩ := extended_acl_round_trip h hne
  rw [denies_iff hnew,denies_iff hold,List.exists_mem_cons_iff]
  exact or_congr_left ⟨And.right,fun hbit => ⟨rfl,hbit⟩⟩

/-- A weakened mask has no dangerous right only when it has no right. -/
theorem weakened_bare {denyMask : UInt32} (h : Weakened denyMask) :
    (∀ right,dangerousProcessAccessMask.testBit right=true →
      ¬denyMask.toNat.testBit right=true) ↔ denyMask=0 := by
  constructor
  · intro hnone
    have hzero : denyMask.toNat=0 := by
      rw [←h.1]
      refine Nat.zero_of_testBit_eq_false fun right => ?_
      rw [Nat.testBit_and]
      cases hmask : dangerousProcessAccessMask.testBit right with
      | false => exact Bool.and_false _
      | true => rw [Bool.eq_false_of_not_eq_true (hnone right hmask),Bool.false_and]
    exact UInt32.toNat_inj.mp hzero
  · rintro rfl right -
    exact Bool.eq_false_iff.mp (Nat.zero_testBit right)

/-- The verification accepts only lists that deny every dangerous right
exactly when the list that is read denies all of them or none of them. A
weakened deny entry is reported exactly when it denies nothing at all and the
entries behind it deny no dangerous right. -/
theorem protection_verified_iff (query : Option SecurityQuery) :
    ((verifyProcessProtectionDacl query=.ok true → ∃ dacl,Delivers query dacl ∧ Covered dacl) ↔
      ∀ dacl,Delivers query dacl → Covered dacl ∨ Bare dacl) ∧
    ∀ existing denyMask buffer,buildAclWithPrependedDeny (some existing) denyMask=.ok buffer →
      buffer≠[] → Weakened denyMask →
        (verifyDacl buffer=.ok false ↔ denyMask=0 ∧ Bare existing) := by
  constructor
  · rw [verifyProcessProtectionDacl_accepts]
    constructor
    · rintro hsound dacl ⟨reply,rfl,hdacl⟩
      by_cases hbare : Bare dacl
      · exact .inr hbare
      · obtain ⟨other,⟨again,hagain,hother⟩,hcovered⟩ :=
          hsound ⟨dacl,⟨reply,rfl,hdacl⟩,(verifyDacl_accepts dacl).mpr hbare⟩
        rw [←Option.some.inj hagain,hdacl] at hother
        rw [Option.some.inj (Except.ok.inj hother)]
        exact .inl hcovered
    · rintro hcond ⟨dacl,hdelivers,haccepted⟩
      rcases hcond dacl hdelivers with hcovered | hbare
      · exact ⟨dacl,hdelivers,hcovered⟩
      · exact absurd hbare ((verifyDacl_accepts dacl).mp haccepted)
  · intro existing denyMask buffer hbuild hne hweak
    rw [verifyDacl_reports,←weakened_bare hweak]
    simp only [Bare,denies_extended hbuild hne,not_or]
    exact forall₂_and

/-- A list without entries. -/
def emptyAcl : Bytes := [2,0,8,0,0,0,0,0]

/-- The protection list after its entry was weakened to the right to create
threads. -/
def weakenedAcl : Bytes :=
  [2,0,28,0,1,0,0,0]++[1,0,20,0,2,0,0,0]++[1,1,0,0,0,0,0,1,0,0,0,0]

/-- A self-relative descriptor with a list behind its header. -/
def descriptor (dacl : Bytes) : Bytes :=
  [1,0,4,0x80,0,0,0,0,0,0,0,0,0,0,0,0,20,0,0,0]++dacl

/-- The query that delivers the weakened list. -/
def weakenedQuery : SecurityQuery where
  needed := 48
  sdBuffer := some (descriptor weakenedAcl)
  sized := by
    rintro buffer hbuffer
    rw [←Option.some.inj hbuffer]
    rfl

/-- The weakened list is what the engine itself would build for that mask. -/
theorem weakenedAcl_built :
    buildAclWithPrependedDeny (some emptyAcl) 2=.ok weakenedAcl ∧ weakenedAcl≠[] ∧ Weakened 2 :=
  ⟨by decide +kernel,by decide,by decide,by decide⟩

/-- The weakened list does not deny the right to terminate the process. -/
theorem weakenedAcl_open : ¬Denies weakenedAcl 0 := by
  have hparse : parseAclEntries (some weakenedAcl)=.ok [⟨1,2⟩] := by decide +kernel
  rw [denies_iff hparse]
  decide

/-- A deny entry with one of the seven rights is enough to be accepted, so
verification is not sound, and weakening the entry is not reported. -/
theorem weakened_protection_accepted :
    ¬∀ query,verifyProcessProtectionDacl query=.ok true →
      ∃ dacl,Delivers query dacl ∧ Covered dacl := by
  intro hsound
  have hread : queryDaclBytes weakenedQuery=.ok (some weakenedAcl) := by decide +kernel
  have haccepted : verifyProcessProtectionDacl (some weakenedQuery)=.ok true := by decide +kernel
  obtain ⟨dacl,⟨reply,hreply,hdacl⟩,hcovered⟩ := hsound _ haccepted
  rw [←Option.some.inj hreply,hread] at hdacl
  rw [←Option.some.inj (Except.ok.inj hdacl)] at hcovered
  exact weakenedAcl_open (hcovered 0 (by decide))

/-- The weakened list is not reported: its entry still has a right. -/
theorem protection_verified_weakened :
    verifyDacl weakenedAcl=.ok false ↔ (2 : UInt32)=0 ∧ Bare emptyAcl :=
  (protection_verified_iff (some weakenedQuery)).2 emptyAcl 2 weakenedAcl weakenedAcl_built.1
    weakenedAcl_built.2.1 weakenedAcl_built.2.2

end Gcad.ProtectionAcl
