import Gcad.CheckedLogic

/-!
# Access control lists as bytes

`SelfDefenseEngine::parse_acl_entries` and `build_acl_with_prepended_deny` on
the documented layout: a header of eight bytes, then entries of a type, flags,
a 16-bit size and a 32-bit access mask, followed by an identity. Every read
and every write is checked against its buffer. The walk over the entries
depends on what is left of the buffer only, so an entry put in front of the
others moves them without changing what is parsed.
-/

namespace Gcad.AclBytes

open ByteView CheckedLoop CheckedLogic

/-- `RawAclEntry`. -/
structure RawAclEntry where
  /-- Allowed or denied. -/
  aceType : ℕ
  /-- The rights it is about. -/
  mask : ℕ
  deriving DecidableEq

/-- `sizeof(ACL)`. -/
def aclHeaderSize : ℕ := 8

/-- `sizeof(ACE_HEADER)`. -/
def aceHeaderSize : ℕ := 4

/-- `sizeof(ACCESS_MASK)`. -/
def accessMaskSize : ℕ := 4

/-- `ACL_REVISION`. -/
def aclRevision : UInt8 := 2

/-- `ACCESS_DENIED_ACE_TYPE`. -/
def accessDeniedAceType : UInt8 := 1

/-- The loop over the entries, with so many still to come. -/
def parseEntries (acl : Bytes) (offset : ℕ) : ℕ → Checked (List RawAclEntry)
  | 0 => .ok []
  | remaining+1 =>
    if acl.length < offset+aceHeaderSize then .ok []
    else do
      let aceType ← readByte acl offset
      let aceSize ← readU16 acl (offset+2)
      if aceSize < aceHeaderSize+accessMaskSize ∨ acl.length < offset+aceSize then return []
      else do
        let mask ← readU32 acl (offset+aceHeaderSize)
        let rest ← parseEntries acl (offset+aceSize) remaining
        return ⟨aceType,mask⟩::rest

/-- `parse_acl_entries`; the absent buffer is the null pointer. -/
def parseAclEntries : Option Bytes → Checked (List RawAclEntry)
  | none => .ok []
  | some acl =>
    if acl.length < aclHeaderSize then .ok []
    else do
      let aceCount ← readU16 acl 4
      parseEntries acl aclHeaderSize aceCount

/-- `everyone_sid`. -/
def everyoneSid : Bytes := [1,1,0,0,0,0,0,1]++leBytes 4 0

/-- `deny_ace_size`. -/
def denyAceSize : ℕ := aceHeaderSize+accessMaskSize+everyoneSid.length

/-- The new `ACL` header. -/
def newHeader (totalSize aceCount : ℕ) : Bytes :=
  aclRevision::0::(leBytes 2 totalSize++leBytes 2 (aceCount+1)++[0,0])

/-- The header of the new entry. -/
def denyHeader : Bytes := accessDeniedAceType::0::leBytes 2 denyAceSize

/-- The writes into the new buffer, in their order. -/
def fillBuffer (acl : Bytes) (aceCount : ℕ) (denyMask : UInt32) : Checked Bytes := do
  let totalSize := acl.length+denyAceSize
  let buffer := List.replicate totalSize (0 : UInt8)
  let buffer ← writeSlice buffer 0 (newHeader totalSize aceCount)
  let offset := aclHeaderSize
  let buffer ← writeSlice buffer offset denyHeader
  let buffer ← writeSlice buffer (offset+aceHeaderSize) (leBytes 4 denyMask.toNat)
  let buffer ← writeSlice buffer (offset+aceHeaderSize+accessMaskSize) everyoneSid
  let room ← subtract acl.length aclHeaderSize
  let existing ← readSlice acl aclHeaderSize room
  writeSlice buffer (offset+denyAceSize) existing

/-- `build_acl_with_prepended_deny`. -/
def buildAclWithPrependedDeny (existing : Option Bytes) (denyMask : UInt32) : Checked Bytes :=
  match existing with
  | none => .ok []
  | some acl =>
    if acl.length < aclHeaderSize then .ok []
    else do
      let aclSize ← readU16 acl 2
      if aclSize≠acl.length then return []
      else do
        let aceCount ← readU16 acl 4
        if aceCount=0xFFFF then return []
        else if 0xFFFF < acl.length+denyAceSize then return []
        else fillBuffer acl aceCount denyMask

section Shift

variable {a b : Bytes} {i j : ℕ}

/-- What is left of two buffers is the same. -/
structure SameRest (a b : Bytes) (i j : ℕ) : Prop where
  /-- The remaining bytes. -/
  rest : a.drop i=b.drop j
  /-- The first offset is inside. -/
  left : i ≤ a.length
  /-- The second offset is inside. -/
  right : j ≤ b.length

/-- As many bytes remain. -/
theorem SameRest.room (h : SameRest a b i j) : a.length-i=b.length-j := by
  have hlength := congrArg List.length h.rest
  rwa [List.length_drop,List.length_drop] at hlength

/-- Bytes at the same distance. -/
theorem SameRest.get (h : SameRest a b i j) (k : ℕ) : a[i+k]?=b[j+k]? := by
  rw [←List.getElem?_drop,h.rest,List.getElem?_drop]

/-- Moving on by the same number of bytes. -/
theorem SameRest.step (h : SameRest a b i j) {k : ℕ} (hk : i+k ≤ a.length) :
    SameRest a b (i+k) (j+k) := by
  have hroom := h.room
  have hleft := h.left
  have hright := h.right
  refine ⟨?_,hk,by omega⟩
  rw [←List.drop_drop,←List.drop_drop,h.rest]

/-- The walk over the entries depends on what is left of the buffer. -/
theorem parseEntries_shift (h : SameRest a b i j) (remaining : ℕ) :
    parseEntries a i remaining=parseEntries b j remaining := by
  induction remaining generalizing i j with
  | zero => rfl
  | succ remaining ih =>
    have hroom := h.room
    have hleft := h.left
    have hright := h.right
    unfold parseEntries
    by_cases hshort : a.length < i+aceHeaderSize
    · rw [if_pos hshort,if_pos (by omega)]
    · have hshort' : ¬b.length < j+aceHeaderSize := by omega
      have hfour : aceHeaderSize=4 := rfl
      have hsize : u16At a (i+2)=u16At b (j+2) := by
        unfold u16At byteAt
        rw [Nat.add_assoc i,Nat.add_assoc j,h.get,h.get]
      have htype : byteAt a i=byteAt b j :=
        congrArg (fun c : Option UInt8 => (c.getD 0).toNat) (h.get 0)
      have hra : readByte a i=.ok (byteAt a i) := readByte_eq_ok.mpr ⟨by omega,rfl⟩
      have hrb : readByte b j=.ok (byteAt a i) := readByte_eq_ok.mpr ⟨by omega,htype.symm⟩
      have hsa : readU16 a (i+2)=.ok (u16At a (i+2)) := readU16_eq_ok.mpr ⟨by omega,rfl⟩
      have hsb : readU16 b (j+2)=.ok (u16At a (i+2)) := readU16_eq_ok.mpr ⟨by omega,hsize.symm⟩
      rw [if_neg hshort,if_neg hshort',bind_of_ok hra,bind_of_ok hrb,bind_of_ok hsa,bind_of_ok hsb]
      by_cases hbad : u16At a (i+2) < aceHeaderSize+accessMaskSize ∨ a.length < i+u16At a (i+2)
      · rw [if_pos hbad,if_pos (by omega)]
      · have hmasks : accessMaskSize=4 := rfl
        have hmask : u32At a (i+aceHeaderSize)=u32At b (j+aceHeaderSize) := by
          unfold u32At byteAt
          rw [Nat.add_assoc i,Nat.add_assoc i,Nat.add_assoc i,Nat.add_assoc j,Nat.add_assoc j,
            Nat.add_assoc j,h.get,h.get,h.get,h.get]
        have hma : readU32 a (i+aceHeaderSize)=.ok (u32At a (i+aceHeaderSize)) :=
          readU32_eq_ok.mpr ⟨by omega,rfl⟩
        have hmb : readU32 b (j+aceHeaderSize)=.ok (u32At a (i+aceHeaderSize)) :=
          readU32_eq_ok.mpr ⟨by omega,hmask.symm⟩
        rw [if_neg hbad,if_neg (by omega),bind_of_ok hma,bind_of_ok hmb,ih (h.step (by omega))]

end Shift

section Reading

variable {acl : Bytes}

/-- The walk stays inside its buffer. -/
theorem parseEntries_returns (offset remaining : ℕ) :
    Returns (parseEntries acl offset remaining) fun _ => True := by
  induction remaining generalizing offset with
  | zero => exact returns_pure trivial
  | succ remaining ih =>
    have hfour : aceHeaderSize=4 := rfl
    have hmasks : accessMaskSize=4 := rfl
    refine returns_ite (fun _ => returns_pure trivial) (fun hroom => ?_)
    refine (readByte_returns (by omega)).bind fun aceType _ => ?_
    refine (readU16_returns (by omega)).bind fun aceSize _ => ?_
    refine returns_ite (fun _ => returns_pure trivial) (fun hgood => ?_)
    refine (readU32_returns (by omega)).bind fun mask _ => ?_
    exact (ih _).bind fun rest _ => returns_pure trivial

/-- `parse_acl_entries` stays inside its buffer. -/
theorem parseAclEntries_returns (acl : Option Bytes) :
    Returns (parseAclEntries acl) fun _ => True := by
  match acl with
  | none => exact returns_pure trivial
  | some acl =>
    have height : aclHeaderSize=8 := rfl
    refine returns_ite (fun _ => returns_pure trivial) (fun hroom => ?_)
    refine (readU16_returns (by omega)).bind fun aceCount _ => ?_
    exact parseEntries_returns _ _

end Reading

section Building

/-- Writing right behind the part that has been filled. -/
theorem writeSlice_fill {front bytes : Bytes} {offset n : ℕ} (hoffset : offset=front.length)
    (hn : bytes.length ≤ n) :
    writeSlice (front++List.replicate n 0) offset bytes=
      .ok (front++bytes++List.replicate (n-bytes.length) 0) := by
  subst hoffset
  have hroom : front.length+bytes.length ≤ (front++List.replicate n (0 : UInt8)).length := by
    rw [List.length_append,List.length_replicate]
    omega
  unfold writeSlice
  rw [if_pos hroom,writeAt,List.take_left,←List.drop_drop,List.drop_left,List.drop_replicate]

/-- A 16-bit value in the middle of a buffer. -/
theorem u16At_middle {front : Bytes} {value offset : ℕ} (hvalue : value < 2^16)
    (hoffset : offset=front.length) (back : Bytes) :
    u16At (front++(leBytes 2 value++back)) offset=value := by
  refine u16At_leBytes hvalue fun k hk => ?_
  rw [hoffset,List.getElem?_append_right (by omega),Nat.add_sub_cancel_left,
    List.getElem?_append_left (by rw [leBytes_length]; exact hk)]

/-- A 32-bit value in the middle of a buffer. -/
theorem u32At_middle {front : Bytes} {value offset : ℕ} (hvalue : value < 2^32)
    (hoffset : offset=front.length) (back : Bytes) :
    u32At (front++(leBytes 4 value++back)) offset=value := by
  refine u32At_leBytes hvalue fun k hk => ?_
  rw [hoffset,List.getElem?_append_right (by omega),Nat.add_sub_cancel_left,
    List.getElem?_append_left (by rw [leBytes_length]; exact hk)]

/-- The bytes of the extended list. -/
def extended (acl : Bytes) (aceCount : ℕ) (denyMask : UInt32) : Bytes :=
  newHeader (acl.length+denyAceSize) aceCount++denyHeader++leBytes 4 denyMask.toNat++
    everyoneSid++acl.drop aclHeaderSize

/-- The writes fill the buffer without gaps. -/
theorem fillBuffer_eq {acl : Bytes} (h : aclHeaderSize ≤ acl.length) (aceCount : ℕ)
    (denyMask : UInt32) :
    fillBuffer acl aceCount denyMask=.ok (extended acl aceCount denyMask) := by
  have hheader : ∀ total,(newHeader total aceCount).length=8 := fun total => rfl
  have hdeny : denyHeader.length=4 := rfl
  have hmask : (leBytes 4 denyMask.toNat).length=4 := leBytes_length 4 _
  have hsid : everyoneSid.length=12 := rfl
  have hsize : denyAceSize=20 := rfl
  have hlength : aclHeaderSize=8 := rfl
  have hace : aceHeaderSize=4 := rfl
  have hmasks : accessMaskSize=4 := rfl
  have hrest : (slice acl aclHeaderSize (acl.length-aclHeaderSize))=acl.drop aclHeaderSize := by
    rw [slice,←List.length_drop,List.take_length]
  have hread : readSlice acl aclHeaderSize (acl.length-aclHeaderSize)=
      .ok (acl.drop aclHeaderSize) := readSlice_eq_ok.mpr ⟨by omega,hrest⟩
  have hsub : subtract acl.length aclHeaderSize=.ok (acl.length-aclHeaderSize) := if_pos h
  have hdrop : (acl.drop aclHeaderSize).length=acl.length-8 := List.length_drop
  have h1 := @writeSlice_fill [] (newHeader (acl.length+denyAceSize) aceCount) 0
    (acl.length+denyAceSize) rfl (by rw [hheader]; omega)
  have h2 := @writeSlice_fill (newHeader (acl.length+denyAceSize) aceCount) denyHeader
    aclHeaderSize (acl.length+denyAceSize-8) (hheader _).symm (by omega)
  have h3 := @writeSlice_fill (newHeader (acl.length+denyAceSize) aceCount++denyHeader)
    (leBytes 4 denyMask.toNat) (aclHeaderSize+aceHeaderSize) (acl.length+denyAceSize-8-4)
    (by rw [List.length_append,hheader,hdeny,hlength,hace]) (by omega)
  have h4 := @writeSlice_fill (newHeader (acl.length+denyAceSize) aceCount++denyHeader++
    leBytes 4 denyMask.toNat) everyoneSid (aclHeaderSize+aceHeaderSize+accessMaskSize)
    (acl.length+denyAceSize-8-4-4)
    (by rw [List.length_append,List.length_append,hheader,hdeny,hmask,hlength,hace,hmasks])
    (by omega)
  have h5 := @writeSlice_fill (newHeader (acl.length+denyAceSize) aceCount++denyHeader++
    leBytes 4 denyMask.toNat++everyoneSid) (acl.drop aclHeaderSize) (aclHeaderSize+denyAceSize)
    (acl.length+denyAceSize-8-4-4-12)
    (by rw [List.length_append,List.length_append,List.length_append,hheader,hdeny,hmask,hsid,
      hlength,hsize])
    (by omega)
  rw [hheader] at h1
  rw [hdeny] at h2
  rw [hmask] at h3
  rw [hsid] at h4
  have hfull : acl.length+denyAceSize-8-4-4-12-(acl.drop aclHeaderSize).length=0 := by omega
  rw [hfull,List.replicate_zero,List.append_nil] at h5
  rw [List.nil_append,List.nil_append] at h1
  unfold fillBuffer
  dsimp only
  rw [bind_of_ok h1,bind_of_ok h2,bind_of_ok h3,bind_of_ok h4,bind_of_ok hsub,bind_of_ok hread]
  exact h5

/-- The extended list has room for one more entry. -/
theorem extended_length {acl : Bytes} (h : aclHeaderSize ≤ acl.length) (aceCount : ℕ)
    (denyMask : UInt32) : (extended acl aceCount denyMask).length=acl.length+denyAceSize := by
  have hlength : aclHeaderSize=8 := rfl
  have hsize : denyAceSize=20 := rfl
  have hheader : (newHeader (acl.length+denyAceSize) aceCount).length=8 := rfl
  have hdeny : denyHeader.length=4 := rfl
  have hsid : everyoneSid.length=12 := rfl
  rw [extended,List.length_append,List.length_append,List.length_append,List.length_append,
    hheader,hdeny,hsid,leBytes_length,List.length_drop]
  omega

/-- The extended list is parsed as the new entry and then the old ones. -/
theorem parseAclEntries_extended {acl : Bytes} (h : aclHeaderSize ≤ acl.length)
    {aceCount : ℕ} (hcount : aceCount+1 < 2^16) (hfits : acl.length+denyAceSize < 2^16)
    (denyMask : UInt32) :
    parseAclEntries (some (extended acl aceCount denyMask))=
        (do
          let rest ← parseEntries acl aclHeaderSize aceCount
          return ⟨accessDeniedAceType.toNat,denyMask.toNat⟩::rest) ∧
      readU16 (extended acl aceCount denyMask) 2=.ok (acl.length+denyAceSize) := by
  have hlength := extended_length h aceCount denyMask
  have height : aclHeaderSize=8 := rfl
  have hsize : denyAceSize=20 := rfl
  have hfour : aceHeaderSize=4 := rfl
  have hmasks : accessMaskSize=4 := rfl
  have htotal : u16At (extended acl aceCount denyMask) 2=acl.length+denyAceSize :=
    @u16At_middle [aclRevision,0] _ 2 hfits rfl _
  have hnumber : u16At (extended acl aceCount denyMask) 4=aceCount+1 :=
    @u16At_middle (aclRevision::0::leBytes 2 (acl.length+denyAceSize)) _ 4 hcount rfl _
  have htype : byteAt (extended acl aceCount denyMask) aclHeaderSize=accessDeniedAceType.toNat :=
    rfl
  have hace : u16At (extended acl aceCount denyMask) (aclHeaderSize+2)=denyAceSize :=
    @u16At_middle (newHeader (acl.length+denyAceSize) aceCount++[accessDeniedAceType,0]) _ 10
      (by decide) rfl _
  have hmask : u32At (extended acl aceCount denyMask) (aclHeaderSize+aceHeaderSize)=
      denyMask.toNat :=
    @u32At_middle (newHeader (acl.length+denyAceSize) aceCount++denyHeader) _ 12
      denyMask.toNat_lt rfl _
  have hsame : SameRest (extended acl aceCount denyMask) acl (aclHeaderSize+denyAceSize)
      aclHeaderSize := ⟨rfl,by omega,h⟩
  refine ⟨?_,by rw [←htotal]; exact readU16_eq_ok.mpr ⟨by omega,rfl⟩⟩
  have hreadCount : readU16 (extended acl aceCount denyMask) 4=.ok (aceCount+1) :=
    readU16_eq_ok.mpr ⟨by omega,hnumber⟩
  have hreadType : readByte (extended acl aceCount denyMask) aclHeaderSize=
      .ok accessDeniedAceType.toNat := readByte_eq_ok.mpr ⟨by omega,htype⟩
  have hreadSize : readU16 (extended acl aceCount denyMask) (aclHeaderSize+2)=.ok denyAceSize :=
    readU16_eq_ok.mpr ⟨by omega,hace⟩
  have hreadMask : readU32 (extended acl aceCount denyMask) (aclHeaderSize+aceHeaderSize)=
      .ok denyMask.toNat := readU32_eq_ok.mpr ⟨by omega,hmask⟩
  unfold parseAclEntries
  dsimp only
  rw [if_neg (by omega),bind_of_ok hreadCount,parseEntries,if_neg (by omega),
    bind_of_ok hreadType,bind_of_ok hreadSize,if_neg (by omega),bind_of_ok hreadMask,
    parseEntries_shift hsame]

/-- A buffer that is built is the extended list of a list whose header gives
its size. -/
theorem build_eq {acl buffer : Bytes} {denyMask : UInt32}
    (h : buildAclWithPrependedDeny (some acl) denyMask=.ok buffer) (hne : buffer≠[]) :
    aclHeaderSize ≤ acl.length ∧ u16At acl 4+1 < 2^16 ∧ acl.length+denyAceSize < 2^16 ∧
      buffer=extended acl (u16At acl 4) denyMask := by
  have hempty : ∀ x : Checked Bytes,x=.ok [] → x=.ok buffer → False := by
    intro x hx hbuffer
    exact hne (Except.ok.inj (hbuffer.symm.trans hx))
  have height : aclHeaderSize=8 := rfl
  unfold buildAclWithPrependedDeny at h
  dsimp only at h
  by_cases hshort : acl.length < aclHeaderSize
  · rw [if_pos hshort] at h
    exact (hempty _ rfl h).elim
  · have hsize : readU16 acl 2=.ok (u16At acl 2) := readU16_eq_ok.mpr ⟨by omega,rfl⟩
    have hcount : readU16 acl 4=.ok (u16At acl 4) := readU16_eq_ok.mpr ⟨by omega,rfl⟩
    rw [if_neg hshort,bind_of_ok hsize] at h
    by_cases hslice : u16At acl 2≠acl.length
    · rw [if_pos hslice] at h
      exact (hempty _ rfl h).elim
    · rw [if_neg hslice,bind_of_ok hcount] at h
      by_cases hmax : u16At acl 4=0xFFFF
      · rw [if_pos hmax] at h
        exact (hempty _ rfl h).elim
      · rw [if_neg hmax] at h
        by_cases hlong : 0xFFFF < acl.length+denyAceSize
        · rw [if_pos hlong] at h
          exact (hempty _ rfl h).elim
        · have h0 := byteAt_lt acl 4
          have h1 := byteAt_lt acl (4+1)
          have hword := u16At_eq acl 4
          rw [if_neg hlong,fillBuffer_eq (by omega)] at h
          exact ⟨by omega,by omega,by omega,(Except.ok.inj h).symm⟩

/-- Where a list is extended, it is parsed as the deny entry and then the
entries of the old list, and its header gives its length. -/
theorem extended_acl_round_trip {acl buffer : Bytes} {denyMask : UInt32}
    (h : buildAclWithPrependedDeny (some acl) denyMask=.ok buffer) (hne : buffer≠[]) :
    (∃ entries,parseAclEntries (some acl)=.ok entries ∧
        parseAclEntries (some buffer)=
          .ok (⟨accessDeniedAceType.toNat,denyMask.toNat⟩::entries)) ∧
      readU16 buffer 2=.ok buffer.length := by
  obtain ⟨hroom,hcount,hfits,rfl⟩ := build_eq h hne
  have height : aclHeaderSize=8 := rfl
  obtain ⟨hparse,hsize⟩ := parseAclEntries_extended hroom hcount hfits denyMask
  obtain ⟨entries,hentries,-⟩ := @parseEntries_returns acl aclHeaderSize (u16At acl 4)
  have hold : parseAclEntries (some acl)=.ok entries := by
    have hread : readU16 acl 4=.ok (u16At acl 4) := readU16_eq_ok.mpr ⟨by omega,rfl⟩
    unfold parseAclEntries
    dsimp only
    rw [if_neg (by omega),bind_of_ok hread]
    exact hentries
  refine ⟨⟨entries,hold,?_⟩,?_⟩
  · rw [hparse,bind_of_ok hentries]
    rfl
  · rw [hsize,extended_length hroom]

/-- A list with one entry whose size field points behind its end. -/
def truncatedAcl : Bytes := [2,0,16,0,1,0,0,0,0,0,40,0,1,0,0,0]

/-- The extended list of a list with a malformed entry. -/
theorem extended_acl_round_trip_truncated :
    (∃ entries,parseAclEntries (some truncatedAcl)=.ok entries ∧
        parseAclEntries (some (extended truncatedAcl 1 0x20))=
          .ok (⟨accessDeniedAceType.toNat,(0x20 : UInt32).toNat⟩::entries)) ∧
      readU16 (extended truncatedAcl 1 0x20) 2=.ok (extended truncatedAcl 1 0x20).length :=
  extended_acl_round_trip (by decide) (by decide)

end Building

end Gcad.AclBytes
