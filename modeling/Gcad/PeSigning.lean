import Gcad.PeHashCoverage

/-!
# Embedding a signature in a PE image

Signing rewrites the checksum and the security directory entry and appends
a `WIN_CERTIFICATE`. None of the header fields that either walk reads lies
in the rewritten bytes, so both walks agree with the writer: the hashed
blocks stay the same and the extraction returns the embedded body.
-/

namespace Gcad.PeSigning

open ByteView Intervals PeAuthenticode PeHashCoverage

/-- A `WIN_CERTIFICATE` of the PKCS#7 type with a given body. -/
def winCertificate (revision : ℕ) (body : Bytes) : Bytes :=
  leBytes 4 (8+body.length)++leBytes 2 revision++leBytes 2 2++body

/-- New values for the checksum and the security entry. -/
def rewriteHeader (layout : Layout) (checksum entryOffset entrySize : ℕ) (data : Bytes) : Bytes :=
  writeAt (writeAt data layout.checksumOffset (leBytes 4 checksum)) layout.securityDirEntryOffset
    (leBytes 4 entryOffset++leBytes 4 entrySize)

/-- The image with a new checksum, its security entry pointing past its old
end, and the certificate appended there. -/
def embedSignature (layout : Layout) (checksum revision : ℕ) (body data : Bytes) : Bytes :=
  rewriteHeader layout checksum data.length (8+body.length) data++winCertificate revision body

/-- Length of a certificate. -/
theorem winCertificate_length (revision : ℕ) (body : Bytes) :
    (winCertificate revision body).length=8+body.length := by
  unfold winCertificate
  simp only [List.length_append,leBytes_length]

/-- The body starts eight bytes into the certificate. -/
theorem winCertificate_body (revision : ℕ) (body : Bytes) (k : ℕ) :
    (winCertificate revision body)[8+k]?=body[k]? := by
  have hlen : (leBytes 4 (8+body.length)++leBytes 2 revision++leBytes 2 2).length=8 := by
    simp only [List.length_append,leBytes_length]
  unfold winCertificate
  rw [List.getElem?_append_right (by omega),hlen,Nat.add_sub_cancel_left]

/-- The first four bytes are the length. -/
theorem winCertificate_size (revision : ℕ) (body : Bytes) {k : ℕ} (hk : k < 4) :
    (winCertificate revision body)[k]?=(leBytes 4 (8+body.length))[k]? := by
  unfold winCertificate
  rw [List.append_assoc,List.append_assoc,
    List.getElem?_append_left (by rw [leBytes_length]; exact hk)]

/-- Bytes six and seven are the type. -/
theorem winCertificate_type (revision : ℕ) (body : Bytes) {k : ℕ} (hk : k < 2) :
    (winCertificate revision body)[6+k]?=(leBytes 2 2)[k]? := by
  have hlen : (leBytes 4 (8+body.length)++leBytes 2 revision).length=6 := by
    simp only [List.length_append,leBytes_length]
  unfold winCertificate
  rw [List.append_assoc,List.getElem?_append_right (by omega),hlen,Nat.add_sub_cancel_left,
    List.getElem?_append_left (by rw [leBytes_length]; exact hk)]

/-- The section loop reads the section table alone. -/
theorem readSections_congr {data other : Bytes} {table i remaining : ℕ} {sections : List Range}
    (hlen : data.length ≤ other.length)
    (hsame : ∀ j, table+i*sectionHeaderSize ≤ j → j < table+(i+remaining)*sectionHeaderSize →
      other[j]?=data[j]?)
    (h : readSections data table i remaining=.ok sections) :
    readSections other table i remaining=.ok sections := by
  induction remaining generalizing i sections with
  | zero => exact h
  | succ remaining ih =>
    have hnext : ∀ j, table+(i+1)*sectionHeaderSize ≤ j →
        j < table+(i+1+remaining)*sectionHeaderSize → other[j]?=data[j]? := by
      intro j hlow hhigh
      unfold sectionHeaderSize at hsame hlow hhigh
      exact hsame j (by omega) (by omega)
    have hword : ∀ k,k+4 ≤ sectionHeaderSize → u32At other (table+i*sectionHeaderSize+k)=
        u32At data (table+i*sectionHeaderSize+k) := by
      intro k hk
      apply u32At_congr
      intro j hlow hhigh
      unfold sectionHeaderSize at hsame hlow hhigh hk
      exact hsame j (by omega) (by omega)
    have hsize := hword 16 (by decide)
    have hptr := hword 20 (by decide)
    unfold readSections at h ⊢
    simp only [bind_eq_ok,readU32_eq_ok,and_assoc,exists_and_left,exists_eq_left',hsize,hptr]
      at h ⊢
    obtain ⟨hroom1,hroom2,h⟩ := h
    refine ⟨by omega,by omega,?_⟩
    split at h
    · next hz =>
      rw [if_pos hz]
      exact ih hnext h
    · next hz =>
      rw [if_neg hz]
      simp only [bind_eq_ok,require_eq_ok,fits_iff,pure_eq_ok,exists_and_left,exists_const]
        at h ⊢
      obtain ⟨hfits,rest,hrest,rfl⟩ := h
      exact ⟨by omega,rest,ih hnext hrest,rfl⟩

/-- An unsigned image whose security entry lies in the optional header and
whose sections stay out of the headers, with a body that leaves all offsets
in 32 bits. -/
structure Signable (data body : Bytes) (header : OptionalHeader) (layout : Layout) : Prop where
  /-- The header walk of the hash function was accepted. -/
  accepted : LayoutAt data header layout
  /-- The security entry is empty. -/
  unsigned : layout.certTableOffset=0 ∧ layout.certTableSize=0
  /-- The security entry lies in the optional header. -/
  entry : header.dataDirBase+40 ≤ header.sizeOfOptionalHeader
  /-- No section reaches into the headers. -/
  sections : ∀ r ∈ layout.sections, layout.sizeOfHeaders ≤ r.offset
  /-- The signed file is smaller than 4 GiB. -/
  small : data.length+8+body.length < 2^32

section Rewrite

variable {data : Bytes} {header : OptionalHeader} {layout : Layout}

/-- The rewritten fields lie in the file. -/
theorem rewrite_room (h : LayoutAt data header layout) (checksum entryOffset entrySize : ℕ) :
    layout.checksumOffset+(leBytes 4 checksum).length ≤ data.length ∧
    layout.securityDirEntryOffset+(leBytes 4 entryOffset++leBytes 4 entrySize).length ≤
      (writeAt data layout.checksumOffset (leBytes 4 checksum)).length := by
  have hentry := h.entryRoom
  have hroom := h.headersRoom
  have hbefore := checksum_before_entry h
  have hfirst : layout.checksumOffset+(leBytes 4 checksum).length ≤ data.length := by
    rw [leBytes_length]
    omega
  refine ⟨hfirst,?_⟩
  rw [writeAt_length hfirst,List.length_append,leBytes_length,leBytes_length]
  omega

/-- Rewriting keeps the length. -/
theorem rewriteHeader_length (h : LayoutAt data header layout)
    (checksum entryOffset entrySize : ℕ) :
    (rewriteHeader layout checksum entryOffset entrySize data).length=data.length := by
  obtain ⟨hfirst,hsecond⟩ := rewrite_room h checksum entryOffset entrySize
  unfold rewriteHeader
  rw [writeAt_length hsecond,writeAt_length hfirst]

/-- Bytes outside the two fields stay. -/
theorem rewriteHeader_outside (h : LayoutAt data header layout)
    (checksum entryOffset entrySize : ℕ) {i : ℕ}
    (hck : i < layout.checksumOffset ∨ layout.checksumOffset+4 ≤ i)
    (hsd : i < layout.securityDirEntryOffset ∨ layout.securityDirEntryOffset+8 ≤ i) :
    (rewriteHeader layout checksum entryOffset entrySize data)[i]?=data[i]? := by
  obtain ⟨hfirst,hsecond⟩ := rewrite_room h checksum entryOffset entrySize
  unfold rewriteHeader
  rw [writeAt_outside hsecond,writeAt_outside hfirst]
  · rw [leBytes_length]
    exact hck
  · rw [List.length_append,leBytes_length,leBytes_length]
    exact hsd

/-- The security entry holds the new words. -/
theorem rewriteHeader_entry (h : LayoutAt data header layout)
    (checksum entryOffset entrySize : ℕ) {k : ℕ} (hk : k < 8) :
    (rewriteHeader layout checksum entryOffset entrySize data)[layout.securityDirEntryOffset+k]?=
      (leBytes 4 entryOffset++leBytes 4 entrySize)[k]? := by
  obtain ⟨-,hsecond⟩ := rewrite_room h checksum entryOffset entrySize
  unfold rewriteHeader
  apply writeAt_inside hsecond
  rw [List.length_append,leBytes_length,leBytes_length]
  exact hk

end Rewrite

section Embed

variable {data body : Bytes} {header : OptionalHeader} {layout : Layout}

/-- The signed file is longer by the certificate. -/
theorem Signable.length (h : Signable data body header layout) (checksum revision : ℕ) :
    (embedSignature layout checksum revision body data).length=data.length+8+body.length := by
  unfold embedSignature
  rw [List.length_append,winCertificate_length,rewriteHeader_length h.accepted]
  omega

/-- Old bytes outside the two fields stay. -/
theorem Signable.same (h : Signable data body header layout) (checksum revision : ℕ) {i : ℕ}
    (hi : i < data.length)
    (hck : i < layout.checksumOffset ∨ layout.checksumOffset+4 ≤ i)
    (hsd : i < layout.securityDirEntryOffset ∨ layout.securityDirEntryOffset+8 ≤ i) :
    (embedSignature layout checksum revision body data)[i]?=data[i]? := by
  unfold embedSignature
  rw [List.getElem?_append_left (by rw [rewriteHeader_length h.accepted]; exact hi),
    rewriteHeader_outside h.accepted _ _ _ hck hsd]

/-- The certificate stands at the old end. -/
theorem Signable.appended (h : Signable data body header layout) (checksum revision k : ℕ) :
    (embedSignature layout checksum revision body data)[data.length+k]?=
      (winCertificate revision body)[k]? := by
  have hlen := rewriteHeader_length h.accepted checksum data.length (8+body.length)
  unfold embedSignature
  rw [List.getElem?_append_right (by omega),hlen,Nat.add_sub_cancel_left]

/-- The security entry names the old end and the certificate's size. -/
theorem Signable.entryWords (h : Signable data body header layout) (checksum revision : ℕ) :
    u32At (embedSignature layout checksum revision body data) layout.securityDirEntryOffset=
      data.length ∧
    u32At (embedSignature layout checksum revision body data) (layout.securityDirEntryOffset+4)=
      8+body.length := by
  have hsmall := h.small
  have hentry := h.accepted.entryRoom
  have hroom := h.accepted.headersRoom
  have hword : ∀ k < 8, (embedSignature layout checksum revision body data)[
      layout.securityDirEntryOffset+k]?=
        (leBytes 4 data.length++leBytes 4 (8+body.length))[k]? := by
    intro k hk
    unfold embedSignature
    rw [List.getElem?_append_left (by rw [rewriteHeader_length h.accepted]; omega),
      rewriteHeader_entry h.accepted _ _ _ hk]
  constructor
  · apply u32At_leBytes (by omega)
    intro k hk
    rw [hword k (by omega),List.getElem?_append_left (by rw [leBytes_length]; exact hk)]
  · apply u32At_leBytes (by omega)
    intro k hk
    rw [Nat.add_assoc,hword (4+k) (by omega),
      List.getElem?_append_right (by rw [leBytes_length]; omega),leBytes_length,
      Nat.add_sub_cancel_left]

/-- Both header walks see the same optional header as before. -/
theorem Signable.headerAt (h : Signable data body header layout) (checksum revision : ℕ) :
    HeaderAt (embedSignature layout checksum revision body data) header := by
  have hlen := h.length checksum revision
  have hsmall := h.small
  have hwalk := h.accepted.walk
  have hbefore := checksum_before_entry h.accepted
  have hck := h.accepted.checksum
  have hroom := hwalk.peRoom
  have hdos := hwalk.dos
  have hoptroom := hwalk.room
  have hmin := hwalk.sizeMin
  have hoffset := hwalk.offset
  have hlow : ∀ i < layout.checksumOffset, i < data.length →
      (embedSignature layout checksum revision body data)[i]?=data[i]? :=
    fun i hi hd => h.same checksum revision hd (.inl hi) (.inl (by omega))
  have hw1 := wrap32_of_lt (show u32At data 0x3c+1 < 2^32 by omega)
  have hw2 := wrap32_of_lt (show u32At data 0x3c+2 < 2^32 by omega)
  have hw3 := wrap32_of_lt (show u32At data 0x3c+3 < 2^32 by omega)
  have hw4 := wrap32_of_lt (show u32At data 0x3c+4 < 2^32 by omega)
  have hpe : u32At (embedSignature layout checksum revision body data) 0x3c=u32At data 0x3c :=
    u32At_congr fun i _ hi => hlow i (by omega) (by omega)
  obtain ⟨-,hmz,-,hsig,-,hsections,hsize,-,-,hbase⟩ := hwalk
  rw [hw1,hw2,hw3] at hsig
  rw [hw4] at hoffset hsections hsize
  refine ⟨by omega,?_,?_,?_,?_,?_,?_,by omega,hmin,?_⟩
  · rw [byteAt_congr (hlow 0 (by omega) (by omega)),byteAt_congr (hlow 1 (by omega) (by omega))]
    exact hmz
  · rw [hpe]
    omega
  · rw [hpe,hw1,hw2,hw3,byteAt_congr (hlow _ (by omega) (by omega)),
      byteAt_congr (hlow _ (by omega) (by omega)),byteAt_congr (hlow _ (by omega) (by omega)),
      byteAt_congr (hlow _ (by omega) (by omega))]
    exact hsig
  · rw [hpe,hw4]
    exact hoffset
  · rw [hpe,hw4,u16At_congr fun i _ hi => hlow i (by omega) (by omega)]
    exact hsections
  · rw [hpe,hw4,u16At_congr fun i _ hi => hlow i (by omega) (by omega)]
    exact hsize
  · rw [u16At_congr fun i _ hi => hlow i (by omega) (by omega)]
    exact hbase

/-- The layout of the signed file differs in the security entry alone. -/
theorem Signable.layoutAt (h : Signable data body header layout) (checksum revision : ℕ) :
    LayoutAt (embedSignature layout checksum revision body data) header
      { layout with
        certTableOffset := data.length
        certTableSize := 8+body.length } := by
  have hlen := h.length checksum revision
  have hbefore := checksum_before_entry h.accepted
  have hentryPlace := h.entry
  obtain ⟨hoff,hsize⟩ := h.entryWords checksum revision
  obtain ⟨hwalk,hck,hheaders,hroom,hckroom,hentry,hentryroom,-,-,-,htable,hsections⟩ := h.accepted
  refine ⟨h.headerAt checksum revision,hck,?_,?_,hckroom,hentry,hentryroom,hoff.symm,hsize.symm,
    .inr (by dsimp only; omega),htable,?_⟩
  · rw [u32At_congr fun i _ hi => h.same checksum revision (by omega) (.inl (by omega))
      (.inl (by omega))]
    exact hheaders
  · dsimp only
    omega
  · apply readSections_congr (by omega) _ hsections
    intro j hlow hhigh
    rw [Nat.zero_add] at hhigh
    exact h.same checksum revision (by omega) (.inr (by omega)) (.inr (by omega))

/-- The same ranges are hashed before and after signing. -/
theorem Signable.extraRanges (h : Signable data body header layout) (checksum revision : ℕ) :
    extraRanges (embedSignature layout checksum revision body data).length
      { layout with
        certTableOffset := data.length
        certTableSize := 8+body.length }=PeAuthenticode.extraRanges data.length layout := by
  have hend : extraDataEnd data.length layout=data.length := by
    unfold extraDataEnd
    rw [h.unsigned.2]
    rfl
  have hend' : extraDataEnd (embedSignature layout checksum revision body data).length
      { layout with
        certTableOffset := data.length
        certTableSize := 8+body.length }=data.length := by
    unfold extraDataEnd
    rw [if_pos (by dsimp only; omega)]
  unfold PeAuthenticode.extraRanges
  rw [hend,hend']

/-- Every hashed range avoids the rewritten fields and the certificate. -/
theorem Signable.range_same (h : Signable data body header layout) (checksum revision : ℕ)
    {r : Range} (hr : r ∈ headerRanges layout ∨ r ∈ layout.sections ∨
      r ∈ PeAuthenticode.extraRanges data.length layout) {i : ℕ} (hlow : r.offset ≤ i)
    (hhigh : i < r.offset+r.length) :
    (embedSignature layout checksum revision body data)[i]?=data[i]? := by
  have hbefore := checksum_before_entry h.accepted
  have hentry := h.accepted.entryRoom
  have hroom := h.accepted.headersRoom
  rcases hr with hr | hr | hr
  · have hcover := (covered_headerRanges_iff h.accepted i).mp ⟨r,hr,hlow,hhigh⟩
    exact h.same checksum revision (by omega) (by omega) (by omega)
  · have hstart := h.sections r hr
    have hstop := (readSections_mem h.accepted.sections r hr).2
    unfold Range.stop at hstop
    exact h.same checksum revision (by omega) (.inr (by omega)) (.inr (by omega))
  · have hcover := (covered_extraRanges_iff data.length i).mp ⟨r,hr,hlow,hhigh⟩
    have hstart := le_furthest layout.sizeOfHeaders layout.sections
    unfold imageEnd extraDataEnd at hcover
    rw [h.unsigned.2,if_neg (by omega)] at hcover
    exact h.same checksum revision (by omega) (.inr (by omega)) (.inr (by omega))

/-- The same blocks are fed to the hash before and after signing. -/
theorem Signable.updateBlocks (h : Signable data body header layout) (sorter : SectionSort)
    (checksum revision : ℕ) :
    updateBlocks sorter (embedSignature layout checksum revision body data)=
      PeAuthenticode.updateBlocks sorter data := by
  rw [updateBlocks_eq sorter h.accepted,updateBlocks_eq sorter (h.layoutAt checksum revision),
    h.extraRanges checksum revision]
  apply congrArg Except.ok
  apply List.map_congr_left
  intro r hr
  rw [slice_eq_iff]
  intro i hlow hhigh
  refine h.range_same checksum revision ?_ hlow hhigh
  rw [List.mem_append,List.mem_append,(sorter.perm layout.sections).mem_iff,or_assoc] at hr
  exact hr

/-- The extraction finds the embedded body. -/
theorem Signable.extract (h : Signable data body header layout) (checksum revision : ℕ) :
    extractAuthenticodeSignature (embedSignature layout checksum revision body data)=.ok body := by
  have hlen := h.length checksum revision
  have hsmall := h.small
  have hentry := h.accepted.entry
  have hentryroom := h.accepted.entryRoom
  have hroom := h.accepted.headersRoom
  obtain ⟨hoff,hsize⟩ := h.entryWords checksum revision
  have hlength : u32At (embedSignature layout checksum revision body data) data.length=
      8+body.length := by
    apply u32At_leBytes (by omega)
    intro k hk
    rw [h.appended,winCertificate_size revision body hk]
  have htype : u16At (embedSignature layout checksum revision body data) (data.length+6)=2 := by
    apply u16At_leBytes (by decide)
    intro k hk
    rw [Nat.add_assoc,h.appended,winCertificate_type revision body hk]
  have hbody : slice (embedSignature layout checksum revision body data) (data.length+8)
      body.length=body := by
    apply List.ext_getElem?
    intro k
    rw [slice_getElem?,Nat.add_assoc,h.appended,winCertificate_body]
    split
    · rfl
    · next hk => exact (List.getElem?_eq_none (Nat.not_lt.mp hk)).symm
  have hw6 := wrap32_of_lt (show data.length+6 < 2^32 by omega)
  have hw8 := wrap32_of_lt (show data.length+8 < 2^32 by omega)
  have hwalk := readOptionalHeader_eq_ok.mpr (h.headerAt checksum revision)
  rw [hentry] at hoff hsize
  unfold extractAuthenticodeSignature
  simp only [bind_eq_ok,require_eq_ok,readU16_eq_ok,readU32_eq_ok,fits_iff,pure_eq_ok,and_assoc,
    exists_and_left,exists_eq_left',exists_const]
  refine ⟨header,hwalk,by omega,by omega,by omega,?_⟩
  rw [show 4*8=32 from rfl,hoff,hsize,hlength,hw6,hw8,htype]
  refine ⟨by omega,by omega,by omega,by omega,by omega,rfl,by omega,by omega,by omega,?_⟩
  rw [Nat.add_sub_cancel_left]
  exact hbody

end Embed

/-- Signing leaves the hash unchanged and the extraction returns what was
embedded, for every unsigned image that is accepted, whose security entry
lies in the optional header and whose sections stay out of the headers,
for any checksum, any revision and any body. -/
theorem sign_preserves_hash_and_extracts {σ δ : Type} (sha256 : HashContext σ δ)
    (sorter : SectionSort) (data body : Bytes) (digest : δ) (header : OptionalHeader)
    (layout : Layout) (checksum revision : ℕ)
    (accepted : computeAuthenticodePeHashSha256 sha256 sorter data=.ok digest)
    (hheader : readOptionalHeader data=.ok header) (hlayout : readLayout data=.ok layout)
    (unsigned : layout.certTableOffset=0 ∧ layout.certTableSize=0)
    (entry : header.dataDirBase+40 ≤ header.sizeOfOptionalHeader)
    (sections : ∀ r ∈ layout.sections, ∀ i, r.Holds i → layout.sizeOfHeaders ≤ i)
    (small : data.length+8+body.length < 2^32) :
    computeAuthenticodePeHashSha256 sha256 sorter
        (embedSignature layout checksum revision body data)=.ok digest ∧
      extractAuthenticodeSignature (embedSignature layout checksum revision body data)=
        .ok body := by
  obtain ⟨header',h⟩ := readLayout_eq_ok.mp hlayout
  have hsame : header'=header := by
    have hok := readOptionalHeader_eq_ok.mpr h.walk
    rw [hheader] at hok
    exact (Except.ok.inj hok).symm
  subst hsame
  have hsections : ∀ r ∈ layout.sections, layout.sizeOfHeaders ≤ r.offset := by
    intro r hr
    have hpos := (readSections_mem h.sections r hr).1
    exact sections r hr r.offset ⟨le_rfl,by unfold Range.stop; omega⟩
  have hsign : Signable data body header' layout := ⟨h,unsigned,entry,hsections,small⟩
  refine ⟨?_,hsign.extract checksum revision⟩
  unfold computeAuthenticodePeHashSha256
  rw [hsign.updateBlocks sorter checksum revision]
  exact accepted

/-- A three-byte body embedded in a small image with one section. -/
theorem sign_preserves_hash_fixture :
    ∃ digest layout, computeAuthenticodePeHashSha256 recordingContext .stable
        (fixtureImage 264 2 [1,2])=.ok digest ∧
      readLayout (fixtureImage 264 2 [1,2])=.ok layout ∧
      computeAuthenticodePeHashSha256 recordingContext .stable
        (embedSignature layout 77 0x200 [0x30,1,0] (fixtureImage 264 2 [1,2]))=.ok digest ∧
      extractAuthenticodeSignature
        (embedSignature layout 77 0x200 [0x30,1,0] (fixtureImage 264 2 [1,2]))=
          .ok [0x30,1,0] := by
  have hread : readLayout (fixtureImage 264 2 [1,2])=.ok ⟨152,264,216,0,0,[⟨264,2⟩]⟩ := by
    decide +kernel
  have hheader : readOptionalHeader (fixtureImage 264 2 [1,2])=.ok ⟨1,136,88,96⟩ := by
    decide +kernel
  have hlength : (fixtureImage 264 2 [1,2]).length=266 := by decide +kernel
  obtain ⟨digest,haccepted⟩ :=
    (hash_accepts_iff recordingContext .stable (fixtureImage 264 2 [1,2])).mpr ⟨_,hread⟩
  obtain ⟨hhash,hextract⟩ := sign_preserves_hash_and_extracts recordingContext .stable _
    [0x30,1,0] digest _ _ 77 0x200 haccepted hheader hread ⟨rfl,rfl⟩ (by decide) (by
      intro r hr i hi
      cases List.mem_singleton.mp hr
      exact hi.1) (by rw [hlength]; decide)
  exact ⟨digest,_,haccepted,hread,hhash,hextract⟩

end Gcad.PeSigning
