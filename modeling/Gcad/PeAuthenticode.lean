import Gcad.ByteView
import Gcad.Intervals
import Gcad.StableSort

/-!
# The Authenticode hash of a PE image

`compute_authenticode_pe_hash_sha256` and `extract_authenticode_signature`.
The two functions repeat the same walk to the optional header, which is one
definition here. Offsets are `size_t` values without wrapping except where
the source adds to a `uint32_t` first. The hash context is a parameter, as
is the section sort, which leaves the order of equal offsets open.
-/

namespace Gcad.PeAuthenticode

open ByteView Intervals

/-- The overflow-free bounds test `fits`. -/
def fits (size offset length : ℕ) : Prop := offset ≤ size ∧ length ≤ size-offset

instance (size offset length : ℕ) : Decidable (fits size offset length) :=
  inferInstanceAs (Decidable (_ ∧ _))

/-- The bounds test in one inequality. -/
theorem fits_iff {size offset length : ℕ} : fits size offset length ↔ offset+length ≤ size := by
  unfold fits
  omega

/-- `uint32_t` arithmetic. -/
def wrap32 (n : ℕ) : ℕ := n%2^32

/-- What both functions read up to the optional header's magic. -/
structure OptionalHeader where
  /-- The sections the file header counts. -/
  numberOfSections : ℕ
  /-- How long the optional header says it is. -/
  sizeOfOptionalHeader : ℕ
  /-- Where it starts. -/
  optHeaderOffset : ℕ
  /-- Offset of the data directory within the optional header. -/
  dataDirBase : ℕ
  deriving DecidableEq, Repr

/-- The choice of `data_dir_base` by the optional header's magic. -/
def dataDirBase (magic : ℕ) : Checked ℕ :=
  if magic=0x10b then .ok 96 else if magic=0x20b then .ok 112 else .error .rejected

/-- The common walk from the DOS header to the optional header. -/
def readOptionalHeader (data : Bytes) : Checked OptionalHeader := do
  require (64 ≤ data.length)
  let m ← readByte data 0
  let z ← readByte data 1
  require (m = 'M'.toNat ∧ z = 'Z'.toNat)
  let peOffset ← readU32 data 0x3c
  require (fits data.length peOffset 4)
  let p ← readByte data peOffset
  let e ← readByte data (wrap32 (peOffset+1))
  let null ← readByte data (wrap32 (peOffset+2))
  let null' ← readByte data (wrap32 (peOffset+3))
  require (p = 'P'.toNat ∧ e = 'E'.toNat ∧ null=0 ∧ null'=0)
  let fileHeaderOffset := wrap32 (peOffset+4)
  require (fits data.length fileHeaderOffset 20)
  let numberOfSections ← readU16 data (fileHeaderOffset+2)
  let sizeOfOptionalHeader ← readU16 data (fileHeaderOffset+16)
  let optHeaderOffset := fileHeaderOffset+20
  require (fits data.length optHeaderOffset sizeOfOptionalHeader)
  require (2 ≤ sizeOfOptionalHeader)
  let magic ← readU16 data optHeaderOffset
  let base ← dataDirBase magic
  return ⟨numberOfSections,sizeOfOptionalHeader,optHeaderOffset,base⟩

/-- `kSectionHeaderSize`. -/
def sectionHeaderSize : ℕ := 40

/-- The section loop, from an index on: empty sections are skipped and a
section outside the file rejects the image. -/
def readSections (data : Bytes) (sectionTableOffset : ℕ) : ℕ → ℕ → Checked (List Range)
  | _,0 => .ok []
  | i,remaining+1 => do
    let hdr := sectionTableOffset+i*sectionHeaderSize
    let rawSize ← readU32 data (hdr+16)
    let rawPtr ← readU32 data (hdr+20)
    if rawSize=0 then readSections data sectionTableOffset (i+1) remaining
    else do
      require (fits data.length rawPtr rawSize)
      let rest ← readSections data sectionTableOffset (i+1) remaining
      return ⟨rawPtr,rawSize⟩::rest

/-- The header fields that decide what is hashed. -/
structure Layout where
  /-- Where the checksum is. -/
  checksumOffset : ℕ
  /-- Where the headers end. -/
  sizeOfHeaders : ℕ
  /-- Where the entry of the certificate table is. -/
  securityDirEntryOffset : ℕ
  /-- Where the table itself is. -/
  certTableOffset : ℕ
  /-- How long it is. -/
  certTableSize : ℕ
  /-- Raw ranges of the nonempty sections, in table order. -/
  sections : List Range
  deriving DecidableEq, Repr

/-- The part of the hash function that reads the headers. -/
def readLayout (data : Bytes) : Checked Layout := do
  let header ← readOptionalHeader data
  let checksumOffset := header.optHeaderOffset+64
  require (fits data.length checksumOffset 4)
  let sizeOfHeadersOffset := header.optHeaderOffset+60
  require (fits data.length sizeOfHeadersOffset 4)
  let sizeOfHeaders ← readU32 data sizeOfHeadersOffset
  require (fits data.length 0 sizeOfHeaders)
  require (checksumOffset+4 ≤ sizeOfHeaders)
  let securityDirEntryOffset := header.optHeaderOffset+header.dataDirBase+4*8
  require (fits data.length securityDirEntryOffset 8)
  require (securityDirEntryOffset+8 ≤ sizeOfHeaders)
  let certTableOffset ← readU32 data securityDirEntryOffset
  let certTableSize ← readU32 data (securityDirEntryOffset+4)
  require (certTableSize=0 ∨ fits data.length certTableOffset certTableSize)
  let sectionTableOffset := header.optHeaderOffset+header.sizeOfOptionalHeader
  require (fits data.length sectionTableOffset (header.numberOfSections*sectionHeaderSize))
  require (sectionTableOffset+header.numberOfSections*sectionHeaderSize ≤ sizeOfHeaders)
  let sections ← readSections data sectionTableOffset 0 header.numberOfSections
  return ⟨checksumOffset,sizeOfHeaders,securityDirEntryOffset,certTableOffset,certTableSize,
    sections⟩

/-- `std::sort` by offset: some rearrangement in ascending order. -/
structure SectionSort where
  /-- The sorted sections. -/
  sort : List Range → List Range
  /-- Nothing is added or lost. -/
  perm : ∀ sections, (sort sections).Perm sections
  /-- Offsets ascend. -/
  sorted : ∀ sections, (sort sections).Pairwise fun a b => a.offset ≤ b.offset

/-- The stable sort is one such rearrangement. -/
def SectionSort.stable : SectionSort where
  sort sections := sections.mergeSort fun a b => decide (a.offset ≤ b.offset)
  perm sections := List.mergeSort_perm sections _
  sorted sections := StableSort.pairwise_mergeSort_rel (fun _ _ _ hab hbc => hab.trans hbc)
    (fun a b => Nat.le_total a.offset b.offset) sections

/-- Where the hashed trailing data ends. -/
def extraDataEnd (size : ℕ) (layout : Layout) : ℕ :=
  if 0 < layout.certTableSize then layout.certTableOffset else size

/-- The ranges passed to `ctx.update`, in order. -/
def updateRanges (sorter : SectionSort) (size : ℕ) (layout : Layout) : Checked (List Range) := do
  let sections := sorter.sort layout.sections
  let headers : List Range :=
    [⟨0,layout.checksumOffset⟩,
      ⟨layout.checksumOffset+4,layout.securityDirEntryOffset-(layout.checksumOffset+4)⟩,
      ⟨layout.securityDirEntryOffset+8,layout.sizeOfHeaders-(layout.securityDirEntryOffset+8)⟩]
  let extraDataStart := furthest layout.sizeOfHeaders sections
  if extraDataStart < extraDataEnd size layout then do
    require (extraDataEnd size layout ≤ size)
    return headers++sections++[⟨extraDataStart,extraDataEnd size layout-extraDataStart⟩]
  else return headers++sections

/-- The blocks of bytes passed to `ctx.update`, in order. -/
def updateBlocks (sorter : SectionSort) (data : Bytes) : Checked (List Bytes) := do
  let layout ← readLayout data
  let ranges ← updateRanges sorter data.length layout
  return ranges.map fun r => slice data r.offset r.length

/-- `compute_authenticode_pe_hash_sha256`. -/
def computeAuthenticodePeHashSha256 {σ δ : Type} (sha256 : HashContext σ δ)
    (sorter : SectionSort) (data : Bytes) : Checked δ := do
  let blocks ← updateBlocks sorter data
  return sha256.finalize (blocks.foldl sha256.update sha256.initial)

/-- `extract_authenticode_signature`. -/
def extractAuthenticodeSignature (data : Bytes) : Checked Bytes := do
  let header ← readOptionalHeader data
  let securityDirEntryOffset := header.optHeaderOffset+header.dataDirBase+4*8
  require (fits data.length securityDirEntryOffset 8)
  let certTableOffset ← readU32 data securityDirEntryOffset
  let certTableSize ← readU32 data (securityDirEntryOffset+4)
  require (certTableSize≠0)
  require (8 ≤ certTableSize)
  require (fits data.length certTableOffset certTableSize)
  let wcLength ← readU32 data certTableOffset
  let wcCertType ← readU16 data (wrap32 (certTableOffset+6))
  require (wcCertType=0x0002)
  require (8 ≤ wcLength ∧ wcLength ≤ certTableSize)
  let pkcs7Offset := wrap32 (certTableOffset+8)
  let pkcs7Size := wcLength-8
  require (fits data.length pkcs7Offset pkcs7Size)
  return slice data pkcs7Offset pkcs7Size

/-- What an accepted walk to the optional header has seen. -/
structure HeaderAt (data : Bytes) (header : OptionalHeader) : Prop where
  /-- Room for the DOS header. -/
  dos : 64 ≤ data.length
  /-- The DOS signature. -/
  mz : byteAt data 0 = 'M'.toNat ∧ byteAt data 1 = 'Z'.toNat
  /-- Room for the PE signature. -/
  peRoom : u32At data 0x3c+4 ≤ data.length
  /-- The PE signature. -/
  pe : byteAt data (u32At data 0x3c) = 'P'.toNat ∧
    byteAt data (wrap32 (u32At data 0x3c+1)) = 'E'.toNat ∧
    byteAt data (wrap32 (u32At data 0x3c+2))=0 ∧ byteAt data (wrap32 (u32At data 0x3c+3))=0
  /-- Position of the optional header. -/
  offset : header.optHeaderOffset=wrap32 (u32At data 0x3c+4)+20
  /-- Number of sections. -/
  sections : header.numberOfSections=u16At data (wrap32 (u32At data 0x3c+4)+2)
  /-- Size of the optional header. -/
  size : header.sizeOfOptionalHeader=u16At data (wrap32 (u32At data 0x3c+4)+16)
  /-- The optional header lies in the file. -/
  room : header.optHeaderOffset+header.sizeOfOptionalHeader ≤ data.length
  /-- It holds at least the magic. -/
  sizeMin : 2 ≤ header.sizeOfOptionalHeader
  /-- The magic selects the data directory. -/
  base : dataDirBase (u16At data header.optHeaderOffset)=.ok header.dataDirBase

/-- Wrapping never increases a value. -/
theorem wrap32_le (n : ℕ) : wrap32 n ≤ n := Nat.mod_le _ _

/-- A value of the word size is not changed by wrapping. -/
theorem wrap32_of_lt {n : ℕ} (h : n < 2^32) : wrap32 n=n := Nat.mod_eq_of_lt h

/-- The walk succeeds exactly on such data. -/
theorem readOptionalHeader_eq_ok {data : Bytes} {header : OptionalHeader} :
    readOptionalHeader data=.ok header ↔ HeaderAt data header := by
  unfold readOptionalHeader
  simp only [bind_eq_ok,require_eq_ok,readByte_eq_ok,readU16_eq_ok,readU32_eq_ok,fits_iff,
    pure_eq_ok,and_assoc,exists_and_left,exists_eq_left',exists_const]
  constructor
  · rintro ⟨h1,-,-,h2,h3,-,h4,-,-,-,-,h5,h6,h7,h8,-,-,-,h9,h10,-,base,h11,rfl⟩
    exact ⟨h1,⟨h2,h3⟩,h4,⟨h5,h6,h7,h8⟩,rfl,rfl,rfl,h9,h10,h11⟩
  · intro h
    obtain ⟨sections,size,offset,base⟩ := header
    obtain ⟨hdos,⟨hm,hz⟩,hpe,⟨h0,h1,h2,h3⟩,hoffset,hsections,hsize,hroom,hmin,hbase⟩ := h
    dsimp only at hoffset hsections hsize hroom hmin hbase
    subst hoffset hsections hsize
    have hw1 := wrap32_le (u32At data 0x3c+1)
    have hw2 := wrap32_le (u32At data 0x3c+2)
    have hw3 := wrap32_le (u32At data 0x3c+3)
    exact ⟨hdos,by omega,by omega,hm,hz,by omega,hpe,by omega,by omega,by omega,by omega,
      h0,h1,h2,h3,by omega,by omega,by omega,hroom,hmin,by omega,base,hbase,rfl⟩

/-- What an accepted header walk of the hash function has seen. -/
structure LayoutAt (data : Bytes) (header : OptionalHeader) (layout : Layout) : Prop where
  /-- The walk to the optional header. -/
  walk : HeaderAt data header
  /-- Position of the checksum. -/
  checksum : layout.checksumOffset=header.optHeaderOffset+64
  /-- The `SizeOfHeaders` field. -/
  headers : layout.sizeOfHeaders=u32At data (header.optHeaderOffset+60)
  /-- The headers lie in the file. -/
  headersRoom : layout.sizeOfHeaders ≤ data.length
  /-- The headers cover the checksum. -/
  checksumRoom : layout.checksumOffset+4 ≤ layout.sizeOfHeaders
  /-- Position of the security directory entry. -/
  entry : layout.securityDirEntryOffset=header.optHeaderOffset+header.dataDirBase+32
  /-- The headers cover the entry. -/
  entryRoom : layout.securityDirEntryOffset+8 ≤ layout.sizeOfHeaders
  /-- First word of the entry. -/
  certOffset : layout.certTableOffset=u32At data layout.securityDirEntryOffset
  /-- Second word of the entry. -/
  certSize : layout.certTableSize=u32At data (layout.securityDirEntryOffset+4)
  /-- A certificate table lies in the file. -/
  certRoom : layout.certTableSize=0 ∨
    layout.certTableOffset+layout.certTableSize ≤ data.length
  /-- The headers cover the section table. -/
  tableRoom : header.optHeaderOffset+header.sizeOfOptionalHeader+
    header.numberOfSections*sectionHeaderSize ≤ layout.sizeOfHeaders
  /-- The section loop. -/
  sections : readSections data (header.optHeaderOffset+header.sizeOfOptionalHeader) 0
    header.numberOfSections=.ok layout.sections

/-- The header walk of the hash function succeeds exactly on such data. -/
theorem readLayout_eq_ok {data : Bytes} {layout : Layout} :
    readLayout data=.ok layout ↔ ∃ header, LayoutAt data header layout := by
  unfold readLayout
  simp only [bind_eq_ok,require_eq_ok,readU32_eq_ok,fits_iff,readOptionalHeader_eq_ok,
    pure_eq_ok,and_assoc,exists_and_left,exists_eq_left',exists_const,Nat.zero_add]
  constructor
  · rintro ⟨header,hh,-,-,-,h1,h2,-,h3,-,-,h4,-,h5,sections,h6,rfl⟩
    exact ⟨header,hh,rfl,rfl,h1,h2,rfl,h3,rfl,rfl,h4,h5,h6⟩
  · rintro ⟨header,h⟩
    obtain ⟨checksum,headers,entry,certOffset,certSize,sections⟩ := layout
    obtain ⟨hh,hck,hsoh,hroom,hckroom,hentry,hentryroom,hoff,hsize,hcert,htable,hsections⟩ := h
    dsimp only at hck hsoh hroom hckroom hentry hentryroom hoff hsize hcert htable hsections
    subst hck hsoh hentry hoff hsize
    exact ⟨header,hh,by omega,by omega,by omega,hroom,hckroom,by omega,hentryroom,by omega,
      by omega,hcert,by omega,htable,sections,hsections,rfl⟩

/-- The data directory starts past the checksum. -/
theorem dataDirBase_ge {magic base : ℕ} (h : dataDirBase magic=.ok base) : 96 ≤ base := by
  unfold dataDirBase at h
  split_ifs at h <;> cases h <;> decide

/-- The accepted sections are nonempty and lie in the file. -/
theorem readSections_mem {data : Bytes} {table i remaining : ℕ} {sections : List Range}
    (h : readSections data table i remaining=.ok sections) :
    ∀ r ∈ sections, 0 < r.length ∧ r.stop ≤ data.length := by
  induction remaining generalizing i sections with
  | zero =>
    cases h
    exact List.forall_mem_nil _
  | succ remaining ih =>
    unfold readSections at h
    simp only [bind_eq_ok,readU32_eq_ok,and_assoc,exists_and_left,exists_eq_left'] at h
    obtain ⟨-,-,h⟩ := h
    split at h
    · exact ih h
    · next hne =>
      simp only [bind_eq_ok,require_eq_ok,fits_iff,pure_eq_ok,exists_and_left,exists_const] at h
      obtain ⟨hfits,rest,hrest,rfl⟩ := h
      intro r hr
      rcases List.mem_cons.mp hr with rfl | hr
      · exact ⟨Nat.pos_of_ne_zero hne,hfits⟩
      · exact ih hrest r hr

/-- The trailing data that is hashed, if any. -/
def extraRanges (size : ℕ) (layout : Layout) : List Range :=
  let start := furthest layout.sizeOfHeaders layout.sections
  if start < extraDataEnd size layout then [⟨start,extraDataEnd size layout-start⟩] else []

/-- The header ranges that are hashed. -/
def headerRanges (layout : Layout) : List Range :=
  [⟨0,layout.checksumOffset⟩,
    ⟨layout.checksumOffset+4,layout.securityDirEntryOffset-(layout.checksumOffset+4)⟩,
    ⟨layout.securityDirEntryOffset+8,layout.sizeOfHeaders-(layout.securityDirEntryOffset+8)⟩]

/-- The last bounds test never fails on accepted headers, so the updates
are the header ranges, the sorted sections and the trailing data. -/
theorem updateRanges_eq (sorter : SectionSort) {data : Bytes} {header : OptionalHeader}
    {layout : Layout} (h : LayoutAt data header layout) :
    updateRanges sorter data.length layout=
      .ok (headerRanges layout++sorter.sort layout.sections++extraRanges data.length layout) := by
  have hend : extraDataEnd data.length layout ≤ data.length := by
    have hcert := h.certRoom
    unfold extraDataEnd
    split <;> omega
  have hsame := furthest_perm layout.sizeOfHeaders (sorter.perm layout.sections)
  unfold updateRanges extraRanges
  dsimp only
  rw [hsame,require,if_pos hend]
  split
  · rfl
  · rw [List.append_nil]
    rfl

end Gcad.PeAuthenticode
