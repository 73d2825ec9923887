import Gcad.PeHashCoverage
import Gcad.PeStaticAnalysis

/-!
# The PE parsers stay inside their buffers

Every stage of the static analysis returns, whatever the buffer holds: no
checked read leaves the buffer, no checked subtraction goes below zero, and
the loops end. The two Authenticode functions are written out again with
their copies and subtractions checked, and shown to be the same functions.
-/

namespace Gcad.PeSafety

open Common ByteView CheckedLoop CheckedLogic Intervals PeAuthenticode PeHashCoverage
  PeStaticAnalysis Md5

/-- The bounds test subtracts only where the difference exists. -/
theorem fitsChecked_eq (size offset length : ℕ) :
    fitsChecked size offset length=.ok (decide (fits size offset length)) := by
  unfold fitsChecked
  by_cases hle : offset ≤ size
  · rw [if_pos hle,subtract,if_pos hle]
    exact congrArg Except.ok (decide_eq_decide.mpr ⟨fun h => ⟨hle,h⟩,And.right⟩)
  · rw [if_neg hle]
    exact congrArg Except.ok (decide_eq_false fun h => hle h.1).symm

section Readers

variable {data : Bytes}

/-- Reading a 64-bit value inside the buffer. -/
theorem readU64_returns {offset : ℕ} (h : offset+8 ≤ data.length) :
    Returns (readU64 data offset) fun _ => True := by
  refine (readU32_returns (by omega)).bind fun low _ => ?_
  refine (readU32_returns (by omega)).bind fun high _ => ?_
  exact returns_pure trivial

/-- Stripping the extension subtracts from long names only. -/
theorem stripDllExt_returns (dllName : Str) : Returns (stripDllExt dllName) fun _ => True := by
  unfold stripDllExt
  dsimp only
  refine returns_ite (fun hlong => ?_) (fun _ => returns_pure trivial)
  refine (subtract_returns hlong.le).bind fun stem _ => ?_
  exact returns_ite (fun _ => returns_pure trivial) (fun _ => returns_pure trivial)

/-- The address translation subtracts inside the section only. -/
theorem rvaToOffset_returns (rva : ℕ) (sections : List PeSectionInfo) :
    Returns (rvaToOffset rva sections) fun _ => True := by
  induction sections with
  | nil => exact returns_pure trivial
  | cons sec rest ih =>
    unfold rvaToOffset
    dsimp only
    refine returns_ite (fun hinside => ?_) (fun _ => ih)
    refine (subtract_returns hinside.1).bind fun diff _ => ?_
    exact returns_ite (fun _ => returns_pure trivial) (fun _ => ih)

/-- The string reader tests its offset before every read. -/
theorem readAsciiString_returns (offset allowed : ℕ) :
    Returns (readAsciiString data offset allowed) fun _ => True := by
  induction allowed generalizing offset with
  | zero =>
    unfold readAsciiString
    refine returns_ite (fun hlt => ?_) (fun _ => returns_pure trivial)
    exact (readByte_returns hlt).bind fun _ _ => returns_pure trivial
  | succ allowed ih =>
    unfold readAsciiString
    refine returns_ite (fun hlt => ?_) (fun _ => returns_pure trivial)
    refine (readByte_returns hlt).bind fun c _ => ?_
    refine returns_ite (fun _ => returns_pure trivial) (fun _ => ?_)
    refine returns_ite (fun _ => ?_) (fun _ => returns_pure trivial)
    exact (ih (offset+1)).bind fun rest _ => returns_pure trivial

/-- Counting the bytes of a range inside the buffer. -/
theorem countBytes_returns {start size : ℕ} (h : start+size ≤ data.length) :
    Returns (countBytes data start size) fun _ => True := by
  have hloop := @forUp_returns _ (fun i (freq : List ℕ) => do
    let b ← readByte data (start+i)
    let n ← load freq b
    store freq b (n+1)) (fun _ freq => freq.length=256) 0 size (List.replicate 256 0)
    List.length_replicate
  refine (hloop ?_).mono fun _ _ => trivial
  intro i freq _ hi hfreq
  refine (readByte_returns (by omega)).bind fun b hb => ?_
  refine (load_returns (by omega)).bind fun n _ => ?_
  refine (store_returns (by omega) (n+1)).mono fun written hwritten => ?_
  exact hwritten.trans hfreq

/-- The entropy of a range inside the buffer. -/
theorem calculateEntropy_returns (shannon : List ℕ → ℕ → Double) {start size : ℕ}
    (h : start+size ≤ data.length) :
    Returns (calculateEntropy shannon data start size) fun _ => True := by
  refine returns_ite (fun _ => returns_pure trivial) (fun _ => ?_)
  exact (countBytes_returns h).bind fun freq _ => returns_pure trivial

/-- The walk to the PE signature. -/
theorem findPe_returns : Returns (findPe data) fun _ => True := by
  refine returns_ite (fun _ => returns_pure trivial) (fun hsize => ?_)
  refine (readByte_returns (by omega)).bind fun m _ => ?_
  refine (readByte_returns (by omega)).bind fun z _ => ?_
  refine returns_ite (fun _ => returns_pure trivial) (fun _ => ?_)
  refine (readU32_returns (by omega)).bind fun peOffset _ => ?_
  refine returns_ite (fun _ => returns_pure trivial) (fun hpe => ?_)
  have hroom := fits_iff.mp (not_not.mp hpe)
  have hw1 := wrap32_le (peOffset+1)
  have hw2 := wrap32_le (peOffset+2)
  have hw3 := wrap32_le (peOffset+3)
  refine (readByte_returns (by omega)).bind fun p _ => ?_
  refine (readByte_returns (by omega)).bind fun e _ => ?_
  refine (readByte_returns (by omega)).bind fun null _ => ?_
  refine (readByte_returns (by omega)).bind fun null' _ => ?_
  exact returns_ite (fun _ => returns_pure trivial) (fun _ => returns_pure trivial)

/-- The import directory is read where it fits. -/
theorem importDirectory_returns (offset : ℕ) :
    Returns (importDirectory data offset) fun _ => True := by
  refine returns_ite (fun hfits => ?_) (fun _ => returns_pure trivial)
  have hroom := fits_iff.mp hfits
  refine (readU32_returns (by omega)).bind fun rva _ => ?_
  refine (readU32_returns (by omega)).bind fun size _ => ?_
  exact returns_pure trivial

/-- The TLS directory is read where it fits. -/
theorem tlsDirectory_returns (offset : ℕ) : Returns (tlsDirectory data offset) fun _ => True := by
  refine returns_ite (fun hfits => ?_) (fun _ => returns_pure trivial)
  have hroom := fits_iff.mp hfits
  exact readU32_returns (by omega)

/-- The walk over the headers. -/
theorem readHeaders_returns (report : PeAnalysisReport) (peOffset : ℕ) :
    Returns (readHeaders data report peOffset) fun _ => True := by
  unfold readHeaders
  dsimp only
  refine returns_ite (fun _ => returns_pure trivial) (fun hfile => ?_)
  have hroom := fits_iff.mp (not_not.mp hfile)
  refine (readU16_returns (by omega)).bind fun numSections _ => ?_
  refine (readU16_returns (by omega)).bind fun optHeaderSize _ => ?_
  refine returns_ite (fun _ => returns_pure trivial) (fun hopt => ?_)
  obtain ⟨hfits,hsize⟩ := not_or.mp hopt
  have hoptional := fits_iff.mp (not_not.mp hfits)
  refine (readU16_returns (by omega)).bind fun magic _ => ?_
  refine returns_ite (fun _ => returns_pure trivial) (fun _ => ?_)
  refine returns_ite (fun _ => returns_pure trivial) (fun hentry => ?_)
  have hentryRoom := fits_iff.mp (not_not.mp hentry)
  refine (readU32_returns (by omega)).bind fun entryPoint _ => ?_
  refine (importDirectory_returns _).bind fun imports _ => ?_
  refine (tlsDirectory_returns _).bind fun tlsRva _ => ?_
  exact returns_pure trivial

/-- The entropy of a section is computed where its data fits. -/
theorem sectionEntropy_returns (shannon : List ℕ → ℕ → Double) (rawDataOffset rawDataSize : ℕ) :
    Returns (sectionEntropy shannon data rawDataOffset rawDataSize) fun _ => True := by
  refine returns_ite (fun hraw => ?_) (fun _ => returns_pure trivial)
  exact calculateEntropy_returns shannon (fits_iff.mp hraw.2)

/-- A section header inside the file. -/
theorem readSection_returns (shannon : List ℕ → ℕ → Double) {secOffset : ℕ}
    (h : secOffset+40 ≤ data.length) :
    Returns (readSection shannon data secOffset) fun _ => True := by
  refine (readSlice_returns (by omega)).bind fun nameBuf _ => ?_
  refine (readU32_returns (by omega)).bind fun virtualSize _ => ?_
  refine (readU32_returns (by omega)).bind fun virtualAddress _ => ?_
  refine (readU32_returns (by omega)).bind fun rawDataSize _ => ?_
  refine (readU32_returns (by omega)).bind fun rawDataOffset _ => ?_
  refine (readU32_returns (by omega)).bind fun characteristics _ => ?_
  refine (sectionEntropy_returns shannon _ _).bind fun entropy _ => ?_
  exact returns_pure trivial

/-- The section loop ends at the first header outside the file. -/
theorem sectionLoop_returns (shannon : List ℕ → ℕ → Double)
    {sectionTableOffset numSections i remaining : ℕ} (h : i+remaining=numSections)
    (state : PeAnalysisReport×Bool) :
    Returns (sectionLoop shannon data sectionTableOffset numSections i remaining state)
      fun _ => True := by
  induction remaining generalizing i state with
  | zero => exact returns_pure trivial
  | succ remaining ih =>
    unfold sectionLoop
    dsimp only
    refine returns_ite (fun _ => returns_pure trivial) (fun hfits => ?_)
    have hroom := fits_iff.mp (not_not.mp hfits)
    refine (readSection_returns shannon hroom).bind fun sec _ => ?_
    refine (subtract_returns (by omega)).bind fun last _ => ?_
    exact ih (by omega) _

/-- A thunk inside the file. -/
theorem readThunk_returns {is64bit : Bool} {offset : ℕ}
    (h : offset+thunkSize is64bit ≤ data.length) :
    Returns (readThunk data is64bit offset) fun _ => True := by
  cases is64bit with
  | true =>
    refine (readU64_returns h).bind fun val _ => ?_
    refine returns_ite (fun _ => returns_pure trivial) (fun _ => ?_)
    exact returns_ite (fun _ => returns_pure trivial) (fun _ => returns_pure trivial)
  | false =>
    refine (readU32_returns h).bind fun val _ => ?_
    refine returns_ite (fun _ => returns_pure trivial) (fun _ => ?_)
    exact returns_ite (fun _ => returns_pure trivial) (fun _ => returns_pure trivial)

/-- The string at any address. -/
theorem stringAt_returns (sections : List PeSectionInfo) (rva : ℕ) :
    Returns (stringAt data sections rva) fun _ => True := by
  refine (rvaToOffset_returns rva sections).bind fun offset _ => ?_
  cases offset with
  | none => exact returns_pure trivial
  | some offset => exact readAsciiString_returns offset 256

/-- The name of any thunk. -/
theorem functionName_returns (sections : List PeSectionInfo) (thunk : Thunk) :
    Returns (functionName data sections thunk) fun _ => True := by
  cases thunk with
  | stop => exact returns_pure trivial
  | ordinal number => exact returns_pure trivial
  | byName rva =>
    refine returns_ite (fun _ => ?_) (fun _ => returns_pure trivial)
    refine (rvaToOffset_returns rva sections).bind fun offset _ => ?_
    cases offset with
    | none => exact returns_pure trivial
    | some offset =>
      exact returns_ite (fun _ => readAsciiString_returns (offset+2) 256)
        (fun _ => returns_pure trivial)

/-- The thunk loop reads thunks that fit and moves on. -/
theorem thunkWalk_returns (sections : List PeSectionInfo) (is64bit : Bool) (moduleName : Str)
    (currThunk : ℕ) (imports : Imports) :
    Returns (thunkWalk data sections is64bit moduleName currThunk imports) fun _ => True := by
  induction hn : data.length-currThunk using Nat.strong_induction_on
    generalizing currThunk imports with
  | _ n ih =>
    rw [thunkWalk]
    refine returns_ite (fun hfits => ?_) (fun _ => returns_pure trivial)
    have hroom := fits_iff.mp hfits
    have hpos := thunkSize_pos is64bit
    refine (readThunk_returns hroom).bind fun thunk _ => ?_
    refine returns_ite (fun _ => returns_pure trivial) (fun _ => ?_)
    refine (functionName_returns sections thunk).bind fun name _ => ?_
    exact ih (data.length-(currThunk+thunkSize is64bit)) (by omega) _ _ rfl

/-- A descriptor inside the file. -/
theorem readDescriptor_returns (sections : List PeSectionInfo) (is64bit : Bool) {descOffset : ℕ}
    (h : descOffset+20 ≤ data.length) (imports : Imports) :
    Returns (readDescriptor data sections is64bit descOffset imports) fun _ => True := by
  refine (readU32_returns (by omega)).bind fun originalFirstThunk _ => ?_
  refine (readU32_returns (by omega)).bind fun nameRva _ => ?_
  refine (readU32_returns (by omega)).bind fun firstThunk _ => ?_
  refine returns_ite (fun _ => returns_pure trivial) (fun _ => ?_)
  refine (stringAt_returns sections nameRva).bind fun dllName _ => ?_
  refine (rvaToOffset_returns _ sections).bind fun thunkOff _ => ?_
  refine returns_ite (fun _ => returns_pure trivial) (fun _ => ?_)
  cases thunkOff with
  | none => exact returns_pure trivial
  | some offset =>
    refine (stripDllExt_returns dllName).bind fun moduleName _ => ?_
    refine (thunkWalk_returns sections is64bit moduleName offset _).bind fun walked _ => ?_
    exact returns_pure trivial

/-- The descriptor loop reads descriptors that fit and moves on. -/
theorem descriptorWalk_returns (sections : List PeSectionInfo) (is64bit : Bool) (descOffset : ℕ)
    (imports : Imports) :
    Returns (descriptorWalk data sections is64bit descOffset imports) fun _ => True := by
  induction hn : data.length-descOffset using Nat.strong_induction_on
    generalizing descOffset imports with
  | _ n ih =>
    rw [descriptorWalk]
    refine returns_ite (fun hfits => ?_) (fun _ => returns_pure trivial)
    have hroom := fits_iff.mp hfits
    refine (readDescriptor_returns sections is64bit hroom imports).bind fun next _ => ?_
    cases next with
    | none => exact returns_pure trivial
    | some next => exact ih (data.length-(descOffset+20)) (by omega) _ _ rfl

/-- The import walk. -/
theorem parseImports_returns (headers : Headers) (report : PeAnalysisReport) :
    Returns (parseImports data headers report) fun _ => True := by
  refine returns_ite (fun _ => ?_) (fun _ => returns_pure trivial)
  refine (rvaToOffset_returns headers.importRva report.sections).bind fun importOff _ => ?_
  cases importOff with
  | none => exact returns_pure trivial
  | some offset =>
    exact returns_ite (fun _ => descriptorWalk_returns _ _ _ _) (fun _ => returns_pure trivial)

/-- The import hash. -/
theorem imphashOf_returns (items : List Str) : Returns (imphashOf items) fun _ => True :=
  returns_ite (fun _ => returns_pure trivial) (fun _ => calculateMd5_returns _)

/-- The test for TLS callbacks. -/
theorem parseTls_returns (headers : Headers) (report : PeAnalysisReport) :
    Returns (parseTls data headers report) fun _ => True := by
  refine returns_ite (fun _ => ?_) (fun _ => returns_pure trivial)
  refine (rvaToOffset_returns headers.tlsRva report.sections).bind fun tlsOff _ => ?_
  cases tlsOff with
  | none => exact returns_pure trivial
  | some offset =>
    exact returns_ite (fun _ => returns_pure trivial) (fun _ => returns_pure trivial)

/-- The stages after the headers. -/
theorem analyzeImage_returns (shannon : List ℕ → ℕ → Double) (headers : Headers)
    (report : PeAnalysisReport) :
    Returns (analyzeImage shannon data headers report) fun _ => True := by
  refine (sectionLoop_returns shannon (Nat.zero_add _) _).bind fun state _ => ?_
  refine (parseImports_returns headers _).bind fun imports _ => ?_
  refine (imphashOf_returns imports.imphashItems).bind fun imphash _ => ?_
  refine (parseTls_returns headers _).bind fun finished _ => ?_
  exact returns_pure trivial

/-- The analysis of any buffer. -/
theorem analyze_returns (shannon : List ℕ → ℕ → Double) (data : Bytes) :
    Returns (analyze shannon data) fun _ => True := by
  refine findPe_returns.bind fun found _ => ?_
  cases found with
  | none => exact returns_pure trivial
  | some peOffset =>
    refine (calculateEntropy_returns shannon (Nat.zero_add _).le).bind fun overallEntropy _ => ?_
    refine (readHeaders_returns _ peOffset).bind fun walked _ => ?_
    obtain ⟨report,headers⟩ := walked
    cases headers with
    | none => exact returns_pure trivial
    | some headers => exact analyzeImage_returns shannon headers report

end Readers

section Authenticode

variable {data : Bytes}

/-- The walk to the optional header stays inside the file. -/
theorem readOptionalHeader_stays : Stays (readOptionalHeader data) (HeaderAt data) := by
  have hwalk : Stays (readOptionalHeader data) fun _ => True := by
    refine (stays_require _).bind fun _ hsize => ?_
    refine (readByte_returns (by omega)).stays.bind fun m _ => ?_
    refine (readByte_returns (by omega)).stays.bind fun z _ => ?_
    refine (stays_require _).bind fun _ _ => ?_
    refine (readU32_returns (by omega)).stays.bind fun peOffset _ => ?_
    refine (stays_require _).bind fun _ hpe => ?_
    have hroom := fits_iff.mp hpe
    have hw1 := wrap32_le (peOffset+1)
    have hw2 := wrap32_le (peOffset+2)
    have hw3 := wrap32_le (peOffset+3)
    refine (readByte_returns (by omega)).stays.bind fun p _ => ?_
    refine (readByte_returns (by omega)).stays.bind fun e _ => ?_
    refine (readByte_returns (by omega)).stays.bind fun null _ => ?_
    refine (readByte_returns (by omega)).stays.bind fun null' _ => ?_
    refine (stays_require _).bind fun _ _ => ?_
    refine (stays_require _).bind fun _ hfile => ?_
    have hfileRoom := fits_iff.mp hfile
    refine (readU16_returns (by omega)).stays.bind fun numberOfSections _ => ?_
    refine (readU16_returns (by omega)).stays.bind fun sizeOfOptionalHeader _ => ?_
    refine (stays_require _).bind fun _ hopt => ?_
    refine (stays_require _).bind fun _ hmin => ?_
    have hoptRoom := fits_iff.mp hopt
    refine (readU16_returns (by omega)).stays.bind fun magic _ => ?_
    have hbase : Stays (dataDirBase magic) fun _ => True := by
      unfold dataDirBase
      refine stays_ite (fun _ => trivial) (fun _ => ?_)
      exact stays_ite (fun _ => trivial) (fun _ => stays_rejected)
    exact hbase.bind fun base _ => stays_pure trivial
  exact stays_of hwalk fun header hok => readOptionalHeader_eq_ok.mp hok

/-- The section loop of the hash function reads headers of the table. -/
theorem readSections_stays {table i remaining : ℕ}
    (h : table+(i+remaining)*sectionHeaderSize ≤ data.length) :
    Stays (readSections data table i remaining) fun _ => True := by
  unfold sectionHeaderSize at h
  induction remaining generalizing i with
  | zero => exact stays_pure trivial
  | succ remaining ih =>
    unfold readSections
    dsimp only
    unfold sectionHeaderSize
    refine (readU32_returns (by omega)).stays.bind fun rawSize _ => ?_
    refine (readU32_returns (by omega)).stays.bind fun rawPtr _ => ?_
    refine stays_ite (fun _ => ih (by omega)) (fun _ => ?_)
    refine (stays_require _).bind fun _ _ => ?_
    exact (ih (by omega)).bind fun rest _ => stays_pure trivial

/-- The header walk of the hash function stays inside the file. -/
theorem readLayout_stays :
    Stays (readLayout data) fun layout => ∃ header,LayoutAt data header layout := by
  have hwalk : Stays (readLayout data) fun _ => True := by
    refine readOptionalHeader_stays.bind fun header _ => ?_
    refine (stays_require _).bind fun _ _ => ?_
    refine (stays_require _).bind fun _ hheaders => ?_
    have hheadersRoom := fits_iff.mp hheaders
    refine (readU32_returns (by omega)).stays.bind fun sizeOfHeaders _ => ?_
    refine (stays_require _).bind fun _ _ => ?_
    refine (stays_require _).bind fun _ _ => ?_
    refine (stays_require _).bind fun _ hentry => ?_
    have hentryRoom := fits_iff.mp hentry
    refine (stays_require _).bind fun _ _ => ?_
    refine (readU32_returns (by omega)).stays.bind fun certTableOffset _ => ?_
    refine (readU32_returns (by omega)).stays.bind fun certTableSize _ => ?_
    refine (stays_require _).bind fun _ _ => ?_
    refine (stays_require _).bind fun _ htable => ?_
    have htableRoom := fits_iff.mp htable
    refine (stays_require _).bind fun _ _ => ?_
    refine (readSections_stays (by rw [Nat.zero_add]; exact htableRoom)).bind fun sections _ => ?_
    exact stays_pure trivial
  exact stays_of hwalk fun layout hok => readLayout_eq_ok.mp hok

/-- The bytes from one offset up to another. -/
def between (data : Bytes) (start stop : ℕ) : Checked Bytes := do
  let length ← subtract stop start
  readSlice data start length

/-- The bytes of several ranges. -/
def readRanges (data : Bytes) : List Range → Checked (List Bytes)
  | [] => .ok []
  | r::rest => do
    let block ← readSlice data r.offset r.length
    let blocks ← readRanges data rest
    return block::blocks

/-- The calls of `ctx.update`, each with its subtraction and its reads. -/
def hashedBlocks (sorter : SectionSort) (data : Bytes) (layout : Layout) :
    Checked (List Bytes) := do
  let first ← readSlice data 0 layout.checksumOffset
  let second ← between data (layout.checksumOffset+4) layout.securityDirEntryOffset
  let third ← between data (layout.securityDirEntryOffset+8) layout.sizeOfHeaders
  let sections := sorter.sort layout.sections
  let bodies ← readRanges data sections
  let extraDataStart := furthest layout.sizeOfHeaders sections
  if extraDataStart < extraDataEnd data.length layout then do
    require (extraDataEnd data.length layout ≤ data.length)
    let extra ← between data extraDataStart (extraDataEnd data.length layout)
    return [first,second,third]++bodies++[extra]
  else return [first,second,third]++bodies

/-- `compute_authenticode_pe_hash_sha256` with every copy and subtraction
checked. -/
def computeChecked {σ δ : Type} (sha256 : HashContext σ δ) (sorter : SectionSort)
    (data : Bytes) : Checked δ := do
  let layout ← readLayout data
  let blocks ← hashedBlocks sorter data layout
  return sha256.finalize (blocks.foldl sha256.update sha256.initial)

/-- `extract_authenticode_signature` with its copy and its subtraction
checked. -/
def extractChecked (data : Bytes) : Checked Bytes := do
  let header ← readOptionalHeader data
  let securityDirEntryOffset := header.optHeaderOffset+header.dataDirBase+4*8
  require (fits data.length securityDirEntryOffset 8)
  let certTableOffset ← readU32 data securityDirEntryOffset
  let certTableSize ← readU32 data (securityDirEntryOffset+4)
  require (certTableSize≠0)
  require (8 ≤ certTableSize)
  require (fits data.length certTableOffset certTableSize)
  let wcLength ← readU32 data certTableOffset
  let wcCertType ← readU16 data (wrap32 (certTableOffset+6))
  require (wcCertType=0x0002)
  require (8 ≤ wcLength ∧ wcLength ≤ certTableSize)
  let pkcs7Offset := wrap32 (certTableOffset+8)
  let pkcs7Size ← subtract wcLength 8
  require (fits data.length pkcs7Offset pkcs7Size)
  readSlice data pkcs7Offset pkcs7Size

/-- A range between two offsets inside the file. -/
theorem between_eq {start stop : ℕ} (hle : start ≤ stop) (h : stop ≤ data.length) :
    between data start stop=.ok (slice data start (stop-start)) := by
  rw [between,bind_eq_ok]
  exact ⟨_,if_pos hle,readSlice_eq_ok.mpr ⟨by omega,rfl⟩⟩

/-- Ranges inside the file. -/
theorem readRanges_eq {ranges : List Range} (h : ∀ r ∈ ranges,r.stop ≤ data.length) :
    readRanges data ranges=.ok (ranges.map fun r => slice data r.offset r.length) := by
  induction ranges with
  | nil => rfl
  | cons r rest ih =>
    have hfirst : readSlice data r.offset r.length=.ok (slice data r.offset r.length) :=
      readSlice_eq_ok.mpr ⟨h r List.mem_cons_self,rfl⟩
    rw [readRanges,hfirst,ih fun r' member => h r' (List.mem_cons_of_mem _ member)]
    rfl

/-- The updates of an accepted file copy ranges of the file. -/
theorem hashedBlocks_eq (sorter : SectionSort) {header : OptionalHeader} {layout : Layout}
    (h : LayoutAt data header layout) :
    hashedBlocks sorter data layout=updateBlocks sorter data := by
  have hbefore := checksum_before_entry h
  have hentry := h.entryRoom
  have hroom := h.headersRoom
  have hend : extraDataEnd data.length layout ≤ data.length := by
    have hcert := h.certRoom
    unfold extraDataEnd
    split <;> omega
  have hsections : ∀ r ∈ sorter.sort layout.sections,r.stop ≤ data.length := fun r member =>
    (readSections_mem h.sections r ((sorter.perm _).mem_iff.mp member)).2
  have hfirst : readSlice data 0 layout.checksumOffset=.ok (slice data 0 layout.checksumOffset) :=
    readSlice_eq_ok.mpr ⟨by omega,rfl⟩
  have hsame := furthest_perm layout.sizeOfHeaders (sorter.perm layout.sections)
  rw [updateBlocks_eq sorter h,hashedBlocks,hfirst,between_eq hbefore (by omega),
    between_eq hentry hroom]
  dsimp only [bind,Except.bind]
  rw [readRanges_eq hsections,hsame]
  unfold extraRanges
  dsimp only
  rw [List.map_append,List.map_append]
  by_cases hextra : furthest layout.sizeOfHeaders layout.sections < extraDataEnd data.length layout
  · rw [if_pos hextra,if_pos hextra,require,if_pos hend]
    dsimp only
    rw [between_eq hextra.le hend]
    rfl
  · rw [if_neg hextra,if_neg hextra,List.map_nil,List.append_nil]
    rfl

/-- The checked hash function is the hash function. -/
theorem computeChecked_eq {σ δ : Type} (sha256 : HashContext σ δ) (sorter : SectionSort)
    (data : Bytes) :
    computeChecked sha256 sorter data=computeAuthenticodePeHashSha256 sha256 sorter data := by
  cases hread : readLayout data with
  | error fault =>
    rw [computeChecked,computeAuthenticodePeHashSha256,updateBlocks,hread]
    rfl
  | ok layout =>
    obtain ⟨header,h⟩ := readLayout_eq_ok.mp hread
    rw [computeChecked,computeAuthenticodePeHashSha256,hread,←hashedBlocks_eq sorter h]
    rfl

/-- The hash function stays inside the file. -/
theorem computeChecked_stays {σ δ : Type} (sha256 : HashContext σ δ) (sorter : SectionSort)
    (data : Bytes) : Stays (computeChecked sha256 sorter data) fun _ => True := by
  refine readLayout_stays.bind fun layout hlayout => ?_
  obtain ⟨header,h⟩ := hlayout
  rw [hashedBlocks_eq sorter h,updateBlocks_eq sorter h]
  exact trivial

/-- The checked extraction is the extraction. -/
theorem extractChecked_eq (data : Bytes) : extractChecked data=extractAuthenticodeSignature data := by
  unfold extractChecked extractAuthenticodeSignature
  refine bind_congr_ok fun header _ => bind_congr_ok fun _ _ => ?_
  refine bind_congr_ok fun certTableOffset _ => bind_congr_ok fun certTableSize _ => ?_
  refine bind_congr_ok fun _ _ => bind_congr_ok fun _ _ => bind_congr_ok fun _ _ => ?_
  refine bind_congr_ok fun wcLength _ => bind_congr_ok fun wcCertType _ => ?_
  refine bind_congr_ok fun _ _ => bind_congr_ok fun _ hlength => ?_
  have hmin := (require_eq_ok.mp hlength).1
  have hsize : subtract wcLength 8=.ok (wcLength-8) := if_pos hmin
  rw [hsize]
  dsimp only
  rw [bind_of_ok rfl]
  refine bind_congr_ok fun _ hfits => ?_
  exact readSlice_eq_ok.mpr ⟨fits_iff.mp (require_eq_ok.mp hfits),rfl⟩

/-- The extraction stays inside the file. -/
theorem extractChecked_stays (data : Bytes) : Stays (extractChecked data) fun _ => True := by
  refine readOptionalHeader_stays.bind fun header _ => ?_
  refine (stays_require _).bind fun _ hentry => ?_
  have hentryRoom := fits_iff.mp hentry
  refine (readU32_returns (by omega)).stays.bind fun certTableOffset _ => ?_
  refine (readU32_returns (by omega)).stays.bind fun certTableSize _ => ?_
  refine (stays_require _).bind fun _ _ => ?_
  refine (stays_require _).bind fun _ hmin => ?_
  refine (stays_require _).bind fun _ htable => ?_
  have htableRoom := fits_iff.mp htable
  have hwrap := wrap32_le (certTableOffset+6)
  refine (readU32_returns (by omega)).stays.bind fun wcLength _ => ?_
  refine (readU16_returns (by omega)).stays.bind fun wcCertType _ => ?_
  refine (stays_require _).bind fun _ _ => ?_
  refine (stays_require _).bind fun _ hlength => ?_
  refine (subtract_returns hlength.1).stays.bind fun pkcs7Size _ => ?_
  refine (stays_require _).bind fun _ hfits => ?_
  exact (readSlice_stays (fits_iff.mp hfits)).mono fun _ _ => trivial

end Authenticode

/-- For every buffer: the static analysis returns, so all its reads lie
inside the buffer, no subtraction goes below zero and all loops end; the two
Authenticode functions never leave the buffer nor subtract below zero; and
the bounds test they all use subtracts only where the difference exists. -/
theorem pe_analysis_memory_safe {σ δ : Type} (shannon : List ℕ → ℕ → Double)
    (engine : PeStaticAnalysisEngine) (sha256 : HashContext σ δ) (sorter : SectionSort)
    (data : Bytes) :
    (∃ result,analyzeBuffer shannon engine data=.ok result) ∧
      (computeChecked sha256 sorter data≠.error .outOfBounds ∧
        computeChecked sha256 sorter data=computeAuthenticodePeHashSha256 sha256 sorter data) ∧
      (extractChecked data≠.error .outOfBounds ∧
        extractChecked data=extractAuthenticodeSignature data) ∧
      ∀ size offset length,
        fitsChecked size offset length=.ok (decide (fits size offset length)) := by
  refine ⟨?_,⟨?_,computeChecked_eq sha256 sorter data⟩,⟨?_,extractChecked_eq data⟩,
    fitsChecked_eq⟩
  · obtain ⟨report,hreport,-⟩ := analyze_returns shannon data
    exact ⟨_,bind_eq_ok.mpr ⟨report,hreport,rfl⟩⟩
  · exact (computeChecked_stays sha256 sorter data).ne_outOfBounds
  · exact (extractChecked_stays data).ne_outOfBounds

end Gcad.PeSafety
