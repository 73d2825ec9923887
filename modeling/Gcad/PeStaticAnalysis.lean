import Gcad.Md5
import Gcad.Observation
import Gcad.PeAuthenticode

/-!
# Static analysis of PE images

`PeStaticAnalysisEngine::analyze_buffer` with everything it calls. Every
read of the buffer and every subtraction is a checked operation. Sums of
`uint32_t` values wrap, also where the result becomes a `size_t`. The
entropy of a frequency table is a parameter, because its logarithms are
floating-point library calls; the table itself is counted here. The loops
over descriptors and thunks recurse on what is left of the buffer.
-/

namespace Gcad.PeStaticAnalysis

open Common ByteView CheckedLoop CheckedLogic Observation PeAuthenticode Md5

/-- The comparison `a >= b` of doubles. -/
def ge : Double → Double → Bool
  | .nan,_ => false
  | _,.nan => false
  | .infinite false,_ => true
  | .infinite true,b => decide (b=.infinite true)
  | .finite _ _ _ _ _,.infinite negative => negative
  | .finite negative m e _ _,.finite negative' m' e' _ _ =>
    let value := (if negative then -1 else 1)*((m*2^(e+1074).toNat : ℕ) : ℤ)
    let value' := (if negative' then -1 else 1)*((m'*2^(e'+1074).toNat : ℕ) : ℤ)
    decide (value' ≤ value)

/-- The double `0.0`. -/
def zero : Double := .ofScaled false 0 0

/-- The double nearest to 7.2. -/
def seven2 : Double := .ofScaled false 0x1CCCCCCCCCCCCD (-50)

/-- The double nearest to 7.1. -/
def seven1 : Double := .ofScaled false 0x1C666666666666 (-50)

/-- The double nearest to 6.8. -/
def six8 : Double := .ofScaled false 0x1B333333333333 (-50)

/-- The nearest integer to mantissa times two to the exponent, ties to even. -/
def roundEven (mantissa : ℕ) (exponent : ℤ) : ℕ :=
  if 0 ≤ exponent then mantissa*2^exponent.toNat
  else
    let unit := 2^(-exponent).toNat
    let quotient := mantissa/unit
    let rest := mantissa%unit
    if unit < 2*rest ∨ (2*rest=unit ∧ quotient%2=1) then quotient+1 else quotient

/-- `std::fixed << std::setprecision(2)`. -/
def toFixed2 : Double → Str
  | .nan => "nan".toList
  | .infinite negative => if negative then "-inf".toList else "inf".toList
  | .finite negative mantissa exponent _ _ =>
    let hundredths := roundEven (100*mantissa) exponent
    (if negative then "-".toList else [])++toDecimal (hundredths/100)++".".toList++
      toDecimal (hundredths%100/10)++toDecimal (hundredths%10)

/-- `PeSectionInfo`. -/
structure PeSectionInfo where
  /-- The name in the section table. -/
  name : Str
  /-- Where the section is mapped. -/
  virtualAddress : ℕ
  /-- How much of memory it takes. -/
  virtualSize : ℕ
  /-- Where its bytes are in the file. -/
  rawDataOffset : ℕ
  /-- How many they are. -/
  rawDataSize : ℕ
  /-- The flags of the section. -/
  characteristics : ℕ
  /-- The entropy of its bytes. -/
  entropy : Double
  /-- It may be executed. -/
  isExecutable : Bool
  /-- It may be written. -/
  isWritable : Bool
  /-- It may be both. -/
  isWx : Bool

/-- `PeAnalysisReport`. -/
structure PeAnalysisReport where
  /-- The headers could be read. -/
  isValidPe : Bool := false
  /-- The optional header is of the 64-bit kind. -/
  is64bit : Bool := false
  /-- The address execution starts at. -/
  entryPoint : ℕ := 0
  /-- The section it lies in. -/
  entryPointSection : Str := []
  /-- It lies in none, or in the last of several. -/
  entryPointAnomaly : Bool := false
  /-- The entropy of the whole file. -/
  overallEntropy : Double := zero
  /-- A packer was recognised. -/
  isPacked : Bool := false
  /-- Which one. -/
  detectedPacker : Str := []
  /-- The section table. -/
  sections : List PeSectionInfo := []
  /-- The libraries of the import table. -/
  importedDlls : List Str := []
  /-- The functions of the import table. -/
  importedFunctions : List Str := []
  /-- Those that are on the list of dangerous ones. -/
  dangerousApis : List Str := []
  /-- The points of these. -/
  dangerousApiScore : ℕ := 0
  /-- The hash of the import table. -/
  imphash : Str := []
  /-- There are thread-local callbacks. -/
  hasTlsCallbacks : Bool := false
  /-- How many. -/
  tlsCallbackCount : ℕ := 0
  /-- The level of the whole report. -/
  assessedLevel : ThreatLevel := .safe
  /-- What raised it. -/
  threatReasons : List Str := []

/-- `fits` of the engine, with its subtraction checked. -/
def fitsChecked (size offset length : ℕ) : Checked Bool :=
  if offset ≤ size then do
    let room ← subtract size offset
    return decide (length ≤ room)
  else return false

/-- `read_u64`. -/
def readU64 (data : Bytes) (offset : ℕ) : Checked ℕ := do
  let low ← readU32 data offset
  let high ← readU32 data (offset+4)
  return low ||| high <<< 32

/-- `to_lower_ascii`. -/
def toLowerAscii (s : Str) : Str := s.map toLower

/-- `strip_dll_ext`. -/
def stripDllExt (dllName : Str) : Checked Str :=
  let s := toLowerAscii dllName
  if 4 < s.length then do
    let stem ← subtract s.length 4
    if s.drop stem = ".dll".toList then return s.take stem else return s
  else return s

/-- `rva_to_offset`. -/
def rvaToOffset (rva : ℕ) : List PeSectionInfo → Checked (Option ℕ)
  | [] => .ok none
  | sec::rest =>
    let secSize := max sec.virtualSize sec.rawDataSize
    if sec.virtualAddress ≤ rva ∧ rva < wrap32 (sec.virtualAddress+secSize) then do
      let diff ← subtract rva sec.virtualAddress
      if diff < sec.rawDataSize then return some (wrap32 (sec.rawDataOffset+diff))
      else rvaToOffset rva rest
    else rvaToOffset rva rest

/-- `read_ascii_string` with so many characters still allowed. The byte after
the last allowed one is read before the count is tested. -/
def readAsciiString (data : Bytes) : ℕ → ℕ → Checked Str
  | offset,0 =>
    if offset < data.length then do
      let _ ← readByte data offset
      return []
    else return []
  | offset,allowed+1 =>
    if offset < data.length then do
      let c ← readByte data offset
      if c=0 then return []
      else if 32 ≤ c ∧ c ≤ 126 then do
        let rest ← readAsciiString data (offset+1) allowed
        return Char.ofNat c::rest
      else return []
    else return []

/-- The loop of `calculate_entropy` that counts the bytes of a range. -/
def countBytes (data : Bytes) (start size : ℕ) : Checked (List ℕ) :=
  forUp (fun i freq => do
    let b ← readByte data (start+i)
    let n ← load freq b
    store freq b (n+1)) 0 size (List.replicate 256 0)

section Analysis

variable (shannon : List ℕ → ℕ → Double)

/-- `calculate_entropy` of a range. -/
def calculateEntropy (data : Bytes) (start size : ℕ) : Checked Double :=
  if size=0 then return zero
  else do
    let freq ← countBytes data start size
    return shannon freq size

/-- The walk up to the PE signature, which yields `pe_offset`. -/
def findPe (data : Bytes) : Checked (Option ℕ) :=
  if data.length < 64 then return none
  else do
    let m ← readByte data 0
    let z ← readByte data 1
    if m ≠ 'M'.toNat ∨ z ≠ 'Z'.toNat then return none
    else do
      let peOffset ← readU32 data 0x3C
      if ¬fits data.length peOffset 4 then return none
      else do
        let p ← readByte data peOffset
        let e ← readByte data (wrap32 (peOffset+1))
        let null ← readByte data (wrap32 (peOffset+2))
        let null' ← readByte data (wrap32 (peOffset+3))
        if p ≠ 'P'.toNat ∨ e ≠ 'E'.toNat ∨ null≠0 ∨ null'≠0 then return none
        else return some peOffset

/-- What the later stages use of the headers. -/
structure Headers where
  /-- The sections the file header counts. -/
  numSections : ℕ
  /-- Where the import table is mapped. -/
  importRva : ℕ
  /-- How long it is. -/
  importSize : ℕ
  /-- Where the thread-local directory is mapped. -/
  tlsRva : ℕ
  /-- Where the section table is in the file. -/
  sectionTableOffset : ℕ

/-- The import directory, if it is inside the file. -/
def importDirectory (data : Bytes) (offset : ℕ) : Checked (ℕ×ℕ) :=
  if fits data.length offset 8 then do
    let rva ← readU32 data offset
    let size ← readU32 data (offset+4)
    return (rva,size)
  else return (0,0)

/-- The address of the TLS directory, if its entry is inside the file. -/
def tlsDirectory (data : Bytes) (offset : ℕ) : Checked ℕ :=
  if fits data.length offset 8 then readU32 data offset else return 0

/-- The walk over the file header and the optional header. -/
def readHeaders (data : Bytes) (report : PeAnalysisReport) (peOffset : ℕ) :
    Checked (PeAnalysisReport×Option Headers) :=
  let fileHeaderOffset := wrap32 (peOffset+4)
  if ¬fits data.length fileHeaderOffset 20 then return (report,none)
  else do
    let numSections ← readU16 data (fileHeaderOffset+2)
    let optHeaderSize ← readU16 data (fileHeaderOffset+16)
    let optHeaderOffset := fileHeaderOffset+20
    if ¬fits data.length optHeaderOffset optHeaderSize ∨ optHeaderSize < 2 then
      return (report,none)
    else do
      let magic ← readU16 data optHeaderOffset
      if magic≠0x10B ∧ magic≠0x20B then return (report,none)
      else do
        let typed := { report with is64bit := decide (magic=0x20B) }
        if ¬fits data.length (optHeaderOffset+16) 4 then return (typed,none)
        else do
          let entryPoint ← readU32 data (optHeaderOffset+16)
          let dataDirOffset := optHeaderOffset+(if typed.is64bit then 112 else 96)
          let imports ← importDirectory data (dataDirOffset+8*1)
          let tlsRva ← tlsDirectory data (dataDirOffset+8*9)
          return ({ typed with entryPoint := entryPoint },
            some ⟨numSections,imports.1,imports.2,tlsRva,optHeaderOffset+optHeaderSize⟩)

/-- The entropy of the raw data of a section that lies inside the file. -/
def sectionEntropy (data : Bytes) (rawDataOffset rawDataSize : ℕ) : Checked Double :=
  if 0 < rawDataSize ∧ fits data.length rawDataOffset rawDataSize then
    calculateEntropy shannon data rawDataOffset rawDataSize
  else return zero

/-- A section header. -/
def readSection (data : Bytes) (secOffset : ℕ) : Checked PeSectionInfo := do
  let nameBuf ← readSlice data secOffset 8
  let virtualSize ← readU32 data (secOffset+8)
  let virtualAddress ← readU32 data (secOffset+12)
  let rawDataSize ← readU32 data (secOffset+16)
  let rawDataOffset ← readU32 data (secOffset+20)
  let characteristics ← readU32 data (secOffset+36)
  let entropy ← sectionEntropy shannon data rawDataOffset rawDataSize
  let isExecutable := decide (characteristics &&& 0x20000000≠0)
  let isWritable := decide (characteristics &&& 0x80000000≠0)
  return { name := (nameBuf.takeWhile (· ≠ 0)).map fun b => Char.ofNat b.toNat
           virtualAddress := virtualAddress
           virtualSize := virtualSize
           rawDataOffset := rawDataOffset
           rawDataSize := rawDataSize
           characteristics := characteristics
           entropy := entropy
           isExecutable := isExecutable
           isWritable := isWritable
           isWx := isExecutable && isWritable }

/-- Parts of section names and the packers they give away, in the order of
the tests. -/
def packerNames : List (List Str×Str) :=
  [(["upx".toList],"UPX".toList),(["aspack".toList,".adata".toList],"ASPack".toList),
    (["themida".toList],"Themida".toList),(["vmp".toList],"VMProtect".toList),
    (["mpress".toList],"Mpress".toList),(["enigma".toList],"Enigma".toList)]

/-- The packer that a section name gives away. -/
def packerOf (name : Str) : Option Str :=
  let lower := toLowerAscii name
  (packerNames.find? fun packer => packer.1.any fun part => decide (part <:+: lower)).map Prod.snd

/-- What the section loop does with the section at an index, where `last` is
the index of the last section. -/
def addSection (i last numSections : ℕ) (sec : PeSectionInfo) (state : PeAnalysisReport×Bool) :
    PeAnalysisReport×Bool :=
  let report := state.1
  let effectiveSize := max sec.virtualSize sec.rawDataSize
  let inside := decide (sec.virtualAddress ≤ report.entryPoint ∧
    report.entryPoint < wrap32 (sec.virtualAddress+effectiveSize))
  let entered := if inside then
      { report with
        entryPointSection := sec.name
        entryPointAnomaly := report.entryPointAnomaly || decide (i=last ∧ 1 < numSections) }
    else report
  let named := match packerOf sec.name with
    | some packer => { entered with isPacked := true,detectedPacker := packer }
    | none => entered
  ({ named with sections := named.sections++[sec] },state.2 || inside)

/-- The section loop, from an index on. -/
def sectionLoop (data : Bytes) (sectionTableOffset numSections : ℕ) :
    ℕ → ℕ → PeAnalysisReport×Bool → Checked (PeAnalysisReport×Bool)
  | _,0,state => .ok state
  | i,remaining+1,state =>
    let secOffset := sectionTableOffset+i*40
    if ¬fits data.length secOffset 40 then .ok state
    else do
      let sec ← readSection shannon data secOffset
      let last ← subtract numSections 1
      sectionLoop data sectionTableOffset numSections (i+1) remaining
        (addSection i last numSections sec state)

/-- The two tests after the section loop. -/
def finishSections (state : PeAnalysisReport×Bool) : PeAnalysisReport :=
  let report := state.1
  let outside := if state.2=false ∧ report.entryPoint≠0 then
      { report with entryPointAnomaly := true }
    else report
  if outside.isPacked=false ∧ ge outside.overallEntropy seven2 ∧
      outside.sections.any (fun sec => (sec.isExecutable && ge sec.entropy seven1) || sec.isWx) then
    { outside with isPacked := true,detectedPacker := "Generic High-Entropy Packer".toList }
  else outside

/-- What the import walk collects. -/
structure Imports where
  /-- The libraries so far. -/
  dlls : List Str := []
  /-- The functions so far. -/
  functions : List Str := []
  /-- Each function with its library, as the hash takes them. -/
  imphashItems : List Str := []

/-- An entry of a thunk table. -/
inductive Thunk where
  /-- The terminating zero. -/
  | stop
  /-- Import by ordinal. -/
  | ordinal (number : ℕ)
  /-- Import by the name at an address. -/
  | byName (rva : ℕ)
  deriving DecidableEq

/-- `step`, the size of a thunk. -/
def thunkSize (is64bit : Bool) : ℕ := if is64bit then 8 else 4

/-- A thunk is not empty. -/
theorem thunkSize_pos (is64bit : Bool) : 0 < thunkSize is64bit := by
  cases is64bit with
  | false => decide
  | true => decide

/-- Read the thunk at an offset. -/
def readThunk (data : Bytes) (is64bit : Bool) (offset : ℕ) : Checked Thunk :=
  if is64bit then do
    let val ← readU64 data offset
    if val=0 then return .stop
    else if val &&& 0x8000000000000000≠0 then return .ordinal (val &&& 0xFFFF)
    else return .byName (val &&& 0xFFFFFFFF)
  else do
    let val ← readU32 data offset
    if val=0 then return .stop
    else if val &&& 0x80000000≠0 then return .ordinal (val &&& 0xFFFF)
    else return .byName val

/-- The string at an address, if a section holds it. -/
def stringAt (data : Bytes) (sections : List PeSectionInfo) (rva : ℕ) : Checked Str := do
  let offset ← rvaToOffset rva sections
  match offset with
  | some offset => readAsciiString data offset 256
  | none => return []

/-- `func_name` of a thunk. -/
def functionName (data : Bytes) (sections : List PeSectionInfo) : Thunk → Checked Str
  | .stop => return []
  | .ordinal number => return "ord".toList++toDecimal number
  | .byName rva =>
    if rva≠0 then do
      let offset ← rvaToOffset rva sections
      match offset with
      | some offset =>
        if fits data.length (offset+2) 2 then readAsciiString data (offset+2) 256 else return []
      | none => return []
    else return []

/-- Record a function of a module. -/
def Imports.addFunction (imports : Imports) (moduleName name : Str) : Imports :=
  if name=[] then imports
  else { imports with
    functions := imports.functions++[name]
    imphashItems := imports.imphashItems++[moduleName++".".toList++toLowerAscii name] }

/-- The thunk loop, from an offset on. -/
def thunkWalk (data : Bytes) (sections : List PeSectionInfo) (is64bit : Bool) (moduleName : Str)
    (currThunk : ℕ) (imports : Imports) : Checked Imports :=
  if fits data.length currThunk (thunkSize is64bit) then do
    let thunk ← readThunk data is64bit currThunk
    if thunk=.stop then return imports
    else do
      let name ← functionName data sections thunk
      thunkWalk data sections is64bit moduleName (currThunk+thunkSize is64bit)
        (imports.addFunction moduleName name)
  else return imports
termination_by data.length-currThunk
decreasing_by
  have hroom := fits_iff.mp ‹fits _ _ _›
  have hpos := thunkSize_pos is64bit
  omega

/-- The body of the descriptor loop; nothing at the end of the descriptors. -/
def readDescriptor (data : Bytes) (sections : List PeSectionInfo) (is64bit : Bool)
    (descOffset : ℕ) (imports : Imports) : Checked (Option Imports) := do
  let originalFirstThunk ← readU32 data descOffset
  let nameRva ← readU32 data (descOffset+12)
  let firstThunk ← readU32 data (descOffset+16)
  if nameRva=0 ∧ firstThunk=0 then return none
  else do
    let dllName ← stringAt data sections nameRva
    let thunkRva := if originalFirstThunk≠0 then originalFirstThunk else firstThunk
    let thunkOff ← rvaToOffset thunkRva sections
    if dllName=[] then return some imports
    else do
      let listed := { imports with dlls := imports.dlls++[dllName] }
      match thunkOff with
      | some offset => do
        let moduleName ← stripDllExt dllName
        let walked ← thunkWalk data sections is64bit moduleName offset listed
        return some walked
      | none => return some listed

/-- The descriptor loop, from an offset on. -/
def descriptorWalk (data : Bytes) (sections : List PeSectionInfo) (is64bit : Bool)
    (descOffset : ℕ) (imports : Imports) : Checked Imports :=
  if fits data.length descOffset 20 then do
    let next ← readDescriptor data sections is64bit descOffset imports
    match next with
    | some next => descriptorWalk data sections is64bit (descOffset+20) next
    | none => return imports
  else return imports
termination_by data.length-descOffset
decreasing_by
  have hroom := fits_iff.mp ‹fits _ _ _›
  omega

/-- The import directory walk. -/
def parseImports (data : Bytes) (headers : Headers) (report : PeAnalysisReport) :
    Checked Imports :=
  if headers.importRva≠0 ∧ 0 < headers.importSize then do
    let importOff ← rvaToOffset headers.importRva report.sections
    match importOff with
    | some offset =>
      if fits data.length offset 20 then
        descriptorWalk data report.sections report.is64bit offset {}
      else return {}
    | none => return {}
  else return {}

/-- The import hash of the collected items. -/
def imphashOf (items : List Str) : Checked Str :=
  if items=[] then return []
  else calculateMd5 (([','].intercalate items).map fun c => UInt8.ofNat c.toNat)

/-- `dangerous_list`. -/
def dangerousList : List Str :=
  ["virtualalloc","virtualallocex","virtualprotect","virtualprotectex","writeprocessmemory",
    "createremotethread","ntcreatethreadex","queueuserapc","setthreadcontext","resumethread",
    "ntunmapviewofsection","zwunmapviewofsection","minidumpwritedump","openprocesstoken",
    "adjusttokenprivileges","isdebuggerpresent","checkremotedebuggerpresent",
    "ntqueryinformationprocess","loadlibrarya","loadlibraryw","getprocaddress",
    "ldrloaddll"].map String.toList

/-- The loop over the imported functions that collects dangerous ones. -/
def scoreFunctions (report : PeAnalysisReport) : PeAnalysisReport :=
  report.importedFunctions.foldl (fun scored func =>
    if toLowerAscii func ∈ dangerousList then
      { scored with
        dangerousApis := scored.dangerousApis++[func]
        dangerousApiScore := wrap32 (scored.dangerousApiScore+10) }
    else scored) report

/-- The test for TLS callbacks. -/
def parseTls (data : Bytes) (headers : Headers) (report : PeAnalysisReport) :
    Checked PeAnalysisReport :=
  if headers.tlsRva≠0 then do
    let tlsOff ← rvaToOffset headers.tlsRva report.sections
    match tlsOff with
    | some offset =>
      let callbackArrayRvaOff := offset+(if report.is64bit then 24 else 12)
      if fits data.length callbackArrayRvaOff (if report.is64bit then 8 else 4) then
        return { report with hasTlsCallbacks := true,tlsCallbackCount := 1 }
      else return report
    | none => return report
  else return report

/-- A reason and its part of the risk score, if the condition holds. -/
def reason (condition : Bool) (text : Str) (score : ℕ) : List (Option Str×ℕ) :=
  if condition then [(some text,score)] else []

/-- The findings of `assess_threat` in order, each with its score; a finding
without a text only adds to the score. -/
def findings (report : PeAnalysisReport) : List (Option Str×ℕ) :=
  (report.sections.flatMap fun sec => reason sec.isWx ("Section '".toList++sec.name++
    "' is both Writable and Executable (W^X violation)".toList) 40)++
  reason report.isPacked ("Packer detected: ".toList++report.detectedPacker) 35++
  reason report.entryPointAnomaly ("Entry point anomaly: EP located in unusual section ('".toList++
    report.entryPointSection++"')".toList) 25++
  reason (ge report.overallEntropy seven2) ("High overall Shannon entropy: ".toList++
    toFixed2 report.overallEntropy) 20++
  (if 30 ≤ report.dangerousApiScore then
    [(some ("Dangerous injection/evasion API cluster detected (".toList++
      toDecimal report.dangerousApis.length++" APIs)".toList),30)]
  else if 10 ≤ report.dangerousApiScore then [(none,10)]
  else [])++
  reason (report.hasTlsCallbacks && (report.isPacked || ge report.overallEntropy six8))
    "TLS callbacks detected with high-entropy/packed payload".toList 15

/-- The level of a risk score. -/
def levelOf (riskScore : ℕ) : ThreatLevel :=
  if 60 ≤ riskScore then .critical
  else if 35 ≤ riskScore then .high
  else if 15 ≤ riskScore then .medium
  else if 0 < riskScore then .low
  else .safe

/-- `assess_threat`. -/
def assessThreat (report : PeAnalysisReport) : PeAnalysisReport :=
  { report with
    threatReasons := report.threatReasons++(findings report).filterMap Prod.fst
    assessedLevel := levelOf ((findings report).foldl (fun score f => wrap32 (score+f.2)) 0) }

/-- The stages after the headers. -/
def analyzeImage (data : Bytes) (headers : Headers) (report : PeAnalysisReport) :
    Checked PeAnalysisReport := do
  let state ← sectionLoop shannon data headers.sectionTableOffset headers.numSections 0
    headers.numSections (report,false)
  let sectioned := finishSections state
  let imports ← parseImports data headers sectioned
  let imphash ← imphashOf imports.imphashItems
  let scored := scoreFunctions { sectioned with
    importedDlls := imports.dlls
    importedFunctions := imports.functions
    imphash := imphash }
  let finished ← parseTls data headers scored
  return assessThreat finished

/-- The counter of the engine. -/
structure PeStaticAnalysisEngine where
  /-- Files analysed. -/
  scansPerformed : UInt64

/-- The report of `analyze_buffer`. -/
def analyze (data : Bytes) : Checked PeAnalysisReport := do
  let found ← findPe data
  match found with
  | none => return {}
  | some peOffset => do
    let overallEntropy ← calculateEntropy shannon data 0 data.length
    let walked ← readHeaders data
      { isValidPe := true,overallEntropy := overallEntropy } peOffset
    match walked.2 with
    | none => return walked.1
    | some headers => analyzeImage shannon data headers walked.1

/-- `analyze_buffer`. -/
def analyzeBuffer (engine : PeStaticAnalysisEngine) (data : Bytes) :
    Checked (PeStaticAnalysisEngine×PeAnalysisReport) := do
  let report ← analyze shannon data
  return ({ engine with scansPerformed := engine.scansPerformed+1 },report)

end Analysis

end Gcad.PeStaticAnalysis
