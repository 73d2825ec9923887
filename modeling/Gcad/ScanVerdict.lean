import Gcad.ArtifactTrust
import Gcad.DeepScan
import Gcad.PeSafety
import Gcad.ScriptRules
import Gcad.ShellcodeScan
import Gcad.SignatureDb

/-!
# The verdict on a file

`DeepScanner::scan_file` of deep_scanner.cpp with its checks. A signature
decides first, then the rules for shortcuts and scripts by their extension, then
shellcode, the PE image, the ELF header and the entropy. The checks that follow
offsets of the file read nothing outside of it, and what is not a signature is
at least of medium level. Quick and custom scans hand executables on to the
offline check of their signature, whatever the checks have found.
-/

namespace Gcad.ScanVerdict

open Common ByteView CheckedLogic Threat Observation PeStaticAnalysis
open HeuristicRules (gt analyzeBinary confident)
open ArtifactTrust (ArtifactFile Tools genericString pathExtension inspect observationFor seven8)
open Authenticode (Primitives)
open DeepScan (ScanMode)

/-- `ScanResult`. -/
structure ScanResult where
  /-- The file. -/
  filePath : Str
  /-- Underlying value of `level`. -/
  level : UInt8 := 0
  /-- Underlying value of `category`. -/
  category : UInt16 := 0
  /-- The signature that matched, if one did. -/
  signatureName : Str := []
  /-- The entropy of the content, where a check measured it. -/
  entropy : Double := zero
  /-- The bytes the signature matched. -/
  matchedBytes : Bytes := []
  /-- What was found. -/
  description : Str := []

/-- What the scanner is built with. -/
structure Scanner where
  /-- The signatures of `g_sig_db`. -/
  signatures : List SignatureDb.Signature
  /-- The entropies of the scanner and of the heuristics. -/
  entropy : HeuristicRules.Entropy
  /-- The entropy of a frequency table in the PE analysis. -/
  shannon : List ℕ → ℕ → Double

/-- A file when it is scanned. -/
structure ScannedFile where
  /-- Its length, if it can be read. -/
  size : Option ℕ
  /-- The content, if the file can be opened. -/
  content : Option Bytes

/-- The double `7.5`. -/
def seven5 : Double := .ofScaled false 0x1E000000000000 (-50)

/-- `std::format("\x7b:.3f\x7d", value)`. -/
def toFixed3 : Double → Str
  | .nan => "nan".toList
  | .infinite negative => if negative then "-inf".toList else "inf".toList
  | .finite negative mantissa exponent _ _ =>
    let thousandths := roundEven (1000*mantissa) exponent
    (if negative then "-".toList else [])++toDecimal (thousandths/1000)++".".toList++
      toDecimal (thousandths%1000/100)++toDecimal (thousandths%100/10)++
      toDecimal (thousandths%10)

section Checks

variable (scanner : Scanner) (path : Str) (data : Bytes)

/-- `check_signature_match`. -/
def checkSignatureMatch : Option ScanResult := do
  let result ← SignatureDb.scan scanner.signatures data
  let sig ← scanner.signatures[result.sig]?
  return {
    filePath := path
    level := sig.level
    category := sig.category.value
    signatureName := sig.name
    description := sig.description
    matchedBytes := slice data result.offset (min sig.pattern.length 32) }

/-- The checks of a shortcut or a script. -/
def checkExtension : Option ScanResult :=
  let ext := (pathExtension path).map toLower
  if ext=".lnk".toList then
    (CommandRules.inspectLnkFile (some data)).bind fun le =>
      if le.isMalicious then
        some {
          filePath := path
          level := levelValue le.severity
          category := ThreatCategory.lolbinExecution.value
          signatureName := "LNK.Weaponized".toList
          description := "Weaponized LNK shortcut: ".toList++le.reason }
      else none
  else if [".ps1",".vbs",".js",".bat",".cmd",".hta"].any (fun script => ext=script.toList) then
    let fe := ScriptRules.evaluate data
    if fe.isMalicious then
      some {
        filePath := path
        level := levelValue fe.severity
        category := ThreatCategory.persistenceHijack.value
        signatureName := "Script.ObfuscatedAST".toList
        description := "Malicious fileless script: ".toList++fe.reason }
    else none
  else none

/-- `check_shellcode_patterns`. -/
def checkShellcode : Option ScanResult :=
  let found := ShellcodeScan.checkShellcodePatterns data ⟨0,0,[]⟩
  if found.1 then
    some {
      filePath := path
      level := found.2.level
      category := found.2.category
      description := found.2.description }
  else none

/-- The result for an image that the static analysis assesses. -/
def assessed (report : PeAnalysisReport) : ScanResult :=
  let base : ScanResult :=
    { filePath := path,level := levelValue report.assessedLevel,entropy := report.overallEntropy }
  if report.isPacked then
    { base with
      category := ThreatCategory.malwarePacker.value
      signatureName := "PE.Packer.".toList++
        (if report.detectedPacker=[] then "Generic".toList else report.detectedPacker)
      description := "Packed/Obfuscated PE binary (".toList++
        (if report.detectedPacker=[] then "High Entropy".toList else report.detectedPacker)++
        ")".toList }
  else if 100 ≤ report.dangerousApiScore then
    { base with
      category := ThreatCategory.memoryInjection.value
      signatureName := "PE.DangerousAPIs".toList
      description := "PE with dangerous API cluster (Score: ".toList++
        toDecimal report.dangerousApiScore++")".toList }
  else
    { base with
      category := ThreatCategory.suspiciousBinary.value
      signatureName := "PE.Anomaly".toList
      description := report.threatReasons.headD "PE static structural anomaly".toList }

/-- The part of `check_pe_header` after the section count. -/
def analyzePe : Checked (Option ScanResult) := do
  let report ← analyze scanner.shannon data
  if report.isValidPe=true ∧ ThreatLevel.medium.rank ≤ report.assessedLevel.rank then
    return some (assessed path report)
  else
    return (confident (analyzeBinary scanner.entropy data)).map fun h =>
      { filePath := path
        level := levelValue h.level
        category := h.category.value
        description := h.description }

/-- The section count that `check_pe_header` reads, if the header is one. -/
def sectionCount : Checked (Option ℕ) :=
  if data.length < 64 then return none
  else do
    let m ← readByte data 0
    let z ← readByte data 1
    if m≠ 'M'.toNat ∨ z≠ 'Z'.toNat then return none
    else do
      let peOffset ← readU32 data 60
      if data.length < peOffset+8 then return none
      else do
        let p ← readByte data peOffset
        let e ← readByte data (peOffset+1)
        if p≠ 'P'.toNat ∨ e≠ 'E'.toNat then return none
        else do
          let count ← readU16 data (peOffset+6)
          return some count

/-- `check_pe_header`. -/
def checkPeHeader : Checked (Option ScanResult) := do
  let found ← sectionCount data
  match found with
  | none => return none
  | some numSections =>
    if 96 < numSections then
      return some {
        filePath := path
        level := levelValue .medium
        category := ThreatCategory.suspiciousBinary.value
        description := "PE with abnormal section count: ".toList++toDecimal numSections }
    else analyzePe scanner path data

/-- `check_elf_header`. -/
def checkElfHeader : Checked (Option ScanResult) :=
  if data.length < 16 then return none
  else do
    let m ← readByte data 0
    let e ← readByte data 1
    let l ← readByte data 2
    let f ← readByte data 3
    if m≠0x7F ∨ e≠ 'E'.toNat ∨ l≠ 'L'.toNat ∨ f≠ 'F'.toNat then return none
    else if gt (scanner.entropy.shannonEntropy (data.take 4096)) seven5 then
      return some {
        filePath := path
        level := levelValue .medium
        category := ThreatCategory.suspiciousBinary.value
        description := "ELF binary with high entropy header section".toList }
    else return none

/-- `check_entropy_anomaly`. -/
def checkEntropyAnomaly : Option ScanResult :=
  let ent := scanner.entropy.shannonEntropy data
  if gt ent seven8=true ∧ 4096 < data.length then
    some {
      filePath := path
      level := levelValue .high
      category := ThreatCategory.entropyAnomaly.value
      entropy := ent
      description := "Extremely high entropy (".toList++toFixed3 ent++
        ") — packed/encrypted".toList }
  else none

/-- The checks of `scan_file` on the bytes of the file, in their order. -/
def checkAll : Checked (Option ScanResult) :=
  match (checkSignatureMatch scanner path data).or
    ((checkExtension path data).or (checkShellcode path data)) with
  | some result => return some result
  | none => do
    let pe ← checkPeHeader scanner path data
    match pe with
    | some result => return some result
    | none => do
      let elf ← checkElfHeader scanner path data
      return elf.or (checkEntropyAnomaly scanner path data)

end Checks

/-- The vector of the size of the file, with what could be read in it. -/
def readFile (size : ℕ) (content : Bytes) : Bytes :=
  content.take size++List.replicate (size-content.length) 0

/-- The checks of `scan_file`: the threat that is found, if there is one. -/
def scanFile (scanner : Scanner) (path : Str) (file : ScannedFile) :
    Checked (Option ScanResult) :=
  match file.size,file.content with
  | some size,some content =>
    if size=0 ∨ 256*1024*1024 < size then return none
    else checkAll scanner path (readFile size content)
  | _,_ => return none

/-- The executables that quick and custom scans inspect. -/
def inspects (mode : ScanMode) (path : Str) : Bool :=
  let ext := (pathExtension path).map toLower
  decide (mode=.quick ∨ mode=.custom) &&
    (ext=".exe".toList || ext=".dll".toList || ext=".sys".toList)

/-- The end of `scan_file`: what the inspection of an executable hands to the
observation callback, whatever the checks have found. -/
def escalation {σ τ : Type} (p : Primitives σ τ) (tools : Tools) (mode : ScanMode) (obsCb : Bool)
    (path : Str) (artifact : ArtifactFile) : List SecurityObservation :=
  if obsCb && inspects mode path then inspect p tools path artifact else []

/-- `scan_buffer`. -/
def scanBuffer (scanner : Scanner) (data : Bytes) (origin : Str) : Option ScanResult :=
  (checkSignatureMatch scanner origin data).or
    ((checkShellcode origin data).or (checkEntropyAnomaly scanner origin data))

/-- A result is for its path, and at least of medium level or a signature. -/
def Justified (scanner : Scanner) (path : Str) (result : ScanResult) : Prop :=
  result.filePath=path ∧ (levelValue .medium ≤ result.level ∨
    ∃ sig ∈ scanner.signatures,result.signatureName=sig.name ∧ result.level=sig.level ∧
      result.category=sig.category.value)

section Spec

variable {scanner : Scanner} {path : Str} {data : Bytes} {result : ScanResult}

/-- The order of the levels is that of their values. -/
theorem medium_le {level : ThreatLevel} (h : ThreatLevel.medium.rank ≤ level.rank) :
    levelValue .medium ≤ levelValue level := by
  cases level <;> revert h <;> decide

/-- A signature match is a signature. -/
theorem checkSignatureMatch_justified (h : checkSignatureMatch scanner path data=some result) :
    Justified scanner path result := by
  simp only [checkSignatureMatch,Option.bind_eq_bind,Option.bind_eq_some_iff,Option.pure_def] at h
  obtain ⟨found,-,sig,hsig,heq⟩ := h
  cases heq
  exact ⟨rfl,.inr ⟨sig,List.mem_of_getElem? hsig,rfl,rfl,rfl⟩⟩

/-- A shortcut or a script is at least of medium level. -/
theorem checkExtension_justified (h : checkExtension path data=some result) :
    Justified scanner path result := by
  have hmedium : ThreatLevel.medium.rank ≤ ThreatLevel.high.rank := by decide
  unfold checkExtension at h
  dsimp only at h
  split_ifs at h with hlnk hscript hmalicious
  · obtain ⟨le,hle,hresult⟩ := Option.bind_eq_some_iff.mp h
    split_ifs at hresult
    cases hresult
    exact ⟨rfl,.inl (medium_le (hmedium.trans (CommandRules.inspectLnkFile_level hle)))⟩
  · cases h
    exact ⟨rfl,.inl (medium_le (hmedium.trans (ScriptRules.evaluate_level hmalicious)))⟩

/-- Shellcode is critical. -/
theorem checkShellcode_justified (h : checkShellcode path data=some result) :
    Justified scanner path result := by
  have hcritical : levelValue .medium ≤ levelValue .critical := by decide
  unfold checkShellcode ShellcodeScan.checkShellcodePatterns at h
  cases hsled : ShellcodeScan.findSled data 0 with
  | none =>
    rw [hsled] at h
    cases h
  | some sled =>
    rw [hsled] at h
    cases h
    exact ⟨rfl,.inl hcritical⟩

/-- What the static analysis reports keeps its level. -/
theorem assessed_justified {report : PeAnalysisReport}
    (h : ThreatLevel.medium.rank ≤ report.assessedLevel.rank) :
    Justified scanner path (assessed path report) := by
  unfold assessed
  dsimp only
  split_ifs <;> exact ⟨rfl,.inl (medium_le h)⟩

/-- The analysis of an image returns. -/
theorem analyzePe_returns :
    Returns (analyzePe scanner path data) fun found =>
      ∀ result,found=some result → Justified scanner path result := by
  refine (PeSafety.analyze_returns scanner.shannon data).bind fun report _ => ?_
  refine returns_ite (fun hlevel => returns_pure ?_) (fun _ => returns_pure ?_)
  · intro result hresult
    cases hresult
    exact assessed_justified hlevel.2
  · intro result hresult
    obtain ⟨h,hfound,rfl⟩ := Option.map_eq_some_iff.mp hresult
    exact ⟨rfl,.inl (medium_le (HeuristicRules.confident_level _ _ hfound))⟩

/-- The walk to the section count stays inside the file. -/
theorem sectionCount_returns : Returns (sectionCount data) fun _ => True := by
  refine returns_ite (fun _ => returns_pure trivial) (fun hsize => ?_)
  refine (readByte_returns (by omega)).bind fun m _ => ?_
  refine (readByte_returns (by omega)).bind fun z _ => ?_
  refine returns_ite (fun _ => returns_pure trivial) (fun _ => ?_)
  refine (readU32_returns (by omega)).bind fun peOffset _ => ?_
  refine returns_ite (fun _ => returns_pure trivial) (fun hroom => ?_)
  refine (readByte_returns (by omega)).bind fun p _ => ?_
  refine (readByte_returns (by omega)).bind fun e _ => ?_
  refine returns_ite (fun _ => returns_pure trivial) (fun _ => ?_)
  refine (readU16_returns (by omega)).bind fun count _ => ?_
  exact returns_pure trivial

/-- The check of an image returns. -/
theorem checkPeHeader_returns :
    Returns (checkPeHeader scanner path data) fun found =>
      ∀ result,found=some result → Justified scanner path result := by
  refine sectionCount_returns.bind fun count _ => ?_
  cases count with
  | none =>
    refine returns_pure fun result hresult => ?_
    cases hresult
  | some numSections =>
    refine returns_ite (fun _ => returns_pure fun result hresult => ?_) fun _ => analyzePe_returns
    cases hresult
    exact ⟨rfl,.inl (medium_le (le_refl _))⟩

/-- The check of an ELF header returns, with medium level. -/
theorem checkElfHeader_returns :
    Returns (checkElfHeader scanner path data) fun found =>
      ∀ result,found=some result → Justified scanner path result := by
  have hnone : ∀ result,(none : Option ScanResult)=some result → Justified scanner path result :=
    fun result hresult => absurd hresult nofun
  refine returns_ite (fun _ => returns_pure hnone) (fun hsize => ?_)
  refine (readByte_returns (by omega)).bind fun m _ => ?_
  refine (readByte_returns (by omega)).bind fun e _ => ?_
  refine (readByte_returns (by omega)).bind fun l _ => ?_
  refine (readByte_returns (by omega)).bind fun f _ => ?_
  refine returns_ite (fun _ => returns_pure hnone) (fun _ => ?_)
  refine returns_ite (fun _ => returns_pure fun result hresult => ?_) fun _ => returns_pure hnone
  cases hresult
  exact ⟨rfl,.inl (medium_le (le_refl _))⟩

/-- The entropy is of high level. -/
theorem checkEntropyAnomaly_justified (h : checkEntropyAnomaly scanner path data=some result) :
    Justified scanner path result := by
  have hhigh : levelValue .medium ≤ levelValue .high := by decide
  unfold checkEntropyAnomaly at h
  dsimp only at h
  split_ifs at h
  cases h
  exact ⟨rfl,.inl hhigh⟩

/-- The checks of a file return. -/
theorem checkAll_returns :
    Returns (checkAll scanner path data) fun found =>
      ∀ result,found=some result → Justified scanner path result := by
  unfold checkAll
  split
  · rename_i first hfirst
    refine returns_pure fun result hresult => ?_
    cases hresult
    rcases Option.or_eq_some_iff.mp hfirst with h | ⟨-,h⟩
    · exact checkSignatureMatch_justified h
    · rcases Option.or_eq_some_iff.mp h with h | ⟨-,h⟩
      · exact checkExtension_justified h
      · exact checkShellcode_justified h
  · refine checkPeHeader_returns.bind fun pe hpe => ?_
    cases pe with
    | some image =>
      refine returns_pure fun result hresult => ?_
      exact hpe result hresult
    | none =>
      refine checkElfHeader_returns.bind fun elf helf => returns_pure fun result hresult => ?_
      rcases Option.or_eq_some_iff.mp hresult with h | ⟨-,h⟩
      · exact helf result h
      · exact checkEntropyAnomaly_justified h

/-- What the inspection of a file observes is of that file, and at least of
medium level. -/
theorem inspect_justified {σ τ : Type} {p : Primitives σ τ} {tools : Tools} {file : ArtifactFile}
    {o : SecurityObservation} (h : o ∈ inspect p tools path file) :
    o.filePath=genericString path ∧ ThreatLevel.medium.rank ≤ o.suggestedLevel.rank := by
  have hone : ∀ kind level confidence hash evidence,
      ThreatLevel.medium.rank ≤ ThreatLevel.rank level →
      o ∈ [observationFor kind level confidence path hash evidence] →
        o.filePath=genericString path ∧ ThreatLevel.medium.rank ≤ o.suggestedLevel.rank := by
    intro kind level confidence hash evidence hlevel hmem
    rw [List.mem_singleton.mp hmem]
    exact ⟨rfl,hlevel⟩
  have hhigh : ThreatLevel.medium.rank ≤ ThreatLevel.high.rank := by decide
  unfold inspect at h
  split at h
  · dsimp only at h
    split_ifs at h
    · exact hone _ _ _ _ _ hhigh h
    · rcases List.mem_append.mp h with h | h
      · split_ifs at h
        · exact hone _ _ _ _ _ (le_refl _) h
        · exact absurd h List.not_mem_nil
      · split_ifs at h
        · exact hone _ _ _ _ _ (le_refl _) h
        · exact absurd h List.not_mem_nil
    · exact absurd h List.not_mem_nil
  · exact absurd h List.not_mem_nil

end Spec

/-- The scan of a file returns. -/
theorem scanFile_returns (scanner : Scanner) (path : Str) (file : ScannedFile) :
    Returns (scanFile scanner path file) fun found =>
      ∀ result,found=some result → Justified scanner path result := by
  have hnone : ∃ found,(pure none : Checked (Option ScanResult))=.ok found ∧
      ∀ result,found=some result → Justified scanner path result := by
    refine ⟨none,rfl,fun result hresult => ?_⟩
    cases hresult
  unfold scanFile
  split
  · split
    · exact hnone
    · exact checkAll_returns
  · exact hnone

/-- Scanning a file returns whatever the file holds: the checks of the headers
and the analysis of an image read nothing outside of it, a found threat has the
path of the file, and it is at least of medium level or bears the name, the
level and the category of a signature. Only executables in quick and custom
scans are handed on, and what is observed of them is of the same file and at
least of medium level. -/
theorem scan_file_justified {σ τ : Type} (scanner : Scanner) (p : Primitives σ τ) (tools : Tools)
    (mode : ScanMode) (obsCb : Bool) (path : Str) (file : ScannedFile) (artifact : ArtifactFile) :
    (∃ found,scanFile scanner path file=.ok found ∧
      ∀ result,found=some result → Justified scanner path result) ∧
    ∀ o ∈ escalation p tools mode obsCb path artifact,inspects mode path=true ∧
      o.filePath=genericString path ∧ ThreatLevel.medium.rank ≤ o.suggestedLevel.rank := by
  refine ⟨scanFile_returns scanner path file,fun o ho => ?_⟩
  unfold escalation at ho
  split_ifs at ho with hescalates
  · exact ⟨(Bool.and_eq_true_iff.mp hescalates).2,inspect_justified ho⟩
  · exact absurd ho List.not_mem_nil

end Gcad.ScanVerdict
