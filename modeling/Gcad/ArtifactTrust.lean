import Gcad.HeuristicRules
import Gcad.PeSigning
import Gcad.ThreatIntel
import Gcad.TrustedVerdict

/-!
# Trust in executables

`ArtifactTrustEngine::inspect` of artifact_trust_engine.cpp. The structure is
checked on the first four MiB of a file, the signature on the whole file. An
image with a trusted signature is never reported as unsigned; its header is
accepted exactly when it lies in the inspected bytes.
-/

namespace Gcad.ArtifactTrust

open Common ByteView Observation PeStaticAnalysis PeAuthenticode Authenticode TrustedVerdict
open HeuristicRules (gt ninetyFive sixTenths)

/-- `MAX_INSPECTION_BYTES`. -/
def MAX_INSPECTION_BYTES : ℕ := 4*1024*1024

/-- `MAX_SIGNATURE_CHECK_BYTES`. -/
def MAX_SIGNATURE_CHECK_BYTES : ℕ := 512*1024*1024

/-- What the file system says about a path while it is inspected. -/
structure ArtifactFile where
  /-- It is a regular file. -/
  regular : Bool
  /-- Its length, if it can be read. -/
  size : Option ℕ
  /-- The content, if the file can be opened. -/
  content : Option Bytes

/-- What is computed elsewhere. -/
structure Tools where
  /-- The entropy of a buffer. -/
  shannonEntropy : Bytes → Double
  /-- The hash of a file, `SHA256::hash_file`. -/
  hashFile : ArtifactFile → Str

/-- The double nearest to 0.55. -/
def fiftyFive : Double := .ofScaled false 0x1199999999999A (-53)

/-- The double nearest to 7.8. -/
def seven8 : Double := .ofScaled false 0x1F333333333333 (-50)

/-- `generic_string`. -/
def genericString (path : Str) : Str := path.map fun c => if c= '\\' then '/' else c

/-- `normalized_path`. -/
def normalizedPath (path : Str) : Str := (genericString path).map toLower

/-- `path::extension`, of the name behind the last separator. -/
def pathExtension (path : Str) : Str :=
  ThreatIntel.extension ((genericString path).rtakeWhile fun c => c≠ '/')

/-- `looks_like_invalid_pe`. -/
def looksLikeInvalidPe (bytes : Bytes) : Bool :=
  if bytes.length < 2 ∨ byteAt bytes 0≠ 'M'.toNat ∨ byteAt bytes 1≠ 'Z'.toNat then false
  else if bytes.length < 64 then true
  else
    let peOffset := u32At bytes 60
    if bytes.length < peOffset ∨ bytes.length-peOffset < 4 then true
    else
      decide (byteAt bytes peOffset≠ 'P'.toNat) || decide (byteAt bytes (peOffset+1)≠ 'E'.toNat) ||
        decide (byteAt bytes (peOffset+2)≠0) || decide (byteAt bytes (peOffset+3)≠0)

/-- `is_risky_location`. -/
def isRiskyLocation (path : Str) : Bool :=
  let value := normalizedPath path
  decide ("/appdata/local/temp/".toList <:+: value) || decide ("/downloads/".toList <:+: value) ||
    decide ("c:/temp/".toList <+: value)

/-- The extension of an executable. -/
def executable (path : Str) : Bool :=
  let extension := normalizedPath (pathExtension path)
  extension=".exe".toList || extension=".dll".toList || extension=".sys".toList

/-- `observation_for`. -/
def observationFor (kind : ObservationKind) (level : ThreatLevel) (confidence : Double)
    (path hash evidence : Str) : SecurityObservation where
  sourceId := "artifact-trust".toList
  kind := kind
  suggestedLevel := level
  confidence := confidence
  deterministic := kind=.invalidPe
  processId := 0
  processName := []
  filePath := genericString path
  sha256 := hash
  evidence := evidence

section Inspection

variable {σ τ : Type} (p : Primitives σ τ)

/-- `verify_authenticode(...).verdict == TRUSTED`. -/
def trusted (bytes pkcs7 : Bytes) : Bool :=
  match verifyAuthenticode p bytes pkcs7 with
  | .ok result => result.verdict=.trusted
  | .error _ => false

/-- `has_valid_offline_signature`. -/
def hasValidOfflineSignature (file : ArtifactFile) : Bool :=
  match file.size,file.content with
  | some size,some content =>
    if size=0 ∨ MAX_SIGNATURE_CHECK_BYTES < size then false
    else
      let bytes := content.take size
      if bytes.length≠size then false
      else
        match extractAuthenticodeSignature bytes with
        | .ok pkcs7 => trusted p bytes pkcs7
        | .error _ => false
  | _,_ => false

variable (tools : Tools)

/-- The checks of an executable whose header is not invalid. -/
def inspectExecutable (path : Str) (file : ArtifactFile) (bytes : Bytes) (hash : Str) :
    List SecurityObservation :=
  (if 4096 < bytes.length ∧ gt (tools.shannonEntropy bytes) seven8=true then
    [observationFor .highEntropy .medium sixTenths path hash
      "Executable inspection bytes have high entropy".toList]
  else [])++
  (if !hasValidOfflineSignature p file && isRiskyLocation path then
    [observationFor .unsignedRiskyLocation .medium fiftyFive path hash
      "Unsigned executable in a risky user-writable location".toList]
  else [])

/-- `ArtifactTrustEngine::inspect`. -/
def inspect (path : Str) (file : ArtifactFile) : List SecurityObservation :=
  match file.regular,file.size,file.content with
  | true,some size,some content =>
    let bytes := content.take (min size MAX_INSPECTION_BYTES)
    let hash := tools.hashFile file
    if looksLikeInvalidPe bytes then
      [observationFor .invalidPe .high ninetyFive path hash
        "MZ executable has an invalid PE header".toList]
    else if executable path then inspectExecutable p tools path file bytes hash
    else []
  | _,_,_ => []

end Inspection

section Header

variable {data : Bytes}

/-- A byte of the front of a file. -/
theorem byteAt_take {n i : ℕ} (h : i < n) : byteAt (data.take n) i=byteAt data i := by
  rw [byteAt,byteAt,List.getElem?_take_of_lt h]

/-- A word of the front of a file. -/
theorem u32At_take {n i : ℕ} (h : i+4 ≤ n) : u32At (data.take n) i=u32At data i := by
  rw [u32At,u32At,byteAt_take (by omega),byteAt_take (by omega),byteAt_take (by omega),
    byteAt_take (by omega)]

/-- The front of an image is an invalid image exactly when the PE signature is
not inside. -/
theorem looksLikeInvalidPe_take {header : OptionalHeader} (walk : HeaderAt data header)
    (hsize : data.length < 2^32) {n : ℕ} (hn : 64 ≤ n) :
    looksLikeInvalidPe (data.take n)=decide (n < u32At data 0x3c+4) := by
  have hdos := walk.dos
  have hroom := walk.peRoom
  have hlength : (data.take n).length=min n data.length := List.length_take
  have hmz := walk.mz
  obtain ⟨h0,h1,h2,h3⟩ := walk.pe
  rw [wrap32_of_lt (by omega)] at h1 h2 h3
  unfold looksLikeInvalidPe
  rw [u32At_take (by omega),byteAt_take (by omega),byteAt_take (by omega),hlength]
  have hword : u32At data 60=u32At data 0x3c := rfl
  rw [if_neg (by omega),if_neg (by omega),hword]
  dsimp only
  by_cases hinside : n < u32At data 0x3c+4
  · rw [if_pos (by omega),decide_eq_true hinside]
  · rw [if_neg (by omega),decide_eq_false hinside,byteAt_take (by omega),byteAt_take (by omega),
      byteAt_take (by omega),byteAt_take (by omega),h0,h1,h2,h3]
    simp

end Header

/-- A signed executable is reported for its entropy only. -/
theorem inspectExecutable_signed {σ τ : Type} {p : Primitives σ τ} {file : ArtifactFile}
    (h : hasValidOfflineSignature p file=true) (tools : Tools) (path : Str) (bytes : Bytes)
    (hash : Str) :
    (inspectExecutable p tools path file bytes hash).map (fun o => o.kind)=
      if 4096 < bytes.length ∧ gt (tools.shannonEntropy bytes) seven8=true then [.highEntropy]
      else [] := by
  rw [inspectExecutable,h,Bool.not_true,Bool.false_and,if_neg Bool.false_ne_true,List.append_nil]
  split <;> rfl

/-- A file that carries a trusted signature is never reported as unsigned, from
whatever place it is run. It is reported for its entropy, or, when its PE header
begins behind the inspected bytes, as an invalid image and for nothing else. -/
theorem signed_reports {σ τ : Type} {p : Primitives σ τ} {data pkcs7 : Bytes}
    (hsize : data.length ≤ MAX_SIGNATURE_CHECK_BYTES)
    (hpkcs7 : extractAuthenticodeSignature data=.ok pkcs7) (htrusted : Trusted p data pkcs7)
    (tools : Tools) (path : Str) :
    (inspect p tools path ⟨true,some data.length,some data⟩).map (fun o => o.kind)=
      if u32At data 0x3c+4 ≤ MAX_INSPECTION_BYTES then
        if executable path=true ∧ 4096 < data.length ∧
            gt (tools.shannonEntropy (data.take MAX_INSPECTION_BYTES)) seven8=true then
          [.highEntropy]
        else []
      else [.invalidPe] := by
  have hlimit : MAX_SIGNATURE_CHECK_BYTES=536870912 := rfl
  have hwindow : MAX_INSPECTION_BYTES=4194304 := rfl
  obtain ⟨header,walk⟩ : ∃ header,HeaderAt data header := by
    obtain ⟨header,hread,-⟩ := bind_eq_ok.mp hpkcs7
    exact ⟨header,readOptionalHeader_eq_ok.mp hread⟩
  have hdos := walk.dos
  have hroom := walk.peRoom
  have hverified : trusted p data pkcs7=true := by
    obtain ⟨result,hresult,hverdict⟩ := htrusted
    simp [trusted,hresult,hverdict]
  have hoffline : hasValidOfflineSignature p ⟨true,some data.length,some data⟩=true := by
    simp only [hasValidOfflineSignature]
    rw [if_neg (by omega),List.take_length,if_neg (by omega),hpkcs7]
    exact hverified
  have hfront : data.take (min data.length MAX_INSPECTION_BYTES)=
      data.take MAX_INSPECTION_BYTES := by
    rcases Nat.le_total data.length MAX_INSPECTION_BYTES with hle | hle
    · rw [Nat.min_eq_left hle,List.take_length,List.take_of_length_le hle]
    · rw [Nat.min_eq_right hle]
  have hlength : (data.take MAX_INSPECTION_BYTES).length=min MAX_INSPECTION_BYTES data.length :=
    List.length_take
  have hlong : 4096 < min MAX_INSPECTION_BYTES data.length ↔ 4096 < data.length := by omega
  have hinvalid := looksLikeInvalidPe_take walk (by omega)
    (show 64 ≤ MAX_INSPECTION_BYTES by omega)
  have hkinds := inspectExecutable_signed hoffline tools path (data.take MAX_INSPECTION_BYTES)
    (tools.hashFile ⟨true,some data.length,some data⟩)
  simp only [hlength,hlong] at hkinds
  unfold inspect
  dsimp only
  rw [hfront,hinvalid]
  by_cases hinside : u32At data 0x3c+4 ≤ MAX_INSPECTION_BYTES
  · rw [if_pos hinside,decide_eq_false (by omega),if_neg Bool.false_ne_true]
    by_cases hexe : executable path=true
    · rw [if_pos hexe]
      refine hkinds.trans ?_
      simp only [hexe,true_and]
    · rw [if_neg hexe,if_neg fun h => hexe h.1]
      rfl
  · rw [if_neg hinside,decide_eq_true (by omega),if_pos rfl]
    rfl

/-- The image of the fixtures with a trusted signature in it. -/
def signedImage : Bytes :=
  PeSigning.embedSignature ⟨152,264,216,0,0,[⟨264,2⟩]⟩ 0 0x200 boundBlob fixturePe

/-- The signed image is not reported in the download folder. -/
theorem signed_reports_download :
    (inspect fixturePrimitives ⟨fun _ => zero,fun _ => []⟩ "C:/Users/u/Downloads/a.exe".toList
      ⟨true,some signedImage.length,some signedImage⟩).map (fun o => o.kind)=[] := by
  have htrusted : Trusted fixturePrimitives signedImage boundBlob :=
    trusted_of_map (by decide +kernel)
  rw [signed_reports (by decide +kernel) (by decide +kernel) htrusted]
  decide +kernel

end Gcad.ArtifactTrust
