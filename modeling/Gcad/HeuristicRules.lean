import Gcad.EncodedCommand
import Gcad.PeStaticAnalysis
import Gcad.RunLength
import Gcad.Threat

/-!
# Heuristic rules for binaries

`HeuristicEngine::analyze_binary` of heuristic_rules.cpp and the use that
`check_pe_header` makes of it: the first result with a confidence above 0.7
decides. The loops over bytes are tied to what they look for, the longest run of
zero bytes, printable runs and names that occur. Logarithms and averages of
doubles are parameters, quotients of counts are rounded here.
-/

namespace Gcad.HeuristicRules

open Common ByteView Threat PeStaticAnalysis RunLength
open EncodedCommand (ascii)

/-- `HeuristicResult`. -/
structure HeuristicResult where
  /-- The rule that matched. -/
  ruleName : Str
  /-- The level it asks for. -/
  level : ThreatLevel
  /-- The kind of threat. -/
  category : ThreatCategory
  /-- How sure it is. -/
  confidence : Double
  /-- What it found. -/
  description : Str

/-- What is computed in floating point. -/
structure Entropy where
  /-- The entropy of a buffer. -/
  shannonEntropy : Bytes → Double
  /-- The sum of some values divided by their number. -/
  average : List Double → Double

/-- The comparison `a > b` of doubles. -/
def gt (a b : Double) : Bool := ge a b && !ge b a

/-- The exponent of a value between 1/2 and 1 is in range. -/
theorem unit_range : (-1074 : ℤ) ≤ -53 ∧ (-53 : ℤ) ≤ 971 := by decide

/-- The double nearest to 0.7. -/
def sevenTenths : Double := .ofScaled false 0x16666666666666 (-53)

/-- The double nearest to 0.6. -/
def sixTenths : Double := .ofScaled false 0x13333333333333 (-53)

/-- The double nearest to 0.95. -/
def ninetyFive : Double := .ofScaled false 0x1E666666666666 (-53)

/-- The double `0.5`. -/
def half : Double := .ofScaled false (2^52) (-53)

/-- The double `1.0`. -/
def one : Double := .ofScaled false (2^52) (-52)

/-- The integer nearest to a quotient. -/
def nearest (a b : ℕ) : ℕ := (2*a+b)/(2*b)

/-- The nearest mantissa of a quotient below one fits. -/
theorem nearest_width {count total : ℕ} (h : count < total ∧ total ≤ 2^52) :
    nearest (count*2^53) total < 2^53 := by
  obtain ⟨hlt,hle⟩ := h
  unfold nearest
  rw [Nat.div_lt_iff_lt_mul (by omega)]
  have hcount : (count+1)*2^54 ≤ total*2^54 := Nat.mul_le_mul_right _ hlt
  omega

/-- `static_cast<double>(count) / total` for a quotient from 1/2 to 1 that is no
tie; smaller ones are multiples of 1/8 here. -/
def ratio (count total : ℕ) : Double :=
  if h : count < total ∧ total ≤ 2^52 then
    .finite false (nearest (count*2^53) total) (-53) (nearest_width h) unit_range
  else one

/-- An eighth of a mantissa fits, also rounded. -/
theorem roundEven_width {mantissa : ℕ} {exponent : ℤ} (h : mantissa < 2^53) (he : exponent < 0) :
    roundEven mantissa exponent < 2^53 := by
  have hunit : 2 ≤ 2^(-exponent).toNat := by
    calc 2=2^1 := rfl
      _ ≤ 2^(-exponent).toNat := Nat.pow_le_pow_right (by omega) (by omega)
  have hquotient : mantissa/2^(-exponent).toNat ≤ mantissa/2 :=
    Nat.div_le_div_left hunit (by omega)
  unfold roundEven
  rw [if_neg (by omega)]
  dsimp only
  split <;> omega

/-- An exponent that is large enough can be lowered by three. -/
theorem eighth_range {exponent : ℤ} (h : -1074 ≤ exponent ∧ exponent ≤ 971)
    (hlarge : -1071 ≤ exponent) : -1074 ≤ exponent-3 ∧ exponent-3 ≤ 971 := by
  omega

/-- An exponent that is too small for that leaves a mantissa that fits. -/
theorem eighth_width {mantissa : ℕ} {exponent : ℤ} (h : mantissa < 2^53)
    (hsmall : ¬-1071 ≤ exponent) : roundEven mantissa (exponent+1071) < 2^53 :=
  roundEven_width h (by omega)

/-- The smallest exponent is in range. -/
theorem least_range : (-1074 : ℤ) ≤ -1074 ∧ (-1074 : ℤ) ≤ 971 := by decide

/-- `value / 8.0`. -/
def eighth : Double → Double
  | .nan => .nan
  | .infinite negative => .infinite negative
  | .finite negative mantissa exponent width range =>
    if h : -1071 ≤ exponent then
      .finite negative mantissa (exponent-3) width (eighth_range range h)
    else
      .finite negative (roundEven mantissa (exponent+1071)) (-1074)
        (eighth_width width h) least_range

/-- The chunks of 4096 bytes that are inside the buffer. -/
def chunks (data : Bytes) : List Bytes :=
  (List.range (data.length/4096)).map fun k => slice data (4096*k) 4096

/-- `check_packed_binary`. -/
def checkPackedBinary (entropy : Entropy) (data : Bytes) : Option HeuristicResult :=
  if data.length < 1024 then none
  else if chunks data=[] then none
  else
    let avg := entropy.average ((chunks data).map entropy.shannonEntropy)
    if gt avg seven2 then
      some ⟨"packed_binary".toList,.medium,.suspiciousBinary,eighth avg,
        "Binary appears packed/encrypted (avg entropy ".toList++toFixed2 avg++")".toList⟩
    else none

/-- The loop that compares a name with the bytes at every index. -/
def findStr (data s : Bytes) : Bool :=
  (List.range (data.length+1-s.length)).any fun i => slice data i s.length=s

/-- How many of some names are found. -/
def countFound (data : Bytes) (names : List Bytes) : ℕ := names.countP (findStr data)

/-- `dangerous_apis`. -/
def dangerousApis : List Bytes :=
  ["CreateRemoteThread","NtCreateThreadEx","RtlCreateUserThread","SetWindowsHookEx",
    "VirtualProtectEx","NtWriteVirtualMemory","NtAllocateVirtualMemory","ZwMapViewOfSection"].map ascii

/-- `anti_dbg`. -/
def antiDbg : List Bytes :=
  ["IsDebuggerPresent","CheckRemoteDebuggerPresent","NtQueryInformationProcess",
    "OutputDebugString","GetTickCount","QueryPerformanceCounter"].map ascii

/-- `check_suspicious_imports`. -/
def checkSuspiciousImports (data : Bytes) : Option HeuristicResult :=
  let count := countFound data dangerousApis
  if 3 ≤ count then
    some ⟨"suspicious_import_combo".toList,.high,.memoryInjection,ratio count dangerousApis.length,
      "Multiple dangerous API imports detected (".toList++toDecimal count++")".toList⟩
  else none

/-- The loop of `check_code_cave` over `zero_run` and `max_zero`. -/
def zeroLoop (zeroRun maxZero : ℕ) : Bytes → ℕ
  | [] => maxZero
  | b::rest =>
    if b=0 then zeroLoop (zeroRun+1) (if maxZero < zeroRun+1 then zeroRun+1 else maxZero) rest
    else zeroLoop 0 maxZero rest

/-- `check_code_cave`. -/
def checkCodeCave (data : Bytes) : Option HeuristicResult :=
  if data.length < 512 then none
  else
    let maxZero := zeroLoop 0 0 data
    if 4096 < maxZero ∧ maxZero < data.length/2 then
      some ⟨"code_cave".toList,.low,.suspiciousBinary,half,
        "Large zero-filled code cave (".toList++toDecimal maxZero++" bytes)".toList⟩
    else none

/-- `check_anti_debug`. -/
def checkAntiDebug (data : Bytes) : Option HeuristicResult :=
  let count := countFound data antiDbg
  if 3 ≤ count then
    some ⟨"anti_debug_techniques".toList,.medium,.evasionAmsi,ratio count antiDbg.length,
      "Multiple anti-debugging technique imports (".toList++toDecimal count++")".toList⟩
  else none

/-- A printable byte. -/
def printable (b : UInt8) : Bool := 0x20 ≤ b && b < 0x7F

/-- The loop of `check_obfuscated_strings` over `printable_runs`, `total_runs`
and `current_run`. -/
def stringLoop (printableRuns totalRuns currentRun : ℕ) : Bytes → ℕ×ℕ
  | [] => (printableRuns,totalRuns)
  | b::rest =>
    if printable b then stringLoop printableRuns totalRuns (currentRun+1) rest
    else
      stringLoop (if 4 ≤ currentRun then printableRuns+1 else printableRuns)
        (totalRuns+if 0 < currentRun then 1 else 0) 0 rest

/-- `check_obfuscated_strings`. -/
def checkObfuscatedStrings (data : Bytes) : Option HeuristicResult :=
  if data.length < 256 then none
  else
    let runs := stringLoop 0 0 0 data
    if 0 < runs.2 ∧ runs.1=0 ∧ 4096 < data.length then
      some ⟨"obfuscated_strings".toList,.medium,.suspiciousBinary,sixTenths,
        "No readable strings in binary — likely obfuscated".toList⟩
    else none

/-- `check_process_injection_api`. -/
def checkProcessInjectionApi (data : Bytes) : Option HeuristicResult :=
  let hasAlloc := findStr data (ascii "VirtualAllocEx") || findStr data (ascii "NtAllocateVirtualMemory")
  let hasWrite := findStr data (ascii "WriteProcessMemory") ||
    findStr data (ascii "NtWriteVirtualMemory")
  let hasExec := findStr data (ascii "CreateRemoteThread") ||
    findStr data (ascii "NtCreateThreadEx") || findStr data (ascii "QueueUserAPC")
  if hasAlloc && hasWrite && hasExec then
    some ⟨"classic_injection_triad".toList,.critical,.memoryInjection,ninetyFive,
      "Classic injection API triad: alloc+write+execute".toList⟩
  else none

/-- `analyze_binary`. -/
def analyzeBinary (entropy : Entropy) (data : Bytes) : List HeuristicResult :=
  (checkPackedBinary entropy data).toList++(checkSuspiciousImports data).toList++
    (checkCodeCave data).toList++(checkAntiDebug data).toList++
    (checkObfuscatedStrings data).toList++(checkProcessInjectionApi data).toList

/-- The loop of `check_pe_header` over the results. -/
def confident (results : List HeuristicResult) : Option HeuristicResult :=
  results.find? fun h => gt h.confidence sevenTenths

section Found

variable {data : Bytes}

/-- A name is found exactly when it occurs. -/
theorem findStr_iff {s : Bytes} : findStr data s=true ↔ s <:+: data := by
  simp only [findStr,List.any_eq_true,List.mem_range,decide_eq_true_eq]
  constructor
  · rintro ⟨i,-,hi⟩
    rw [←hi]
    exact (List.take_prefix s.length (data.drop i)).isInfix.trans (data.drop_suffix i).isInfix
  · rintro ⟨front,back,rfl⟩
    refine ⟨front.length,?_,?_⟩
    · simp only [List.length_append]
      omega
    · simp [slice]

/-- How many of some names occur. -/
def occurring (data : Bytes) (names : List Bytes) : ℕ :=
  names.countP fun name => decide (name <:+: data)

/-- The count of the names that are found is the count of those that occur. -/
theorem countFound_eq (names : List Bytes) : countFound data names=occurring data names := by
  unfold countFound occurring
  congr 1
  funext name
  rw [Bool.eq_iff_iff,findStr_iff,decide_eq_true_eq]

/-- The zero loop computes the longest run of zero bytes. -/
theorem zeroLoop_eq (zeroRun maxZero : ℕ) :
    zeroLoop zeroRun maxZero data=longestFrom (fun b => decide (b=0)) zeroRun maxZero data := by
  induction data generalizing zeroRun maxZero with
  | nil => rfl
  | cons b rest ih =>
    simp only [zeroLoop,longestFrom,decide_eq_true_eq]
    have hmax : (if maxZero < zeroRun+1 then zeroRun+1 else maxZero)=max maxZero (zeroRun+1) := by
      split <;> omega
    rw [ih,ih,hmax]

/-- The string loop counts the closed runs of printable bytes. -/
theorem stringLoop_eq (printableRuns totalRuns currentRun : ℕ) :
    stringLoop printableRuns totalRuns currentRun data=
      (printableRuns+(closedFrom printable currentRun data).countP fun n => decide (4 ≤ n),
        totalRuns+(closedFrom printable currentRun data).countP fun n => decide (0 < n)) := by
  induction data generalizing printableRuns totalRuns currentRun with
  | nil => rfl
  | cons b rest ih =>
    simp only [stringLoop,closedFrom]
    split
    · exact ih _ _ _
    · rw [ih,List.countP_cons,List.countP_cons]
      simp only [decide_eq_true_eq]
      split <;> split <;> simp only [Prod.mk.injEq] <;> omega

end Found

section Confidence

/-- A quotient of eight is confident from six on. -/
theorem gt_ratio_eight {count : ℕ} (h : count ≤ 8) (hmany : 3 ≤ count) :
    gt (ratio count 8) sevenTenths=decide (6 ≤ count) := by
  interval_cases count <;> decide +kernel

/-- A quotient of six is confident from five on. -/
theorem gt_ratio_six {count : ℕ} (h : count ≤ 6) (hmany : 3 ≤ count) :
    gt (ratio count 6) sevenTenths=decide (5 ≤ count) := by
  interval_cases count <;> decide +kernel

/-- Code caves and unreadable strings are not confident, the triad is. -/
theorem gt_constants : gt half sevenTenths=false ∧ gt sixTenths sevenTenths=false ∧
    gt ninetyFive sevenTenths=true := by
  decide +kernel

/-- A positive finite double is above another one exactly when its scaled
mantissa is. -/
theorem gt_finite {m m' : ℕ} {e e' : ℤ} (width range width' range') :
    gt (.finite false m e width range) (.finite false m' e' width' range')=true ↔
      m'*2^(e'+1074).toNat < m*2^(e+1074).toNat := by
  simp only [gt,ge,Bool.false_eq_true,if_false,one_mul,Nat.cast_le,Bool.and_eq_true,
    Bool.not_eq_true',decide_eq_true_eq,decide_eq_false_iff_not,not_le]
  exact ⟨fun h => h.2,fun h => ⟨h.le,h⟩⟩

/-- A negative finite double is not above a positive one. -/
theorem not_gt_negative {m m' : ℕ} {e e' : ℤ} (width range width' range') :
    gt (.finite true m e width range) (.finite false m' e' width' range')=false := by
  have hle : -(((m*2^(e+1074).toNat : ℕ) : ℤ)) ≤ ((m'*2^(e'+1074).toNat : ℕ) : ℤ) :=
    (neg_nonpos.mpr (Int.natCast_nonneg _)).trans (Int.natCast_nonneg _)
  simp only [gt,ge,if_true,Bool.false_eq_true,if_false,one_mul,neg_one_mul,decide_eq_true hle,
    Bool.not_true,Bool.and_false]

/-- An eighth of what is above 7.2 is above 0.7. -/
theorem gt_eighth {avg : Double} (h : gt avg seven2=true) :
    gt (eighth avg) sevenTenths=true := by
  rw [seven2,Double.ofScaled_eq (by decide) (by decide)] at h
  rw [sevenTenths,Double.ofScaled_eq (by decide) (by decide)]
  cases avg with
  | nan => simp [gt,ge] at h
  | infinite negative =>
    cases negative with
    | false => rfl
    | true => simp [gt,ge] at h
  | finite negative m e width range =>
    cases negative with
    | true =>
      rw [not_gt_negative] at h
      cases h
    | false =>
      have habove := (gt_finite width range _ _).mp h
      obtain ⟨n,hn,hscale,hunit⟩ : ∃ n,56 ≤ n ∧ ((-50 : ℤ)+1074).toNat=n+3 ∧
          ((-53 : ℤ)+1074).toNat=n := ⟨1021,by omega,rfl,rfl⟩
      rw [hscale,pow_add] at habove
      have hsmall : 2^56 ≤ 2^n := Nat.pow_le_pow_right (by omega) hn
      have hlarge : 3 ≤ (e+1074).toNat := by
        by_contra hlow
        have hpow : 2^(e+1074).toNat ≤ 2^2 := Nat.pow_le_pow_right (by omega) (by omega)
        have hmul : m*2^(e+1074).toNat ≤ 2^53*2^2 := Nat.mul_le_mul width.le hpow
        omega
      have hexp : -1071 ≤ e := by omega
      obtain ⟨k,hk⟩ : ∃ k,(e+1074).toNat=k+3 := ⟨(e+1074).toNat-3,by omega⟩
      have hlast : (e-3+1074).toNat=k := by omega
      rw [hk,pow_add] at habove
      simp only [eighth,dif_pos hexp]
      refine (gt_finite _ _ _ _).mpr ?_
      rw [hunit,hlast]
      generalize 2^n=unit at *
      generalize 2^k=power at *
      rw [←Nat.mul_assoc,←Nat.mul_assoc] at habove
      generalize m*power=value at *
      omega

end Confidence

section Exact

variable (entropy : Entropy) (data : Bytes)

/-- A buffer with a chunk whose chunks have an average entropy above 7.2. -/
def Packed : Prop :=
  4096 ≤ data.length ∧
    gt (entropy.average ((chunks data).map entropy.shannonEntropy)) seven2=true

/-- The longest run of zero bytes is longer than 4096 bytes and shorter than half
of the buffer. -/
def Cave : Prop :=
  ∃ n,HasRun (fun b => decide (b=0)) n data ∧ ¬HasRun (fun b => decide (b=0)) (n+1) data ∧
    4096 < n ∧ n < data.length/2

/-- Some printable byte stands before another byte, but no four in a row do. -/
def Unreadable : Prop :=
  4096 < data.length ∧ HasClosedRun printable 1 data ∧ ¬HasClosedRun printable 4 data

/-- A name for allocating, one for writing and one for executing occur. -/
def Triad : Prop :=
  (ascii "VirtualAllocEx" <:+: data ∨ ascii "NtAllocateVirtualMemory" <:+: data) ∧
    (ascii "WriteProcessMemory" <:+: data ∨ ascii "NtWriteVirtualMemory" <:+: data) ∧
    (ascii "CreateRemoteThread" <:+: data ∨ ascii "NtCreateThreadEx" <:+: data ∨
      ascii "QueueUserAPC" <:+: data)

/-- The packed rule needs one chunk. -/
theorem checkPackedBinary_isSome :
    (checkPackedBinary entropy data).isSome=true ↔ Packed entropy data := by
  have hchunks : chunks data=[] ↔ data.length < 4096 := by
    rw [chunks,List.map_eq_nil_iff,List.range_eq_nil]
    omega
  unfold checkPackedBinary Packed
  simp only [hchunks]
  split
  · simp only [Option.isSome_none,Bool.false_eq_true,false_iff]
    omega
  · split
    · simp only [Option.isSome_none,Bool.false_eq_true,false_iff]
      omega
    · split
      · rename_i habove
        simp [habove]
        omega
      · rename_i hbelow
        simp [hbelow]

/-- The cave rule measures the longest run. -/
theorem checkCodeCave_isSome : (checkCodeCave data).isSome=true ↔ Cave data := by
  have hlongest : zeroLoop 0 0 data=longest (fun b => decide (b=0)) data := zeroLoop_eq 0 0
  have hcave : Cave data ↔ 4096 < longest (fun b => decide (b=0)) data ∧
      longest (fun b => decide (b=0)) data < data.length/2 := by
    simp only [Cave,←le_longest_iff,not_le,Nat.lt_succ_iff]
    constructor
    · rintro ⟨n,hle,hge,hrest⟩
      rwa [le_antisymm hge hle]
    · exact fun h => ⟨_,le_refl _,le_refl _,h⟩
  unfold checkCodeCave
  rw [hlongest,hcave]
  split
  · simp only [Option.isSome_none,Bool.false_eq_true,false_iff]
    omega
  · dsimp only
    split <;> rename_i h <;> simp [h]

/-- The string rule misses a run that reaches the end of the buffer. -/
theorem checkObfuscatedStrings_isSome :
    (checkObfuscatedStrings data).isSome=true ↔ Unreadable data := by
  have hany : 0 < (closed printable data).countP (fun n => decide (0 < n)) ↔
      HasClosedRun printable 1 data := by
    rw [List.countP_pos_iff,←exists_closed_iff]
    simp only [decide_eq_true_eq,Nat.lt_iff_add_one_le,Nat.zero_add]
  have hlong : (closed printable data).countP (fun n => decide (4 ≤ n))=0 ↔
      ¬HasClosedRun printable 4 data := by
    rw [List.countP_eq_zero,←exists_closed_iff]
    simp only [decide_eq_true_eq,not_exists,not_and]
  unfold checkObfuscatedStrings Unreadable
  rw [stringLoop_eq,←hany,←hlong]
  simp only [closed,Nat.zero_add]
  split
  · simp only [Option.isSome_none,Bool.false_eq_true,false_iff]
    omega
  · split <;> rename_i h
    · simp only [Option.isSome_some,true_iff]
      exact ⟨h.2.2,h.1,h.2.1⟩
    · simp only [Option.isSome_none,Bool.false_eq_true,false_iff]
      exact fun hall => h ⟨hall.2.1,hall.2.2,hall.1⟩

/-- The import rule needs three names. -/
theorem checkSuspiciousImports_isSome :
    (checkSuspiciousImports data).isSome=true ↔ 3 ≤ occurring data dangerousApis := by
  unfold checkSuspiciousImports
  rw [countFound_eq]
  dsimp only
  split <;> rename_i h <;> simp [h]

/-- The debugging rule needs three names. -/
theorem checkAntiDebug_isSome :
    (checkAntiDebug data).isSome=true ↔ 3 ≤ occurring data antiDbg := by
  unfold checkAntiDebug
  rw [countFound_eq]
  dsimp only
  split <;> rename_i h <;> simp [h]

/-- The triad rule needs one name of each kind. -/
theorem checkProcessInjectionApi_isSome :
    (checkProcessInjectionApi data).isSome=true ↔ Triad data := by
  have htriad : ((findStr data (ascii "VirtualAllocEx") ||
      findStr data (ascii "NtAllocateVirtualMemory")) &&
      (findStr data (ascii "WriteProcessMemory") || findStr data (ascii "NtWriteVirtualMemory")) &&
      (findStr data (ascii "CreateRemoteThread") || findStr data (ascii "NtCreateThreadEx") ||
        findStr data (ascii "QueueUserAPC")))=true ↔ Triad data := by
    simp only [Bool.and_eq_true,Bool.or_eq_true,findStr_iff,Triad,or_assoc,and_assoc]
  unfold checkProcessInjectionApi
  dsimp only
  split <;> rename_i h <;> rw [htriad] at h <;> simp [h]

/-- The loop over the results of one rule. -/
theorem find_toList {α : Type*} (p : α → Bool) (o : Option α) : o.toList.find? p=o.filter p := by
  cases o with
  | none => rfl
  | some x => simp [Option.filter_some,List.find?_singleton]

/-- The packed rule is always confident. -/
theorem confident_packed :
    (checkPackedBinary entropy data).filter (fun h => gt h.confidence sevenTenths)=
      checkPackedBinary entropy data := by
  unfold checkPackedBinary
  dsimp only
  split
  · rfl
  · split
    · rfl
    · split
      · rename_i habove
        simp [Option.filter_some,gt_eighth habove]
      · rfl

/-- The import rule is confident with six names. -/
theorem confident_imports :
    (checkSuspiciousImports data).filter (fun h => gt h.confidence sevenTenths)=
      (checkSuspiciousImports data).filter fun _ => 6 ≤ occurring data dangerousApis := by
  have hle : occurring data dangerousApis ≤ 8 := List.countP_le_length
  have hlength : dangerousApis.length=8 := rfl
  unfold checkSuspiciousImports
  rw [countFound_eq,hlength]
  dsimp only
  split
  · rename_i hmany
    simp only [Option.filter_some,gt_ratio_eight hle hmany]
  · rfl

/-- The debugging rule is confident with five names. -/
theorem confident_antiDebug :
    (checkAntiDebug data).filter (fun h => gt h.confidence sevenTenths)=
      (checkAntiDebug data).filter fun _ => 5 ≤ occurring data antiDbg := by
  have hle : occurring data antiDbg ≤ 6 := List.countP_le_length
  have hlength : antiDbg.length=6 := rfl
  unfold checkAntiDebug
  rw [countFound_eq,hlength]
  dsimp only
  split
  · rename_i hmany
    simp only [Option.filter_some,gt_ratio_six hle hmany]
  · rfl

/-- A code cave is never confident. -/
theorem confident_cave :
    (checkCodeCave data).filter (fun h => gt h.confidence sevenTenths)=none := by
  unfold checkCodeCave
  dsimp only
  split
  · rfl
  · split
    · simp [Option.filter_some,gt_constants.1]
    · rfl

/-- Unreadable strings are never confident. -/
theorem confident_strings :
    (checkObfuscatedStrings data).filter (fun h => gt h.confidence sevenTenths)=none := by
  unfold checkObfuscatedStrings
  dsimp only
  split
  · rfl
  · split
    · simp [Option.filter_some,gt_constants.2.1]
    · rfl

/-- The triad is always confident. -/
theorem confident_triad :
    (checkProcessInjectionApi data).filter (fun h => gt h.confidence sevenTenths)=
      checkProcessInjectionApi data := by
  unfold checkProcessInjectionApi
  dsimp only
  split
  · simp [Option.filter_some,gt_constants.2.2]
  · rfl

/-- The first confident result. -/
theorem confident_eq :
    confident (analyzeBinary entropy data)=
      (checkPackedBinary entropy data).or
        (((checkSuspiciousImports data).filter fun _ => 6 ≤ occurring data dangerousApis).or
          (((checkAntiDebug data).filter fun _ => 5 ≤ occurring data antiDbg).or
            (checkProcessInjectionApi data))) := by
  simp only [confident,analyzeBinary,List.find?_append,find_toList]
  rw [confident_packed,confident_imports,confident_cave,confident_antiDebug,confident_strings,
    confident_triad]
  simp only [Option.or_none,Option.or_assoc]

/-- A result that decides is at least of medium level. -/
theorem confident_level {h : HeuristicResult}
    (found : confident (analyzeBinary entropy data)=some h) :
    ThreatLevel.medium.rank ≤ h.level.rank := by
  rw [confident_eq,Option.or_eq_some_iff,Option.or_eq_some_iff,Option.or_eq_some_iff] at found
  have hpacked : ∀ h ∈ checkPackedBinary entropy data,h.level=.medium := by
    intro h hmem
    unfold checkPackedBinary at hmem
    dsimp only at hmem
    split_ifs at hmem <;> cases hmem
    rfl
  have himports : ∀ h ∈ checkSuspiciousImports data,h.level=.high := by
    intro h hmem
    unfold checkSuspiciousImports at hmem
    dsimp only at hmem
    split_ifs at hmem <;> cases hmem
    rfl
  have hdebug : ∀ h ∈ checkAntiDebug data,h.level=.medium := by
    intro h hmem
    unfold checkAntiDebug at hmem
    dsimp only at hmem
    split_ifs at hmem <;> cases hmem
    rfl
  have htriad : ∀ h ∈ checkProcessInjectionApi data,h.level=.critical := by
    intro h hmem
    unfold checkProcessInjectionApi at hmem
    dsimp only at hmem
    split_ifs at hmem <;> cases hmem
    rfl
  rcases found with hfound | ⟨-,hfound | ⟨-,hfound | ⟨-,hfound⟩⟩⟩
  · rw [hpacked h hfound]
  · rw [himports h (Option.eq_some_of_filter_eq_some hfound)]
    decide
  · rw [hdebug h (Option.eq_some_of_filter_eq_some hfound)]
  · rw [htriad h hfound]
    decide

/-- The six rules report what they are meant to find: entropy, three of the
names, the longest zero run, unreadable strings, the triad. The verdict on an
image is the packed rule, then six of the eight imports, then five of the six
debugging names, then the triad. Code caves and unreadable strings never
decide. -/
theorem heuristics_exact :
    ((checkPackedBinary entropy data).isSome=true ↔ Packed entropy data) ∧
    ((checkSuspiciousImports data).isSome=true ↔ 3 ≤ occurring data dangerousApis) ∧
    ((checkCodeCave data).isSome=true ↔ Cave data) ∧
    ((checkAntiDebug data).isSome=true ↔ 3 ≤ occurring data antiDbg) ∧
    ((checkObfuscatedStrings data).isSome=true ↔ Unreadable data) ∧
    ((checkProcessInjectionApi data).isSome=true ↔ Triad data) ∧
    confident (analyzeBinary entropy data)=
      (checkPackedBinary entropy data).or
        (((checkSuspiciousImports data).filter fun _ => 6 ≤ occurring data dangerousApis).or
          (((checkAntiDebug data).filter fun _ => 5 ≤ occurring data antiDbg).or
            (checkProcessInjectionApi data))) := by
  refine ⟨checkPackedBinary_isSome entropy data,checkSuspiciousImports_isSome data,
    checkCodeCave_isSome data,checkAntiDebug_isSome data,checkObfuscatedStrings_isSome data,
    checkProcessInjectionApi_isSome data,confident_eq entropy data⟩

end Exact

/-- An entropy that calls every buffer random. -/
def loudEntropy : Entropy where
  shannonEntropy _ := seven2
  average _ := .infinite false

/-- The names of six dangerous imports, among them a triad. -/
def importTable : Bytes := ((dangerousApis.drop 1).take 6).flatten

/-- The names decide, before the triad does; the table is too short to count as
packed. -/
theorem importTable_decided :
    confident (analyzeBinary loudEntropy importTable)=checkSuspiciousImports importTable ∧
      (checkSuspiciousImports importTable).isSome=true ∧
      (checkProcessInjectionApi importTable).isSome=true := by
  obtain ⟨hpacked,himports,-,-,-,htriad,hverdict⟩ := heuristics_exact loudEntropy importTable
  have hcount : occurring importTable dangerousApis=6 := by decide +kernel
  have hfound : (checkSuspiciousImports importTable).isSome=true :=
    himports.mpr (by rw [hcount]; decide)
  have hshort : checkPackedBinary loudEntropy importTable=none := by
    have hsize : ¬Packed loudEntropy importTable := fun packed =>
      absurd packed.1 (by decide +kernel)
    exact Option.not_isSome_iff_eq_none.mp (mt hpacked.mp hsize)
  have htable : Triad importTable := by
    unfold Triad
    decide +kernel
  refine ⟨?_,hfound,htriad.mpr htable⟩
  obtain ⟨result,hresult⟩ := Option.isSome_iff_exists.mp hfound
  rw [hverdict,hshort,Option.none_or,hresult,hcount]
  rfl

end Gcad.HeuristicRules
