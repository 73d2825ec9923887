import Gcad.CommandRules
import Gcad.ConcatGroups

/-!
# Rules for scripts

`FilelessAstEngine::evaluate_script` of fileless_ast_engine.cpp. The rules look
for words in the lower case of the deobfuscated script. Every step of the
deobfuscation reads letters of both cases alike, so the letter case and the
backticks of a script do not change what the rules say.
-/

namespace Gcad.ScriptRules

open Common ByteView Threat CommandLine EncodedCommand TextSearch FilelessAst ConcatGroups
open CommandRules hiding evaluate outcome
open Replacement

/-- `FilelessEvaluation`. -/
structure FilelessEvaluation where
  /-- The script as it came. -/
  originalScript : Bytes := []
  /-- The script after the passes. -/
  deobfuscatedScript : Bytes := []
  /-- Some rule matched. -/
  isMalicious : Bool := false
  /-- The technique of the rule that matched. -/
  mitreTechnique : Str := []
  /-- Why it is malicious. -/
  reason : Str := []
  /-- The level of the rule that matched. -/
  severity : ThreatLevel := .safe
  /-- What the rules found. -/
  indicators : List Str := []

/-- Rule 1. -/
def reflection (lower : Bytes) (eval : FilelessEvaluation) : FilelessEvaluation :=
  if hasAny lower ["reflection.assembly","system.reflection"] && has lower "load" then
    { eval with
      isMalicious := true
      mitreTechnique := "T1059.001".toList
      severity := .critical
      reason := "In-memory reflection assembly loading (Assembly::Load)".toList
      indicators := eval.indicators++["Reflection.Assembly::Load".toList] }
  else eval

/-- Rule 2. -/
def amsiBypass (lower : Bytes) (eval : FilelessEvaluation) : FilelessEvaluation :=
  if hasAny lower ["amsiutils","amsiinitfailed","amsiscanbuffer"] then
    { eval with
      isMalicious := true
      mitreTechnique := "T1562.001".toList
      severity := .critical
      reason := "In-memory AMSI patch bypass tampering".toList
      indicators := eval.indicators++["AmsiUtils tampering".toList] }
  else eval

/-- Rule 3. -/
def downloadCradle (lower : Bytes) (eval : FilelessEvaluation) : FilelessEvaluation :=
  if hasAny lower ["downloadstring","downloadfile","downloaddata"] &&
      hasAny lower ["iex","invoke-expression"] then
    { eval with
      isMalicious := true
      mitreTechnique := "T1059.001".toList
      severity := .critical
      reason := "Deobfuscated remote download & execute cradle (IEX + DownloadString)".toList
      indicators := eval.indicators++["IEX + WebClient.DownloadString".toList] }
  else eval

/-- Rule 4. -/
def compressedPayload (lower : Bytes) (eval : FilelessEvaluation) : FilelessEvaluation :=
  if hasAny lower ["deflatestream","gzipstream"] &&
      hasAny lower ["memorystream","frombase64string"] then
    { eval with
      isMalicious := true
      mitreTechnique :=
        if eval.mitreTechnique=[] then "T1027".toList else eval.mitreTechnique
      severity := if eval.severity.rank < ThreatLevel.high.rank then .high else eval.severity
      reason :=
        if eval.reason=[] then "Compressed in-memory payload stream decompression".toList
        else eval.reason
      indicators := eval.indicators++["DeflateStream/GzipStream decompression".toList] }
  else eval

/-- Rule 5. -/
def policyBypass (lower : Bytes) (eval : FilelessEvaluation) : FilelessEvaluation :=
  if has lower "set-executionpolicy" && hasAny lower ["bypass","unrestricted"] then
    let listed := { eval with indicators := eval.indicators++["Set-ExecutionPolicy Bypass".toList] }
    if eval.severity.rank < ThreatLevel.medium.rank then
      { listed with
        severity := .medium
        reason := "PowerShell execution policy bypass attempt".toList }
    else listed
  else eval

/-- The rules on the lower case of the deobfuscated script. -/
def applyRules (lower : Bytes) (eval : FilelessEvaluation) : FilelessEvaluation :=
  policyBypass lower (compressedPayload lower (downloadCradle lower (amsiBypass lower
    (reflection lower eval))))

/-- The result of `evaluate_script`. -/
def evaluate (script : Bytes) : FilelessEvaluation :=
  let deobfuscated := deobfuscatePowershell script
  applyRules (toLowerAscii deobfuscated)
    { originalScript := script,deobfuscatedScript := deobfuscated }

/-- `FilelessAstEngine`. -/
structure FilelessAstEngine where
  /-- Started and not stopped. -/
  running : Bool
  /-- Scripts evaluated. -/
  scriptsScanned : UInt64
  /-- Those found malicious. -/
  threatsDetected : UInt64

/-- The event that `dispatch_threat` builds. -/
structure FilelessThreat where
  /-- The number of the threat. -/
  id : UInt64
  /-- The level of the rule. -/
  level : ThreatLevel
  /-- Who ran the script. -/
  processName : Str
  /-- Why it is malicious. -/
  description : Str

/-- `evaluate_script`: the engine, the result and the event that is
dispatched. -/
def evaluateScript (engine : FilelessAstEngine) (script : Bytes) :
    FilelessAstEngine×FilelessEvaluation×Option FilelessThreat :=
  let eval := evaluate script
  let counted := { engine with scriptsScanned := engine.scriptsScanned+1 }
  if eval.isMalicious && engine.running then
    ({ counted with threatsDetected := engine.threatsDetected+1 },eval,
      some ⟨engine.threatsDetected+1,eval.severity,"powershell.exe".toList,
        "Fileless Threat [".toList++eval.mitreTechnique++"]: ".toList++eval.reason⟩)
  else (counted,eval,none)

section LetterCase

/-- Characters of the syntax that are no letters have one case. -/
theorem tolower_signs (c : UInt8) : (tolower c=backtick ↔ c=backtick) ∧
    (tolower c=apostrophe ↔ c=apostrophe) ∧ (tolower c=plus ↔ c=plus) ∧
    (tolower c=0x30 ↔ c=0x30) ∧ (tolower c=0x28 ↔ c=0x28) ∧ (tolower c=0x29 ↔ c=0x29) ∧
    (tolower c=0x20 ↔ c=0x20) :=
  ⟨tolower_mark (by decide) c,tolower_mark (by decide) c,tolower_mark (by decide) c,
    tolower_mark (by decide) c,tolower_mark (by decide) c,tolower_mark (by decide) c,
    tolower_mark (by decide) c⟩

/-- The letter case does not matter to digits. -/
theorem tolower_digits (c : UInt8) : isdigit (tolower c)=isdigit c ∧
    isxdigit (tolower c)=isxdigit c ∧ digitValue (tolower c)=digitValue c ∧
    ((tolower c=0x78 ∨ tolower c=0x58) ↔ (c=0x78 ∨ c=0x58)) := by
  have hdigit : isdigit (tolower c)=isdigit c := by
    unfold isdigit tolower
    grind
  refine ⟨hdigit,?_,?_,?_⟩
  · unfold isxdigit
    rw [hdigit]
    unfold tolower
    grind
  · unfold digitValue
    rw [hdigit,tolower_tolower]
    split
    · next h =>
      have hfixed : tolower c=c := by
        unfold isdigit at h
        unfold tolower
        grind
      rw [hfixed]
    · rfl
  · unfold tolower
    grind

/-- The backticks that are stripped are the same in lower case. -/
theorem stripBackticks_lower (s : Bytes) :
    stripBackticks (toLowerAscii s)=toLowerAscii (stripBackticks s) := by
  induction s with
  | nil => rfl
  | cons c rest ih =>
    cases rest with
    | nil => rfl
    | cons n rest =>
      have hcons : toLowerAscii (c::n::rest)=tolower c::tolower n::toLowerAscii rest := rfl
      have hrest : toLowerAscii (n::rest)=tolower n::toLowerAscii rest := rfl
      rw [hrest] at ih
      rw [hcons,stripBackticks,stripBackticks]
      simp only [(tolower_signs c).1,isalnum_tolower,ih]
      split <;> rfl

/-- The letter case does not matter to a number. -/
theorem stoi_lower (base : ℕ) (digits : Bytes) :
    stoi base (toLowerAscii digits)=stoi base digits := by
  rw [stoi,toLowerAscii,List.foldl_map]
  simp only [(tolower_digits _).2.2.1]
  rfl

/-- The letter case does not matter to the number behind a cast. -/
theorem castNumber_lower (text : Bytes) : castNumber (toLowerAscii text)=castNumber text := by
  have hdecimal : ∀ s : Bytes,((toLowerAscii s).takeWhile isdigit).length=
      (s.takeWhile isdigit).length ∧ stoi 10 ((toLowerAscii s).takeWhile isdigit)=
        stoi 10 (s.takeWhile isdigit) := by
    intro s
    rw [takeWhile_lower fun c => (tolower_digits c).1,toLowerAscii_length,stoi_lower]
    exact ⟨rfl,rfl⟩
  match text with
  | [] => rfl
  | [a] => exact Prod.ext (hdecimal [a]).1 (hdecimal [a]).2
  | [a,b] => exact Prod.ext (hdecimal [a,b]).1 (hdecimal [a,b]).2
  | zero::x::c::rest =>
    have hcons : toLowerAscii (zero::x::c::rest)=
        tolower zero::tolower x::tolower c::toLowerAscii rest := rfl
    have hhex : (tolower c::toLowerAscii rest).takeWhile isxdigit=
        toLowerAscii ((c::rest).takeWhile isxdigit) :=
      takeWhile_lower (fun c => (tolower_digits c).2.1) (c::rest)
    have hall := hdecimal (zero::x::c::rest)
    rw [hcons] at hall ⊢
    rw [castNumber,castNumber]
    simp only [(tolower_signs zero).2.2.2.1,(tolower_digits x).2.2.2,hhex,toLowerAscii_length,
      stoi_lower,hall.1,hall.2]

/-- The cast at the start of a text is the same in lower case. -/
theorem castAt_lower (text : Bytes) :
    castAt (toLowerAscii text)=(castAt text).map fun found => (found.1,toLowerAscii found.2) := by
  have htake : (toLowerAscii text).take 6=toLowerAscii (text.take 6) := List.map_take.symm
  have hdrop : ∀ (n : ℕ) (s : Bytes),(toLowerAscii s).drop n=toLowerAscii (s.drop n) :=
    fun n s => List.map_drop.symm
  have hopen : ∀ c,(decide (tolower c=0x20) || decide (tolower c=0x28))=
      (decide (c=0x20) || decide (c=0x28)) := by
    intro c
    simp only [(tolower_signs c).2.2.2.2.2.2,(tolower_signs c).2.2.2.2.1]
  rw [castAt,castAt,htake,toLowerAscii_idem,toLowerAscii_length,hdrop,dropWhile_lower hopen]
  split
  · simp only [castNumber_lower]
    generalize (text.drop 6).dropWhile (fun c => decide (c=0x20) || decide (c=0x28))=number
    rw [hdrop]
    split
    · cases hbehind : number.drop (castNumber number).1 with
      | nil => rfl
      | cons c rest =>
        have hcons : toLowerAscii (c::rest)=tolower c::toLowerAscii rest := rfl
        rw [hcons]
        simp only [(tolower_signs c).2.2.2.2.2.1]
        split <;> rfl
    · rfl
  · rfl

/-- A cast is replaced by its character. -/
theorem charCasts_some {text rest : Bytes} {val : UInt8} (h : castAt text=some (val,rest)) :
    deobfuscateCharCasts text=val::deobfuscateCharCasts rest := by
  rw [deobfuscateCharCasts]
  split
  · next found heq =>
    rw [h] at heq
    cases heq
    rfl
  · next heq =>
    rw [h] at heq
    cases heq

/-- Every other character stays. -/
theorem charCasts_cons {c : UInt8} {rest : Bytes} (h : castAt (c::rest)=none) :
    deobfuscateCharCasts (c::rest)=c::deobfuscateCharCasts rest := by
  rw [deobfuscateCharCasts]
  split
  · next heq =>
    rw [h] at heq
    cases heq
  · rfl

/-- Casts in a text in lower case give the same letters. -/
theorem charCasts_lower (text : Bytes) :
    toLowerAscii (deobfuscateCharCasts (toLowerAscii text))=
      toLowerAscii (deobfuscateCharCasts text) := by
  induction text using deobfuscateCharCasts.induct with
  | case1 text val rest hcast ih =>
    have hlower := castAt_lower text
    rw [hcast] at hlower
    rw [charCasts_some hcast,charCasts_some hlower]
    exact congrArg (tolower val::·) ih
  | case2 hcast => rfl
  | case3 c rest hcast ih =>
    have hlower := castAt_lower (c::rest)
    rw [hcast] at hlower
    rw [charCasts_cons hcast]
    have hcons : deobfuscateCharCasts (toLowerAscii (c::rest))=
        tolower c::deobfuscateCharCasts (toLowerAscii rest) := charCasts_cons hlower
    rw [hcons]
    have hhead : tolower (tolower c)=tolower c := tolower_tolower c
    simpa only [toLowerAscii,List.map_cons,hhead,List.cons.injEq,true_and] using ih

/-- The closing quote is the same in lower case. -/
theorem findQuote_lower {q : UInt8} (h : ∀ c,tolower c=q ↔ c=q) (text : Bytes) :
    findQuote q (toLowerAscii text)=
      (findQuote q text).map fun found => (toLowerAscii found.1,toLowerAscii found.2) := by
  induction text with
  | nil => rfl
  | cons c rest ih =>
    have hcons : toLowerAscii (c::rest)=tolower c::toLowerAscii rest := rfl
    rw [hcons,findQuote,findQuote,ih]
    simp only [h]
    split
    · rfl
    · rw [Option.map_map,Option.map_map]
      rfl

/-- The literal at the start of a text is the same in lower case. -/
theorem literalAt_lower (text : Bytes) :
    literalAt (toLowerAscii text)=
      (literalAt text).map fun found => (toLowerAscii found.1,toLowerAscii found.2) := by
  cases text with
  | nil => rfl
  | cons c rest =>
    have hcons : toLowerAscii (c::rest)=tolower c::toLowerAscii rest := rfl
    rw [hcons,literalAt,literalAt]
    simp only [(tolower_signs c).2.1,(tolower_marks c).1]
    split
    · rename_i hquote
      have hsame : tolower c=c := by
        rcases hquote with rfl | rfl <;> rfl
      have hclass : ∀ b,tolower b=c ↔ b=c := by
        intro b
        rcases hquote with rfl | rfl
        · exact (tolower_signs b).2.1
        · exact (tolower_marks b).1
      rw [hsame,findQuote_lower hclass]
    · rfl

/-- The plus sign is the same in lower case. -/
theorem plusAt_lower (text : Bytes) :
    plusAt (toLowerAscii text)=(plusAt text).map toLowerAscii := by
  cases text with
  | nil => rfl
  | cons c rest =>
    have hcons : toLowerAscii (c::rest)=tolower c::toLowerAscii rest := rfl
    rw [hcons,plusAt,plusAt]
    simp only [(tolower_signs c).2.2.1]
    split <;> rfl

/-- Two literals at the start of a text are merged in lower case. -/
theorem mergeAt_lower (text : Bytes) :
    mergeAt (toLowerAscii text)=
      (mergeAt text).map fun found => (toLowerAscii found.1,toLowerAscii found.2) := by
  simp only [mergeAt,Option.bind_eq_bind,Option.pure_def,literalAt_lower]
  cases literalAt text with
  | none => rfl
  | some first =>
    simp only [Option.map_some,Option.bind_some,dropWhile_lower isspace_tolower,plusAt_lower]
    cases plusAt (first.2.dropWhile isspace) with
    | none => rfl
    | some operand =>
      simp only [Option.map_some,Option.bind_some,dropWhile_lower isspace_tolower,literalAt_lower]
      cases literalAt (operand.dropWhile isspace) with
      | none => rfl
      | some second =>
        simp only [Option.map_some,Option.bind_some,toLowerAscii_append]

/-- Concatenations in a text in lower case. -/
theorem stringConcat_lower (text : Bytes) :
    deobfuscateStringConcat (toLowerAscii text)=toLowerAscii (deobfuscateStringConcat text) := by
  induction text using deobfuscateStringConcat.induct with
  | case1 text content rest hmerge ih =>
    have hlower := mergeAt_lower text
    rw [hmerge] at hlower
    have hliteral : literal (toLowerAscii content)=toLowerAscii (literal content) := by
      simp [literal,toLowerAscii,tolower,apostrophe]
    rw [concat_merged hmerge,concat_merged hlower,ih,hliteral,toLowerAscii_append]
  | case2 hmerge =>
    have hnil : deobfuscateStringConcat []=[] := by
      rw [deobfuscateStringConcat]
      split
      · next heq => cases heq
      · rfl
    have hlower : toLowerAscii []=[] := rfl
    rw [hlower,hnil]
    rfl
  | case3 c rest hmerge ih =>
    have hlower := mergeAt_lower (c::rest)
    rw [hmerge] at hlower
    have hcons : deobfuscateStringConcat (toLowerAscii (c::rest))=
        tolower c::deobfuscateStringConcat (toLowerAscii rest) := concat_cons hlower
    rw [concat_cons hmerge,hcons,ih]
    rfl

/-- Replacing in a text in lower case. -/
theorem replaceFrom_lower {needle image : Bytes} (h : toLowerAscii image=image) (skip : ℕ)
    (s : Bytes) : replaceFrom tolower needle image skip (toLowerAscii s)=
      toLowerAscii (replaceFrom tolower needle image skip s) := by
  induction s generalizing skip with
  | nil => cases skip <;> rfl
  | cons c rest ih =>
    have hcons : toLowerAscii (c::rest)=tolower c::toLowerAscii rest := rfl
    cases skip with
    | succ skip =>
      rw [hcons,replaceFrom,replaceFrom]
      exact ih skip
    | zero =>
      have hkey : (tolower c::toLowerAscii rest).map tolower=(c::rest).map tolower :=
        toLowerAscii_idem (c::rest)
      rw [hcons,replaceFrom,replaceFrom,hkey,ih,ih]
      split
      · rw [toLowerAscii_append,h]
      · rfl

/-- Reversals in a text in lower case. -/
theorem reversePatterns_lower (s : Bytes) :
    deobfuscateReversePatterns (toLowerAscii s)=toLowerAscii (deobfuscateReversePatterns s) := by
  have hfold : ∀ (pairs : List (Bytes×Bytes)) (s : Bytes),(∀ pair ∈ pairs,Reversal pair) →
      reversals pairs (toLowerAscii s)=toLowerAscii (reversals pairs s) := by
    intro pairs s h
    induction pairs generalizing s with
    | nil => rfl
    | cons pair pairs ih =>
      have hnext := ih (replaceFrom tolower pair.1 pair.2 0 s) fun other member =>
        h other (List.mem_cons_of_mem _ member)
      rw [←replaceFrom_lower (h pair List.mem_cons_self).lower] at hnext
      exact hnext
  rw [deobfuscateReversePatterns_eq,deobfuscateReversePatterns_eq]
  exact hfold _ _ fun _ => knownReversals_reversal

/-- The deobfuscated script in lower case depends on the lower case of the
script only. -/
theorem deobfuscate_lower {s t : Bytes} (h : toLowerAscii t=toLowerAscii s) :
    toLowerAscii (deobfuscatePowershell t)=toLowerAscii (deobfuscatePowershell s) := by
  have hcanonical : ∀ s : Bytes,toLowerAscii (deobfuscatePowershell s)=
      deobfuscateReversePatterns (deobfuscateStringConcat (deobfuscateStringConcat
        (toLowerAscii (deobfuscateCharCasts (stripBackticks (toLowerAscii s)))))) := by
    intro s
    rw [stripBackticks_lower,charCasts_lower,stringConcat_lower,stringConcat_lower,
      reversePatterns_lower]
    rfl
  rw [hcanonical,hcanonical,h]

end LetterCase

section Backticks

/-- A script with single backticks in front of some letters and digits. -/
inductive Ticked : Bytes → Bytes → Prop where
  /-- The empty script. -/
  | nil : Ticked [] []
  /-- A character without a backtick. -/
  | keep (c : UInt8) {s u : Bytes} : Ticked s u → Ticked (c::s) (c::u)
  /-- A character with a backtick. -/
  | tick {c : UInt8} {s u : Bytes} : isalnum c=true → Ticked s u → Ticked (c::s) (backtick::c::u)

/-- Any other character than a backtick stays. -/
theorem stripBackticks_cons {c : UInt8} (h : c≠backtick) (rest : Bytes) :
    stripBackticks (c::rest)=c::stripBackticks rest := by
  cases rest with
  | nil => rfl
  | cons n rest => rw [stripBackticks,if_neg fun hboth => h hboth.1]

/-- The backticks are stripped. -/
theorem Ticked.strip {s u : Bytes} (h : Ticked s u) (hfree : backtick ∉ s) :
    stripBackticks u=s := by
  induction h with
  | nil => rfl
  | keep c _ ih =>
    have hc : c≠backtick := fun heq => hfree (heq ▸ List.mem_cons_self)
    rw [stripBackticks_cons hc,ih fun member => hfree (List.mem_cons_of_mem _ member)]
  | @tick c s u hletter _ ih =>
    have hc : c≠backtick := fun heq => hfree (heq ▸ List.mem_cons_self)
    rw [stripBackticks,if_pos ⟨rfl,hletter⟩,stripBackticks_cons hc,
      ih fun member => hfree (List.mem_cons_of_mem _ member)]

/-- A backtick in front of every letter and digit. -/
def tickAll (s : Bytes) : Bytes := s.flatMap fun c => if isalnum c then [backtick,c] else [c]

/-- This is one way to put backticks into a script. -/
theorem tickAll_ticked (s : Bytes) : Ticked s (tickAll s) := by
  induction s with
  | nil => exact .nil
  | cons c s ih =>
    rw [tickAll,List.flatMap_cons]
    split
    · rename_i hletter
      exact .tick hletter ih
    · exact .keep c ih

/-- Backticks in front of letters do not change the deobfuscated script. -/
theorem Ticked.deobfuscate {s u : Bytes} (h : Ticked s u) (hfree : backtick ∉ s) :
    deobfuscatePowershell u=deobfuscatePowershell s := by
  unfold deobfuscatePowershell
  rw [h.strip hfree,stripBackticks_eq hfree]

end Backticks

section Outcome

/-- What the rules say about a script: everything but its texts. -/
def outcome (eval : FilelessEvaluation) : FilelessEvaluation :=
  { eval with originalScript := [],deobfuscatedScript := [] }

/-- The rules do not look at the texts of the result. -/
theorem applyRules_outcome (lower : Bytes) (eval : FilelessEvaluation) :
    outcome (applyRules lower eval)=applyRules lower (outcome eval) := by
  have hreflection : ∀ eval,outcome (reflection lower eval)=reflection lower (outcome eval) := by
    intro eval
    unfold reflection
    split <;> rfl
  have hamsi : ∀ eval,outcome (amsiBypass lower eval)=amsiBypass lower (outcome eval) := by
    intro eval
    unfold amsiBypass
    split <;> rfl
  have hcradle : ∀ eval,outcome (downloadCradle lower eval)=downloadCradle lower (outcome eval) := by
    intro eval
    unfold downloadCradle
    split <;> rfl
  have hpayload : ∀ eval,
      outcome (compressedPayload lower eval)=compressedPayload lower (outcome eval) := by
    intro eval
    unfold compressedPayload
    split <;> rfl
  have hpolicy : ∀ eval,outcome (policyBypass lower eval)=policyBypass lower (outcome eval) := by
    intro eval
    unfold policyBypass
    split
    · by_cases hlow : eval.severity.rank < ThreatLevel.medium.rank
      · simp only [outcome,hlow,if_true]
      · simp only [outcome,hlow,if_false]
    · rfl
  unfold applyRules
  rw [hpolicy,hpayload,hcradle,hamsi,hreflection]

end Outcome

section Levels

/-- A malicious script is at least of high level. -/
def Graded (eval : FilelessEvaluation) : Prop :=
  eval.isMalicious=true → ThreatLevel.high.rank ≤ eval.severity.rank

/-- The rules keep the grade. -/
theorem applyRules_graded {lower : Bytes} {eval : FilelessEvaluation} (h : Graded eval) :
    Graded (applyRules lower eval) := by
  have hcritical : ThreatLevel.high.rank ≤ ThreatLevel.critical.rank := by decide
  have hreflection : Graded (reflection lower eval) := by
    unfold reflection
    split
    · exact fun _ => hcritical
    · exact h
  have hamsi : Graded (amsiBypass lower (reflection lower eval)) := by
    unfold amsiBypass
    split
    · exact fun _ => hcritical
    · exact hreflection
  have hcradle : Graded (downloadCradle lower (amsiBypass lower (reflection lower eval))) := by
    unfold downloadCradle
    split
    · exact fun _ => hcritical
    · exact hamsi
  unfold applyRules
  generalize downloadCradle lower (amsiBypass lower (reflection lower eval))=third at hcradle ⊢
  have hpayload : Graded (compressedPayload lower third) := by
    unfold compressedPayload
    split
    · intro _
      dsimp only
      split
      · exact le_refl _
      · omega
    · exact hcradle
  generalize compressedPayload lower third=fourth at hpayload ⊢
  unfold policyBypass
  split
  · have horder : ThreatLevel.medium.rank < ThreatLevel.high.rank := by decide
    dsimp only
    split
    · rename_i hlow
      intro hmalicious
      have hgrade := hpayload hmalicious
      omega
    · exact hpayload
  · exact hpayload

/-- A malicious script is at least of high level. -/
theorem evaluate_level {script : Bytes} (h : (evaluate script).isMalicious=true) :
    ThreatLevel.high.rank ≤ (evaluate script).severity.rank := by
  have hstart : Graded ⟨script,deobfuscatePowershell script,false,[],[],.safe,[]⟩ := by
    intro hfalse
    cases hfalse
  exact applyRules_graded hstart h

end Levels

/-- Letter case and single backticks in front of letters and digits do not
change what the rules say about a script that has no backticks of its own. -/
theorem script_spelling {s u t : Bytes} (hfree : backtick ∉ s) (ticked : Ticked s u)
    (hcase : toLowerAscii t=toLowerAscii u) : outcome (evaluate t)=outcome (evaluate s) := by
  have hlower : toLowerAscii (deobfuscatePowershell t)=toLowerAscii (deobfuscatePowershell s) := by
    rw [deobfuscate_lower hcase,ticked.deobfuscate hfree]
  unfold evaluate
  dsimp only
  rw [applyRules_outcome,applyRules_outcome,hlower]
  rfl

/-- A download cradle in lower case with backticks everywhere is one. -/
theorem script_spelling_cradle :
    outcome (evaluate (toLowerAscii (tickAll (ascii "IEX (DownloadString)"))))=
      outcome (evaluate (ascii "IEX (DownloadString)")) :=
  script_spelling (by decide +kernel) (tickAll_ticked _) (toLowerAscii_idem _)

end Gcad.ScriptRules
