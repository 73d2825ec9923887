import Gcad.EncodedCommand
import Gcad.Threat

/-!
# Rules for command lines

`LolbinsEngine::evaluate_command_line` and `inspect_lnk_file` of
lolbins_engine.cpp. The rules look for words in the lower case of the
normalised line, so carets and letter case do not hide a command. A shortcut is
read without its zero bytes, so both encodings of its arguments read the same.
-/

namespace Gcad.CommandRules

open Common ByteView Threat CommandLine EncodedCommand TextSearch Insertions

/-- `LolbinExecution`. -/
structure LolbinExecution where
  /-- The process that was started. -/
  pid : UInt32 := 0
  /-- The name of its image. -/
  binaryName : Bytes := []
  /-- The command line as it came. -/
  commandLine : Bytes := []
  /-- The command line without the tricks of the shell. -/
  normalizedCommandLine : Bytes := []
  /-- What its encoded command decodes to. -/
  decodedPayload : Bytes := []
  /-- Some rule matched. -/
  isMalicious : Bool := false
  /-- The technique of the rule that matched. -/
  mitreTechnique : Str := []
  /-- Why it is malicious. -/
  reason : Str := []
  /-- The level of the rule that matched. -/
  severity : ThreatLevel := .safe

/-- What a rule says about a command. -/
structure Rule where
  /-- The technique. -/
  mitreTechnique : Str
  /-- The level. -/
  severity : ThreatLevel
  /-- What the finding is described as. -/
  reason : Str
  deriving DecidableEq

/-- `text.find(word) != npos`. -/
def has (text : Bytes) (word : String) : Bool := (findSub (ascii word) text).isSome

/-- One of some words is found. -/
def hasAny (text : Bytes) (words : List String) : Bool := words.any (has text)

/-- `get_filename_only`. -/
def getFilenameOnly (path : Bytes) : Bytes :=
  (path.reverse.takeWhile fun c => decide (c≠0x2F ∧ c≠0x5C)).reverse

/-- The branch for `certutil`. -/
def certutil (cmd : Bytes) : Option Rule :=
  if hasAny cmd ["-urlcache","/urlcache"] then
    some ⟨"T1105".toList,.high,"certutil.exe -urlcache file download abuse".toList⟩
  else if hasAny cmd ["-decode","/decode","-decodehex"] then
    some ⟨"T1140".toList,.high,"certutil.exe payload deobfuscation/decoding abuse".toList⟩
  else none

/-- The branch for `mshta`. -/
def mshta (cmd : Bytes) : Option Rule :=
  if hasAny cmd ["javascript:","vbscript:","about:","http://","https://"] then
    some ⟨"T1218.005".toList,.critical,"mshta.exe inline or remote script execution".toList⟩
  else none

/-- The branch for `regsvr32`. -/
def regsvr32 (cmd : Bytes) : Option Rule :=
  if hasAny cmd ["/i:http:","/i:https:","scrobj.dll"] && hasAny cmd ["/s","-s"] then
    some ⟨"T1218.010".toList,.critical,
      "regsvr32.exe Squiblydoo remote scriptlet execution".toList⟩
  else none

/-- The branch for `rundll32`. -/
def rundll32 (cmd : Bytes) : Option Rule :=
  if hasAny cmd ["javascript:","shell32.dll,control_rundll","\\temp\\","\\appdata\\"] then
    some ⟨"T1218.011".toList,.high,
      "rundll32.exe suspicious DLL path or inline script execution".toList⟩
  else none

/-- The branch for `wmic`. -/
def wmic (cmd : Bytes) : Option Rule :=
  if hasAny cmd ["process call create","/node:"] then
    some ⟨"T1047".toList,.high,"wmic.exe process call create or remote node execution".toList⟩
  else none

/-- The branch for `bitsadmin`. -/
def bitsadmin (cmd : Bytes) : Option Rule :=
  if hasAny cmd ["/transfer","/create"] && hasAny cmd ["http://","https://"] then
    some ⟨"T1197".toList,.high,"bitsadmin.exe remote file transfer abuse".toList⟩
  else none

/-- The branch for `powershell` and `pwsh`, with the decoded command if there is
one. -/
def powershell (cmd : Bytes) : Option Bytes → Option Rule
  | some decoded =>
    if hasAny (toLowerAscii decoded) ["iex","invoke-expression","downloadstring","downloadfile",
        "webclient","start-process","reflection.assembly"] then
      some ⟨"T1059.001".toList,.critical,
        "PowerShell encoded download cradle / reflective loader execution".toList⟩
    else none
  | none =>
    if hasAny cmd ["downloadstring","downloadfile","invoke-webrequest"] &&
        hasAny cmd ["iex","invoke-expression"] then
      some ⟨"T1059.001".toList,.critical,"PowerShell direct WebClient download cradle".toList⟩
    else none

/-- The binary is PowerShell and none that an earlier branch takes. -/
def isShell (bin : Bytes) : Bool :=
  !hasAny bin ["certutil","mshta","regsvr32","rundll32","wmic","bitsadmin"] &&
    hasAny bin ["powershell","pwsh"]

/-- The branches on the lower case of the binary and of the line. -/
def ruleFor (bin cmd : Bytes) (decoded : Option Bytes) : Option Rule :=
  if has bin "certutil" then certutil cmd
  else if has bin "mshta" then mshta cmd
  else if has bin "regsvr32" then regsvr32 cmd
  else if has bin "rundll32" then rundll32 cmd
  else if has bin "wmic" then wmic cmd
  else if has bin "bitsadmin" then bitsadmin cmd
  else if hasAny bin ["powershell","pwsh"] then powershell cmd decoded
  else none

/-- The rule that `evaluate_command_line` applies. -/
def verdict (binaryName cmdline : Bytes) : Option Rule :=
  let normalized := normalizeCommandLine cmdline
  ruleFor (toLowerAscii (getFilenameOnly binaryName)) (toLowerAscii normalized)
    (extractAndDecodeEncodedCommand normalized)

/-- The result of `evaluate_command_line`. -/
def evaluate (pid : UInt32) (binaryName cmdline : Bytes) : LolbinExecution :=
  let normalized := normalizeCommandLine cmdline
  let exec : LolbinExecution :=
    { pid := pid
      binaryName := getFilenameOnly binaryName
      commandLine := cmdline
      normalizedCommandLine := normalized
      decodedPayload :=
        if isShell (toLowerAscii (getFilenameOnly binaryName)) then
          (extractAndDecodeEncodedCommand normalized).getD []
        else [] }
  match verdict binaryName cmdline with
  | some rule =>
    { exec with
      isMalicious := true
      mitreTechnique := rule.mitreTechnique
      reason := rule.reason
      severity := rule.severity }
  | none => exec

/-- `LolbinsEngine`. -/
structure LolbinsEngine where
  /-- Started and not stopped. -/
  running : Bool
  /-- Command lines evaluated. -/
  evaluationsCount : UInt64
  /-- Those found malicious. -/
  threatsDetected : UInt64

/-- The event that `dispatch_threat` builds. -/
structure LolbinThreat where
  /-- The number of the threat. -/
  id : UInt64
  /-- The level of the rule. -/
  level : ThreatLevel
  /-- The process that was started. -/
  processId : UInt32
  /-- The name of its image. -/
  processName : Bytes
  /-- The parts of `description`: technique, reason and command line. -/
  description : Str×Str×Bytes

/-- `evaluate_command_line`: the engine, the result and the event that is
dispatched. -/
def evaluateCommandLine (engine : LolbinsEngine) (pid : UInt32) (binaryName cmdline : Bytes) :
    LolbinsEngine×LolbinExecution×Option LolbinThreat :=
  let exec := evaluate pid binaryName cmdline
  let counted := { engine with evaluationsCount := engine.evaluationsCount+1 }
  if exec.isMalicious && engine.running then
    ({ counted with threatsDetected := engine.threatsDetected+1 },exec,
      some ⟨engine.threatsDetected+1,exec.severity,exec.pid,exec.binaryName,
        exec.mitreTechnique,exec.reason,exec.normalizedCommandLine⟩)
  else (counted,exec,none)

/-- What the first loop of `inspect_lnk_file` keeps of a byte. -/
def extracted (c : UInt8) : Option UInt8 :=
  if 32 ≤ c ∧ c ≤ 126 then some c else if c=0 then none else some blank

/-- `suspicious_bins`. -/
def suspiciousBins : List (Bytes×Bytes) :=
  [(ascii "powershell",ascii "powershell.exe"),(ascii "cmd.exe",ascii "cmd.exe"),
    (ascii "mshta",ascii "mshta.exe"),(ascii "certutil",ascii "certutil.exe"),
    (ascii "cscript",ascii "cscript.exe"),(ascii "wscript",ascii "wscript.exe")]

/-- The command that the loop over `suspicious_bins` evaluates for a needle. -/
def shortcutCommand (text : Bytes) (bin : Bytes×Bytes) : Option LolbinExecution :=
  (findSub bin.1 (toLowerAscii text)).map fun pos => evaluate 0 bin.2 (slice text pos 512)

/-- `inspect_lnk_file` of the content of the file, if it can be opened. -/
def inspectLnkFile (content : Option Bytes) : Option LolbinExecution :=
  match content with
  | none => none
  | some buf =>
    if buf.length < 76 ∨ 10*1024*1024 < buf.length then none
    else
      ((suspiciousBins.filterMap (shortcutCommand (buf.filterMap extracted))).find? fun exec =>
        exec.isMalicious).map fun exec =>
          { exec with reason := "Weaponized LNK shortcut: ".toList++exec.reason }

section LetterCase

/-- The letter case does not matter to spaces. -/
theorem isspace_tolower (c : UInt8) : isspace (tolower c)=isspace c := by
  unfold isspace tolower
  grind

/-- The letter case does not matter to letters and digits. -/
theorem isalnum_tolower (c : UInt8) : isalnum (tolower c)=isalnum c := by
  unfold isalnum tolower
  grind

/-- The lower case has no upper case letters. -/
theorem tolower_tolower (c : UInt8) : tolower (tolower c)=tolower c := by
  unfold tolower
  grind

/-- Letters of both cases are digits of Base64. -/
theorem letter_alphabet : ∀ c : UInt8,0x41 ≤ c → c ≤ 0x5A →
    c ∈ Base64.alphabet ∧ c+0x20 ∈ Base64.alphabet := by
  decide +kernel

/-- The letter case does not matter to the digits of Base64. -/
theorem alphabet_tolower (c : UInt8) : tolower c ∈ Base64.alphabet ↔ c ∈ Base64.alphabet := by
  unfold tolower
  split
  · next h =>
    obtain ⟨hupper,hlower⟩ := letter_alphabet c h.1 h.2
    exact iff_of_true hlower hupper
  · rfl

/-- A character that is no letter has one case. -/
theorem tolower_mark {mark : UInt8} (h : mark < 0x41 ∨ 0x5A < mark ∧ mark < 0x61) (c : UInt8) :
    tolower c=mark ↔ c=mark := by
  unfold tolower
  grind

/-- Characters that are no letters have one case. -/
theorem tolower_marks (c : UInt8) : (tolower c=quote ↔ c=quote) ∧
    (tolower c=Base64.pad ↔ c=Base64.pad) ∧ (tolower c=0x2F ↔ c=0x2F) ∧
    (tolower c=0x5C ↔ c=0x5C) :=
  ⟨tolower_mark (by decide) c,tolower_mark (by decide) c,tolower_mark (by decide) c,
    tolower_mark (by decide) c⟩

/-- The letter case does not matter to the characters of a token. -/
theorem tokenChar_tolower (c : UInt8) : tokenChar (tolower c)=tokenChar c := by
  simp only [tokenChar,isspace_tolower,ne_eq,(tolower_marks c).1]

/-- The lower case of the lower case. -/
theorem toLowerAscii_idem (s : Bytes) : toLowerAscii (toLowerAscii s)=toLowerAscii s := by
  simp only [toLowerAscii,List.map_map]
  exact List.map_congr_left fun c _ => tolower_tolower c

/-- A front that a class of characters cuts is cut at the same place in lower
case. -/
theorem takeWhile_lower {p : UInt8 → Bool} (h : ∀ c,p (tolower c)=p c) (s : Bytes) :
    (toLowerAscii s).takeWhile p=toLowerAscii (s.takeWhile p) := by
  have hp : p∘tolower=p := funext h
  rw [toLowerAscii,List.takeWhile_map,hp]
  rfl

/-- The same for what follows. -/
theorem dropWhile_lower {p : UInt8 → Bool} (h : ∀ c,p (tolower c)=p c) (s : Bytes) :
    (toLowerAscii s).dropWhile p=toLowerAscii (s.dropWhile p) := by
  have hp : p∘tolower=p := funext h
  rw [toLowerAscii,List.dropWhile_map,hp]
  rfl

/-- Collapsing spaces keeps the letters. -/
theorem collapse_lower (lastSpace : Bool) (s : Bytes) :
    collapse lastSpace (toLowerAscii s)=toLowerAscii (collapse lastSpace s) := by
  induction s generalizing lastSpace with
  | nil => rfl
  | cons c rest ih =>
    have hcons : toLowerAscii (c::rest)=tolower c::toLowerAscii rest := rfl
    rw [hcons,collapse,collapse,isspace_tolower]
    split
    · split
      · exact ih true
      · rw [ih]
        rfl
    · rw [ih]
      rfl

/-- The letter case does not matter to a quote inside a word. -/
theorem wordQuote_lower (s : Bytes) : WordQuote (toLowerAscii s) ↔ WordQuote s := by
  constructor
  · rintro ⟨a,b,ha,hb,hinside⟩
    obtain ⟨front,back,hs⟩ := hinside
    obtain ⟨x,y,rfl,hx,-⟩ := List.map_eq_append_iff.mp hs.symm
    obtain ⟨v,w,rfl,-,hw⟩ := List.map_eq_append_iff.mp hx
    obtain ⟨p,tail,rfl,rfl,htail⟩ := List.map_eq_cons_iff.mp hw
    obtain ⟨q,last,rfl,hq,hlast⟩ := List.map_eq_cons_iff.mp htail
    obtain ⟨r,rest,rfl,rfl,hrest⟩ := List.map_eq_cons_iff.mp hlast
    obtain rfl := List.map_eq_nil_iff.mp hrest
    rw [(tolower_marks q).1] at hq
    rw [isalnum_tolower] at ha hb
    subst hq
    exact ⟨p,r,ha,hb,v,y,rfl⟩
  · rintro ⟨a,b,ha,hb,hinside⟩
    refine ⟨tolower a,tolower b,?_,?_,hinside.map tolower⟩
    · rwa [isalnum_tolower]
    · rwa [isalnum_tolower]

/-- The file name in lower case. -/
theorem getFilenameOnly_lower (path : Bytes) :
    getFilenameOnly (toLowerAscii path)=toLowerAscii (getFilenameOnly path) := by
  have hclass : ∀ c,decide (tolower c≠0x2F ∧ tolower c≠0x5C)=decide (c≠0x2F ∧ c≠0x5C) := by
    intro c
    simp only [ne_eq,(tolower_marks c).2.2.1,(tolower_marks c).2.2.2]
  have hreverse : (toLowerAscii path).reverse=toLowerAscii path.reverse := List.map_reverse.symm
  rw [getFilenameOnly,hreverse,takeWhile_lower hclass]
  exact List.map_reverse.symm

/-- The token in lower case. -/
theorem tokenAt_lower (cmdline : Bytes) (start : ℕ) :
    tokenAt (toLowerAscii cmdline) start=toLowerAscii (tokenAt cmdline start) := by
  have hdrop : (toLowerAscii cmdline).drop start=toLowerAscii (cmdline.drop start) :=
    List.map_drop.symm
  rw [tokenAt,hdrop,dropWhile_lower isspace_tolower,takeWhile_lower tokenChar_tolower]
  rfl

/-- The letter case does not matter to how many digits a token has. -/
theorem digits_lower (token : Bytes) :
    (digits (toLowerAscii token)).length=(digits token).length := by
  have hpad : ∀ c,decide (tolower c≠Base64.pad)=decide (c≠Base64.pad) := by
    intro c
    simp only [ne_eq,(tolower_marks c).2.1]
  have hdigit : ((fun c => decide (c ∈ Base64.alphabet))∘tolower)=
      fun c => decide (c ∈ Base64.alphabet) := by
    funext c
    simp only [Function.comp_apply,alphabet_tolower]
  rw [digits,takeWhile_lower hpad,toLowerAscii,List.filter_map,hdigit,List.length_map]
  rfl

/-- The letter case does not matter to whether a command can be decoded. -/
theorem extract_none {cmdline other : Bytes} (h : toLowerAscii other=toLowerAscii cmdline)
    (hnone : extractAndDecodeEncodedCommand cmdline=none) :
    extractAndDecodeEncodedCommand other=none := by
  unfold extractAndDecodeEncodedCommand at hnone ⊢
  rw [h]
  generalize toLowerAscii cmdline=lower at hnone
  have htoken : ∀ start,toLowerAscii (tokenAt other start)=toLowerAscii (tokenAt cmdline start) := by
    intro start
    rw [←tokenAt_lower,←tokenAt_lower,h]
  generalize encFlags=flags at hnone ⊢
  induction flags with
  | nil => rfl
  | cons flag rest ih =>
    rw [searchFlags] at hnone ⊢
    cases hfind : findSub flag lower with
    | none =>
      simp only [hfind] at hnone ⊢
      exact ih hnone
    | some pos =>
      have hsame := htoken (pos+flag.length)
      have hempty : tokenAt other (pos+flag.length)=[] ↔ tokenAt cmdline (pos+flag.length)=[] := by
        rw [←List.length_eq_zero_iff,←List.length_eq_zero_iff,←toLowerAscii_length,hsame,
          toLowerAscii_length]
      simp only [hfind,ne_eq,hempty] at hnone ⊢
      split
      · rename_i hfull
        rw [if_pos hfull] at hnone
        rw [decodeBase64_eq_none_iff,←digits_lower,hsame,digits_lower]
        exact (decodeBase64_eq_none_iff _).mp hnone
      · rename_i hnothing
        rw [if_neg hnothing] at hnone
        exact ih hnone

end LetterCase

section Spelling

variable {bin bin' cmd cmd' : Bytes}

/-- The normalised line in lower case depends on the spelling only. -/
theorem normalize_lower (h : ¬WordQuote (withoutCarets cmd)) :
    toLowerAscii (normalizeCommandLine cmd)=
      collapse false (toLowerAscii (withoutCarets cmd)) := by
  rw [normalizeCommandLine_eq h,collapse_lower]

/-- Only PowerShell commands are decoded. -/
theorem ruleFor_decoded {decoded decoded' : Option Bytes} (h : ¬isShell bin=true) :
    ruleFor bin cmd decoded=ruleFor bin cmd decoded' := by
  unfold ruleFor
  split_ifs with h1 h2 h3 h4 h5 h6 h7
  all_goals try rfl
  have hshell : isShell bin=true := by
    rw [isShell,h7,Bool.and_true]
    simp [hasAny,h1,h2,h3,h4,h5,h6]
  exact absurd hshell h

/-- The rule does not see carets, letter case and the directory's spelling. -/
theorem verdict_spelling (hbin : toLowerAscii bin'=toLowerAscii bin)
    (hcmd : toLowerAscii (withoutCarets cmd')=toLowerAscii (withoutCarets cmd))
    (hquote : ¬WordQuote (withoutCarets cmd))
    (hcode : isShell (toLowerAscii (getFilenameOnly bin))=true →
      extractAndDecodeEncodedCommand (normalizeCommandLine cmd)=none) :
    verdict bin' cmd'=verdict bin cmd := by
  have hquote' : ¬WordQuote (withoutCarets cmd') := by
    rwa [←wordQuote_lower,hcmd,wordQuote_lower]
  have hline : toLowerAscii (normalizeCommandLine cmd')=
      toLowerAscii (normalizeCommandLine cmd) := by
    rw [normalize_lower hquote',normalize_lower hquote,hcmd]
  have hname : toLowerAscii (getFilenameOnly bin')=toLowerAscii (getFilenameOnly bin) := by
    rw [←getFilenameOnly_lower,hbin,getFilenameOnly_lower]
  unfold verdict
  dsimp only
  rw [hline,hname]
  by_cases hshell : isShell (toLowerAscii (getFilenameOnly bin))=true
  · rw [hcode hshell,extract_none hline (hcode hshell)]
  · exact ruleFor_decoded hshell

end Spelling

section Levels

/-- A branch reports nothing, or something of at least high level. -/
def Severe (branch : Option Rule) : Prop :=
  ∀ rule,branch=some rule → ThreatLevel.high.rank ≤ rule.severity.rank

/-- A branch that reports nothing. -/
theorem severe_none : Severe none := by
  intro rule h
  cases h

/-- A test in front of a rule that is severe. -/
theorem severe_rule {test : Prop} [Decidable test] {rule : Rule} {rest : Option Rule}
    (h : ThreatLevel.high.rank ≤ rule.severity.rank) (hrest : Severe rest) :
    Severe (if test then some rule else rest) := by
  split
  · intro found hfound
    cases hfound
    exact h
  · exact hrest

/-- A choice between two branches. -/
theorem severe_choice {test : Prop} [Decidable test] {branch rest : Option Rule}
    (hbranch : Severe branch) (hrest : Severe rest) : Severe (if test then branch else rest) := by
  split
  · exact hbranch
  · exact hrest

/-- Every branch is severe. -/
theorem ruleFor_severe (bin cmd : Bytes) (decoded : Option Bytes) :
    Severe (ruleFor bin cmd decoded) := by
  have hcertutil : Severe (certutil cmd) :=
    severe_rule (by decide) (severe_rule (by decide) severe_none)
  have hmshta : Severe (mshta cmd) := severe_rule (by decide) severe_none
  have hregsvr32 : Severe (regsvr32 cmd) := severe_rule (by decide) severe_none
  have hrundll32 : Severe (rundll32 cmd) := severe_rule (by decide) severe_none
  have hwmic : Severe (wmic cmd) := severe_rule (by decide) severe_none
  have hbitsadmin : Severe (bitsadmin cmd) := severe_rule (by decide) severe_none
  have hpowershell : Severe (powershell cmd decoded) := by
    cases decoded with
    | none => exact severe_rule (by decide) severe_none
    | some code => exact severe_rule (by decide) severe_none
  exact severe_choice hcertutil (severe_choice hmshta (severe_choice hregsvr32
    (severe_choice hrundll32 (severe_choice hwmic (severe_choice hbitsadmin
      (severe_choice hpowershell severe_none))))))

/-- Every rule is at least of high level. -/
theorem verdict_level {bin cmd : Bytes} {rule : Rule} (h : verdict bin cmd=some rule) :
    ThreatLevel.high.rank ≤ rule.severity.rank :=
  ruleFor_severe _ _ _ rule h

/-- A malicious command line is at least of high level. -/
theorem evaluate_level {pid : UInt32} {bin cmd : Bytes}
    (h : (evaluate pid bin cmd).isMalicious=true) :
    ThreatLevel.high.rank ≤ (evaluate pid bin cmd).severity.rank := by
  unfold evaluate at h ⊢
  dsimp only at h ⊢
  cases hrule : verdict bin cmd with
  | none =>
    rw [hrule] at h
    cases h
  | some rule => exact verdict_level hrule

/-- A reported shortcut is at least of high level. -/
theorem inspectLnkFile_level {content : Option Bytes} {exec : LolbinExecution}
    (h : inspectLnkFile content=some exec) : ThreatLevel.high.rank ≤ exec.severity.rank := by
  unfold inspectLnkFile at h
  cases content with
  | none => cases h
  | some buf =>
    dsimp only at h
    split_ifs at h
    obtain ⟨found,hfind,rfl⟩ := Option.map_eq_some_iff.mp h
    have hmalicious : found.isMalicious=true := by simpa using List.find?_some hfind
    obtain ⟨bin,-,hcommand⟩ := List.mem_filterMap.mp (List.mem_of_find?_eq_some hfind)
    obtain ⟨pos,-,rfl⟩ := Option.map_eq_some_iff.mp hcommand
    exact evaluate_level hmalicious

end Levels

section Shortcuts

variable {buf mid buf' : Bytes}

/-- Zero bytes are not read. -/
theorem extracted_inserted (h : Inserted (fun c => c=0) buf mid) :
    mid.filterMap extracted=buf.filterMap extracted := by
  have hzero : extracted 0=none := rfl
  induction h with
  | nil => rfl
  | keep c _ ih => rw [List.filterMap_cons,List.filterMap_cons,ih]
  | insert hc _ ih => rw [hc,List.filterMap_cons_none hzero,ih]

/-- What is read of a byte in lower case. -/
theorem extracted_tolower (c : UInt8) : extracted (tolower c)=(extracted c).map tolower := by
  unfold extracted tolower blank
  grind

/-- What is read in lower case depends on the lower case only. -/
theorem extracted_lower (h : toLowerAscii buf'=toLowerAscii mid) :
    toLowerAscii (buf'.filterMap extracted)=toLowerAscii (mid.filterMap extracted) := by
  have hread : ∀ s : Bytes,toLowerAscii (s.filterMap extracted)=
      (toLowerAscii s).filterMap extracted := by
    intro s
    rw [toLowerAscii,List.map_filterMap,toLowerAscii,List.filterMap_map]
    exact List.filterMap_congr fun c _ => (extracted_tolower c).symm
  rw [hread,hread,h]

/-- The outcome of a check: technique, level and reason. -/
def outcome (exec : LolbinExecution) : Bool×Rule :=
  (exec.isMalicious,⟨exec.mitreTechnique,exec.severity,exec.reason⟩)

/-- The outcome is that of the rule. -/
theorem outcome_evaluate {pid pid' : UInt32} {bin cmd bin' cmd' : Bytes}
    (h : verdict bin' cmd'=verdict bin cmd) :
    outcome (evaluate pid' bin' cmd')=outcome (evaluate pid bin cmd) := by
  unfold evaluate
  dsimp only
  rw [h]
  split <;> rfl

/-- Dropping carets keeps the letters. -/
theorem withoutCarets_lower (s : Bytes) :
    withoutCarets (toLowerAscii s)=toLowerAscii (withoutCarets s) := by
  have hcaret : ((fun c => decide (c≠caret))∘tolower)=fun c => decide (c≠caret) := by
    have hall : ∀ c : UInt8,tolower c=caret ↔ c=caret := tolower_mark (by decide)
    funext c
    simp only [Function.comp_apply,ne_eq,hall]
  rw [withoutCarets,toLowerAscii,List.filter_map,hcaret]
  rfl

/-- A part of a text in lower case. -/
theorem slice_lower (s : Bytes) (start length : ℕ) :
    slice (toLowerAscii s) start length=toLowerAscii (slice s start length) := by
  rw [slice,slice,toLowerAscii,toLowerAscii,List.map_take,List.map_drop]

/-- The first malicious result is found in the same place. -/
theorem find_outcome {execs execs' : List LolbinExecution}
    (h : execs'.map outcome=execs.map outcome) :
    (execs'.find? fun exec => exec.isMalicious).map outcome=
      (execs.find? fun exec => exec.isMalicious).map outcome := by
  have hfind : ∀ l : List LolbinExecution,
      (l.find? fun exec => exec.isMalicious).map outcome=(l.map outcome).find? Prod.fst := by
    intro l
    rw [List.find?_map]
    rfl
  rw [hfind,hfind,h]

/-- What the loop over the binaries evaluates depends on the lower case only. -/
theorem commands_spelling {text text' : Bytes} (h : toLowerAscii text'=toLowerAscii text)
    (hplain : ∀ bin ∈ suspiciousBins,∀ pos,findSub bin.1 (toLowerAscii text)=some pos →
      ¬WordQuote (withoutCarets (slice text pos 512)) ∧
      (isShell (toLowerAscii (getFilenameOnly bin.2))=true →
        extractAndDecodeEncodedCommand (normalizeCommandLine (slice text pos 512))=none)) :
    (suspiciousBins.filterMap (shortcutCommand text')).map outcome=
      (suspiciousBins.filterMap (shortcutCommand text)).map outcome := by
  rw [List.map_filterMap,List.map_filterMap]
  refine List.filterMap_congr fun bin hbin => ?_
  rw [shortcutCommand,shortcutCommand,h]
  cases hfind : findSub bin.1 (toLowerAscii text) with
  | none => rfl
  | some pos =>
    obtain ⟨hquote,hcode⟩ := hplain bin hbin pos hfind
    have hcmd : toLowerAscii (withoutCarets (slice text' pos 512))=
        toLowerAscii (withoutCarets (slice text pos 512)) := by
      rw [←withoutCarets_lower,←slice_lower,h,slice_lower,withoutCarets_lower]
    exact congrArg some (outcome_evaluate (verdict_spelling rfl hcmd hquote hcode))

end Shortcuts

/-- Carets, letter case and the case of the path do not change the outcome of a
check, unless a quote stands inside a word or an encoded command is decoded. -/
theorem command_spelling {bin bin' cmd cmd' : Bytes} (pid pid' : UInt32)
    (hbin : toLowerAscii bin'=toLowerAscii bin)
    (hcmd : toLowerAscii (withoutCarets cmd')=toLowerAscii (withoutCarets cmd))
    (hquote : ¬WordQuote (withoutCarets cmd))
    (hcode : isShell (toLowerAscii (getFilenameOnly bin))=true →
      extractAndDecodeEncodedCommand (normalizeCommandLine cmd)=none) :
    outcome (evaluate pid' bin' cmd')=outcome (evaluate pid bin cmd) :=
  outcome_evaluate (verdict_spelling hbin hcmd hquote hcode)

/-- The text has no quote inside a word if it has none at all. -/
theorem not_wordQuote {s : Bytes} (h : quote ∉ s) : ¬WordQuote s := by
  rintro ⟨a,b,-,-,hinside⟩
  exact h (hinside.subset (by simp))

/-- A download with carets is a download. -/
theorem command_spelling_certutil :
    outcome (evaluate 2 (ascii "C:\\CertUtil.EXE") (ascii "cert^util -URL^Cache x"))=
      outcome (evaluate 1 (ascii "c:\\certutil.exe") (ascii "certutil -urlcache x")) :=
  command_spelling 1 2 (by decide +kernel) (by decide +kernel) (not_wordQuote (by decide +kernel))
    (fun hshell => absurd hshell (by decide +kernel))

/-- Zero bytes anywhere in a shortcut, as in UTF-16, and the letter case do not
change the outcome of its inspection, unless a command that is evaluated has a
quote inside a word or an encoded command. -/
theorem shortcut_spelling {buf mid buf' : Bytes} (hzero : Inserted (fun c => c=0) buf mid)
    (hcase : toLowerAscii buf'=toLowerAscii mid) (hsize : 76 ≤ buf.length)
    (hlimit : buf'.length ≤ 10*1024*1024)
    (hplain : ∀ bin ∈ suspiciousBins,∀ pos,
      findSub bin.1 (toLowerAscii (buf.filterMap extracted))=some pos →
      ¬WordQuote (withoutCarets (slice (buf.filterMap extracted) pos 512)) ∧
      (isShell (toLowerAscii (getFilenameOnly bin.2))=true →
        extractAndDecodeEncodedCommand
          (normalizeCommandLine (slice (buf.filterMap extracted) pos 512))=none)) :
    (inspectLnkFile (some buf')).map outcome=(inspectLnkFile (some buf)).map outcome := by
  have hmid : buf'.length=mid.length := by
    rw [←toLowerAscii_length,hcase,toLowerAscii_length]
  have hlonger := hzero.length_le
  have htext : toLowerAscii (buf'.filterMap extracted)=toLowerAscii (buf.filterMap extracted) := by
    rw [extracted_lower hcase,extracted_inserted hzero]
  have hprefixed : ∀ found : Option LolbinExecution,
      (found.map fun exec => { exec with reason := "Weaponized LNK shortcut: ".toList++exec.reason }
        ).map outcome=(found.map outcome).map fun seen =>
          (seen.1,{ seen.2 with reason := "Weaponized LNK shortcut: ".toList++seen.2.reason }) := by
    intro found
    rw [Option.map_map,Option.map_map]
    rfl
  unfold inspectLnkFile
  dsimp only
  rw [if_neg (by omega),if_neg (by omega),hprefixed,hprefixed,
    find_outcome (commands_spelling htext hplain)]

/-- A shortcut to `mshta` with a remote page, behind a header. -/
def remoteShortcut : Bytes := List.replicate 76 blank++ascii "MSHTA http://x"

/-- The shortcut with a zero byte in front of every byte, in lower case, has the
same outcome. -/
theorem shortcut_spelling_mshta :
    (inspectLnkFile (some (toLowerAscii (before 0 remoteShortcut)))).map outcome=
      (inspectLnkFile (some remoteShortcut)).map outcome := by
  have hzero : Inserted (fun c => c=0) remoteShortcut (before 0 remoteShortcut) :=
    @before_inserted _ (fun c => c=0) 0 rfl remoteShortcut
  refine shortcut_spelling hzero (toLowerAscii_idem _)
    (by decide +kernel) (by decide +kernel) fun bin hbin pos hfound => ⟨?_,fun hshell => ?_⟩
  · refine not_wordQuote fun hmem => ?_
    have htext : quote ∉ remoteShortcut.filterMap extracted := by decide +kernel
    exact htext (List.mem_of_mem_drop (List.mem_of_mem_take (List.mem_of_mem_filter hmem)))
  · have hnone : ∀ bin ∈ suspiciousBins,isShell (toLowerAscii (getFilenameOnly bin.2))=true →
        findSub bin.1 (toLowerAscii (remoteShortcut.filterMap extracted))=none := by
      decide +kernel
    rw [hnone bin hbin hshell] at hfound
    cases hfound

end Gcad.CommandRules
