import Gcad.CandidateEvidence
import Gcad.Threat

/-!
# Engine events as observations

`adapt_legacy_event` of legacy_adapter.cpp, which `EngineManager::push_event`
applies to every threat event of an engine before it publishes it. A table of
engines and categories gives the confidence and says which checks are exact;
any other pair is mapped by its level and never counts as exact. An engine is
one source whatever categories it reports, so its own events never lead to a
remediation.
-/

namespace Gcad.LegacyAdapter

open Common Observation ByteView StepSystem Threat CandidatePipeline QuarantineVault
open RemediationSafety CandidateEvidence

variable {σ : Type}

/-- `ConfidenceRule`. -/
structure ConfidenceRule where
  /-- The engine whose events it is for. -/
  engineName : String
  /-- Category of its event. -/
  category : ThreatCategory
  /-- Confidence given to it. -/
  confidence : Double
  /-- Whether the check is exact. -/
  deterministic : Bool

/-- The double nearest to 0.92. -/
def conf92 : Double := .ofScaled false 0x1D70A3D70A3D71 (-53)

/-- The double nearest to 0.88. -/
def conf88 : Double := .ofScaled false 0x1C28F5C28F5C29 (-53)

/-- The double nearest to 0.90. -/
def conf90 : Double := .ofScaled false 0x1CCCCCCCCCCCCD (-53)

/-- The double 0.75. -/
def conf75 : Double := .ofScaled false 0x18000000000000 (-53)

/-- The double nearest to 0.80. -/
def conf80 : Double := .ofScaled false 0x1999999999999A (-53)

/-- The double nearest to 0.55. -/
def conf55 : Double := .ofScaled false 0x1199999999999A (-53)

/-- The double nearest to 0.60. -/
def conf60 : Double := .ofScaled false 0x13333333333333 (-53)

/-- The double nearest to 0.45. -/
def conf45 : Double := .ofScaled false 0x1CCCCCCCCCCCCD (-54)

/-- The double nearest to 0.65. -/
def conf65 : Double := .ofScaled false 0x14CCCCCCCCCCCD (-53)

/-- The double nearest to 0.85. -/
def conf85 : Double := .ofScaled false 0x1B333333333333 (-53)

/-- The double 0.5. -/
def conf50 : Double := .ofScaled false 0x10000000000000 (-53)

/-- The double nearest to 0.95. -/
def conf95 : Double := .ofScaled false 0x1E666666666666 (-53)

/-- The double nearest to 0.30. -/
def conf30 : Double := .ofScaled false 0x13333333333333 (-54)

/-- The double nearest to 0.70. -/
def conf70 : Double := .ofScaled false 0x16666666666666 (-53)

/-- The double 0.0. -/
def conf0 : Double := .ofScaled false 0 0

/-- `kRules`. -/
def kRules : List ConfidenceRule :=
  [⟨"PMSR",.memoryInjection,conf92,true⟩,
    ⟨"SelfDefense",.evasionUnhook,conf88,true⟩,
    ⟨"SelfDefense",.memoryInjection,conf90,true⟩,
    ⟨"SelfDefense",.dllInjection,conf75,true⟩,
    ⟨"SyscallGuard",.evasionUnhook,conf92,true⟩,
    ⟨"SyscallGuard",.directSyscall,conf80,true⟩,
    ⟨"ARHS",.ransomware,conf55,false⟩,
    ⟨"ARHS",.fileEncrypt,conf60,false⟩,
    ⟨"ETG-RI",.entropyAnomaly,conf45,false⟩,
    ⟨"ETG-RI",.rawSocketProbe,conf45,false⟩,
    ⟨"ETG-RI",.synFlood,conf65,false⟩,
    ⟨"ZRGP",.networkScan,conf85,true⟩,
    ⟨"KernelMon",.evasionAmsi,conf90,true⟩,
    ⟨"KernelMon",.evasionEtw,conf85,true⟩,
    ⟨"KernelMon",.ppidSpoof,conf90,true⟩,
    ⟨"KernelMon",.suspiciousBinary,conf50,false⟩,
    ⟨"RegMon",.registryTamper,conf85,true⟩,
    ⟨"FIM",.fileIntegrityViolation,conf95,true⟩,
    ⟨"DnsMon",.dnsTunnel,conf90,true⟩,
    ⟨"DnsMon",.dgaDomain,conf65,false⟩,
    ⟨"YARA",.yaraRuleMatch,conf88,true⟩]

/-- `confidence_for_level`. -/
def confidenceForLevel : ThreatLevel → Double
  | .low => conf30
  | .medium => conf50
  | .high => conf70
  | .critical => conf90
  | .safe => conf0

/-- The members of `ThreatEvent` that are adapted, with the enumerators that
the engines use. -/
structure EngineEvent where
  /-- Level of the event. -/
  level : ThreatLevel
  /-- Category of the event. -/
  category : ThreatCategory
  /-- Process the event is about. -/
  processId : ℕ
  /-- Name of that process. -/
  processName : Str
  /-- File the event is about. -/
  filePath : Str
  /-- What happened. -/
  description : Str

/-- The rule for an engine and a category. -/
def ruleFor (engineName : Str) (category : ThreatCategory) : Option ConfidenceRule :=
  kRules.find? fun rule => rule.engineName.toList=engineName && rule.category=category

/-- `adapt_legacy_event`. -/
def adaptLegacyEvent (event : EngineEvent) (engineName : Str) : SecurityObservation :=
  let observation (sourceId : Str) (confidence : Double) (deterministic : Bool) :
      SecurityObservation :=
    { sourceId := sourceId
      kind := .legacyEngine
      suggestedLevel := event.level
      confidence := confidence
      deterministic := deterministic
      processId := event.processId
      processName := event.processName
      filePath := event.filePath
      sha256 := []
      evidence := if event.description.isEmpty then "Legacy engine event".toList
        else event.description }
  match ruleFor engineName event.category with
  | some rule => observation engineName rule.confidence rule.deterministic
  | none =>
    observation
      (if engineName.isEmpty then "legacy:".toList++toDecimal event.category.value.toNat
        else engineName)
      (confidenceForLevel event.level) false

/-- The names of the engines in the order of the constructor of
`EngineManager`. -/
def engineNames : List String :=
  ["PMSR","ETG-RI","ARHS","ZRGP","SelfDefense","SyscallGuard","KernelMon","RegMon","FIM","DnsMon",
    "YARA","Firewall","Sandbox","ThreatIntel","AutoUpdate","BehaviorML","ForensicTimeline",
    "VulnScanner","RansomwareShield","CredentialGuard","NetworkDPI","DeviceControl","AMSI-Guard",
    "WMI-BITS-Defense","NamedPipe-Defense","ReflectiveInjection","DriverGuard","WebhookEngine",
    "PeStaticAnalysis","LolbinsGuard","FilelessAstGuard"]

section Rules

variable {event : EngineEvent} {engineName : Str} {rule : ConfidenceRule}

/-- Every rule is about a registered engine. -/
theorem kRules_registered : ∀ rule ∈ kRules,rule.engineName ∈ engineNames := by
  simp [kRules,engineNames]

/-- Every confidence of the table is one of a valid observation. -/
theorem kRules_confidence : ∀ rule ∈ kRules,
    (rule.confidence.isFinite && rule.confidence.geZero && rule.confidence.leOne)=true := by
  decide

/-- So is every confidence of a level. -/
theorem confidenceForLevel_valid (level : ThreatLevel) :
    ((confidenceForLevel level).isFinite && (confidenceForLevel level).geZero &&
      (confidenceForLevel level).leOne)=true := by
  cases level <;> decide

/-- A rule that is found is in the table, for this engine and category. -/
theorem ruleFor_eq_some (h : ruleFor engineName event.category=some rule) :
    rule ∈ kRules ∧ rule.engineName.toList=engineName ∧ rule.category=event.category := by
  have hholds := List.find?_some h
  simp only [Bool.and_eq_true,decide_eq_true_eq] at hholds
  exact ⟨List.mem_of_find?_eq_some h,hholds.1,hholds.2⟩

/-- An engine with a name is the source of all its events. -/
theorem adaptLegacyEvent_sourceId (event : EngineEvent) (h : engineName≠[]) :
    (adaptLegacyEvent event engineName).sourceId=engineName := by
  unfold adaptLegacyEvent
  dsimp only
  split
  · rfl
  · rw [if_neg (by simpa using h)]

/-- Four of the tests of `valid` leave the level to decide. -/
theorem valid_iff_level {o : SecurityObservation} (hsource : o.sourceId≠[]) (hevidence : o.evidence≠[])
    (hconfidence : (o.confidence.isFinite && o.confidence.geZero && o.confidence.leOne)=true) :
    o.valid=true ↔ o.suggestedLevel≠.safe := by
  simp only [Bool.and_eq_true] at hconfidence
  simp [SecurityObservation.valid,hsource,hevidence,hconfidence]

/-- An adapted event is valid exactly when its level is not the lowest. -/
theorem adaptLegacyEvent_valid_iff (event : EngineEvent) (engineName : Str) :
    (adaptLegacyEvent event engineName).valid=true ↔ event.level≠.safe := by
  have hevidence : (if event.description.isEmpty then "Legacy engine event".toList
      else event.description)≠[] := by
    split
    · exact List.cons_ne_nil _ _
    · next hfull => simpa using hfull
  unfold adaptLegacyEvent
  dsimp only
  split
  · next rule hrule =>
    obtain ⟨hmem,hname,-⟩ := ruleFor_eq_some hrule
    have hnamed : ∀ rule ∈ kRules,rule.engineName.toList≠[] := by decide
    exact valid_iff_level (hname ▸ hnamed rule hmem) hevidence (kRules_confidence rule hmem)
  · refine valid_iff_level ?_ hevidence (confidenceForLevel_valid event.level)
    dsimp only
    split
    · exact List.cons_ne_nil _ _
    · next hnamed => simpa using hnamed

/-- An adapted event counts as exact exactly when the table says so. -/
theorem adaptLegacyEvent_deterministic_iff (event : EngineEvent) (engineName : Str) :
    (adaptLegacyEvent event engineName).deterministic=true ↔
      ∃ rule,ruleFor engineName event.category=some rule ∧ rule.deterministic=true := by
  unfold adaptLegacyEvent
  dsimp only
  split
  · next rule hrule => simp [hrule]
  · next hrule => simp [hrule]

end Rules

/-- An observation that `push_event` publishes for a registered engine. -/
def FromEngine (o : SecurityObservation) : Prop :=
  ∃ name ∈ engineNames,∃ event,o=adaptLegacyEvent event name.toList

/-- An event with the name of the engine that pushed it. -/
abbrev Pushed := EngineEvent×String

/-- The observation of a pushed event. -/
def Pushed.adapted (pushed : Pushed) : SecurityObservation :=
  adaptLegacyEvent pushed.1 pushed.2.toList

/-- What the events behind a candidate have to be: one from an engine and a
category that the table calls exact, one of another engine about the same
thing, and one that names the file. -/
structure ExactCheck (seen : List SecurityObservation) (path : Str) (rule : ConfidenceRule)
    (exact_ other named : Pushed) : Prop where
  /-- The table has a rule for the first event. -/
  listed : rule ∈ kRules ∧ rule.engineName=exact_.2 ∧ rule.category=exact_.1.category
  /-- The rule calls the check exact. -/
  deterministic : rule.deterministic=true
  /-- The other event is of another engine. -/
  engines : other.2 ∈ engineNames ∧ other.2≠exact_.2
  /-- It is about the same thing. -/
  key : other.adapted.correlationKey=exact_.adapted.correlationKey
  /-- The third event names the file. -/
  filePath : named.1.filePath=path
  /-- All three were published. -/
  published : exact_.adapted ∈ seen ∧ other.adapted ∈ seen ∧ named.adapted ∈ seen

/-- The path of an event is kept. -/
theorem adaptLegacyEvent_filePath (event : EngineEvent) (engineName : Str) :
    (adaptLegacyEvent event engineName).filePath=event.filePath := by
  unfold adaptLegacyEvent
  dsimp only
  split <;> rfl

/-- Independent evidence from engine events contains an exact check. -/
theorem exactCheck_of_independent {seen : List SecurityObservation} {path : Str}
    {first second third : SecurityObservation} (hengines : ∀ o ∈ seen,FromEngine o)
    (h : Independent seen path first second third) :
    ∃ rule exact_ other named,ExactCheck seen path rule exact_ other named := by
  have hnamed : ∀ name ∈ engineNames,name.toList≠[] := by decide
  obtain ⟨name,hname,event,hfirst⟩ := hengines first h.mem.1
  obtain ⟨other,hother,also,hsecond⟩ := hengines second h.mem.2.1
  obtain ⟨namer,-,naming,hthird⟩ := hengines third h.mem.2.2
  have hdeterministic := h.deterministic
  rw [hfirst,adaptLegacyEvent_deterministic_iff] at hdeterministic
  obtain ⟨rule,hrule,hexact⟩ := hdeterministic
  obtain ⟨hmem,hengine,hcategory⟩ := ruleFor_eq_some hrule
  have hsources := h.sources
  rw [hfirst,hsecond,adaptLegacyEvent_sourceId _ (hnamed name hname),
    adaptLegacyEvent_sourceId _ (hnamed other hother)] at hsources
  have hkey : (Pushed.adapted (also,other)).correlationKey=
      (Pushed.adapted (event,name)).correlationKey := by
    rw [Pushed.adapted,Pushed.adapted,← hfirst,← hsecond]
    exact h.key.1
  refine ⟨rule,(event,name),(also,other),(naming,namer),
    ⟨hmem,String.toList_inj.mp hengine,hcategory⟩,hexact,⟨hother,?_⟩,hkey,?_,?_,?_,?_⟩
  · rintro rfl
    exact hsources rfl
  · rw [← h.filePath,hthird,adaptLegacyEvent_filePath]
  · rw [Pushed.adapted,← hfirst]
    exact h.mem.1
  · rw [Pushed.adapted,← hsecond]
    exact h.mem.2.1
  · rw [Pushed.adapted,← hthird]
    exact h.mem.2.2

/-- When nothing but the events of the registered engines reaches the bus,
every candidate rests on an event that the table calls exact and on an event
of another engine about the same thing, whatever the threads do. -/
theorem engine_events_need_exact_check (sha256 : HashContext σ Bytes)
    {policy : LocalSecurityPolicy} {capacity : ℕ} {world : World} {events : List SystemEvent}
    {final : System}
    (run : Run (Deterministic (step sha256)) (start policy capacity world) events final)
    (hengines : ∀ o ∈ accepted events,FromEngine o) :
    ∀ candidate ∈ final.pipeline.candidates++final.requests,∃ rule exact_ other named,
      ExactCheck (accepted events) candidate.targetPath rule exact_ other named := by
  intro candidate hmem
  have hinv := run_inv sha256 run
  have hbacked : Backed policy events candidate := by
    rcases List.mem_append.mp hmem with hheld | hcopied
    · exact hinv.candidates candidate hheld
    · exact hinv.requests candidate hcopied
  obtain ⟨first,second,third,hfound⟩ := backed_independent sha256 run hbacked
  exact exactCheck_of_independent hengines hfound

/-- A tampered file as two engines see it. -/
def tamperedFile (category : ThreatCategory) : EngineEvent :=
  ⟨.critical,category,0,[],"C:/Temp/sample.exe".toList,"tampered".toList⟩

/-- File integrity and the YARA engine report one file. -/
def twoEngines : List Action :=
  [.publish (adaptLegacyEvent (tamperedFile .fileIntegrityViolation) "FIM".toList),
    .publish (adaptLegacyEvent (tamperedFile .yaraRuleMatch) "YARA".toList),
    .process (.storage _ _) 0,.process (.storage _ _) (seconds 1)]

/-- The file becomes a candidate, on an exact check. -/
theorem engine_events_need_exact_check_two :
    ∃ rule exact_ other named,ExactCheck (accepted (execute (step QuarantineRun.fixtureHash)
      (start .default 8 fixtureWorld) twoEngines).1) "C:/Temp/sample.exe".toList
        rule exact_ other named := by
  have hrun := execute_run (step QuarantineRun.fixtureHash) (start .default 8 fixtureWorld)
    twoEngines
  have haccepted : accepted (execute (step QuarantineRun.fixtureHash)
      (start .default 8 fixtureWorld) twoEngines).1=
        [adaptLegacyEvent (tamperedFile .fileIntegrityViolation) "FIM".toList,
          adaptLegacyEvent (tamperedFile .yaraRuleMatch) "YARA".toList] := by
    decide +kernel
  have hpaths : (execute (step QuarantineRun.fixtureHash) (start .default 8 fixtureWorld)
      twoEngines).2.pipeline.candidates.map RemediationCandidate.targetPath=
        ["C:/Temp/sample.exe".toList] := by
    decide +kernel
  obtain ⟨candidate,hmem,hpath⟩ := List.mem_map.mp (hpaths ▸ List.mem_singleton_self _)
  rw [← hpath]
  refine engine_events_need_exact_check QuarantineRun.fixtureHash hrun ?_ candidate
    (List.mem_append_left _ hmem)
  rw [haccepted]
  simp only [List.mem_cons,List.not_mem_nil,or_false]
  rintro o (rfl | rfl)
  · exact ⟨"FIM",by simp [engineNames],_,rfl⟩
  · exact ⟨"YARA",by simp [engineNames],_,rfl⟩

end Gcad.LegacyAdapter
