import Gcad.BoundedLog
import Gcad.NetworkDpi
import Gcad.TextSearch
import Gcad.VulnVersion

/-!
# Matching installed software against known vulnerabilities

The scanner looks for the product of a vulnerability in the name of every
installed software. The name must hold it as a word, but only the first place
where it stands is looked at: where that place is inside another word, a
later place that is not goes unseen.
-/

namespace Gcad.VulnScan

open Common BoundedLog Observation TextSearch Threat VulnVersion
open NetworkDpi (dash)
open PeStaticAnalysis (ge)

/-- `SoftwareInfo`. -/
structure SoftwareInfo where
  /-- The product. -/
  name : Str
  /-- Who made it. -/
  vendor : Str
  /-- The version installed. -/
  version : Str
  /-- Where it is installed. -/
  installPath : Str
  /-- Where the scan found it. -/
  source : Str

/-- `VulnEntry`. -/
structure VulnEntry where
  /-- The name of the weakness. -/
  vulnId : Str
  /-- The product, in part of its name. -/
  affectedSoftware : Str
  /-- The first version without it. -/
  affectedVersionBelow : Str
  /-- Its severity in words. -/
  severity : Str
  /-- Its severity as a number. -/
  cvss : Double
  /-- What it is. -/
  description : Str
  /-- What to do. -/
  remediation : Str

/-- `VulnMatch`. -/
structure VulnMatch where
  /-- The number of the match. -/
  id : UInt64
  /-- What is installed. -/
  software : SoftwareInfo
  /-- The weakness it has. -/
  vuln : VulnEntry
  /-- When it was found. -/
  detectedAt : TimePoint

/-- The state of a `VulnScannerEngine`. -/
structure VulnScannerEngine where
  /-- The known weaknesses. -/
  vulnDb : List VulnEntry
  /-- The last matches, oldest first. -/
  found : List VulnMatch
  /-- The number of the next match. -/
  nextId : UInt64
  /-- Matches so far. -/
  eventsProcessed : UInt64
  /-- Matches so far. -/
  threatsDetected : UInt64
  /-- A callback for threats is installed. -/
  threatCallback : Bool

/-- `MAX_MATCHES`. -/
def MAX_MATCHES : ℕ := 500

/-- `VulnScannerEngine::severity_to_level`. -/
def severityToLevel (severity : Str) (cvss : Double) : ThreatLevel :=
  if severity="CRITICAL".toList ∨ ge cvss (.ofScaled false (9*2^49) (-49)) then
    .critical
  else if severity="HIGH".toList ∨ ge cvss (.ofScaled false (7*2^50) (-50)) then
    .high
  else if severity="MEDIUM".toList ∨ ge cvss (.ofScaled false (2^52) (-50)) then
    .medium
  else if severity="LOW".toList ∨
      ge cvss (.ofScaled false 0x1999999999999A (-56)) then .low
  else .safe

/-- `std::isalnum` in the C locale. -/
def isalnum (c : Char) : Bool := c.isAlphanum

/-- The word boundary check of `scan` on lowered texts. -/
def matchesName (swLower vulnLower : Str) : Bool :=
  match findSub vulnLower swLower with
  | none => false
  | some pos =>
    if 0 < pos ∧ swLower[pos-1]?.any isalnum then false
    else !swLower[pos+vulnLower.length]?.any isalnum

/-- A vulnerability is reported for a software. -/
def reports (sw : SoftwareInfo) (v : VulnEntry) : Bool :=
  matchesName (sw.name.map toLower) (v.affectedSoftware.map toLower) &&
    versionLessThan sw.version v.affectedVersionBelow

/-- The event for a match. -/
def matchEvent (sw : SoftwareInfo) (v : VulnEntry) (now : TimePoint) : ThreatEvent :=
  { ThreatEvent.default with
    level := levelValue (severityToLevel v.severity v.cvss)
    category := ThreatCategory.suspiciousBinary.value
    description := v.vulnId++": ".toList++sw.name++" ".toList++sw.version++" ".toList++dash++
      " ".toList++v.description++" (fix: ".toList++v.remediation++")".toList
    filePath := sw.installPath
    timestamp := now }

/-- The engine, `results` and `deferred_threats` in the loops of `scan`. -/
structure Scan where
  /-- The members, as far as the loops have come. -/
  engine : VulnScannerEngine
  /-- The matches of this scan. -/
  results : List VulnMatch
  /-- The threats it raises once the lock is released. -/
  deferredThreats : List ThreatEvent

section Scanning

variable (clock : ℕ → TimePoint×TimePoint)

/-- One turn of the inner loop of `scan`; the clock is read for the number of
the match and for that of the event. -/
def scanEntry (sw : SoftwareInfo) (s : Scan) (v : VulnEntry) : Scan :=
  if reports sw v then
    let m : VulnMatch := ⟨s.engine.nextId,sw,v,(clock s.results.length).1⟩
    { engine :=
        { s.engine with
          found := push MAX_MATCHES s.engine.found m
          nextId := s.engine.nextId+1
          eventsProcessed := s.engine.eventsProcessed+1
          threatsDetected := s.engine.threatsDetected+1 }
      results := s.results++[m]
      deferredThreats :=
        if s.engine.threatCallback then
          s.deferredThreats++[matchEvent sw v (clock s.results.length).2]
        else s.deferredThreats }
  else s

/-- One turn of the outer loop of `scan`. -/
def scanSoftware (vulnDb : List VulnEntry) (s : Scan) (sw : SoftwareInfo) : Scan :=
  vulnDb.foldl (scanEntry clock sw) s

/-- `VulnScannerEngine::scan`. -/
def scan (engine : VulnScannerEngine) (software : List SoftwareInfo) : Scan :=
  software.foldl (scanSoftware clock engine.vulnDb) ⟨engine,[],[]⟩

end Scanning

/-- A text stands at a place of another, with nothing alphanumerical before
or behind it. -/
def StandsAlone (needle text : Str) (pos : ℕ) : Prop :=
  pos ≤ text.length ∧ needle <+: text.drop pos ∧ ¬(0 < pos ∧ text[pos-1]?.any isalnum) ∧
    ¬text[pos+needle.length]?.any isalnum

/-- The product of a vulnerability is a word in the name of a software. -/
def Names (sw : SoftwareInfo) (v : VulnEntry) : Prop :=
  ∃ pos,StandsAlone (v.affectedSoftware.map toLower) (sw.name.map toLower) pos

/-- The pairs that are reported are those of an older version whose name
holds the product as a word. -/
def Exact (software : List SoftwareInfo) (vulnDb : List VulnEntry) (results : List VulnMatch) :
    Prop :=
  ∀ sw v,(∃ m ∈ results,m.software=sw ∧ m.vuln=v) ↔
    sw ∈ software ∧ v ∈ vulnDb ∧ versionLessThan sw.version v.affectedVersionBelow=true ∧ Names sw v

/-- The first place where the product stands in the name is a word. -/
def FirstStandsAlone (sw : SoftwareInfo) (v : VulnEntry) : Prop :=
  ∀ pos,findSub (v.affectedSoftware.map toLower) (sw.name.map toLower)=some pos →
    StandsAlone (v.affectedSoftware.map toLower) (sw.name.map toLower) pos

section Matching

/-- The check passes exactly at a first place that stands alone. -/
theorem matchesName_iff (text needle : Str) :
    matchesName text needle=true ↔
      ∃ pos,findSub needle text=some pos ∧ StandsAlone needle text pos := by
  rw [matchesName]
  cases hfind : findSub needle text with
  | none =>
    refine iff_of_false Bool.false_ne_true ?_
    rintro ⟨pos,hpos,-⟩
    exact Option.some_ne_none _ hpos.symm
  | some pos =>
    obtain ⟨hle,hpresent⟩ := findSub_some hfind
    have hself : (∃ p,some pos=some p ∧ StandsAlone needle text p) ↔
        StandsAlone needle text pos := by
      constructor
      · rintro ⟨p,hp,h⟩
        rwa [Option.some.inj hp]
      · exact fun h => ⟨pos,rfl,h⟩
    rw [hself,StandsAlone]
    dsimp only
    split_ifs with hbefore
    · exact iff_of_false not_false fun h => h.2.2.1 hbefore
    · rw [Bool.not_eq_true',←Bool.not_eq_true]
      exact ⟨fun h => ⟨hle,hpresent,hbefore,h⟩,fun h => h.2.2.2⟩

/-- A text that stands somewhere is found. -/
theorem findSub_of_stands {needle text : Str} {pos : ℕ} (h : StandsAlone needle text pos) :
    ∃ first,findSub needle text=some first := by
  cases hfind : findSub needle text with
  | none =>
    refine absurd ?_ (findSub_none_iff.mp hfind)
    exact h.2.1.isInfix.trans (List.drop_suffix pos text).isInfix
  | some first => exact ⟨first,rfl⟩

/-- A pair is reported exactly when the version is older and the first place
of the product in the name is a word. -/
theorem reports_iff (sw : SoftwareInfo) (v : VulnEntry) :
    reports sw v=true ↔ versionLessThan sw.version v.affectedVersionBelow=true ∧ Names sw v ∧
      FirstStandsAlone sw v := by
  rw [reports,Bool.and_eq_true,and_comm,matchesName_iff]
  refine and_congr_right fun _ => ?_
  constructor
  · rintro ⟨pos,hfind,hstands⟩
    refine ⟨⟨pos,hstands⟩,fun other hother => ?_⟩
    rw [←Option.some.inj (hfind.symm.trans hother)]
    exact hstands
  · rintro ⟨⟨pos,hstands⟩,hfirst⟩
    obtain ⟨first,hfind⟩ := findSub_of_stands hstands
    exact ⟨first,hfind,hfirst first hfind⟩

end Matching

section Results

variable (clock : ℕ → TimePoint×TimePoint)

/-- The pair a match is about. -/
def pairOf (m : VulnMatch) : SoftwareInfo×VulnEntry := (m.software,m.vuln)

/-- One turn of the inner loop adds the pair that is reported. -/
theorem scanEntry_pairs (sw : SoftwareInfo) (s : Scan) (v : VulnEntry) :
    (scanEntry clock sw s v).results.map pairOf=
      s.results.map pairOf++[(sw,v)].filter fun p => reports p.1 p.2 := by
  rw [scanEntry,List.filter_singleton]
  cases reports sw v with
  | false => rw [if_neg Bool.false_ne_true,cond_false,List.append_nil]
  | true =>
    rw [if_pos rfl,cond_true,List.map_append]
    rfl

/-- The inner loop adds the reported pairs of a software. -/
theorem scanSoftware_pairs (vulnDb : List VulnEntry) (s : Scan) (sw : SoftwareInfo) :
    (scanSoftware clock vulnDb s sw).results.map pairOf=
      s.results.map pairOf++(vulnDb.map fun v => (sw,v)).filter fun p => reports p.1 p.2 := by
  rw [scanSoftware]
  induction vulnDb generalizing s with
  | nil => rw [List.foldl_nil,List.map_nil,List.filter_nil,List.append_nil]
  | cons v vulnDb ih =>
    rw [List.foldl_cons,ih,scanEntry_pairs,List.append_assoc,←List.filter_append,List.map_cons,
      List.singleton_append]

/-- A scan reports the pairs of the lists that pass, in their order. -/
theorem scan_pairs (engine : VulnScannerEngine) (software : List SoftwareInfo) :
    (scan clock engine software).results.map pairOf=
      (software.flatMap fun sw => engine.vulnDb.map fun v => (sw,v)).filter
        fun p => reports p.1 p.2 := by
  have hfold : ∀ (software : List SoftwareInfo) (s : Scan),
      (software.foldl (scanSoftware clock engine.vulnDb) s).results.map pairOf=
        s.results.map pairOf++(software.flatMap fun sw => engine.vulnDb.map fun v => (sw,v)).filter
          fun p => reports p.1 p.2 := by
    intro software
    induction software with
    | nil => exact fun s => (List.append_nil _).symm
    | cons sw software ih =>
      intro s
      rw [List.foldl_cons,ih,scanSoftware_pairs,List.append_assoc,←List.filter_append,
        List.flatMap_cons]
  exact hfold software ⟨engine,[],[]⟩

/-- A pair is among the results exactly when it is in the lists and passes. -/
theorem scan_reported_iff (engine : VulnScannerEngine) (software : List SoftwareInfo)
    (sw : SoftwareInfo) (v : VulnEntry) :
    (∃ m ∈ (scan clock engine software).results,m.software=sw ∧ m.vuln=v) ↔
      sw ∈ software ∧ v ∈ engine.vulnDb ∧ reports sw v=true := by
  have hpair : (∃ m ∈ (scan clock engine software).results,m.software=sw ∧ m.vuln=v) ↔
      (sw,v) ∈ (scan clock engine software).results.map pairOf := by
    rw [List.mem_map]
    refine exists_congr fun m => and_congr_right fun _ => ?_
    rw [pairOf,Prod.mk.injEq]
  rw [hpair,scan_pairs,List.mem_filter,List.mem_flatMap]
  constructor
  · rintro ⟨⟨other,hother,hmem⟩,hreports⟩
    obtain ⟨entry,hentry,heq⟩ := List.mem_map.mp hmem
    obtain ⟨rfl,rfl⟩ := Prod.mk.inj heq
    exact ⟨hother,hentry,hreports⟩
  · rintro ⟨hsw,hv,hreports⟩
    exact ⟨⟨sw,hsw,List.mem_map_of_mem hv⟩,hreports⟩

/-- For every software list and vulnerability database: a scan reports
exactly the pairs of an older version whose name holds the product as a word,
if and only if the first place of the product is a word in every such name. -/
theorem scan_exact_iff (engine : VulnScannerEngine) (software : List SoftwareInfo) :
    Exact software engine.vulnDb (scan clock engine software).results ↔
      ∀ sw ∈ software,∀ v ∈ engine.vulnDb,
        versionLessThan sw.version v.affectedVersionBelow=true → Names sw v →
          FirstStandsAlone sw v := by
  constructor
  · intro h sw hsw v hv hless hnames
    obtain ⟨-,-,hreports⟩ := (scan_reported_iff clock engine software sw v).mp
      ((h sw v).mpr ⟨hsw,hv,hless,hnames⟩)
    exact ((reports_iff sw v).mp hreports).2.2
  · intro h sw v
    rw [scan_reported_iff,reports_iff]
    refine and_congr_right fun hsw => and_congr_right fun hv => and_congr_right fun hless => ?_
    exact and_iff_left_of_imp (h sw hsw v hv hless)

/-- The state at any time of a scan: the matches that were found before it
and the results, the counters, and an event for every result. -/
structure Accounted (engine : VulnScannerEngine) (before : List VulnMatch) (s : Scan) : Prop where
  /-- The newest matches are kept. -/
  found : s.engine.found=retain MAX_MATCHES (before++s.results)
  /-- Numbers are taken one after the other. -/
  nextId : s.engine.nextId=engine.nextId+UInt64.ofNat s.results.length
  /-- Every result has its number. -/
  ids : s.results.map VulnMatch.id=
    (List.range s.results.length).map fun i => engine.nextId+UInt64.ofNat i
  /-- Every result is counted. -/
  eventsProcessed : s.engine.eventsProcessed=
    engine.eventsProcessed+UInt64.ofNat s.results.length
  /-- Every result is a threat. -/
  threatsDetected : s.engine.threatsDetected=
    engine.threatsDetected+UInt64.ofNat s.results.length
  /-- The callback stays. -/
  threatCallback : s.engine.threatCallback=engine.threatCallback
  /-- With a callback every result has an event. -/
  deferred : s.deferredThreats=if engine.threatCallback then
    s.results.mapIdx fun i m => matchEvent m.software m.vuln (clock i).2 else []

/-- One turn of the inner loop keeps the accounts. -/
theorem scanEntry_accounted {engine : VulnScannerEngine} {before : List VulnMatch} {s : Scan}
    (h : Accounted clock engine before s) (sw : SoftwareInfo) (v : VulnEntry) :
    Accounted clock engine before (scanEntry clock sw s v) := by
  rw [scanEntry]
  by_cases hreports : reports sw v=true
  · rw [if_pos hreports]
    refine ⟨?_,?_,?_,?_,?_,h.threatCallback,?_⟩
    · dsimp only
      rw [h.found,push_retain,List.append_assoc]
    · dsimp only
      rw [h.nextId,List.length_append,List.length_singleton,add_ofNat_succ]
    · dsimp only
      rw [List.map_append,h.ids,List.length_append,List.length_singleton,List.range_succ,
        List.map_append,List.map_singleton,List.map_singleton,h.nextId]
    · dsimp only
      rw [h.eventsProcessed,List.length_append,List.length_singleton,add_ofNat_succ]
    · dsimp only
      rw [h.threatsDetected,List.length_append,List.length_singleton,add_ofNat_succ]
    · dsimp only
      rw [h.deferred,h.threatCallback]
      split_ifs with hset
      · rw [List.mapIdx_append,List.mapIdx_singleton,Nat.zero_add]
      · rfl
  · rw [if_neg hreports]
    exact h

/-- A scan keeps the accounts. -/
theorem scan_accounted (engine : VulnScannerEngine) (software : List SoftwareInfo)
    (h : engine.found.length ≤ MAX_MATCHES) :
    Accounted clock engine engine.found (scan clock engine software) := by
  have hstart : Accounted clock engine engine.found ⟨engine,[],[]⟩ := by
    refine ⟨?_,(UInt64.add_zero _).symm,rfl,(UInt64.add_zero _).symm,(UInt64.add_zero _).symm,
      rfl,?_⟩
    · rw [List.append_nil,retain,Nat.sub_eq_zero_of_le h,List.drop_zero]
    · rw [List.mapIdx_nil]
      split_ifs
      · rfl
      · rfl
  have hinner : ∀ (vulnDb : List VulnEntry) (s : Scan) (sw : SoftwareInfo),
      Accounted clock engine engine.found s →
      Accounted clock engine engine.found (scanSoftware clock vulnDb s sw) := by
    intro vulnDb
    induction vulnDb with
    | nil => exact fun s sw h => h
    | cons v vulnDb ih => exact fun s sw h => ih _ sw (scanEntry_accounted clock h sw v)
  have houter : ∀ (software : List SoftwareInfo) (s : Scan),
      Accounted clock engine engine.found s →
      Accounted clock engine engine.found
        (software.foldl (scanSoftware clock engine.vulnDb) s) := by
    intro software
    induction software with
    | nil => exact fun s h => h
    | cons sw software ih => exact fun s h => ih _ (hinner _ s sw h)
  exact houter software _ hstart

end Results

section EmbeddedFirst

/-- A software whose name holds a product inside a word and then as one. -/
def twiceNamed : SoftwareInfo := ⟨"xcurl curl".toList,[],"1.0".toList,[],[]⟩

/-- A vulnerability of the product. -/
def curlVuln : VulnEntry :=
  ⟨"V".toList,"curl".toList,"2.0".toList,"HIGH".toList,.nan,[],[]⟩

/-- A new engine that knows the vulnerability. -/
def curlEngine : VulnScannerEngine := ⟨[curlVuln],[],1,0,0,true⟩

/-- The vulnerable software is not reported. -/
theorem embedded_name_missed :
    (scan (fun _ => (0,0)) curlEngine [twiceNamed]).results=[] ∧
      ¬Exact [twiceNamed] curlEngine.vulnDb
        (scan (fun _ => (0,0)) curlEngine [twiceNamed]).results := by
  have hnone : (scan (fun _ => (0,0)) curlEngine [twiceNamed]).results=[] := by
    have hpairs := scan_pairs (fun _ => (0,0)) curlEngine [twiceNamed]
    have hfilter : reports twiceNamed curlVuln=false := by decide
    rw [curlEngine,List.flatMap_singleton,List.map_singleton,List.filter_singleton,hfilter,
      cond_false,List.map_eq_nil_iff] at hpairs
    exact hpairs
  refine ⟨hnone,fun h => ?_⟩
  rw [hnone] at h
  have hnames : Names twiceNamed curlVuln := by
    refine ⟨6,?_⟩
    rw [StandsAlone]
    decide
  obtain ⟨m,hm,-⟩ := (h twiceNamed curlVuln).mpr
    ⟨List.mem_cons_self,List.mem_cons_self,by decide,hnames⟩
  exact absurd hm List.not_mem_nil

end EmbeddedFirst

end Gcad.VulnScan
