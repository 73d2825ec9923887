import Gcad.Observation
import Gcad.StepSystem
import Gcad.DelimitedText

/-!
# The threat intelligence engine

The engine keeps a list of indicators and three sets of values derived from
it. Indicators are added one by one, from the lines of a file, from an
imported text, from the files of a directory or as the built-in defaults;
hash and domain values are normalised when they are added. The sets are
rebuilt from the list after every change, and a look-up walks the list.
-/

namespace Gcad.ThreatIntel

open Common Observation StepSystem DelimitedText

/-- The `IocType` enumeration. -/
inductive IocType where
  | sha256Hash
  | md5Hash
  | ipv4Address
  | domain
  | url
  | fileName
  deriving DecidableEq, Repr

/-- An indicator, with the source's default values. -/
structure IocEntry where
  /-- Number the engine gave it. -/
  id : UInt64 := 0
  /-- Sort of the indicator. -/
  type : IocType := .sha256Hash
  /-- Hash, address, domain, URL or file name. -/
  value : Str := []
  /-- Where the indicator comes from. -/
  source : Str := []
  /-- What it stands for. -/
  description : Str := []
  /-- Severity of a match. -/
  severity : ThreatLevel := .high
  /-- Free labels. -/
  tags : Str := []
  /-- Time of insertion; the epoch means not set. -/
  addedAt : TimePoint := 0
  /-- Inactive indicators match nothing. -/
  active : Bool := true
  deriving DecidableEq

/-- One answer of a look-up. -/
structure IocMatch where
  /-- The indicator that matched. -/
  ioc : IocEntry
  /-- The value it was compared with. -/
  matchedAgainst : Str
  /-- Context of the match; a look-up leaves it empty. -/
  context : Str
  /-- Time of the match. -/
  matchedAt : TimePoint

/-- The state of `ThreatIntelEngine`. -/
structure ThreatIntelEngine where
  /-- The monitor thread runs. -/
  running : Bool
  /-- Number of the next indicator. -/
  nextId : UInt64
  /-- The indicators in the order of their insertion. -/
  iocs : List IocEntry
  /-- Values of the active hashes. -/
  hashIndex : Finset Str
  /-- Values of the active addresses. -/
  ipIndex : Finset Str
  /-- Values of the active domains. -/
  domainIndex : Finset Str

/-- A freshly constructed engine. -/
def create : ThreatIntelEngine := ⟨false,1,[],∅,∅,∅⟩

/-- `normalize_hash`. -/
def normalizeHash (hash : Str) : Str := hash.map toLower

/-- `normalize_domain`: lower case, and no dots at the end. -/
def normalizeDomain (domain : Str) : Str := (domain.map toLower).rdropWhile fun c => c = '.'

/-- The types of hash indicators. -/
def IocType.isHash (type : IocType) : Bool := type=.sha256Hash || type=.md5Hash

/-- The value under which an indicator is stored. -/
def normalizeValue (type : IocType) (value : Str) : Str :=
  if type.isHash then normalizeHash value
  else if type=.domain then normalizeDomain value
  else value

/-- The body of the loop of `rebuild_indices`. -/
def indexEntry (engine : ThreatIntelEngine) (e : IocEntry) : ThreatIntelEngine :=
  if !e.active then engine
  else match e.type with
  | .sha256Hash => { engine with hashIndex := insert e.value engine.hashIndex }
  | .md5Hash => { engine with hashIndex := insert e.value engine.hashIndex }
  | .ipv4Address => { engine with ipIndex := insert e.value engine.ipIndex }
  | .domain => { engine with domainIndex := insert e.value engine.domainIndex }
  | .url => engine
  | .fileName => engine

/-- `rebuild_indices`. -/
def rebuildIndices (engine : ThreatIntelEngine) : ThreatIntelEngine :=
  engine.iocs.foldl indexEntry { engine with hashIndex := ∅,ipIndex := ∅,domainIndex := ∅ }

/-- `add_ioc` when the clock shows `now`. -/
def addIoc (engine : ThreatIntelEngine) (entry : IocEntry) (now : TimePoint) :
    ThreatIntelEngine×UInt64 :=
  let entry := { entry with
    id := engine.nextId
    addedAt := if entry.addedAt=0 then now else entry.addedAt
    value := normalizeValue entry.type entry.value }
  (rebuildIndices { engine with nextId := engine.nextId+1,iocs := engine.iocs++[entry] },entry.id)

/-- `remove_ioc`. -/
def removeIoc (engine : ThreatIntelEngine) (id : UInt64) : ThreatIntelEngine×Bool :=
  if engine.iocs.any fun e => e.id=id then
    (rebuildIndices { engine with iocs := engine.iocs.eraseP fun e => e.id=id },true)
  else (engine,false)

/-- `clear_iocs`. -/
def clearIocs (engine : ThreatIntelEngine) : ThreatIntelEngine :=
  { engine with iocs := [],hashIndex := ∅,ipIndex := ∅,domainIndex := ∅ }

/-- The table of type names that a line is compared with. -/
def typeOf (text : Str) : Option IocType :=
  if text="sha256".toList then some .sha256Hash
  else if text="md5".toList then some .md5Hash
  else if text="ip".toList then some .ipv4Address
  else if text="domain".toList then some .domain
  else if text="url".toList then some .url
  else if text="filename".toList then some .fileName
  else none

/-- The table of severity names; both readers fall back to `HIGH`. -/
def severityOf (text : Str) : ThreatLevel :=
  if text="critical".toList then .critical
  else if text="high".toList then .high
  else if text="medium".toList then .medium
  else if text="low".toList then .low
  else .high

/-- The indicator in a line `type|value|severity|source|description`. The
type and the value must be there, the rest may be missing. -/
def readEntry (text : Str) : Option IocEntry :=
  match pieces '|' text with
  | typeStr::value::rest => (typeOf typeStr).map fun type =>
    { type := type,value := value,severity := severityOf (rest[0]?.getD [])
      source := rest[1]?.getD [],description := rest[2]?.getD [] }
  | _ => none

/-- The body of the loop of `load_from_file` for one line. -/
def readFileLine (text : Str) : Option IocEntry :=
  if text=[] ∨ text.head?=some '#' then none else readEntry text

/-- The body of the loop of `import_iocs_from_string` for one line. -/
def readImportLine (defaultSource text : Str) : Option IocEntry :=
  let trimmed := trim isBlank text
  if trimmed=[] ∨ trimmed.head?=some '#' then none
  else (readEntry trimmed).map fun e =>
    { e with source := if e.source=[] then defaultSource else e.source }

/-- The loop of both readers: each indicator read is added, and `count`
counts them. The clock shows `now count` at the next insertion. -/
def addLines (read : Str → Option IocEntry) (now : ℕ → TimePoint)
    (loaded : ThreatIntelEngine×ℕ) (text : Str) : ThreatIntelEngine×ℕ :=
  match read text with
  | none => loaded
  | some e => ((addIoc loaded.1 e (now loaded.2)).1,loaded.2+1)

/-- `load_from_file`; the file may be impossible to open. -/
def loadFromFile (engine : ThreatIntelEngine) (file : Option Str) (now : ℕ → TimePoint) :
    ThreatIntelEngine×ℕ :=
  match file with
  | none => (engine,0)
  | some text => (pieces '\n' text).foldl (addLines readFileLine now) (engine,0)

/-- `import_iocs_from_string`. -/
def importIocsFromString (engine : ThreatIntelEngine) (content defaultSource : Str)
    (now : ℕ → TimePoint) : ThreatIntelEngine×ℕ :=
  (pieces '\n' content).foldl (addLines (readImportLine defaultSource) now) (engine,0)

/-- An entry of the directory that is reloaded. -/
structure DirectoryEntry where
  /-- Its file name. -/
  filename : Str
  /-- It is a regular file. -/
  isRegularFile : Bool
  /-- Its text, when it can be opened. -/
  content : Option Str

/-- `path::extension` of a file name: from its last dot on, unless the name
has no other dot than a first one. -/
def extension (filename : Str) : Str :=
  let suffix := filename.rtakeWhile fun c => c≠ '.'
  if filename=['.','.'] ∨ filename.length ≤ suffix.length+1 then [] else '.'::suffix

/-- The body of the loop of `reload_from_directory`. -/
def reloadEntry (now : ℕ → TimePoint) (loaded : ThreatIntelEngine×ℕ) (entry : DirectoryEntry) :
    ThreatIntelEngine×ℕ :=
  let ext := extension entry.filename
  if entry.isRegularFile ∧ (ext=".ioc".toList ∨ ext=".txt".toList ∨ ext=".csv".toList) then
    let next := loadFromFile loaded.1 entry.content fun count => now (loaded.2+count)
    (next.1,loaded.2+next.2)
  else loaded

/-- `reload_from_directory`; nothing is given for a path that is empty, does
not exist or is no directory. -/
def reloadFromDirectory (engine : ThreatIntelEngine) (dir : Option (List DirectoryEntry))
    (now : ℕ → TimePoint) : ThreatIntelEngine×ℕ :=
  match dir with
  | none => (engine,0)
  | some entries => entries.foldl (reloadEntry now) (engine,0)

/-- The built-in indicators. -/
def defaultIocs : List IocEntry :=
  let entry := fun (type : IocType) (value : String) (severity : ThreatLevel)
      (description : String) =>
    ({ type := type,value := value.toList,severity := severity
       source := "GCAD-default".toList,description := description.toList } : IocEntry)
  [entry .domain "malware-c2.example.com" .critical "Known C2 domain",
    entry .domain "phishing-site.example.net" .high "Known phishing domain",
    entry .domain "cryptominer-pool.example.org" .high "Cryptominer pool",
    entry .ipv4Address "198.51.100.1" .critical "Known C2 server",
    entry .ipv4Address "203.0.113.50" .high "Known scanner",
    entry .sha256Hash "e3b0c44298fc1c149afbf4c8996fb92427ae41e4649b934ca495991b7852b855" .low
      "Empty file hash (suspicious if unexpected)",
    entry .fileName "mimikatz.exe" .critical "Credential dumping tool",
    entry .fileName "lazagne.exe" .high "Password recovery tool",
    entry .fileName "psexec.exe" .medium "Remote execution tool"]

/-- The `add` lambda of `install_default_iocs`: the value is not normalised
and the sets are not rebuilt. -/
def pushDefault (now : ℕ → TimePoint) (pushed : ThreatIntelEngine×ℕ) (e : IocEntry) :
    ThreatIntelEngine×ℕ :=
  ({ pushed.1 with
    nextId := pushed.1.nextId+1
    iocs := pushed.1.iocs++[{ e with id := pushed.1.nextId,addedAt := now pushed.2 }] },pushed.2+1)

/-- `install_default_iocs`. -/
def installDefaultIocs (engine : ThreatIntelEngine) (now : ℕ → TimePoint) : ThreatIntelEngine :=
  if engine.iocs≠[] then engine
  else rebuildIndices (defaultIocs.foldl (pushDefault now) (engine,0)).1

/-- `reload_all`; the result is `ioc_count`. -/
def reloadAll (engine : ThreatIntelEngine) (dir : Option (List DirectoryEntry))
    (now : ℕ → TimePoint) : ThreatIntelEngine×ℕ :=
  let installed := installDefaultIocs (clearIocs engine) now
  let reloaded := (reloadFromDirectory installed dir fun count => now (defaultIocs.length+count)).1
  (reloaded,reloaded.iocs.length)

/-- `start`. -/
def start (engine : ThreatIntelEngine) (now : ℕ → TimePoint) : ThreatIntelEngine :=
  if engine.running then engine
  else { installDefaultIocs engine now with running := true }

/-- `stop`. -/
def stop (engine : ThreatIntelEngine) : ThreatIntelEngine := { engine with running := false }

/-- `check_hash`. -/
def checkHash (engine : ThreatIntelEngine) (hash : Str) : Bool :=
  normalizeHash hash ∈ engine.hashIndex

/-- `check_ip`. -/
def checkIp (engine : ThreatIntelEngine) (ip : Str) : Bool := ip ∈ engine.ipIndex

/-- `check_domain`. -/
def checkDomain (engine : ThreatIntelEngine) (domain : Str) : Bool :=
  normalizeDomain domain ∈ engine.domainIndex

/-- The comparison of `lookup` for one indicator. -/
def matchesValue (value : Str) (e : IocEntry) : Bool :=
  if !e.active then false
  else match e.type with
  | .sha256Hash => e.value=normalizeHash value
  | .md5Hash => e.value=normalizeHash value
  | .ipv4Address => e.value=value
  | .domain => e.value=normalizeDomain value
  | .url => e.value=value
  | .fileName => e.value=value

/-- `lookup` when the clock shows `now`. -/
def lookup (engine : ThreatIntelEngine) (value : Str) (now : TimePoint) : List IocMatch :=
  (engine.iocs.filter (matchesValue value)).map fun e => ⟨e,value,[],now⟩

/-- The calls that change the list; every clock reading is part of its call. -/
inductive Call where
  | addIoc (entry : IocEntry) (now : TimePoint)
  | removeIoc (id : UInt64)
  | clearIocs
  | loadFromFile (file : Option Str) (now : ℕ → TimePoint)
  | importIocsFromString (content defaultSource : Str) (now : ℕ → TimePoint)
  | reloadFromDirectory (dir : Option (List DirectoryEntry)) (now : ℕ → TimePoint)
  | reloadAll (dir : Option (List DirectoryEntry)) (now : ℕ → TimePoint)
  | installDefaultIocs (now : ℕ → TimePoint)
  | start (now : ℕ → TimePoint)
  | stop

/-- What a call returns. -/
inductive Reply where
  | id (value : UInt64)
  | removed (found : Bool)
  | count (entries : ℕ)
  | code (result : ErrorCode)
  | nothing

/-- One call of the engine. -/
def step (engine : ThreatIntelEngine) : Call → ThreatIntelEngine×Reply
  | .addIoc entry now => ((addIoc engine entry now).1,.id (addIoc engine entry now).2)
  | .removeIoc id => ((removeIoc engine id).1,.removed (removeIoc engine id).2)
  | .clearIocs => (clearIocs engine,.nothing)
  | .loadFromFile file now => ((loadFromFile engine file now).1,
      .count (loadFromFile engine file now).2)
  | .importIocsFromString content defaultSource now =>
    ((importIocsFromString engine content defaultSource now).1,
      .count (importIocsFromString engine content defaultSource now).2)
  | .reloadFromDirectory dir now => ((reloadFromDirectory engine dir now).1,
      .count (reloadFromDirectory engine dir now).2)
  | .reloadAll dir now => ((reloadAll engine dir now).1,.count (reloadAll engine dir now).2)
  | .installDefaultIocs now => (installDefaultIocs engine now,.nothing)
  | .start now => (start engine now,.code .ok)
  | .stop => (stop engine,.code .ok)

/-- A recorded call. -/
abbrev CallEvent := Event ThreatIntelEngine (Call×Reply)

section Indices

/-- The three derived sets. -/
inductive IndexKind where
  | hash
  | ip
  | domain
  deriving DecidableEq

/-- The set that an indicator of a type belongs to. -/
def IocType.indexKind : IocType → Option IndexKind
  | .sha256Hash => some .hash
  | .md5Hash => some .hash
  | .ipv4Address => some .ip
  | .domain => some .domain
  | .url => none
  | .fileName => none

/-- A derived set of the engine. -/
def ThreatIntelEngine.index (engine : ThreatIntelEngine) : IndexKind → Finset Str
  | .hash => engine.hashIndex
  | .ip => engine.ipIndex
  | .domain => engine.domainIndex

/-- The value that a query compares with the members of a set. -/
def IndexKind.key : IndexKind → Str → Str
  | .hash,value => normalizeHash value
  | .ip,value => value
  | .domain,value => normalizeDomain value

/-- A list has an active indicator with the given value for a set. -/
def Listed (iocs : List IocEntry) (kind : IndexKind) (value : Str) : Prop :=
  ∃ e ∈ iocs,e.active=true ∧ e.type.indexKind=some kind ∧ e.value=value

/-- Every derived set holds exactly the values of its active indicators. -/
def Indexed (engine : ThreatIntelEngine) : Prop :=
  ∀ kind value,value ∈ engine.index kind ↔ Listed engine.iocs kind value

/-- Indexing an entry leaves the list alone. -/
theorem indexEntry_iocs (engine : ThreatIntelEngine) (e : IocEntry) :
    (indexEntry engine e).iocs=engine.iocs ∧ (indexEntry engine e).nextId=engine.nextId := by
  unfold indexEntry
  split
  · exact ⟨rfl,rfl⟩
  · split <;> exact ⟨rfl,rfl⟩

/-- Indexing an entry adds its value to its set, if it is active. -/
theorem mem_indexEntry (engine : ThreatIntelEngine) (e : IocEntry) (kind : IndexKind)
    (value : Str) : value ∈ (indexEntry engine e).index kind ↔
      value ∈ engine.index kind ∨ e.active=true ∧ e.type.indexKind=some kind ∧ e.value=value := by
  unfold indexEntry
  cases hactive : e.active with
  | false => simp
  | true =>
    cases htype : e.type <;> cases kind <;>
      simp [ThreatIntelEngine.index,IocType.indexKind,or_comm,eq_comm]

/-- Rebuilding leaves the list and the next number alone. -/
theorem rebuildIndices_iocs (engine : ThreatIntelEngine) :
    (rebuildIndices engine).iocs=engine.iocs ∧ (rebuildIndices engine).nextId=engine.nextId := by
  unfold rebuildIndices
  refine List.foldlRecOn (motive := fun indexed : ThreatIntelEngine =>
    indexed.iocs=engine.iocs ∧ indexed.nextId=engine.nextId) engine.iocs _ ⟨rfl,rfl⟩ ?_
  intro indexed h e _
  obtain ⟨hiocs,hnext⟩ := indexEntry_iocs indexed e
  exact ⟨hiocs.trans h.1,hnext.trans h.2⟩

/-- The members of a set after a list has been indexed. -/
theorem mem_foldl_indexEntry (iocs : List IocEntry) (engine : ThreatIntelEngine)
    (kind : IndexKind) (value : Str) : value ∈ (iocs.foldl indexEntry engine).index kind ↔
      value ∈ engine.index kind ∨ Listed iocs kind value := by
  induction iocs generalizing engine with
  | nil => simp [Listed]
  | cons e rest ih =>
    rw [List.foldl_cons,ih,mem_indexEntry,or_assoc]
    simp only [Listed,List.exists_mem_cons_iff]

/-- Rebuilt sets agree with the list. -/
theorem rebuildIndices_indexed (engine : ThreatIntelEngine) : Indexed (rebuildIndices engine) := by
  intro kind value
  rw [(rebuildIndices_iocs engine).1,rebuildIndices,mem_foldl_indexEntry]
  cases kind <;> simp [ThreatIntelEngine.index]

/-- Reading lines keeps the sets in agreement. -/
theorem foldl_addLines_indexed {engine : ThreatIntelEngine} (h : Indexed engine)
    (read : Str → Option IocEntry) (now : ℕ → TimePoint) (lines : List Str) (count : ℕ) :
    Indexed (lines.foldl (addLines read now) (engine,count)).1 := by
  refine List.foldlRecOn (motive := fun loaded : ThreatIntelEngine×ℕ => Indexed loaded.1)
    lines _ h ?_
  intro loaded hloaded text _
  unfold addLines
  split
  · exact hloaded
  · exact rebuildIndices_indexed _

/-- So does loading a file. -/
theorem loadFromFile_indexed {engine : ThreatIntelEngine} (h : Indexed engine)
    (file : Option Str) (now : ℕ → TimePoint) : Indexed (loadFromFile engine file now).1 := by
  cases file with
  | none => exact h
  | some text => exact foldl_addLines_indexed h _ _ _ _

/-- So does reloading a directory. -/
theorem reloadFromDirectory_indexed {engine : ThreatIntelEngine} (h : Indexed engine)
    (dir : Option (List DirectoryEntry)) (now : ℕ → TimePoint) :
    Indexed (reloadFromDirectory engine dir now).1 := by
  cases dir with
  | none => exact h
  | some entries =>
    refine List.foldlRecOn (motive := fun loaded : ThreatIntelEngine×ℕ => Indexed loaded.1)
      entries _ h ?_
    intro loaded hloaded entry _
    unfold reloadEntry
    dsimp only
    split
    · exact loadFromFile_indexed hloaded _ _
    · exact hloaded

/-- So does installing the defaults. -/
theorem installDefaultIocs_indexed {engine : ThreatIntelEngine} (h : Indexed engine)
    (now : ℕ → TimePoint) : Indexed (installDefaultIocs engine now) := by
  unfold installDefaultIocs
  split
  · exact h
  · exact rebuildIndices_indexed _

/-- Cleared sets agree with the cleared list. -/
theorem clearIocs_indexed (engine : ThreatIntelEngine) : Indexed (clearIocs engine) := by
  intro kind value
  cases kind <;> simp [clearIocs,ThreatIntelEngine.index,Listed]

/-- Every call keeps the sets in agreement with the list. -/
theorem step_indexed {engine : ThreatIntelEngine} (h : Indexed engine) (call : Call) :
    Indexed (step engine call).1 := by
  cases call with
  | addIoc entry now => exact rebuildIndices_indexed _
  | removeIoc id =>
    dsimp only [step,removeIoc]
    split
    · exact rebuildIndices_indexed _
    · exact h
  | clearIocs => exact clearIocs_indexed engine
  | loadFromFile file now => exact loadFromFile_indexed h file now
  | importIocsFromString content defaultSource now => exact foldl_addLines_indexed h _ _ _ _
  | reloadFromDirectory dir now => exact reloadFromDirectory_indexed h dir now
  | reloadAll dir now =>
    exact reloadFromDirectory_indexed (installDefaultIocs_indexed (clearIocs_indexed engine) now) _ _
  | installDefaultIocs now => exact installDefaultIocs_indexed h now
  | start now =>
    dsimp only [step,start]
    split
    · exact h
    · exact installDefaultIocs_indexed h now
  | stop => exact h

/-- An indicator that a look-up returns for a set has the key's value. -/
theorem matchesValue_iff {e : IocEntry} {kind : IndexKind} (hkind : e.type.indexKind=some kind)
    (value : Str) : matchesValue value e=true ↔ e.active=true ∧ e.value=kind.key value := by
  unfold matchesValue
  cases hactive : e.active with
  | false => simp
  | true =>
    cases htype : e.type <;> cases kind <;>
      simp_all [IocType.indexKind,IndexKind.key]

/-- A set holds the key of a value exactly when the look-up of the value
returns an active indicator of the set. -/
theorem Indexed.lookup_iff {engine : ThreatIntelEngine} (h : Indexed engine) (kind : IndexKind)
    (value : Str) (now : TimePoint) : kind.key value ∈ engine.index kind ↔
      ∃ m ∈ lookup engine value now,m.ioc.active=true ∧ m.ioc.type.indexKind=some kind := by
  rw [h kind]
  constructor
  · rintro ⟨e,member,hactive,hkind,hvalue⟩
    have hmatch := (matchesValue_iff hkind value).mpr ⟨hactive,hvalue⟩
    have hfilter := List.mem_filter.mpr ⟨member,hmatch⟩
    exact ⟨⟨e,value,[],now⟩,List.mem_map_of_mem hfilter,hactive,hkind⟩
  · rintro ⟨m,member,hactive,hkind⟩
    obtain ⟨e,hfilter,rfl⟩ := List.mem_map.mp member
    obtain ⟨hlist,hmatch⟩ := List.mem_filter.mp hfilter
    exact ⟨e,hlist,hactive,hkind,((matchesValue_iff hkind value).mp hmatch).2⟩

/-- The three checks answer as the look-up does. -/
structure Agrees (engine : ThreatIntelEngine) (value : Str) (now : TimePoint) : Prop where
  /-- Hashes. -/
  hash : checkHash engine value=true ↔
    ∃ m ∈ lookup engine value now,m.ioc.active=true ∧ m.ioc.type.isHash=true
  /-- Addresses. -/
  ip : checkIp engine value=true ↔
    ∃ m ∈ lookup engine value now,m.ioc.active=true ∧ m.ioc.type=.ipv4Address
  /-- Domains. -/
  domain : checkDomain engine value=true ↔
    ∃ m ∈ lookup engine value now,m.ioc.active=true ∧ m.ioc.type=.domain

/-- Sets that agree with the list answer as the look-up does. -/
theorem Indexed.agrees {engine : ThreatIntelEngine} (h : Indexed engine) (value : Str)
    (now : TimePoint) : Agrees engine value now := by
  have htype : ∀ type : IocType,(type.isHash=true ↔ type.indexKind=some .hash) ∧
      (type=.ipv4Address ↔ type.indexKind=some .ip) ∧
      (type=.domain ↔ type.indexKind=some .domain) := by
    intro type
    cases type <;> decide
  constructor
  · rw [checkHash,decide_eq_true_iff]
    simp only [(htype _).1]
    exact h.lookup_iff .hash value now
  · rw [checkIp,decide_eq_true_iff]
    simp only [(htype _).2.1]
    exact h.lookup_iff .ip value now
  · rw [checkDomain,decide_eq_true_iff]
    simp only [(htype _).2.2]
    exact h.lookup_iff .domain value now

end Indices

section Numbers

/-- The numbers that the first insertions get, counted from one and modulo
`2^64`. -/
def issued (n : ℕ) : List UInt64 := (List.range n).map fun i => 1+UInt64.ofNat i

/-- After `n` insertions the listed numbers are among those handed out, in
their order. -/
structure Numbered (engine : ThreatIntelEngine) (n : ℕ) : Prop where
  /-- The next number. -/
  next : engine.nextId=1+UInt64.ofNat n
  /-- The numbers in the list. -/
  ids : (engine.iocs.map IocEntry.id).Sublist (issued n)

/-- An insertion takes the next number. -/
theorem Numbered.push {engine pushed : ThreatIntelEngine} {n : ℕ} (h : Numbered engine n)
    {e : IocEntry} (hid : e.id=engine.nextId) (hiocs : pushed.iocs=engine.iocs++[e])
    (hnext : pushed.nextId=engine.nextId+1) : Numbered pushed (n+1) := by
  constructor
  · rw [hnext,h.next,UInt64.ofNat_add,UInt64.add_assoc]
    rfl
  · rw [hiocs,List.map_append,List.map_singleton,hid,h.next,issued,List.range_succ,List.map_append]
    exact h.ids.append (List.Sublist.refl _)

/-- A list that only lost indicators stays numbered. -/
theorem Numbered.shrink {engine less : ThreatIntelEngine} {n : ℕ} (h : Numbered engine n)
    (hiocs : less.iocs.Sublist engine.iocs) (hnext : less.nextId=engine.nextId) : Numbered less n :=
  ⟨hnext.trans h.next,(hiocs.map _).trans h.ids⟩

/-- Rebuilding keeps the numbers. -/
theorem Numbered.rebuild {engine : ThreatIntelEngine} {n : ℕ} (h : Numbered engine n) :
    Numbered (rebuildIndices engine) n := by
  obtain ⟨hiocs,hnext⟩ := rebuildIndices_iocs engine
  refine h.shrink ?_ hnext
  rw [hiocs]

/-- Adding an indicator is one insertion. -/
theorem Numbered.addIoc {engine : ThreatIntelEngine} {n : ℕ} (h : Numbered engine n)
    (entry : IocEntry) (now : TimePoint) : Numbered (addIoc engine entry now).1 (n+1) := by
  apply Numbered.rebuild
  exact h.push rfl rfl rfl

/-- Reading lines inserts as many indicators as are counted. -/
theorem Numbered.addLines {engine : ThreatIntelEngine} {n : ℕ} (h : Numbered engine n)
    (read : Str → Option IocEntry) (now : ℕ → TimePoint) (lines : List Str) :
    Numbered (lines.foldl (ThreatIntel.addLines read now) (engine,0)).1
      (n+(lines.foldl (ThreatIntel.addLines read now) (engine,0)).2) := by
  refine List.foldlRecOn (motive := fun loaded : ThreatIntelEngine×ℕ =>
    Numbered loaded.1 (n+loaded.2)) lines _ h ?_
  intro loaded hloaded text _
  unfold ThreatIntel.addLines
  split
  · exact hloaded
  · exact hloaded.addIoc _ _

/-- So does loading a file. -/
theorem Numbered.loadFromFile {engine : ThreatIntelEngine} {n : ℕ} (h : Numbered engine n)
    (file : Option Str) (now : ℕ → TimePoint) :
    Numbered (loadFromFile engine file now).1 (n+(loadFromFile engine file now).2) := by
  cases file with
  | none => exact h
  | some text => exact h.addLines _ _ _

/-- So does reloading a directory. -/
theorem Numbered.reloadFromDirectory {engine : ThreatIntelEngine} {n : ℕ} (h : Numbered engine n)
    (dir : Option (List DirectoryEntry)) (now : ℕ → TimePoint) :
    Numbered (reloadFromDirectory engine dir now).1 (n+(reloadFromDirectory engine dir now).2) := by
  cases dir with
  | none => exact h
  | some entries =>
    refine List.foldlRecOn (motive := fun loaded : ThreatIntelEngine×ℕ =>
      Numbered loaded.1 (n+loaded.2)) entries _ h ?_
    intro loaded hloaded entry _
    unfold reloadEntry
    dsimp only
    split
    · rw [←Nat.add_assoc]
      exact hloaded.loadFromFile _ _
    · exact hloaded

/-- The indicators that `install_default_iocs` inserts. -/
def defaultInsertions (engine : ThreatIntelEngine) : ℕ :=
  if engine.iocs≠[] then 0 else defaultIocs.length

/-- Pushing a list of defaults. -/
theorem Numbered.pushDefaults {engine : ThreatIntelEngine} {n : ℕ} (h : Numbered engine n)
    (now : ℕ → TimePoint) (defaults : List IocEntry) (count : ℕ) :
    Numbered (defaults.foldl (pushDefault now) (engine,count)).1 (n+defaults.length) := by
  induction defaults generalizing engine n count with
  | nil => exact h
  | cons e rest ih =>
    have hpushed : Numbered (pushDefault now (engine,count) e).1 (n+1) := h.push rfl rfl rfl
    have hrest := ih hpushed (count+1)
    rw [List.length_cons,Nat.add_comm rest.length,←Nat.add_assoc]
    exact hrest

/-- Installing the defaults. -/
theorem Numbered.installDefaultIocs {engine : ThreatIntelEngine} {n : ℕ} (h : Numbered engine n)
    (now : ℕ → TimePoint) :
    Numbered (installDefaultIocs engine now) (n+defaultInsertions engine) := by
  unfold ThreatIntel.installDefaultIocs defaultInsertions
  split
  · exact h
  · exact (h.pushDefaults now defaultIocs 0).rebuild

/-- The number of indicators that a call inserts. -/
def insertions (engine : ThreatIntelEngine) : Call → ℕ
  | .addIoc _ _ => 1
  | .loadFromFile file now => (loadFromFile engine file now).2
  | .importIocsFromString content defaultSource now =>
    (importIocsFromString engine content defaultSource now).2
  | .reloadFromDirectory dir now => (reloadFromDirectory engine dir now).2
  | .reloadAll dir now => defaultIocs.length+(reloadFromDirectory
      (installDefaultIocs (clearIocs engine) now) dir fun count => now (defaultIocs.length+count)).2
  | .installDefaultIocs _ => defaultInsertions engine
  | .start _ => if engine.running then 0 else defaultInsertions engine
  | .removeIoc _ => 0
  | .clearIocs => 0
  | .stop => 0

/-- Every call hands out as many numbers as it inserts indicators. -/
theorem step_numbered {engine : ThreatIntelEngine} {n : ℕ} (h : Numbered engine n) (call : Call) :
    Numbered (step engine call).1 (n+insertions engine call) := by
  cases call with
  | addIoc entry now => exact h.addIoc entry now
  | removeIoc id =>
    dsimp only [step,removeIoc]
    split
    · have hless : Numbered { engine with iocs := engine.iocs.eraseP fun e => e.id=id } n :=
        h.shrink List.eraseP_sublist rfl
      exact hless.rebuild
    · exact h
  | clearIocs => exact h.shrink (List.nil_sublist _) rfl
  | loadFromFile file now => exact h.loadFromFile file now
  | importIocsFromString content defaultSource now => exact h.addLines _ _ _
  | reloadFromDirectory dir now => exact h.reloadFromDirectory dir now
  | reloadAll dir now =>
    have hclear : Numbered (clearIocs engine) n := h.shrink (List.nil_sublist _) rfl
    have hreloaded := (hclear.installDefaultIocs now).reloadFromDirectory dir
      fun count => now (defaultIocs.length+count)
    rw [Nat.add_assoc] at hreloaded
    exact hreloaded
  | installDefaultIocs now => exact h.installDefaultIocs now
  | start now =>
    dsimp only [step,start,insertions]
    split
    · exact h
    · exact (h.installDefaultIocs now).shrink (List.Sublist.refl _) rfl
  | stop => exact h.shrink (List.Sublist.refl _) rfl

/-- Up to `2^64` insertions no number is handed out twice. -/
theorem issued_nodup {n : ℕ} (h : n ≤ 2^64) : (issued n).Nodup := by
  refine List.Nodup.map_on ?_ List.nodup_range
  intro i hi j hj heq
  have hi := List.mem_range.mp hi
  have hj := List.mem_range.mp hj
  have hnat := congrArg UInt64.toNat ((UInt64.add_right_inj 1).mp heq)
  rw [UInt64.toNat_ofNat_of_lt' (hi.trans_le h),UInt64.toNat_ofNat_of_lt' (hj.trans_le h)] at hnat
  exact hnat

end Numbers

/-- The number of indicators that the recorded calls inserted. -/
def inserted (events : List CallEvent) : ℕ :=
  (events.map fun e => insertions e.before e.label.1).sum

/-- Over every sequence of calls: the three checks answer as the look-up does
for every value, and the listed numbers are distinct unless more than `2^64`
indicators have been inserted. -/
theorem indices_agree_with_list {events : List CallEvent} {engine : ThreatIntelEngine}
    (run : Run (Deterministic step) create events engine) :
    (∀ value now,Agrees engine value now) ∧
      (inserted events ≤ 2^64 → (engine.iocs.map IocEntry.id).Nodup) := by
  have hcreate : Indexed create ∧ Numbered create (inserted []) :=
    ⟨clearIocs_indexed create,rfl,List.Sublist.refl _⟩
  have hinv : Indexed engine ∧ Numbered engine (inserted events) := by
    refine run.invariant (fun events engine => Indexed engine ∧ Numbered engine (inserted events))
      hcreate ?_
    rintro events s label t ⟨hindexed,hnumbered⟩ hstep
    have hindexed' := step_indexed hindexed label.1
    have hnumbered' := step_numbered hnumbered label.1
    rw [hstep] at hindexed' hnumbered'
    have hsum : inserted (events++[⟨s,label,t⟩])=inserted events+insertions s label.1 := by
      simp only [inserted,List.map_append,List.sum_append,List.map_singleton,List.sum_singleton]
    rw [hsum]
    exact ⟨hindexed',hnumbered'⟩
  exact ⟨hinv.1.agrees,fun few => (issued_nodup few).sublist hinv.2.ids⟩

/-- Two additions and a removal: the domain that stays is found under every
spelling. -/
theorem indices_agree_after_removal :
    checkDomain (execute step create [.addIoc { value := ['A'] } 1,
      .addIoc { type := .domain,value := "Evil.example.".toList } 2,.removeIoc 1]).2
        "evil.EXAMPLE".toList=true ∧
    (∀ value now,Agrees (execute step create [.addIoc { value := ['A'] } 1,
      .addIoc { type := .domain,value := "Evil.example.".toList } 2,.removeIoc 1]).2 value now) ∧
    ((execute step create [.addIoc { value := ['A'] } 1,
      .addIoc { type := .domain,value := "Evil.example.".toList } 2,
      .removeIoc 1]).2.iocs.map IocEntry.id).Nodup := by
  obtain ⟨hagrees,hdistinct⟩ := indices_agree_with_list (execute_run step create
    [.addIoc { value := ['A'] } 1,.addIoc { type := .domain,value := "Evil.example.".toList } 2,
      .removeIoc 1])
  exact ⟨by decide,hagrees,hdistinct (by decide)⟩

/-- An engine with one indicator after `count` further ones were added and
removed again. -/
def recycled (count : ℕ) : ThreatIntelEngine :=
  ⟨false,2+UInt64.ofNat count,[{ id := 1 }],{[]},∅,∅⟩

/-- The recycled engine with one more indicator. -/
def recycledTwo (count : ℕ) : ThreatIntelEngine :=
  ⟨false,2+UInt64.ofNat count+1,[{ id := 1 },{ id := 2+UInt64.ofNat count }],{[]},∅,∅⟩

/-- Adding a default indicator to the recycled engine. -/
theorem recycled_add (count : ℕ) :
    (step (recycled count) (.addIoc {} 0)).1=recycledTwo count := rfl

/-- The number of the added indicator differs from that of the first one, so
removing it leaves the first. -/
theorem recycled_remove {count : ℕ} (h : count < 2^64-1) :
    (step (recycledTwo count) (.removeIoc (2+UInt64.ofNat count))).1=recycled (count+1) := by
  have hne : (1 : UInt64)≠2+UInt64.ofNat count := by
    intro heq
    have hnat := congrArg UInt64.toNat heq
    rw [UInt64.toNat_add,UInt64.toNat_ofNat_of_lt' (by omega : count < 2^64)] at hnat
    have hone : UInt64.toNat 1=1 := rfl
    have htwo : UInt64.toNat 2=2 := rfl
    omega
  have hnext : 2+UInt64.ofNat count+1=2+UInt64.ofNat (count+1) := by
    rw [UInt64.ofNat_add,UInt64.add_assoc]
    rfl
  have hfound : (recycledTwo count).iocs.any (fun e => e.id=2+UInt64.ofNat count)=true := by
    simp [recycledTwo]
  have herase : (recycledTwo count).iocs.eraseP (fun e => e.id=2+UInt64.ofNat count)=
      [{ id := 1 }] := by
    simp [recycledTwo,hne]
  rw [step,removeIoc,if_pos hfound,herase,recycledTwo,hnext]
  rfl

/-- The recycled engine is reachable while its counter has not wrapped. -/
theorem recycled_run {count : ℕ} (h : count ≤ 2^64-1) :
    ∃ events,Run (Deterministic step) create events (recycled count) := by
  induction count with
  | zero =>
    have hadd : Deterministic step create (.addIoc {} 0,.id 1) (recycled 0) := rfl
    exact ⟨_,Run.nil.snoc hadd⟩
  | succ count ih =>
    obtain ⟨events,hrun⟩ := ih (by omega)
    have hadd : Deterministic step (recycled count)
        (.addIoc {} 0,(step (recycled count) (.addIoc {} 0)).2) (recycledTwo count) :=
      Prod.ext (recycled_add count) rfl
    have hremove : Deterministic step (recycledTwo count) (.removeIoc (2+UInt64.ofNat count),
        (step (recycledTwo count) (.removeIoc (2+UInt64.ofNat count))).2) (recycled (count+1)) :=
      Prod.ext (recycled_remove (by omega)) rfl
    exact ⟨_,(hrun.snoc hadd).snoc hremove⟩

/-- After `2^64-1` indicators have come and gone next to one that stays, the
next indicator gets the number of the one that stayed. -/
theorem wrapped_id_collides :
    ∃ (events : List CallEvent) (engine : ThreatIntelEngine),
      Run (Deterministic step) create events engine ∧ ¬(engine.iocs.map IocEntry.id).Nodup := by
  obtain ⟨events,hrun⟩ := recycled_run (le_refl (2^64-1))
  have hadd : Deterministic step (recycled (2^64-1))
      (.addIoc {} 0,(step (recycled (2^64-1)) (.addIoc {} 0)).2) (recycledTwo (2^64-1)) :=
    Prod.ext (recycled_add _) rfl
  refine ⟨_,_,hrun.snoc hadd,?_⟩
  have hwrap : 2+UInt64.ofNat (2^64-1)=1 := by decide
  rw [recycledTwo,hwrap]
  decide

end Gcad.ThreatIntel
