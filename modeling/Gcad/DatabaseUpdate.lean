import Gcad.FileDigest
import Gcad.Observation
import Gcad.StepSystem

/-!
# Database updates

Loader and change detector of update_engine.cpp. The loader verifies the
checksum its caller expects before it touches the manifest of a database; the
detector looks at the recorded path of every manifest and takes over what it
finds there. Files on disk change between the calls.
-/

namespace Gcad.DatabaseUpdate

open Common ByteView StepSystem FileDigest Observation

/-- What a path leads to. -/
inductive DiskEntry where
  /-- Nothing. -/
  | missing
  /-- Something that cannot be opened for reading. -/
  | unreadable
  /-- A file with its content. -/
  | file (content : Bytes)
  deriving DecidableEq

/-- `UpdateManifest`. -/
structure UpdateManifest where
  /-- The database it belongs to. -/
  dbName : Str
  /-- The version in use. -/
  version : Str
  /-- The hash of the file in use. -/
  sha256 : Str
  /-- Where that file lies. -/
  filePath : Str
  /-- When it was taken over. -/
  updatedAt : TimePoint

/-- `UpdateResult`. -/
inductive UpdateResult where
  | success
  | fileNotFound
  | checksumMismatch
  | parseError
  | alreadyCurrent
  deriving DecidableEq

/-- `UpdateRecord`. -/
structure UpdateRecord where
  /-- The number of the record. -/
  id : UInt64
  /-- The database. -/
  dbName : Str
  /-- The version before. -/
  oldVersion : Str
  /-- The version offered. -/
  newVersion : Str
  /-- How the update ended. -/
  result : UpdateResult
  /-- When it ended. -/
  timestamp : TimePoint

/-- The state of an `UpdateEngine`. -/
structure UpdateEngine where
  /-- The versions in use, one for each database. -/
  manifests : List UpdateManifest
  /-- What the updates ended with, oldest first. -/
  updateLog : List UpdateRecord
  /-- The number of the next record. -/
  nextId : UInt64
  /-- Updates tried. -/
  eventsProcessed : UInt64
  /-- Updates that failed their check. -/
  threatsDetected : UInt64

/-- The three databases with a loader of their own. -/
inductive Database where
  | signatures
  | ioc
  | yara
  deriving DecidableEq

/-- The name of a database in its manifest. -/
def Database.name : Database → Str
  | .signatures => "signatures".toList
  | .ioc => "ioc".toList
  | .yara => "yara".toList

/-- `compute_file_sha256`. -/
def computeFileSha256 : DiskEntry → Str
  | .file content => hashFile content
  | _ => []

/-- `verify_checksum`. -/
def verifyChecksum (entry : DiskEntry) (expected : Str) : Bool :=
  if expected=[] then true else computeFileSha256 entry=expected.map toLower

/-- What follows the first occurrence of a text. -/
def findAfter (needle : Str) : Str → Option Str
  | [] => if needle=[] then some [] else none
  | c::rest =>
    if needle.isPrefixOf (c::rest) then some ((c::rest).drop needle.length)
    else findAfter needle rest

/-- A version without the blanks around it. -/
def trimVersion (value : Str) : Str :=
  (value.dropWhile fun c => c = ' ' ∨ c = '\t').rdropWhile fun c => c = ' ' ∨ c = '\r' ∨ c = '\n'

/-- The loop of `parse_version_from_file` over the lines. -/
def versionOfLines : List Str → Str
  | [] => "1.0.0".toList
  | text::rest =>
    if text.head?≠some '#' then "1.0.0".toList
    else
      match (findAfter "version:".toList text).or (findAfter "Version:".toList text) with
      | some value =>
        if trimVersion value≠[] then trimVersion value else versionOfLines rest
      | none => versionOfLines rest

/-- `parse_version_from_file`. -/
def parseVersionFromFile : DiskEntry → Str
  | .file content =>
    versionOfLines ((content.map fun byte => Char.ofNat byte.toNat).splitOn '\n')
  | _ => "0.0.0".toList

/-- The manifest of a database. -/
def manifestOf (manifests : List UpdateManifest) (dbName : Str) : Option UpdateManifest :=
  manifests.find? fun m => m.dbName=dbName

/-- Overwrite the manifest of a database, or append it. -/
def putManifest (manifest : UpdateManifest) : List UpdateManifest → List UpdateManifest
  | [] => [manifest]
  | m::rest => if m.dbName=manifest.dbName then manifest::rest else m::putManifest manifest rest

/-- `validate_and_update`. -/
def validateAndUpdate (entry : DiskEntry) (engine : UpdateEngine) (dbName path expected : Str)
    (now : TimePoint) : UpdateEngine×UpdateResult :=
  if entry=.missing then (engine,.fileNotFound)
  else if verifyChecksum entry expected=false then (engine,.checksumMismatch)
  else
    let manifest : UpdateManifest :=
      ⟨dbName,parseVersionFromFile entry,computeFileSha256 entry,path,now⟩
    if (manifestOf engine.manifests dbName).map UpdateManifest.sha256=
        some (computeFileSha256 entry) then (engine,.alreadyCurrent)
    else ({ engine with manifests := putManifest manifest engine.manifests },.success)

/-- `MAX_UPDATE_LOG`. -/
def MAX_UPDATE_LOG : ℕ := 500

/-- Append a record and drop the oldest ones that are too many. -/
def appendLog (log : List UpdateRecord) (record : UpdateRecord) : List UpdateRecord :=
  (log++[record]).drop ((log++[record]).length-MAX_UPDATE_LOG)

/-- `record_update`. -/
def recordUpdate (engine : UpdateEngine) (dbName oldVer newVer : Str) (result : UpdateResult)
    (now : TimePoint) : UpdateEngine :=
  { engine with
    updateLog := appendLog engine.updateLog ⟨engine.nextId,dbName,oldVer,newVer,result,now⟩
    nextId := engine.nextId+1
    threatsDetected :=
      if result=.checksumMismatch then engine.threatsDetected+1 else engine.threatsDetected }

/-- `load_signature_db`, `load_ioc_db` and `load_yara_rules`. -/
def load (db : Database) (entry : DiskEntry) (engine : UpdateEngine) (path expected : Str)
    (now : TimePoint) : UpdateEngine×UpdateResult :=
  let validated := validateAndUpdate entry engine db.name path expected now
  let counted := { validated.1 with eventsProcessed := validated.1.eventsProcessed+1 }
  let newVer := ((manifestOf counted.manifests db.name).map UpdateManifest.version).getD []
  (recordUpdate counted db.name [] newVer validated.2 now,validated.2)

/-- `check_for_updates` looks at a manifest: its file has changed. -/
def Changed (disk : Str → DiskEntry) (m : UpdateManifest) : Prop :=
  m.filePath≠[] ∧ disk m.filePath≠.missing ∧ computeFileSha256 (disk m.filePath)≠m.sha256

instance (disk : Str → DiskEntry) (m : UpdateManifest) : Decidable (Changed disk m) :=
  inferInstanceAs (Decidable (_ ∧ _))

/-- The manifest after one turn of the loop of `check_for_updates`. -/
def refresh (disk : Str → DiskEntry) (now : TimePoint) (m : UpdateManifest) : UpdateManifest :=
  if Changed disk m then
    { m with
      version := parseVersionFromFile (disk m.filePath)
      sha256 := computeFileSha256 (disk m.filePath)
      updatedAt := now }
  else m

/-- The log after one turn of the loop of `check_for_updates`. -/
def logChange (disk : Str → DiskEntry) (now : TimePoint) (log : List UpdateRecord×UInt64)
    (m : UpdateManifest) : List UpdateRecord×UInt64 :=
  if Changed disk m then
    (appendLog log.1 ⟨log.2,m.dbName,m.version,parseVersionFromFile (disk m.filePath),.success,now⟩,
      log.2+1)
  else log

/-- `check_for_updates`. -/
def checkForUpdates (disk : Str → DiskEntry) (engine : UpdateEngine) (now : TimePoint) :
    UpdateEngine×ℕ :=
  let log := engine.manifests.foldl (logChange disk now) (engine.updateLog,engine.nextId)
  ({ engine with
    manifests := engine.manifests.map (refresh disk now)
    updateLog := log.1
    nextId := log.2
    eventsProcessed := engine.eventsProcessed+1 },
    engine.manifests.countP fun m => Changed disk m)

/-- The engine and the files on disk. -/
structure World where
  /-- The files. -/
  disk : Str → DiskEntry
  /-- The members of the engine. -/
  engine : UpdateEngine

/-- One call, or a change on disk. -/
inductive Action where
  | load (db : Database) (path expected : Str) (now : TimePoint)
  | change (path : Str) (entry : DiskEntry)
  | check (now : TimePoint)

/-- What a call returns. -/
inductive Reply where
  | result (value : UpdateResult)
  | count (value : ℕ)
  | done
  deriving DecidableEq

/-- The effect of an action. -/
def step (w : World) : Action → World×Reply
  | .load db path expected now =>
    ({ w with engine := (load db (w.disk path) w.engine path expected now).1 },
      .result (load db (w.disk path) w.engine path expected now).2)
  | .change path entry => ({ w with disk := Function.update w.disk path entry },.done)
  | .check now =>
    ({ w with engine := (checkForUpdates w.disk w.engine now).1 },
      .count (checkForUpdates w.disk w.engine now).2)

/-- A recorded action. -/
abbrev UpdateEvent := Event World (Action×Reply)

/-- The recorded hash of a database. -/
def shaOf (w : World) (db : Database) : Option Str :=
  (manifestOf w.engine.manifests db.name).map UpdateManifest.sha256

/-- A load for a database returned a result. -/
def Loaded (e : UpdateEvent) (db : Database) (result : UpdateResult) : Prop :=
  ∃ path expected now,e.label=(.load db path expected now,.result result)

/-- A load of a content for a database was rejected. -/
def Rejected (e : UpdateEvent) (db : Database) (content : Bytes) : Prop :=
  ∃ path expected now,e.label=(.load db path expected now,.result .checksumMismatch) ∧
    e.before.disk path=.file content

/-- The recorded hash of a database becomes that of a content. -/
def Adopts (e : UpdateEvent) (db : Database) (content : Bytes) : Prop :=
  shaOf e.before db≠some (hashFile content) ∧ shaOf e.after db=some (hashFile content)

/-- An event after the rejection of a content, with no successful load for
the database since, itself included. -/
def Pending (events : List UpdateEvent) (e : UpdateEvent) (db : Database) (content : Bytes) :
    Prop :=
  ∃ first rejection between rest,events=first++rejection::(between++e::rest) ∧
    Rejected rejection db content ∧ (∀ other ∈ between,¬Loaded other db .success) ∧
    ¬Loaded e db .success

/-- Rejected content is not adopted, and failed loads leave the manifests
alone. -/
def Protected (events : List UpdateEvent) : Prop :=
  (∀ e db content,Pending events e db content → ¬Adopts e db content) ∧
  (∀ e ∈ events,∀ db result,Loaded e db result →
    result=.checksumMismatch ∨ result=.fileNotFound →
    e.after.engine.manifests=e.before.engine.manifests)

/-- A call of `check_for_updates` that meets a content at the recorded path
of a database under another recorded hash. -/
def Meets (e : UpdateEvent) (db : Database) (content : Bytes) : Prop :=
  (∃ now,e.label.1=.check now) ∧ ∃ m,manifestOf e.before.engine.manifests db.name=some m ∧
    Changed e.before.disk m ∧ computeFileSha256 (e.before.disk m.filePath)=hashFile content

/-- Different databases have different names. -/
theorem name_injective {a b : Database} (h : a.name=b.name) : a=b := by
  revert h
  cases a <;> cases b <;> decide

/-- Writing one manifest leaves those of other databases alone. -/
theorem manifestOf_putManifest {manifest : UpdateManifest} {dbName : Str}
    (h : manifest.dbName≠dbName) (manifests : List UpdateManifest) :
    manifestOf (putManifest manifest manifests) dbName=manifestOf manifests dbName := by
  induction manifests with
  | nil => exact List.find?_cons_of_neg (by rw [decide_eq_true_iff]; exact h)
  | cons m rest ih =>
    rw [putManifest]
    split_ifs with hname
    · rw [manifestOf,manifestOf,List.find?_cons_of_neg (by rw [decide_eq_true_iff]; exact h),
        List.find?_cons_of_neg (by rw [decide_eq_true_iff,hname]; exact h)]
    · rw [manifestOf,manifestOf,List.find?_cons,List.find?_cons]
      split
      · rfl
      · exact ih

/-- Recording a load changes no manifest. -/
theorem load_manifests (db : Database) (entry : DiskEntry) (engine : UpdateEngine)
    (path expected : Str) (now : TimePoint) :
    (load db entry engine path expected now).1.manifests=
      (validateAndUpdate entry engine db.name path expected now).1.manifests := by
  rw [load,recordUpdate]

/-- A load returns the result of the validation. -/
theorem load_result (db : Database) (entry : DiskEntry) (engine : UpdateEngine)
    (path expected : Str) (now : TimePoint) :
    (load db entry engine path expected now).2=
      (validateAndUpdate entry engine db.name path expected now).2 := by
  rw [load]

/-- A load that does not succeed changes no manifest. -/
theorem load_failed {db : Database} {entry : DiskEntry} {engine : UpdateEngine}
    {path expected : Str} {now : TimePoint}
    (h : (load db entry engine path expected now).2≠.success) :
    (load db entry engine path expected now).1.manifests=engine.manifests := by
  rw [load_result] at h
  rw [load_manifests]
  unfold validateAndUpdate at h ⊢
  dsimp only at h ⊢
  split_ifs at h ⊢
  · rfl
  · rfl
  · rfl
  · exact absurd rfl h

/-- A load leaves the manifests of other databases alone. -/
theorem load_other {db other : Database} (hne : db≠other) (entry : DiskEntry)
    (engine : UpdateEngine) (path expected : Str) (now : TimePoint) :
    manifestOf (load db entry engine path expected now).1.manifests other.name=
      manifestOf engine.manifests other.name := by
  rw [load_manifests]
  unfold validateAndUpdate
  dsimp only
  split_ifs
  · rfl
  · rfl
  · rfl
  · exact manifestOf_putManifest (fun h => hne (name_injective h)) _

/-- `check_for_updates` refreshes every manifest in its place. -/
theorem manifestOf_refresh (disk : Str → DiskEntry) (now : TimePoint)
    (manifests : List UpdateManifest) (dbName : Str) :
    manifestOf (manifests.map (refresh disk now)) dbName=
      (manifestOf manifests dbName).map (refresh disk now) := by
  rw [manifestOf,List.find?_map,manifestOf]
  congr 2
  funext m
  have hname : (refresh disk now m).dbName=m.dbName := by
    unfold refresh
    split_ifs
    · rfl
    · rfl
  rw [Function.comp_apply,hname]

/-- The recorded hash changes by `check_for_updates` exactly to what the
recorded path holds. -/
theorem check_adopts_iff (w : World) (now : TimePoint) (reply : Reply) (db : Database)
    (content : Bytes) :
    Adopts ⟨w,(.check now,reply),(step w (.check now)).1⟩ db content ↔
      Meets ⟨w,(.check now,reply),(step w (.check now)).1⟩ db content := by
  have hafter : shaOf (step w (.check now)).1 db=
      (manifestOf w.engine.manifests db.name).map fun m => (refresh w.disk now m).sha256 := by
    rw [shaOf,step,checkForUpdates]
    dsimp only
    rw [manifestOf_refresh,Option.map_map]
    rfl
  rw [Adopts,hafter,shaOf,Meets]
  dsimp only
  constructor
  · rintro ⟨hbefore,hadopted⟩
    refine ⟨⟨now,rfl⟩,?_⟩
    cases hm : manifestOf w.engine.manifests db.name with
    | none =>
      rw [hm] at hadopted
      exact absurd hadopted nofun
    | some m =>
      rw [hm,Option.map_some] at hadopted hbefore
      have hsha := Option.some.inj hadopted
      by_cases hchanged : Changed w.disk m
      · rw [refresh,if_pos hchanged] at hsha
        exact ⟨m,rfl,hchanged,hsha⟩
      · rw [refresh,if_neg hchanged] at hsha
        exact absurd (congrArg some hsha) hbefore
  · rintro ⟨-,m,hm,hchanged,hsha⟩
    rw [hm,Option.map_some,Option.map_some,refresh,if_pos hchanged,hsha]
    refine ⟨fun h => ?_,rfl⟩
    exact hchanged.2.2 (hsha.trans (Option.some.inj h).symm)

/-- An event that is no successful load for a database adopts a content
exactly when it is a check that meets it. -/
theorem adopts_iff_meets {w t : World} {label : Action×Reply} (hstep : Deterministic step w label t)
    {db : Database} (hload : ¬Loaded ⟨w,label,t⟩ db .success) (content : Bytes) :
    Adopts ⟨w,label,t⟩ db content ↔ Meets ⟨w,label,t⟩ db content := by
  obtain ⟨action,reply⟩ := label
  have hafter : (step w action).1=t := congrArg Prod.fst hstep
  have hreply : (step w action).2=reply := congrArg Prod.snd hstep
  subst hafter hreply
  cases action with
  | load other path expected now =>
    have hsame : shaOf (step w (.load other path expected now)).1 db=shaOf w db := by
      rw [shaOf,shaOf,step]
      dsimp only
      by_cases hdb : other=db
      · subst hdb
        rw [load_failed fun hresult => hload ⟨path,expected,now,by rw [step,hresult]⟩]
      · rw [load_other hdb]
    refine iff_of_false (fun h => ?_) (fun h => absurd h.1 nofun)
    have hadopted := h.2
    dsimp only at hadopted
    rw [hsame] at hadopted
    exact h.1 hadopted
  | change path entry => exact iff_of_false (fun h => h.1 h.2) (fun h => absurd h.1 nofun)
  | check now => exact check_adopts_iff w now _ db content

/-- A pending event is one of the history. -/
theorem Pending.mem {events : List UpdateEvent} {e : UpdateEvent} {db : Database} {content : Bytes}
    (h : Pending events e db content) : e ∈ events := by
  obtain ⟨first,rejection,between,rest,rfl,-⟩ := h
  exact List.mem_append_right _ (List.mem_cons_of_mem _
    (List.mem_append_right _ List.mem_cons_self))

/-- A pending event is no successful load. -/
theorem Pending.quiet {events : List UpdateEvent} {e : UpdateEvent} {db : Database}
    {content : Bytes} (h : Pending events e db content) : ¬Loaded e db .success := by
  obtain ⟨first,rejection,between,rest,-,-,-,hquiet⟩ := h
  exact hquiet

/-- For every sequence of loads, changes on disk and checks, from any
manifests: rejected content is never adopted and failed loads leave the
manifests alone, if and only if no check meets a rejected content at the
recorded path of its database before the next successful load. -/
theorem rejected_never_adopted_iff {start : World} {events : List UpdateEvent} {w : World}
    (run : Run (Deterministic step) start events w) :
    Protected events ↔ ∀ e db content,Pending events e db content → ¬Meets e db content := by
  have hstep : ∀ e ∈ events,Deterministic step e.before e.label e.after := by
    intro e member
    obtain ⟨first,rest,rfl⟩ := List.append_of_mem member
    exact run.event_step.2.1
  have hiff : ∀ e db content,Pending events e db content →
      (Adopts e db content ↔ Meets e db content) := fun e db content pending =>
    adopts_iff_meets (hstep e pending.mem) pending.quiet content
  constructor
  · intro h e db content pending meets
    exact h.1 e db content pending ((hiff e db content pending).mpr meets)
  · intro h
    refine ⟨fun e db content pending adopts => ?_,?_⟩
    · exact h e db content pending ((hiff e db content pending).mp adopts)
    · rintro e member db result ⟨path,expected,now,hlabel⟩ hfailed
      have hdet := hstep e member
      rw [Deterministic,hlabel,step] at hdet
      obtain ⟨hafter,hreply⟩ := Prod.mk.inj hdet
      rw [←hafter]
      dsimp only
      refine load_failed ?_
      rw [Reply.result.inj hreply]
      rcases hfailed with rfl | rfl
      · exact nofun
      · exact nofun

/-- The event right after a rejection. -/
theorem pending_last {first : List UpdateEvent} {rejection e : UpdateEvent} {db : Database}
    {content : Bytes} (rejected : Rejected rejection db content) (hload : ¬Loaded e db .success) :
    Pending (first++[rejection]++[e]) e db content :=
  ⟨first,rejection,[],[],by rw [List.append_assoc,List.singleton_append,List.nil_append],rejected,
    fun _ h => absurd h List.not_mem_nil,hload⟩

section Replacement

/-- Where the signature database lies. -/
def dbPath : Str := "db".toList

/-- A new engine next to a signature file. -/
def installed : World :=
  ⟨fun path => if path=dbPath then .file [1] else .missing,⟨[],[],1,0,0⟩⟩

/-- The signature file has been loaded. -/
def current : World := (step installed (.load .signatures dbPath [] 0)).1

/-- The signature file has been replaced. -/
def replaced : World := (step current (.change dbPath (.file [2]))).1

/-- The replacement has been offered with the checksum of the old file. -/
def refused : World := (step replaced (.load .signatures dbPath (hashFile [1]) 0)).1

/-- The replacement is rejected. -/
theorem replacement_rejected :
    step replaced (.load .signatures dbPath (hashFile [1]) 0)=
      (refused,.result .checksumMismatch) := by
  refine Prod.ext rfl ?_
  decide +kernel

/-- The next check adopts the replacement that a load has rejected. -/
theorem rejected_content_adopted :
    ∃ events w,Run (Deterministic step) installed events w ∧
      ∃ e db content,Pending events e db content ∧ Adopts e db content := by
  have hload : Deterministic step installed (.load .signatures dbPath [] 0,
      (step installed (.load .signatures dbPath [] 0)).2) current := Prod.ext rfl rfl
  have hchange : Deterministic step current (.change dbPath (.file [2]),.done) replaced := rfl
  have hreject : Deterministic step replaced
      (.load .signatures dbPath (hashFile [1]) 0,.result .checksumMismatch) refused :=
    replacement_rejected
  have hlast : Deterministic step refused (.check 0,(step refused (.check 0)).2)
      (step refused (.check 0)).1 := Prod.ext rfl rfl
  have hcheck := (((Run.nil.snoc hload).snoc hchange).snoc hreject).snoc hlast
  refine ⟨_,_,hcheck,_,.signatures,[2],pending_last ⟨dbPath,hashFile [1],0,rfl,rfl⟩ ?_,?_,?_⟩
  · rintro ⟨path,expected,now,h⟩
    exact absurd (Prod.mk.inj h).1 nofun
  · decide +kernel
  · decide +kernel

/-- A rejected first load leaves no manifest for a check to look at. -/
theorem rejected_first_load_protected :
    ∃ events w,Run (Deterministic step) installed events w ∧
      (∃ e ∈ events,Rejected e .signatures [1]) ∧ Protected events := by
  have hreply : (step installed (.load .signatures dbPath dbPath 0)).2=
      .result .checksumMismatch := by
    decide +kernel
  have hreject : Deterministic step installed
      (.load .signatures dbPath dbPath 0,.result .checksumMismatch)
      (step installed (.load .signatures dbPath dbPath 0)).1 := Prod.ext rfl hreply
  have hempty : (step installed (.load .signatures dbPath dbPath 0)).1.engine.manifests=[] := by
    refine load_failed fun hsuccess => ?_
    rw [step,hsuccess] at hreply
    exact absurd hreply nofun
  have hrun := (Run.nil.snoc hreject).snoc (Prod.ext rfl rfl : Deterministic step _
    (.check 0,(step (step installed (.load .signatures dbPath dbPath 0)).1 (.check 0)).2) _)
  refine ⟨_,_,hrun,⟨_,List.mem_cons_self,dbPath,dbPath,0,rfl,rfl⟩,
    (rejected_never_adopted_iff hrun).mpr ?_⟩
  rintro e db content pending ⟨⟨now,hcheck⟩,m,hm,-,-⟩
  have hmember := pending.mem
  rcases List.mem_cons.mp hmember with rfl | hlast
  · exact absurd hcheck nofun
  · rw [List.mem_singleton.mp hlast] at hm
    dsimp only at hm
    rw [hempty] at hm
    exact absurd hm nofun

end Replacement

end Gcad.DatabaseUpdate
