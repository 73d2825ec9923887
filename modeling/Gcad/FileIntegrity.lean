import Gcad.FileDigest
import Gcad.StepSystem

/-!
# File integrity monitoring

Baseline and check of file_integrity_engine.cpp. A check hashes a file only
when its modification time differs from the recorded one, and records the new
time whether or not the file could be hashed. Between two checks the files may
be written, touched, locked, unlocked or deleted in any order.
-/

namespace Gcad.FileIntegrity

open Common ByteView StepSystem FileDigest

/-- A path that exists. -/
structure DiskFile where
  /-- It is a regular file. -/
  regular : Bool
  /-- The file can be opened for reading. -/
  readable : Bool
  /-- What reading it gives. -/
  content : Bytes
  /-- When it was last written, or nothing when that reports an error. -/
  mtime : Option TimePoint

/-- The file system. -/
abbrev Disk := Str → Option DiskFile

/-- `SHA256::hash_file`: empty when the file cannot be opened. -/
def DiskFile.hash (file : DiskFile) : Str := if file.readable then hashFile file.content else []

/-- `FileIntegrityEntry`. -/
structure FileIntegrityEntry where
  /-- The file. -/
  path : Str
  /-- The hash of its content. -/
  sha256 : Str
  /-- Its length in bytes. -/
  size : ℕ
  /-- When it was last written. -/
  mtime : TimePoint
  deriving DecidableEq

/-- The alert of a check. -/
structure Alert where
  /-- What was found. -/
  evidence : Str
  /-- The file it is about. -/
  path : Str
  /-- The hash it has now, if it was read. -/
  sha256 : Str
  deriving DecidableEq

/-- The time `last_write_time` returns with an error. -/
def errorTime : TimePoint := -2^63

/-- `baseline_[path] = entry`. -/
def putEntry (entry : FileIntegrityEntry) : List FileIntegrityEntry → List FileIntegrityEntry
  | [] => [entry]
  | old::rest => if old.path=entry.path then entry::rest else old::putEntry entry rest

/-- One turn of the loop of `build_baseline`. -/
def baselineFile (disk : Disk) (baseline : List FileIntegrityEntry) (path : Str) :
    List FileIntegrityEntry :=
  match disk path with
  | none => baseline
  | some file =>
    if file.regular=false then baseline
    else if file.hash=[] then baseline
    else putEntry ⟨path,file.hash,file.content.length,file.mtime.getD errorTime⟩ baseline

/-- `build_baseline`. -/
def buildBaseline (disk : Disk) (watchPaths : List Str) : List FileIntegrityEntry :=
  watchPaths.foldl (baselineFile disk) []

/-- The evidence of a deleted file. -/
def deletedEvidence (path : Str) : Str := "Critical file deleted: ".toList++path

/-- The evidence of a modified file. -/
def modifiedEvidence (path sha256 : Str) : Str :=
  "Critical file modified: ".toList++path++" (was ".toList++sha256.take 16++"...)".toList

/-- One turn of the loop of `check_integrity`: the entry afterwards and the
alert. -/
def checkEntry (disk : Disk) (entry : FileIntegrityEntry) : FileIntegrityEntry×Option Alert :=
  match disk entry.path with
  | none => (entry,some ⟨deletedEvidence entry.path,entry.path,entry.sha256⟩)
  | some file =>
    match file.mtime with
    | none => (entry,none)
    | some currentMtime =>
      if currentMtime≠entry.mtime then
        if file.hash≠[] ∧ file.hash≠entry.sha256 then
          ({ entry with sha256 := file.hash,size := file.content.length,mtime := currentMtime },
            some ⟨modifiedEvidence entry.path entry.sha256,entry.path,file.hash⟩)
        else ({ entry with mtime := currentMtime },none)
      else (entry,none)

/-- `check_integrity` over the entries in the order of the map. -/
def checkIntegrity (disk : Disk) (baseline : List FileIntegrityEntry) :
    List FileIntegrityEntry×List Alert :=
  (baseline.map fun entry => (checkEntry disk entry).1,
    baseline.filterMap fun entry => (checkEntry disk entry).2)

/-- The engine and the files on disk. -/
structure World where
  /-- The files. -/
  disk : Disk
  /-- What the engine remembers of each file. -/
  baseline : List FileIntegrityEntry

/-- A started engine. -/
def create (watchPaths : List Str) (disk : Disk) : World := ⟨disk,buildBaseline disk watchPaths⟩

/-- A change of one path, or a check. -/
inductive Action where
  /-- Write, touch, lock, unlock or delete a file. -/
  | change (path : Str) (file : Option DiskFile)
  /-- The files are compared with the baseline. -/
  | check

/-- The effect of an action and the alerts it raises. -/
def step (w : World) : Action → World×List Alert
  | .change path file => ({ w with disk := Function.update w.disk path file },[])
  | .check =>
    ({ w with baseline := (checkIntegrity w.disk w.baseline).1 },
      (checkIntegrity w.disk w.baseline).2)

/-- A recorded action. -/
abbrev IntegrityEvent := Event World (Action×List Alert)

/-- The entry of a path. -/
def entryOf (baseline : List FileIntegrityEntry) (path : Str) : Option FileIntegrityEntry :=
  baseline.find? fun entry => entry.path=path

/-- A check at which a baselined file exists, is readable and has another hash
than its entry. -/
structure Differs (e : IntegrityEvent) (entry : FileIntegrityEntry) (file : DiskFile) : Prop where
  /-- The event is a check. -/
  check : e.label.1=.check
  /-- The file is baselined. -/
  baselined : entryOf e.before.baseline entry.path=some entry
  /-- It exists. -/
  found : e.before.disk entry.path=some file
  /-- It is readable. -/
  readable : file.readable=true
  /-- Its content has another hash. -/
  differs : hashFile file.content≠entry.sha256

/-- Every such file gets a 'modified' alert and its entry the new hash. -/
def Reported (e : IntegrityEvent) : Prop :=
  ∀ entry file,Differs e entry file →
    ⟨modifiedEvidence entry.path entry.sha256,entry.path,hashFile file.content⟩ ∈ e.label.2 ∧
    (entryOf e.after.baseline entry.path).map FileIntegrityEntry.sha256=
      some (hashFile file.content)

/-- The modification time that the latest look at a path has seen: that of the
baseline, or that of the latest check at which it could be read. -/
def lastSeen (disk : Disk) (events : List IntegrityEvent) (path : Str) : Option TimePoint :=
  events.foldl (fun seen e =>
    match e.label.1 with
    | .check => ((e.before.disk path).bind DiskFile.mtime).or seen
    | .change _ _ => seen)
    ((disk path).map fun file => file.mtime.getD errorTime)

/-- A readable file hashes to its digest, an unreadable one to nothing. -/
theorem hash_readable {file : DiskFile} (h : file.readable=true) :
    file.hash=hashFile file.content ∧ file.hash≠[] := by
  rw [DiskFile.hash,if_pos h,hashFile_eq_hashBytes]
  exact ⟨rfl,hashBytes_ne_nil _⟩

/-- A check keeps the path of an entry. -/
theorem checkEntry_path (disk : Disk) (entry : FileIntegrityEntry) :
    (checkEntry disk entry).1.path=entry.path := by
  unfold checkEntry
  split
  · rfl
  · split
    · rfl
    · split_ifs
      · rfl
      · rfl
      · rfl

/-- An entry that was looked up has the path it was looked up by. -/
theorem entryOf_path {baseline : List FileIntegrityEntry} {path : Str}
    {entry : FileIntegrityEntry} (h : entryOf baseline path=some entry) : entry.path=path := by
  have hfound := List.find?_some h
  exact of_decide_eq_true hfound

/-- A check replaces every entry in its place. -/
theorem entryOf_check (disk : Disk) (baseline : List FileIntegrityEntry) (path : Str) :
    entryOf (checkIntegrity disk baseline).1 path=
      (entryOf baseline path).map fun entry => (checkEntry disk entry).1 := by
  rw [checkIntegrity,entryOf,List.find?_map,entryOf]
  congr 2
  funext entry
  rw [Function.comp_apply,checkEntry_path]

/-- A check of a file whose time cannot be read or has not changed does
nothing. -/
theorem checkEntry_skipped {disk : Disk} {entry : FileIntegrityEntry} {file : DiskFile}
    (found : disk entry.path=some file) (h : ∀ t,file.mtime=some t → t=entry.mtime) :
    checkEntry disk entry=(entry,none) := by
  unfold checkEntry
  rw [found]
  dsimp only
  cases hmtime : file.mtime with
  | none => rfl
  | some t =>
    dsimp only
    rw [if_neg (not_not.mpr (h t hmtime))]

/-- A check of a readable file with a new time and a new hash. -/
theorem checkEntry_modified {disk : Disk} {entry : FileIntegrityEntry} {file : DiskFile}
    {t : TimePoint} (found : disk entry.path=some file) (hmtime : file.mtime=some t)
    (hnew : t≠entry.mtime) (readable : file.readable=true)
    (differs : hashFile file.content≠entry.sha256) :
    checkEntry disk entry=
      ({ entry with sha256 := hashFile file.content,size := file.content.length,mtime := t },
        some ⟨modifiedEvidence entry.path entry.sha256,entry.path,hashFile file.content⟩) := by
  obtain ⟨hhash,hsome⟩ := hash_readable readable
  unfold checkEntry
  rw [found]
  dsimp only
  rw [hmtime]
  dsimp only
  rw [if_pos hnew,hhash,if_pos ⟨hhash ▸ hsome,differs⟩]

/-- A check records the modification time it has seen. -/
theorem checkEntry_mtime (disk : Disk) (entry : FileIntegrityEntry) :
    some (checkEntry disk entry).1.mtime=
      ((disk entry.path).bind DiskFile.mtime).or (some entry.mtime) := by
  unfold checkEntry
  cases hfile : disk entry.path with
  | none => rfl
  | some file =>
    rw [Option.bind_some]
    dsimp only
    cases hmtime : file.mtime with
    | none => rfl
    | some t =>
      dsimp only
      split_ifs with hnew
      · rfl
      · rfl
      · rw [not_not.mp hnew]
        rfl

/-- Writing an entry adds no other. -/
theorem mem_putEntry {entry other : FileIntegrityEntry} {baseline : List FileIntegrityEntry}
    (h : other ∈ putEntry entry baseline) : other=entry ∨ other ∈ baseline := by
  induction baseline with
  | nil => exact .inl (List.mem_singleton.mp h)
  | cons old rest ih =>
    rw [putEntry] at h
    split_ifs at h
    · exact (List.mem_cons.mp h).imp_right (List.mem_cons_of_mem _)
    · rcases List.mem_cons.mp h with rfl | hrest
      · exact .inr List.mem_cons_self
      · exact (ih hrest).imp_right (List.mem_cons_of_mem _)

/-- The baseline records the modification time of every file in it. -/
theorem buildBaseline_mtime (disk : Disk) (watchPaths : List Str) :
    ∀ entry ∈ buildBaseline disk watchPaths,
      (disk entry.path).map (fun file => file.mtime.getD errorTime)=some entry.mtime := by
  refine List.foldlRecOn watchPaths (baselineFile disk)
    (motive := fun baseline => ∀ entry ∈ baseline,
      (disk entry.path).map (fun file => file.mtime.getD errorTime)=some entry.mtime)
    (fun _ h => absurd h List.not_mem_nil) ?_
  intro baseline inv path _ entry member
  unfold baselineFile at member
  cases hfile : disk path with
  | none =>
    rw [hfile] at member
    exact inv entry member
  | some file =>
    rw [hfile] at member
    dsimp only at member
    split_ifs at member
    · exact inv entry member
    · exact inv entry member
    · rcases mem_putEntry member with rfl | hold
      · rw [hfile]
        rfl
      · exact inv entry hold

/-- Every entry records the time that the latest look has seen. -/
theorem recorded_mtime {watchPaths : List Str} {disk : Disk} {events : List IntegrityEvent}
    {w : World} (run : Run (Deterministic step) (create watchPaths disk) events w) :
    ∀ path entry,entryOf w.baseline path=some entry →
      lastSeen disk events path=some entry.mtime := by
  induction run with
  | nil =>
    intro path entry h
    have hmtime := buildBaseline_mtime disk watchPaths entry (List.mem_of_find?_eq_some h)
    rw [entryOf_path h] at hmtime
    exact hmtime
  | @snoc events s t label run hstep ih =>
    intro path entry h
    obtain ⟨action,alerts⟩ := label
    have hafter : (step s action).1=t := congrArg Prod.fst hstep
    subst hafter
    rw [lastSeen,List.foldl_append,List.foldl_cons,List.foldl_nil]
    cases action with
    | change changed file => exact ih path entry h
    | check =>
      have hcheck := entryOf_check s.disk s.baseline path
      rw [step] at h
      dsimp only at h
      rw [hcheck] at h
      obtain ⟨old,hold,rfl⟩ := Option.map_eq_some_iff.mp h
      have hseen := ih path old hold
      rw [checkEntry_mtime,entryOf_path hold]
      dsimp only
      rw [←hseen]
      rfl

/-- A check reports a file exactly when its modification time can be read and
differs from the recorded one. -/
theorem reported_iff (w : World) (alerts : List Alert) (h : (step w .check).2=alerts) :
    Reported ⟨w,(.check,alerts),(step w .check).1⟩ ↔
      ∀ entry file,Differs ⟨w,(.check,alerts),(step w .check).1⟩ entry file →
        ∃ t,file.mtime=some t ∧ t≠entry.mtime := by
  constructor
  · intro reported entry file hdiffers
    by_contra hnone
    have hskip := checkEntry_skipped hdiffers.found fun t ht =>
      not_not.mp fun hne => hnone ⟨t,ht,hne⟩
    have hsha := (reported entry file hdiffers).2
    have hcheck := entryOf_check w.disk w.baseline entry.path
    rw [step] at hsha
    dsimp only at hsha
    rw [hcheck,hdiffers.baselined,Option.map_some,Option.map_some,hskip] at hsha
    exact hdiffers.differs (Option.some.inj hsha).symm
  · intro times entry file hdiffers
    obtain ⟨t,hmtime,hnew⟩ := times entry file hdiffers
    have hentry := checkEntry_modified hdiffers.found hmtime hnew hdiffers.readable
      hdiffers.differs
    constructor
    · rw [←h,step,checkIntegrity]
      refine List.mem_filterMap.mpr ⟨entry,List.mem_of_find?_eq_some hdiffers.baselined,?_⟩
      rw [hentry]
    · have hcheck := entryOf_check w.disk w.baseline entry.path
      rw [step]
      dsimp only
      rw [hcheck,hdiffers.baselined,Option.map_some,Option.map_some,hentry]

/-- For every run of changes and checks: every check alerts on and records
every readable file whose hash differs from its entry, if and only if at every
such check the modification time of the file can be read and differs from the
one that the latest look at it has seen. -/
theorem no_change_missed_iff {watchPaths : List Str} {disk : Disk}
    {events : List IntegrityEvent} {w : World}
    (run : Run (Deterministic step) (create watchPaths disk) events w) :
    (∀ e ∈ events,Reported e) ↔
      ∀ first e rest,events=first++e::rest → ∀ entry file,Differs e entry file →
        ∃ t,file.mtime=some t ∧ lastSeen disk first entry.path≠some t := by
  have hiff : ∀ first e rest,events=first++e::rest →
      (Reported e ↔ ∀ entry file,Differs e entry file →
        ∃ t,file.mtime=some t ∧ lastSeen disk first entry.path≠some t) := by
    rintro first ⟨s,⟨action,alerts⟩,t⟩ rest rfl
    obtain ⟨hfirst,hstep,-⟩ := run.event_step
    have hafter : (step s action).1=t := congrArg Prod.fst hstep
    have hreply : (step s action).2=alerts := congrArg Prod.snd hstep
    cases action with
    | change path file =>
      exact iff_of_true (fun entry file h => absurd h.check nofun)
        (fun entry file h => absurd h.check nofun)
    | check =>
      subst hafter
      rw [reported_iff s alerts hreply]
      refine forall_congr' fun entry => forall_congr' fun file => forall_congr' fun hdiffers => ?_
      have hseen := recorded_mtime hfirst entry.path entry hdiffers.baselined
      rw [hseen]
      refine exists_congr fun t => and_congr_right fun _ => ?_
      exact ⟨fun hne heq => hne (Option.some.inj heq).symm,fun hne heq => hne (by rw [heq])⟩
  constructor
  · intro h first e rest heq
    refine (hiff first e rest heq).mp (h e ?_)
    rw [heq]
    exact List.mem_append_right _ List.mem_cons_self
  · intro h e member
    obtain ⟨first,rest,heq⟩ := List.append_of_mem member
    exact (hiff first e rest heq).mpr (h first e rest heq)

section Edit

/-- The one watched path. -/
def hosts : Str := "hosts".toList

/-- A readable file. -/
def plainFile (content : Bytes) (mtime : TimePoint) : DiskFile := ⟨true,true,content,some mtime⟩

/-- The file system with the first version of the watched file. -/
def firstDisk : Disk := fun path => if path=hosts then some (plainFile [1] 5) else none

/-- The engine before the file is edited. -/
def baselined : World := create [hosts] firstDisk

/-- The file has a new content and the given modification time. -/
def edited (mtime : TimePoint) : World :=
  (step baselined (.change hosts (some (plainFile [2] mtime)))).1

/-- An edit followed by a check. -/
theorem edit_run (mtime : TimePoint) :
    Run (Deterministic step) baselined
      [⟨baselined,(.change hosts (some (plainFile [2] mtime)),[]),edited mtime⟩,
        ⟨edited mtime,(.check,(step (edited mtime) .check).2),(step (edited mtime) .check).1⟩]
      (step (edited mtime) .check).1 := by
  have hedit : Deterministic step baselined
      (.change hosts (some (plainFile [2] mtime)),[]) (edited mtime) := rfl
  have hcheck : Deterministic step (edited mtime) (.check,(step (edited mtime) .check).2)
      (step (edited mtime) .check).1 := Prod.ext rfl rfl
  exact (Run.nil.snoc hedit).snoc hcheck

/-- An edit that moves the modification time is reported by the next check. -/
theorem edit_with_new_mtime_reported :
    ∃ events w,Run (Deterministic step) baselined events w ∧ events.length=2 ∧
      ∀ e ∈ events,Reported e := by
  refine ⟨_,_,edit_run 6,rfl,(no_change_missed_iff (edit_run 6)).mpr ?_⟩
  intro first e rest heq entry file hdiffers
  rcases first with _ | ⟨edit,_ | ⟨check,more⟩⟩
  · obtain ⟨rfl,-⟩ := List.cons.inj heq
    exact absurd hdiffers.check nofun
  · obtain ⟨rfl,hlast⟩ := List.cons.inj heq
    obtain ⟨rfl,-⟩ := List.cons.inj hlast
    have hfound := hdiffers.found
    dsimp only [edited,step] at hfound
    by_cases hpath : entry.path=hosts
    · rw [hpath,Function.update_self] at hfound
      refine ⟨6,by rw [←Option.some.inj hfound]; rfl,?_⟩
      rw [hpath]
      exact nofun
    · rw [Function.update_of_ne hpath] at hfound
      have hnone : firstDisk entry.path=none := if_neg hpath
      exact absurd (hnone.symm.trans hfound) nofun
  · have hlength := congrArg List.length heq
    simp only [List.length_append,List.length_cons,List.length_nil] at hlength
    omega

/-- An edit whose author restores the modification time is missed. -/
theorem restored_mtime_missed :
    ∃ events w,Run (Deterministic step) baselined events w ∧ ∃ e ∈ events,¬Reported e := by
  refine ⟨_,_,edit_run 5,_,List.mem_cons_of_mem _ List.mem_cons_self,fun reported => ?_⟩
  have hdiffers : Differs ⟨edited 5,(.check,(step (edited 5) .check).2),(step (edited 5) .check).1⟩
      ⟨hosts,hashFile [1],1,5⟩ (plainFile [2] 5) := by
    refine ⟨rfl,?_,rfl,rfl,?_⟩
    · decide +kernel
    · exact hashFile_one_ne_two.symm
  obtain ⟨t,hmtime,hnew⟩ := (reported_iff (edited 5) _ rfl).mp reported _ _ hdiffers
  exact hnew (Option.some.inj hmtime).symm

end Edit

end Gcad.FileIntegrity
