import Gcad.FileDigest
import Gcad.StepSystem

/-!
# Snapshots and rollback of the ransomware engine

`ARHSEngine` of arhs_engine.cpp. The scan and the watch loop visit files one
by one; a visit is one critical section, and what its reads of the file
returned is part of the action, because other programs write to the file at
any time between them. `accepted` is a history variable: the last content the
engine accepted as clean. The test of the entropy against 7.8 is a parameter.
-/

namespace Gcad.RansomwareRollback

open Common ByteView StepSystem FileDigest

variable {Path : Type*} [DecidableEq Path]

/-- `CowSnapshot`. -/
structure CowSnapshot (Path : Type*) where
  /-- The file. -/
  path : Path
  /-- Its content when it was captured. -/
  originalData : Bytes
  /-- The length of that content. -/
  originalSize : ℕ
  /-- The hash of that content. -/
  sha256Hash : Str
  /-- When it was captured. -/
  captureTime : TimePoint

/-- The state of an `ARHSEngine`, as far as the calls below use it. -/
structure ARHSEngine (Path : Type*) where
  /-- The hash recorded for each file. -/
  fileHashes : Path → Option Str
  /-- The snapshots kept, oldest first. -/
  snapshotRing : List (CowSnapshot Path)
  /-- The noticed changes inside the window. -/
  recentChanges : List (Path×TimePoint)
  /-- Visits to a file. -/
  eventsProcessed : UInt64
  /-- Files restored. -/
  rollbacksPerformed : UInt64
  /-- The last content of each file that was accepted as clean. -/
  accepted : Path → Option Bytes

/-- `MAX_SNAPSHOTS`. -/
def MAX_SNAPSHOTS : ℕ := 4096

/-- `MAX_SNAPSHOT_FILE_SIZE`. -/
def MAX_SNAPSHOT_FILE_SIZE : ℕ := 64*1024*1024

/-- `RAPID_CHANGE_THRESH`. -/
def RAPID_CHANGE_THRESH : ℕ := 20

/-- `RAPID_CHANGE_WINDOW` in nanoseconds. -/
def RAPID_CHANGE_WINDOW : ℤ := 5*10^9

/-- A new engine. -/
def create : ARHSEngine Path := ⟨fun _ => none,[],[],0,0,fun _ => none⟩

/-- The sizes the engine looks at. -/
def Watchable (content : Bytes) : Prop :=
  content.length≠0 ∧ content.length ≤ MAX_SNAPSHOT_FILE_SIZE

instance (content : Bytes) : Decidable (Watchable content) :=
  inferInstanceAs (Decidable (_ ∧ _))

/-- Drop the oldest snapshot of a full ring. -/
def makeRoom (ring : List (CowSnapshot Path)) : List (CowSnapshot Path) :=
  if MAX_SNAPSHOTS ≤ ring.length then ring.tail else ring

/-- The snapshot of a content. -/
def capture (path : Path) (data : Bytes) (now : TimePoint) : CowSnapshot Path :=
  ⟨path,data,data.length,hashBytes data,now⟩

/-- `take_snapshot_unlocked`. -/
def takeSnapshotUnlocked (engine : ARHSEngine Path) (path : Path) (data : Bytes)
    (now : TimePoint) : ARHSEngine Path :=
  if Watchable data then
    { engine with snapshotRing := makeRoom engine.snapshotRing++[capture path data now] }
  else engine

/-- What the reads of one visit returned. -/
structure Reads where
  /-- The content `hash_file` read. -/
  hashed : Bytes
  /-- The content whose entropy was measured. -/
  measured : Bytes
  /-- The content that went into the snapshot. -/
  captured : Bytes

/-- Accept the hashed content as clean: new hash and new snapshot. -/
def accept (engine : ARHSEngine Path) (path : Path) (reads : Reads) (now : TimePoint) :
    ARHSEngine Path :=
  takeSnapshotUnlocked { engine with
    fileHashes := Function.update engine.fileHashes path (some (hashFile reads.hashed))
    accepted := Function.update engine.accepted path (some reads.hashed) } path reads.captured now

/-- The body of the loop of `scan_directory`. -/
def scanFile (engine : ARHSEngine Path) (path : Path) (reads : Reads) (now : TimePoint) :
    ARHSEngine Path :=
  if Watchable reads.hashed then
    let next := accept engine path reads now
    { next with eventsProcessed := next.eventsProcessed+1 }
  else engine

/-- The body of the loop of `watch_loop` for one file, with the path of a
ransomware alert. -/
def watchFile (highEntropy : Bytes → Bool) (engine : ARHSEngine Path) (path : Path)
    (reads : Reads) (now : TimePoint) : ARHSEngine Path×Option Path :=
  if Watchable reads.hashed then
    match engine.fileHashes path with
    | some hash =>
      if hash≠hashFile reads.hashed then
        let changed := { engine with
          recentChanges := engine.recentChanges++[(path,now)]
          eventsProcessed := engine.eventsProcessed+1 }
        if highEntropy reads.measured then (changed,some path)
        else (accept changed path reads now,none)
      else (engine,none)
    | none => (accept engine path reads now,none)
  else (engine,none)

/-- `detect_rapid_encryption`. -/
def detectRapidEncryption (engine : ARHSEngine Path) (now : TimePoint) : ARHSEngine Path×Bool :=
  let recent := engine.recentChanges.filter fun change => ¬RAPID_CHANGE_WINDOW < now-change.2
  ({ engine with recentChanges := recent },RAPID_CHANGE_THRESH ≤ recent.length)

/-- The newest usable snapshot of a file. -/
def newest (ring : List (CowSnapshot Path)) (path : Path) : Option (CowSnapshot Path) :=
  ring.reverse.find? fun snap => snap.path=path ∧ snap.originalData≠[]

/-- `rollback_file` with the error code and the content it wrote. -/
def rollbackFile (engine : ARHSEngine Path) (path : Path) (opened : Bool) :
    ARHSEngine Path×ErrorCode×Option Bytes :=
  match newest engine.snapshotRing path with
  | some snap =>
    if opened=false then (engine,.errRollbackFail,none)
    else
      ({ engine with
        fileHashes := Function.update engine.fileHashes path (some snap.sha256Hash)
        rollbacksPerformed := engine.rollbacksPerformed+1 },.ok,some snap.originalData)
  | none => (engine,.errRollbackFail,none)

/-- One critical section. -/
inductive Action (Path : Type*) where
  /-- A visit of `scan_directory`. -/
  | scan (path : Path) (reads : Reads) (now : TimePoint)
  /-- A visit of `watch_loop`. -/
  | watch (path : Path) (reads : Reads) (now : TimePoint)
  /-- The end of a pass. -/
  | detect (now : TimePoint)
  /-- A file is restored from its last snapshot. -/
  | rollback (path : Path)

/-- What a critical section reports. -/
inductive Reply (Path : Type*) where
  | visited (alert : Option Path)
  | rapid (detected : Bool)
  | rolledBack (code : ErrorCode) (written : Option Bytes)

/-- The effect of a critical section when every file can be opened. -/
def step (highEntropy : Bytes → Bool) (engine : ARHSEngine Path) :
    Action Path → ARHSEngine Path×Reply Path
  | .scan path reads now => (scanFile engine path reads now,.visited none)
  | .watch path reads now =>
    ((watchFile highEntropy engine path reads now).1,
      .visited (watchFile highEntropy engine path reads now).2)
  | .detect now =>
    ((detectRapidEncryption engine now).1,.rapid (detectRapidEncryption engine now).2)
  | .rollback path =>
    ((rollbackFile engine path true).1,.rolledBack (rollbackFile engine path true).2.1
      (rollbackFile engine path true).2.2)

/-- Every content that is read is non-empty and within the size limit. -/
def Action.Sized : Action Path → Prop
  | .scan _ reads _ | .watch _ reads _ =>
    Watchable reads.hashed ∧ Watchable reads.measured ∧ Watchable reads.captured
  | _ => True

/-- The runs of the engine over files of admissible size. -/
def Step (highEntropy : Bytes → Bool) (s : ARHSEngine Path) (label : Action Path×Reply Path)
    (t : ARHSEngine Path) : Prop :=
  Deterministic (step highEntropy) s label t ∧ label.1.Sized

/-- Every watched file can be rolled back to the last content that was
accepted as clean, and that content has the recorded hash. -/
def Recoverable (engine : ARHSEngine Path) : Prop :=
  ∀ path hash,engine.fileHashes path=some hash →
    ∃ content,(rollbackFile engine path true).2=(.ok,some content) ∧ hashBytes content=hash ∧
      engine.accepted path=some content

/-- The file whose content an action accepts as clean, with its reads. -/
def accepts (highEntropy : Bytes → Bool) (engine : ARHSEngine Path) :
    Action Path → Option (Path×Reads)
  | .scan path reads _ => some (path,reads)
  | .watch path reads _ =>
    match engine.fileHashes path with
    | some hash =>
      if hash≠hashFile reads.hashed ∧ highEntropy reads.measured=false then some (path,reads)
      else none
    | none => some (path,reads)
  | _ => none

/-- An accepting action that does no harm: the file did not change between
the read for its hash and the read for its snapshot, and a full ring does not
lose the only snapshot of another file. -/
def Harmless (engine : ARHSEngine Path) (path : Path) (reads : Reads) : Prop :=
  reads.captured=reads.hashed ∧
  (MAX_SNAPSHOTS ≤ engine.snapshotRing.length → ∀ oldest rest,
    engine.snapshotRing=oldest::rest → oldest.path=path ∨ ∃ snap ∈ rest,snap.path=oldest.path)

/-- A new snapshot is the newest of its file and of no other. -/
theorem newest_append (ring : List (CowSnapshot Path)) (snap : CowSnapshot Path) (path : Path) :
    newest (ring++[snap]) path=
      if snap.path=path ∧ snap.originalData≠[] then some snap else newest ring path := by
  rw [newest,List.reverse_append,List.reverse_singleton,List.singleton_append,List.find?_cons]
  split_ifs with h
  · rw [decide_eq_true h]
  · rw [decide_eq_false h]
    rfl

/-- The oldest snapshot counts only when there is no younger one. -/
theorem newest_cons (oldest : CowSnapshot Path) (rest : List (CowSnapshot Path)) (path : Path) :
    newest (oldest::rest) path=(newest rest path).or
      (if oldest.path=path ∧ oldest.originalData≠[] then some oldest else none) := by
  rw [newest,List.reverse_cons,List.find?_append,newest]
  congr 1
  rw [List.find?_cons]
  split_ifs with h
  · rw [decide_eq_true h]
  · rw [decide_eq_false h]
    rfl

/-- The newest snapshot of a file is in the ring and is of that file. -/
theorem newest_mem {ring : List (CowSnapshot Path)} {path : Path} {snap : CowSnapshot Path}
    (h : newest ring path=some snap) : snap ∈ ring ∧ snap.path=path := by
  have hfound := List.find?_some h
  exact ⟨List.mem_reverse.mp (List.mem_of_find?_eq_some h),(of_decide_eq_true hfound).1⟩

/-- A file with a usable snapshot has a newest one. -/
theorem newest_isSome {ring : List (CowSnapshot Path)} {snap : CowSnapshot Path}
    (h : snap ∈ ring) (usable : snap.originalData≠[]) :
    ∃ found,newest ring snap.path=some found := by
  refine Option.isSome_iff_exists.mp (List.find?_isSome.mpr ⟨snap,List.mem_reverse.mpr h,?_⟩)
  exact decide_eq_true ⟨rfl,usable⟩

/-- What holds of the ring in every state. -/
structure Stored (engine : ARHSEngine Path) : Prop where
  /-- No snapshot is empty. -/
  usable : ∀ snap ∈ engine.snapshotRing,snap.originalData≠[]
  /-- Every snapshot carries its own hash. -/
  hashed : ∀ snap ∈ engine.snapshotRing,snap.sha256Hash=hashBytes snap.originalData
  /-- Every file with a snapshot is watched. -/
  watched : ∀ snap ∈ engine.snapshotRing,engine.fileHashes snap.path≠none

/-- Recoverability in terms of the newest snapshots. -/
theorem recoverable_iff (engine : ARHSEngine Path) :
    Recoverable engine ↔ ∀ path hash,engine.fileHashes path=some hash →
      ∃ snap,newest engine.snapshotRing path=some snap ∧ hashBytes snap.originalData=hash ∧
        engine.accepted path=some snap.originalData := by
  constructor
  · intro h path hash hwatched
    obtain ⟨content,hrollback,hhash,haccepted⟩ := h path hash hwatched
    rw [rollbackFile] at hrollback
    cases hnewest : newest engine.snapshotRing path with
    | none =>
      rw [hnewest] at hrollback
      exact absurd (Prod.mk.inj hrollback).1 nofun
    | some snap =>
      rw [hnewest] at hrollback
      have hcontent := Option.some.inj (Prod.mk.inj hrollback).2
      rw [←hcontent] at hhash haccepted
      exact ⟨snap,rfl,hhash,haccepted⟩
  · intro h path hash hwatched
    obtain ⟨snap,hnewest,hhash,haccepted⟩ := h path hash hwatched
    refine ⟨snap.originalData,?_,hhash,haccepted⟩
    rw [rollbackFile,hnewest]
    rfl

/-- The parts of a state that recoverability reads. -/
structure Same (s t : ARHSEngine Path) : Prop where
  /-- The hashes. -/
  fileHashes : t.fileHashes=s.fileHashes
  /-- The ring. -/
  snapshotRing : t.snapshotRing=s.snapshotRing
  /-- The accepted contents. -/
  accepted : t.accepted=s.accepted

/-- A content was accepted. -/
structure Accepted (s t : ARHSEngine Path) (path : Path) (reads : Reads) (now : TimePoint) :
    Prop where
  /-- The new hash. -/
  fileHashes : t.fileHashes=Function.update s.fileHashes path (some (hashFile reads.hashed))
  /-- The new snapshot. -/
  snapshotRing : t.snapshotRing=makeRoom s.snapshotRing++[capture path reads.captured now]
  /-- The new accepted content. -/
  accepted : t.accepted=Function.update s.accepted path (some reads.hashed)

/-- A file was rolled back. -/
structure RolledBack (s t : ARHSEngine Path) (path : Path) (snap : CowSnapshot Path) : Prop where
  /-- The snapshot that was written. -/
  found : newest s.snapshotRing path=some snap
  /-- Its hash is recorded. -/
  fileHashes : t.fileHashes=Function.update s.fileHashes path (some snap.sha256Hash)
  /-- The ring. -/
  snapshotRing : t.snapshotRing=s.snapshotRing
  /-- The accepted contents. -/
  accepted : t.accepted=s.accepted

/-- Accepting a content of admissible size. -/
theorem accept_accepted (engine : ARHSEngine Path) (path : Path) {reads : Reads}
    (h : Watchable reads.captured) (now : TimePoint) :
    Accepted engine (accept engine path reads now) path reads now := by
  rw [accept,takeSnapshotUnlocked,if_pos h]
  exact ⟨rfl,rfl,rfl⟩

/-- What one critical section can do. -/
theorem step_cases (highEntropy : Bytes → Bool) (s : ARHSEngine Path) (action : Action Path)
    (sized : action.Sized) :
    (∃ path reads now,accepts highEntropy s action=some (path,reads) ∧
      Watchable reads.captured ∧ Accepted s (step highEntropy s action).1 path reads now) ∨
    accepts highEntropy s action=none ∧ (Same s (step highEntropy s action).1 ∨
      ∃ path snap,RolledBack s (step highEntropy s action).1 path snap) := by
  cases action with
  | scan path reads now =>
    have haccept := accept_accepted s path sized.2.2 now
    refine .inl ⟨path,reads,now,rfl,sized.2.2,?_⟩
    rw [step,scanFile,if_pos sized.1]
    exact ⟨haccept.fileHashes,haccept.snapshotRing,haccept.accepted⟩
  | watch path reads now =>
    rw [step,watchFile,if_pos sized.1,accepts]
    cases hhash : s.fileHashes path with
    | none => exact .inl ⟨path,reads,now,rfl,sized.2.2,accept_accepted s path sized.2.2 now⟩
    | some hash =>
      dsimp only
      by_cases hsame : hash=hashFile reads.hashed
      · rw [if_neg (not_not.mpr hsame),if_neg fun h => h.1 hsame]
        exact .inr ⟨rfl,.inl ⟨rfl,rfl,rfl⟩⟩
      · rw [if_pos hsame]
        cases hentropy : highEntropy reads.measured with
        | true =>
          rw [if_pos rfl,if_neg fun h => absurd h.2 nofun]
          exact .inr ⟨rfl,.inl ⟨rfl,rfl,rfl⟩⟩
        | false =>
          rw [if_neg Bool.false_ne_true,if_pos ⟨hsame,rfl⟩]
          have haccept := accept_accepted { s with
            recentChanges := s.recentChanges++[(path,now)]
            eventsProcessed := s.eventsProcessed+1 } path sized.2.2 now
          exact .inl ⟨path,reads,now,rfl,sized.2.2,haccept.fileHashes,haccept.snapshotRing,
            haccept.accepted⟩
  | detect now => exact .inr ⟨rfl,.inl ⟨rfl,rfl,rfl⟩⟩
  | rollback path =>
    refine .inr ⟨rfl,?_⟩
    rw [step,rollbackFile]
    cases hnewest : newest s.snapshotRing path with
    | none => exact .inl ⟨rfl,rfl,rfl⟩
    | some snap => exact .inr ⟨path,snap,hnewest,rfl,rfl,rfl⟩

omit [DecidableEq Path] in
/-- Making room leaves only snapshots that were there. -/
theorem makeRoom_subset (ring : List (CowSnapshot Path)) : makeRoom ring ⊆ ring := by
  unfold makeRoom
  split_ifs
  · exact List.tail_subset ring
  · exact List.Subset.refl ring

/-- An accepted content keeps what holds of the ring. -/
theorem Stored.accept {s t : ARHSEngine Path} {path : Path} {reads : Reads} {now : TimePoint}
    (inv : Stored s) (hsize : Watchable reads.captured) (hacc : Accepted s t path reads now) :
    Stored t := by
  have hring : ∀ snap ∈ t.snapshotRing,snap ∈ s.snapshotRing ∨
      snap=capture path reads.captured now := by
    intro snap member
    rw [hacc.snapshotRing] at member
    rcases List.mem_append.mp member with hold | hnew
    · exact .inl (makeRoom_subset _ hold)
    · exact .inr (List.mem_singleton.mp hnew)
  refine ⟨fun snap member => ?_,fun snap member => ?_,fun snap member => ?_⟩
  · rcases hring snap member with hold | rfl
    · exact inv.usable snap hold
    · exact fun hnil => hsize.1 (List.length_eq_zero_iff.mpr hnil)
  · rcases hring snap member with hold | rfl
    · exact inv.hashed snap hold
    · rfl
  · rw [hacc.fileHashes]
    by_cases hpath : snap.path=path
    · rw [hpath,Function.update_self]
      exact nofun
    · rw [Function.update_of_ne hpath]
      rcases hring snap member with hold | rfl
      · exact inv.watched snap hold
      · exact absurd rfl hpath

/-- So does a rollback. -/
theorem Stored.rollBack {s t : ARHSEngine Path} {path : Path} {snap : CowSnapshot Path}
    (inv : Stored s) (hback : RolledBack s t path snap) : Stored t := by
  refine ⟨?_,?_,?_⟩
  · rw [hback.snapshotRing]
    exact inv.usable
  · rw [hback.snapshotRing]
    exact inv.hashed
  · rw [hback.snapshotRing,hback.fileHashes]
    intro other member
    by_cases hpath : other.path=path
    · rw [hpath,Function.update_self]
      exact nofun
    · rw [Function.update_of_ne hpath]
      exact inv.watched other member

/-- Every critical section keeps what holds of the ring. -/
theorem step_stored {highEntropy : Bytes → Bool} {s t : ARHSEngine Path}
    {label : Action Path×Reply Path} (inv : Stored s) (h : Step highEntropy s label t) :
    Stored t := by
  obtain ⟨hstep,sized⟩ := h
  have hcases := step_cases highEntropy s label.1 sized
  rw [hstep] at hcases
  rcases hcases with ⟨path,reads,now,-,hsize,hacc⟩ | ⟨-,hsame | ⟨path,snap,hback⟩⟩
  · exact inv.accept hsize hacc
  · refine ⟨?_,?_,?_⟩
    · rw [hsame.snapshotRing]
      exact inv.usable
    · rw [hsame.snapshotRing]
      exact inv.hashed
    · rw [hsame.snapshotRing,hsame.fileHashes]
      exact inv.watched
  · exact inv.rollBack hback

/-- Making room keeps the newest snapshot of a file that has a younger one. -/
theorem newest_makeRoom {ring : List (CowSnapshot Path)} {path : Path}
    (usable : ∀ snap ∈ ring,snap.originalData≠[])
    (kept : MAX_SNAPSHOTS ≤ ring.length → ∀ oldest rest,ring=oldest::rest →
      oldest.path=path → ∃ snap ∈ rest,snap.path=path) :
    newest (makeRoom ring) path=newest ring path := by
  unfold makeRoom
  split_ifs with hfull
  · cases ring with
    | nil => rfl
    | cons oldest rest =>
      rw [List.tail_cons,newest_cons]
      cases hrest : newest rest path with
      | some snap => rfl
      | none =>
        rw [Option.none_or,if_neg]
        rintro ⟨hpath,-⟩
        obtain ⟨snap,member,hsnap⟩ := kept hfull oldest rest rfl hpath
        obtain ⟨found,hfound⟩ := newest_isSome member (usable snap (List.mem_cons_of_mem _ member))
        rw [hsnap,hrest] at hfound
        exact absurd hfound nofun
  · rfl

/-- Accepting a content keeps the files recoverable exactly when it does no
harm. -/
theorem accepted_recoverable {s t : ARHSEngine Path} {path : Path} {reads : Reads}
    {now : TimePoint} (inv : Stored s) (good : Recoverable s) (hsize : Watchable reads.captured)
    (hacc : Accepted s t path reads now) : Recoverable t ↔ Harmless s path reads := by
  have husable : (capture path reads.captured now).originalData≠[] :=
    fun hnil => hsize.1 (List.length_eq_zero_iff.mpr hnil)
  have hown : newest t.snapshotRing path=some (capture path reads.captured now) := by
    rw [hacc.snapshotRing,newest_append,if_pos ⟨rfl,husable⟩]
  have hother : ∀ other,path≠other →
      newest t.snapshotRing other=newest (makeRoom s.snapshotRing) other := by
    intro other hne
    rw [hacc.snapshotRing,newest_append,if_neg fun h => hne h.1]
  rw [recoverable_iff] at good ⊢
  constructor
  · intro hrecover
    constructor
    · obtain ⟨snap,hnewest,-,haccepted⟩ := hrecover path _
        (by rw [hacc.fileHashes,Function.update_self])
      rw [hown] at hnewest
      rw [hacc.accepted,Function.update_self,←Option.some.inj hnewest] at haccepted
      exact (Option.some.inj haccepted).symm
    · intro hfull oldest rest hring
      by_cases hpath : oldest.path=path
      · exact .inl hpath
      · have hwatched := inv.watched oldest (by rw [hring]; exact List.mem_cons_self)
        obtain ⟨hash,hhash⟩ := Option.ne_none_iff_exists'.mp hwatched
        obtain ⟨snap,hnewest,-,-⟩ := hrecover oldest.path hash
          (by rw [hacc.fileHashes,Function.update_of_ne hpath,hhash])
        rw [hother _ (Ne.symm hpath),makeRoom,if_pos hfull,hring,List.tail_cons] at hnewest
        obtain ⟨member,hsame⟩ := newest_mem hnewest
        exact .inr ⟨snap,member,hsame⟩
  · rintro ⟨hsteady,hkept⟩ file hash hwatched
    by_cases hpath : path=file
    · subst hpath
      rw [hacc.fileHashes,Function.update_self,hashFile_eq_hashBytes] at hwatched
      refine ⟨_,hown,?_,?_⟩
      · rw [←Option.some.inj hwatched,←hsteady]
        rfl
      · rw [hacc.accepted,Function.update_self,←hsteady]
        rfl
    · rw [hacc.fileHashes,Function.update_of_ne (Ne.symm hpath)] at hwatched
      obtain ⟨snap,hnewest,hhash,haccepted⟩ := good file hash hwatched
      refine ⟨snap,?_,hhash,?_⟩
      · rw [hother file hpath,newest_makeRoom inv.usable,hnewest]
        intro hfull oldest rest hring hfile
        have hyounger := (hkept hfull oldest rest hring).resolve_left fun h => hpath (h.symm.trans hfile)
        rw [hfile] at hyounger
        exact hyounger
      · rw [hacc.accepted,Function.update_of_ne (Ne.symm hpath),haccepted]

/-- A critical section that accepts nothing keeps the files recoverable. -/
theorem rolledBack_recoverable {s t : ARHSEngine Path} {path : Path} {snap : CowSnapshot Path}
    (inv : Stored s) (good : Recoverable s) (hback : RolledBack s t path snap) :
    Recoverable t := by
  rw [recoverable_iff] at good ⊢
  intro file hash hwatched
  rw [hback.snapshotRing,hback.accepted]
  obtain ⟨member,hpath⟩ := newest_mem hback.found
  by_cases hfile : file=path
  · subst hfile
    rw [hback.fileHashes,Function.update_self,inv.hashed snap member] at hwatched
    have hold := inv.watched snap member
    rw [hpath] at hold
    obtain ⟨old,hold⟩ := Option.ne_none_iff_exists'.mp hold
    obtain ⟨found,hfound,-,haccepted⟩ := good file old hold
    rw [hback.found] at hfound
    rw [←Option.some.inj hfound] at haccepted
    exact ⟨snap,hback.found,Option.some.inj hwatched,haccepted⟩
  · rw [hback.fileHashes,Function.update_of_ne hfile] at hwatched
    exact good file hash hwatched

/-- One critical section keeps the files recoverable exactly when it accepts
no content or does no harm. -/
theorem step_recoverable {highEntropy : Bytes → Bool} {s t : ARHSEngine Path}
    {label : Action Path×Reply Path} (inv : Stored s) (good : Recoverable s)
    (h : Step highEntropy s label t) :
    Recoverable t ↔ ∀ path reads,accepts highEntropy s label.1=some (path,reads) →
      Harmless s path reads := by
  obtain ⟨hstep,sized⟩ := h
  have hcases := step_cases highEntropy s label.1 sized
  rw [hstep] at hcases
  rcases hcases with ⟨path,reads,now,haccepts,hsize,hacc⟩ | ⟨hnone,hrest⟩
  · rw [accepted_recoverable inv good hsize hacc,haccepts]
    constructor
    · intro harmless path' reads' heq
      obtain ⟨rfl,rfl⟩ := Prod.mk.inj (Option.some.inj heq)
      exact harmless
    · intro harmless
      exact harmless path reads rfl
  · have hgood : Recoverable t := by
      rcases hrest with hsame | ⟨path,snap,hback⟩
      · rw [recoverable_iff] at good ⊢
        rw [hsame.fileHashes,hsame.snapshotRing,hsame.accepted]
        exact good
      · exact rolledBack_recoverable inv good hback
    refine iff_of_true hgood ?_
    rw [hnone]
    exact nofun

/-- In every run of scans, watch passes and rollbacks over files of
admissible size: after every critical section every watched file can be
rolled back to its last accepted content, if and only if every accepting
visit sees an unchanged file and costs no other file its only snapshot. -/
theorem rollback_available_iff {highEntropy : Bytes → Bool}
    {events : List (Event (ARHSEngine Path) (Action Path×Reply Path))} {engine : ARHSEngine Path}
    (run : Run (Step highEntropy) create events engine) :
    (∀ e ∈ events,Recoverable e.after) ↔
      ∀ e ∈ events,∀ path reads,accepts highEntropy e.before e.label.1=some (path,reads) →
        Harmless e.before path reads := by
  have hstored : Stored (create : ARHSEngine Path) :=
    ⟨fun _ h => absurd h List.not_mem_nil,fun _ h => absurd h List.not_mem_nil,
      fun _ h => absurd h List.not_mem_nil⟩
  have hcreate : Recoverable (create : ARHSEngine Path) := fun _ _ h => absurd h nofun
  exact run.forall_after_iff Stored Recoverable
    (fun s label => ∀ path reads,accepts highEntropy s label.1=some (path,reads) →
      Harmless s path reads) hstored (fun _ _ _ => step_stored) hcreate
    (fun _ _ _ => step_recoverable)

section Flood

/-- Two contents a benign file may alternate between. -/
def draft (k : ℕ) : Bytes := if k%2=0 then [1] else [2]

/-- Consecutive contents have different hashes. -/
theorem hashFile_draft (k : ℕ) : hashFile (draft k)≠hashFile (draft (k+1)) := by
  unfold draft
  by_cases h : k%2=0
  · rw [if_pos h,if_neg (by omega)]
    exact hashFile_one_ne_two
  · rw [if_neg h,if_pos (by omega)]
    exact hashFile_one_ne_two.symm

/-- Every such content has an admissible size. -/
theorem watchable_draft (k : ℕ) : Watchable (draft k) := by
  unfold draft
  split_ifs
  · decide
  · decide

/-- One file was accepted once and another one `k+1` times since. -/
structure Flooded (k : ℕ) (engine : ARHSEngine ℕ) : Prop where
  /-- The first file is watched. -/
  first : engine.fileHashes 0≠none
  /-- So is the second. -/
  second : engine.fileHashes 1=some (hashFile (draft k))
  /-- No other file is. -/
  only : ∀ path,engine.fileHashes path≠none → path=0 ∨ path=1
  /-- The ring holds one snapshot of the first file and then the others. -/
  ring : ∃ oldest rest,engine.snapshotRing=oldest::rest ∧ rest.length=k+1 ∧
    ∀ snap ∈ rest,snap.path=1

/-- The visit of a file whose content stays the same meanwhile. -/
def visit (path k : ℕ) : Action ℕ := .watch path ⟨draft k,draft k,draft k⟩ 0

/-- Such a visit is a step of the engine. -/
theorem visit_step (engine : ARHSEngine ℕ) (path k : ℕ) :
    Step (fun _ => false) engine (visit path k,(step (fun _ => false) engine (visit path k)).2)
      (step (fun _ => false) engine (visit path k)).1 :=
  ⟨rfl,watchable_draft k,watchable_draft k,watchable_draft k⟩

/-- A visit of a new or edited file with benign content is accepted. -/
theorem visit_accepts {engine : ARHSEngine ℕ} {path k : ℕ}
    (h : engine.fileHashes path≠some (hashFile (draft k))) :
    accepts (fun _ => false) engine (visit path k)=some (path,⟨draft k,draft k,draft k⟩) := by
  rw [visit,accepts]
  cases hhash : engine.fileHashes path with
  | none => rfl
  | some hash => exact if_pos ⟨fun heq => h (by rw [hhash,heq]),rfl⟩

/-- The effect of an accepted visit. -/
theorem visit_accepted (engine : ARHSEngine ℕ) (path k : ℕ)
    (h : engine.fileHashes path≠some (hashFile (draft k))) :
    ∃ t label now,Step (fun _ => false) engine label t ∧
      Accepted engine t path ⟨draft k,draft k,draft k⟩ now := by
  have hstep := visit_step engine path k
  rcases step_cases (fun _ => false) engine (visit path k) hstep.2 with
    ⟨other,reads,now,hother,-,hacc⟩ | ⟨hnone,-⟩
  · rw [visit_accepts h] at hother
    obtain ⟨rfl,rfl⟩ := Prod.mk.inj (Option.some.inj hother)
    exact ⟨_,_,now,hstep,hacc⟩
  · rw [visit_accepts h] at hnone
    exact absurd hnone nofun

/-- The first visit of a file makes it recoverable. -/
theorem rollback_available_after_visit :
    ∃ events engine,Run (Step fun _ => false) (create : ARHSEngine ℕ) events engine ∧
      engine.fileHashes 0≠none ∧ ∀ e ∈ events,Recoverable e.after := by
  have hrun := Run.nil.snoc (visit_step create 0 0)
  have haccept := @accept_accepted ℕ _ create 0 ⟨draft 0,draft 0,draft 0⟩ (watchable_draft 0) 0
  have hwatched : (step (fun _ => false) create (visit 0 0)).1.fileHashes 0≠none := by
    rw [visit,step,watchFile,if_pos (watchable_draft 0)]
    dsimp only [create] at haccept ⊢
    rw [haccept.fileHashes,Function.update_self]
    exact nofun
  refine ⟨_,_,hrun,hwatched,(rollback_available_iff hrun).mpr ?_⟩
  intro e member path reads haccepts
  rw [List.mem_singleton.mp member] at haccepts ⊢
  rw [@visit_accepts create 0 0 nofun] at haccepts
  obtain ⟨rfl,rfl⟩ := Prod.mk.inj (Option.some.inj haccepts)
  exact ⟨rfl,fun hfull => absurd hfull (by decide)⟩

/-- While the ring has room, the next edit of the second file leaves the
first snapshot where it is. -/
theorem flooded_step {k : ℕ} {s t : ARHSEngine ℕ} {now : TimePoint} (h : Flooded k s)
    (room : k+2 < MAX_SNAPSHOTS)
    (hacc : Accepted s t 1 ⟨draft (k+1),draft (k+1),draft (k+1)⟩ now) : Flooded (k+1) t := by
  obtain ⟨oldest,rest,hring,hlength,hrest⟩ := h.ring
  refine ⟨?_,?_,fun path hwatched => ?_,oldest,rest++[capture 1 (draft (k+1)) now],?_,?_,?_⟩
  · rw [hacc.fileHashes,Function.update_of_ne Nat.zero_ne_one]
    exact h.first
  · rw [hacc.fileHashes,Function.update_self]
  · by_cases hpath : path=1
    · exact .inr hpath
    · rw [hacc.fileHashes,Function.update_of_ne hpath] at hwatched
      exact h.only path hwatched
  · rw [hacc.snapshotRing,makeRoom,hring,if_neg]
    · rfl
    · rw [List.length_cons]
      omega
  · rw [List.length_append,List.length_singleton,hlength]
  · intro snap member
    rcases List.mem_append.mp member with hold | hnew
    · exact hrest snap hold
    · rw [List.mem_singleton.mp hnew]
      rfl

/-- Edits of the second file fill the ring behind the first snapshot. -/
theorem flooded_run {k : ℕ} (h : k+1 < MAX_SNAPSHOTS) :
    ∃ events engine,Run (Step fun _ => false) (create : ARHSEngine ℕ) events engine ∧
      Flooded k engine := by
  induction k with
  | zero =>
    obtain ⟨s,first,now,hfirst,hs⟩ := visit_accepted create 0 0 nofun
    have hnew : s.fileHashes 1=none := by
      rw [hs.fileHashes,Function.update_of_ne Nat.one_ne_zero]
      rfl
    obtain ⟨t,second,later,hsecond,ht⟩ := visit_accepted s 1 0 (by rw [hnew]; exact nofun)
    refine ⟨_,t,(Run.nil.snoc hfirst).snoc hsecond,?_,?_,fun path hwatched => ?_,
      capture 0 (draft 0) now,[capture 1 (draft 0) later],?_,rfl,?_⟩
    · rw [ht.fileHashes,Function.update_of_ne Nat.zero_ne_one,hs.fileHashes,Function.update_self]
      exact nofun
    · rw [ht.fileHashes,Function.update_self]
    · by_cases hone : path=1
      · exact .inr hone
      · by_cases hzero : path=0
        · exact .inl hzero
        · rw [ht.fileHashes,Function.update_of_ne hone,hs.fileHashes,
            Function.update_of_ne hzero] at hwatched
          exact absurd rfl hwatched
    · rw [ht.snapshotRing,hs.snapshotRing]
      rfl
    · intro snap member
      rw [List.mem_singleton.mp member]
      rfl
  | succ k ih =>
    obtain ⟨events,s,hrun,hs⟩ := ih (by omega)
    have hchanged : s.fileHashes 1≠some (hashFile (draft (k+1))) := by
      rw [hs.second]
      exact fun heq => hashFile_draft k (Option.some.inj heq)
    obtain ⟨t,label,now,hstep,hacc⟩ := visit_accepted s 1 (k+1) hchanged
    exact ⟨_,t,hrun.snoc hstep,flooded_step hs h hacc⟩

/-- Two watched files are enough: after 4096 benign edits of the second one
the first can no longer be rolled back. -/
theorem only_snapshot_evicted :
    ∃ events engine,Run (Step fun _ => false) (create : ARHSEngine ℕ) events engine ∧
      (∀ path,engine.fileHashes path≠none → path=0 ∨ path=1) ∧ engine.fileHashes 0≠none ∧
      (rollbackFile engine 0 true).2=(.errRollbackFail,none) := by
  obtain ⟨events,s,hrun,hs⟩ := @flooded_run 4094 (by decide)
  have hchanged : s.fileHashes 1≠some (hashFile (draft 4095)) := by
    rw [hs.second]
    exact fun heq => hashFile_draft 4094 (Option.some.inj heq)
  obtain ⟨t,label,now,hstep,hacc⟩ := visit_accepted s 1 4095 hchanged
  obtain ⟨oldest,rest,hring,hlength,hrest⟩ := hs.ring
  have hnone : newest t.snapshotRing 0=none := by
    rw [hacc.snapshotRing,makeRoom,hring,if_pos (by rw [List.length_cons,hlength]; decide),
      List.tail_cons,newest_append,if_neg fun h => absurd h.1 Nat.one_ne_zero,newest,
      List.find?_eq_none]
    intro snap member hsnap
    have hpath := hrest snap (List.mem_reverse.mp member)
    rw [(of_decide_eq_true hsnap).1] at hpath
    exact absurd hpath Nat.zero_ne_one
  refine ⟨_,t,hrun.snoc hstep,fun path hwatched => ?_,?_,?_⟩
  · by_cases hpath : path=1
    · exact .inr hpath
    · rw [hacc.fileHashes,Function.update_of_ne hpath] at hwatched
      exact hs.only path hwatched
  · rw [hacc.fileHashes,Function.update_of_ne Nat.zero_ne_one]
    exact hs.first
  · rw [rollbackFile,hnone]

end Flood

end Gcad.RansomwareRollback
