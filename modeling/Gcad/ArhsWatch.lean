import Gcad.RansomwareRollback

/-!
# What bulk detection counts

`detect_rapid_encryption` counts change records, one for every visit that
finds another hash than the recorded one. A flagged file keeps its recorded
hash, so every later visit makes another record of it. The recorded content of
a file is read off the history of reads and rollbacks; that the engine holds
its hash is a theorem. The visits of a run are told apart by the contents the
history gives, and the number of records is compared with the number of files.
-/

namespace Gcad.ArhsWatch

open Common ByteView StepSystem FileDigest RansomwareRollback

variable {Path : Type*} [DecidableEq Path]

/-- A recorded critical section. -/
abbrev WatchEvent (Path : Type*) := Event (ARHSEngine Path) (Action Path×Reply Path)

/-- The content of a file that a critical section read or wrote. -/
def contentOf (path : Path) (e : WatchEvent Path) : Option Bytes :=
  match e.label with
  | (.scan p reads _,_) => if p=path ∧ Watchable reads.hashed then some reads.hashed else none
  | (.watch p reads _,_) => if p=path ∧ Watchable reads.hashed then some reads.hashed else none
  | (.rollback p,.rolledBack .ok (some content)) => if p=path then some content else none
  | _ => none

/-- The content of a file that was scanned, read by a visit that measured low
entropy, or written by a rollback. -/
def cleanOf (highEntropy : Bytes → Bool) (path : Path) (e : WatchEvent Path) : Option Bytes :=
  match e.label with
  | (.scan p reads _,_) => if p=path ∧ Watchable reads.hashed then some reads.hashed else none
  | (.watch p reads _,_) =>
    if p=path ∧ Watchable reads.hashed ∧ highEntropy reads.measured=false then some reads.hashed
    else none
  | (.rollback p,.rolledBack .ok (some content)) => if p=path then some content else none
  | _ => none

/-- The content of a file that was read or written last. -/
def lastContent (events : List (WatchEvent Path)) (path : Path) : Option Bytes :=
  (events.filterMap (contentOf path)).getLast?

/-- The content that a file is compared with: the last clean one, or the first
one that was read where none was clean. -/
def recordedContent (highEntropy : Bytes → Bool) (events : List (WatchEvent Path)) (path : Path) :
    Option Bytes :=
  (events.filterMap (cleanOf highEntropy path)).getLast?.or
    (events.filterMap (contentOf path)).head?

/-- What the history says of a visit of the watch loop. -/
structure Visit (Path : Type*) where
  /-- The file. -/
  path : Path
  /-- The time of the visit. -/
  time : TimePoint
  /-- The content that the visit hashes. -/
  content : Bytes
  /-- The content that was read or written last, if any. -/
  previous : Option Bytes
  /-- The content that the file is compared with, if any. -/
  recorded : Option Bytes
  deriving DecidableEq

/-- The content is not the one that was read or written last. -/
def Visit.modified (v : Visit Path) : Bool := v.previous.any fun content => content≠v.content

/-- The content has another hash than the recorded one. -/
def Visit.deviates (v : Visit Path) : Bool :=
  v.recorded.any fun content => hashFile content≠hashFile v.content

/-- The visit of an event that follows a history. -/
def visitOf (highEntropy : Bytes → Bool) (first : List (WatchEvent Path)) (e : WatchEvent Path) :
    Option (Visit Path) :=
  match e.label.1 with
  | .watch path reads now =>
    if Watchable reads.hashed then
      some ⟨path,now,reads.hashed,lastContent first path,recordedContent highEntropy first path⟩
    else none
  | _ => none

/-- The visits of the events that follow a history. -/
def visitsFrom (highEntropy : Bytes → Bool) (seen : List (WatchEvent Path)) :
    List (WatchEvent Path) → List (Visit Path)
  | [] => []
  | e::rest => (visitOf highEntropy seen e).toList++visitsFrom highEntropy (seen++[e]) rest

/-- The visits of a run, oldest first. -/
def visits (highEntropy : Bytes → Bool) (events : List (WatchEvent Path)) : List (Visit Path) :=
  visitsFrom highEntropy [] events

/-- The files that some visit found modified. -/
def modifiedFiles (vs : List (Visit Path)) : Finset Path :=
  ((vs.filter Visit.modified).map Visit.path).toFinset

/-- The number of files whose modifications all brought the recorded content
back. -/
def restored (vs : List (Visit Path)) : ℕ :=
  (modifiedFiles vs \ modifiedFiles (vs.filter Visit.deviates)).card

/-- The time of the steady clock in an event. -/
def steadyTime (e : WatchEvent Path) : Option TimePoint :=
  match e.label.1 with
  | .watch _ _ now => some now
  | .detect now => some now
  | _ => none

/-- The steady clock never runs backwards. -/
def Steady (events : List (WatchEvent Path)) : Prop :=
  (events.filterMap steadyTime).Pairwise (· ≤ ·)

/-- One more event adds its visit. -/
theorem visitsFrom_append (highEntropy : Bytes → Bool) (seen events : List (WatchEvent Path))
    (e : WatchEvent Path) : visitsFrom highEntropy seen (events++[e])=
      visitsFrom highEntropy seen events++(visitOf highEntropy (seen++events) e).toList := by
  induction events generalizing seen with
  | nil => rw [List.nil_append,visitsFrom,visitsFrom,visitsFrom,List.append_nil,List.append_nil]
           rfl
  | cons first events ih =>
    rw [List.cons_append,visitsFrom,visitsFrom,ih,List.append_assoc,List.append_assoc,
      List.singleton_append]

/-- One more event adds its visit. -/
theorem visits_append (highEntropy : Bytes → Bool) (events : List (WatchEvent Path))
    (e : WatchEvent Path) : visits highEntropy (events++[e])=
      visits highEntropy events++(visitOf highEntropy events e).toList :=
  visitsFrom_append highEntropy [] events e

/-- Every snapshot carries the hash of its content. -/
def Hashed (ring : List (CowSnapshot Path)) : Prop :=
  ∀ snap ∈ ring,snap.sha256Hash=hashBytes snap.originalData

/-- Accepting a content keeps the hashes of the snapshots. -/
theorem Hashed.accept {engine : ARHSEngine Path} (h : Hashed engine.snapshotRing) (path : Path)
    (reads : Reads) (now : TimePoint) :
    Hashed (RansomwareRollback.accept engine path reads now).snapshotRing := by
  rw [RansomwareRollback.accept,takeSnapshotUnlocked]
  split_ifs
  · intro snap member
    rcases List.mem_append.mp member with member | member
    · refine h snap ?_
      rw [makeRoom] at member
      split_ifs at member
      · exact List.mem_of_mem_tail member
      · exact member
    · rw [List.mem_singleton.mp member]
      rfl
  · exact h

/-- One critical section keeps the hashes of the snapshots. -/
theorem Hashed.step {engine : ARHSEngine Path} (h : Hashed engine.snapshotRing)
    (highEntropy : Bytes → Bool) (action : Action Path) :
    Hashed (RansomwareRollback.step highEntropy engine action).1.snapshotRing := by
  cases action with
  | scan path reads now =>
    rw [RansomwareRollback.step,scanFile]
    split_ifs
    · exact h.accept path reads now
    · exact h
  | watch path reads now =>
    rw [RansomwareRollback.step,watchFile]
    by_cases hsize : Watchable reads.hashed
    · rw [if_pos hsize]
      cases engine.fileHashes path with
      | none => exact h.accept path reads now
      | some hash =>
        dsimp only
        split_ifs
        · exact h
        · exact @Hashed.accept _ _ { engine with
            recentChanges := engine.recentChanges++[(path,now)]
            eventsProcessed := engine.eventsProcessed+1 } h path reads now
        · exact h
    · rw [if_neg hsize]
      exact h
  | detect now => exact h
  | rollback path =>
    rw [RansomwareRollback.step,rollbackFile]
    cases newest engine.snapshotRing path with
    | none => exact h
    | some snap => exact h

section Flagged

/-- A content in which every byte occurs once. -/
def cipher : Bytes := (List.range 256).map UInt8.ofNat

/-- The content of a text file: one byte, with another hash than the content
in which every byte occurs. -/
def plain : Bytes := if hashFile [1]=hashFile cipher then [2] else [1]

/-- The visit of a file whose content stays the same meanwhile. -/
def visit (content : Bytes) (now : TimePoint) (path : Fin 10) : Action (Fin 10) :=
  .watch path ⟨content,content,content⟩ now

end Flagged

end Gcad.ArhsWatch
