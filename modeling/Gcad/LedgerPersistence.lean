import Gcad.ResolvedVault

/-!
# What a fresh executor reads from the ledger

The ledger on disk is kept by two writers: a quarantine call appends one
line, and a restore or shred call writes all lines anew. A fresh executor
reads it with its own splitter. As long as the ledger operations succeed,
the text always parses to the records in memory, with times cut to whole
seconds, and to the same next number. The one call that breaks this is a
quarantine call that moves the ledger itself into the vault, by whatever
spelling of its path, or that appends to a ledger whose last line was never
ended.
-/

namespace Gcad.LedgerPersistence

open Common Observation ByteView FileStore StepSystem DelimitedText LedgerText QuarantineVault
open QuarantineRun ResolvedVault

section Text

/-- An unsigned number that was read has 64 bits. -/
theorem stoull_lt {text : Str} {n : ℕ} (h : stoull text=some n) : n < 2^64 := by
  obtain ⟨scanned,-,hn⟩ := Option.bind_eq_some_iff.mp h
  split at hn
  · cases hn
  · next hlt =>
    obtain rfl := Option.some.inj hn
    split
    · exact Nat.mod_lt _ (by decide)
    · exact Nat.not_le.mp hlt

/-- A signed number that was read has 64 bits. -/
theorem stoll_range {text : Str} {z : ℤ} (h : stoll text=some z) : -2^63 ≤ z ∧ z < 2^63 := by
  obtain ⟨scanned,-,hz⟩ := Option.bind_eq_some_iff.mp h
  dsimp only at hz
  generalize (if scanned.1 then -(scanned.2 : ℤ) else scanned.2)=value at hz
  split at hz
  · cases hz
  · next hrange =>
    obtain rfl := Option.some.inj hz
    rw [not_or,not_lt,not_le] at hrange
    exact hrange

/-- Whole seconds are not cut. -/
theorem epochSeconds_seconds (z : ℤ) : epochSeconds (seconds z)=z :=
  Int.mul_tdiv_cancel z (by decide)

/-- The seconds of a 64-bit time have 64 bits. -/
theorem epochSeconds_range {time : ℤ} (h : -2^63 ≤ time ∧ time < 2^63) :
    -2^63 ≤ epochSeconds time ∧ epochSeconds time < 2^63 := by
  unfold epochSeconds
  rcases Int.le_total 0 time with hpos | hneg
  · rw [Int.tdiv_eq_ediv_of_nonneg hpos]
    omega
  · have hflip : time.tdiv (10^9)=-((-time)/10^9) := by
      rw [←Int.tdiv_eq_ediv_of_nonneg (by omega),Int.neg_tdiv,neg_neg]
    rw [hflip]
    omega

/-- A record as the ledger keeps it: its time cut to whole seconds. -/
def truncated (record : QuarantineRecord) : QuarantineRecord :=
  {record with quarantinedAt := seconds (epochSeconds record.quarantinedAt)}

/-- A record that a ledger line can hold. -/
structure Recordable (record : QuarantineRecord) : Prop where
  /-- Its texts have no delimiter. -/
  plain : PlainRecord record
  /-- Its numbers have 64 bits. -/
  numbers : ReadableNumbers record

/-- The line of such a record is read back. -/
theorem Recordable.parse {record : QuarantineRecord} (h : Recordable record) :
    parseLine (ledgerLine record)=some (truncated record) := by
  classical
  rw [h.plain.parseLine_eq,if_pos h.numbers]
  rfl

/-- The flags of a record do not matter. -/
theorem Recordable.mark {record : QuarantineRecord} (h : Recordable record)
    (restored shredded : Bool) :
    Recordable {record with restored := restored, shredded := shredded} where
  plain := ⟨h.plain.original,h.plain.vault,h.plain.sha256⟩
  numbers := ⟨h.numbers.id,h.numbers.findingId,h.numbers.epoch⟩

/-- The fields that a record was read from. -/
theorem readRecord_recordable {id findingId originalPath vaultPath sha256 epoch restored : Str}
    {shredded : Bool} {record : QuarantineRecord}
    (h : readRecord id findingId originalPath vaultPath sha256 epoch restored shredded=some record)
    (hplain : Plain originalPath ∧ Plain vaultPath ∧ Plain sha256) :
    Recordable record ∧ truncated record=record := by
  obtain ⟨n,hn,h⟩ := Option.bind_eq_some_iff.mp h
  obtain ⟨m,hm,h⟩ := Option.bind_eq_some_iff.mp h
  obtain ⟨z,hz,h⟩ := Option.map_eq_some_iff.mp h
  have hepoch := epochSeconds_seconds z
  rw [←h]
  refine ⟨⟨⟨hplain.1,hplain.2.1,hplain.2.2⟩,⟨stoull_lt hn,stoull_lt hm,?_⟩⟩,?_⟩
  · rw [hepoch]
    exact stoll_range hz
  · simp only [truncated,hepoch]

/-- A record read from one line can be written to one line again, and its
time has no fraction. -/
theorem parseLine_recordable {line : Str} {record : QuarantineRecord} (hline : '\n' ∉ line)
    (h : parseLine line=some record) : Recordable record ∧ truncated record=record := by
  have hpiece : ∀ piece ∈ line.splitOn '|', Plain piece := by
    intro piece hp c hc
    obtain ⟨hbar,hsub⟩ := mem_splitOn hp
    exact ⟨fun he => hbar (he ▸ hc),fun he => hline (he ▸ hsub hc)⟩
  unfold parseLine at h
  split at h
  · cases h
  split at h
  · next heq =>
    rw [heq] at hpiece
    exact readRecord_recordable h ⟨hpiece _ (by simp),hpiece _ (by simp),hpiece _ (by simp)⟩
  · next heq =>
    rw [heq] at hpiece
    exact readRecord_recordable h ⟨hpiece _ (by simp),hpiece _ (by simp),hpiece _ (by simp)⟩
  · cases h

/-- Records loaded from any text are such records. -/
theorem loadLedger_recordable (text : Str) :
    ∀ record ∈ (loadLedger text).1, Recordable record ∧ truncated record=record := by
  intro record hr
  rw [loadLedger_records] at hr
  obtain ⟨line,hl,hp⟩ := List.mem_filterMap.mp hr
  exact parseLine_recordable (mem_splitOn hl).1 hp

/-- The next number after the numbers of the records read so far. -/
def nextNumber (next : ℕ) (ids : List ℕ) : ℕ :=
  ids.foldl (fun next id => if next ≤ id then (id+1)%2^64 else next) next

/-- The loading loop computes the next number from the records it reads. -/
theorem foldl_loadLine_number (lines : List Str) (loaded : List QuarantineRecord×ℕ) :
    (lines.foldl loadLine loaded).2=
      nextNumber loaded.2 ((lines.filterMap parseLine).map QuarantineRecord.id) := by
  induction lines generalizing loaded with
  | nil => rfl
  | cons line rest ih =>
    rw [List.foldl_cons,ih,List.filterMap_cons]
    unfold loadLine
    split
    · next hnone => rw [hnone]
    · next record hsome =>
      simp only [hsome,List.map_cons]
      rfl

/-- The next number of a text is the one of its records. -/
theorem loadLedger_number (text : Str) :
    (loadLedger text).2=nextNumber 1 ((loadLedger text).1.map QuarantineRecord.id) := by
  rw [loadLedger_records]
  exact foldl_loadLine_number _ _

/-- The next number has 64 bits. -/
theorem nextNumber_lt (ids : List ℕ) {next : ℕ} (h : next < 2^64) : nextNumber next ids < 2^64 := by
  induction ids generalizing next with
  | nil => exact h
  | cons id rest ih =>
    apply ih
    dsimp only
    split
    · exact Nat.mod_lt _ (by decide)
    · exact h

/-- Giving out the next number moves the counter as loading it does. -/
theorem nextNumber_snoc (ids : List ℕ) :
    nextNumber 1 (ids++[nextNumber 1 ids])=(nextNumber 1 ids+1)%2^64 := by
  have hfold : nextNumber 1 (ids++[nextNumber 1 ids])=
      nextNumber (nextNumber 1 ids) [nextNumber 1 ids] := List.foldl_append
  rw [hfold]
  exact if_pos (le_refl _)

/-- A ledger text to which a line can be appended: empty or ended. -/
def Ended (text : Str) : Prop := text=[] ∨ text.getLast?=some '\n'

/-- An ended text can be told. -/
instance (text : Str) : Decidable (Ended text) := inferInstanceAs (Decidable (_ ∨ _))

/-- A line appended to an ended text is read after the others. -/
theorem loadLedger_append {text line : Str} (htext : Ended text) (hline : '\n' ∉ line) :
    (loadLedger (text++(line++['\n']))).1=(loadLedger text).1++(parseLine line).toList := by
  have hnew : (line++['\n']).splitOn '\n'=[line,[]] := by
    rw [List.splitOn_append_cons_self,List.splitOn_eq_singleton hline]
    rfl
  have hempty : parseLine []=none := rfl
  have hread : [line,[]].filterMap parseLine=(parseLine line).toList := by
    cases hp : parseLine line with
    | none => simp [hp,hempty]
    | some record => simp [hp,hempty]
  rw [loadLedger_records,loadLedger_records]
  rcases htext with rfl | hlast
  · rw [List.nil_append,hnew,hread]
    simp [hempty]
  · obtain ⟨lines,rfl⟩ := List.getLast?_eq_some_iff.mp hlast
    rw [List.append_assoc,List.singleton_append,List.splitOn_append_cons_self,hnew,
      List.filterMap_append,hread,List.splitOn_append_cons_self,List.filterMap_append]
    simp [hempty]

/-- A text of whole lines is read back record by record. -/
theorem loadLedger_unlines {records : List QuarantineRecord}
    (h : ∀ record ∈ records, Recordable record) :
    (loadLedger (unlines (records.map ledgerLine))).1=records.map truncated := by
  have hlines : ∀ line ∈ records.map ledgerLine, '\n' ∉ line := by
    intro line hl
    obtain ⟨record,hr,rfl⟩ := List.mem_map.mp hl
    exact (h record hr).plain.line
  have hempty : [[]].filterMap parseLine=[] := rfl
  rw [loadLedger_records,splitOn_unlines hlines,List.filterMap_append,hempty,List.append_nil,
    List.filterMap_map]
  induction records with
  | nil => rfl
  | cons record rest ih =>
    have hrest := ih (fun other ho => h other (List.mem_cons_of_mem _ ho))
      (fun line hl => hlines line (List.mem_cons_of_mem _ hl))
    rw [List.filterMap_cons,Function.comp_apply,(h record List.mem_cons_self).parse]
    rw [List.map_cons,hrest]

end Text

section Rewriting

/-- The operations of a rewrite succeed on a ledger of some length. -/
structure Rewrites (faults : RewriteFaults) (count : ℕ) : Prop where
  /-- The temporary file is opened. -/
  openTemp : faults.openTemp=false
  /-- Every line is written. -/
  written : count ≤ faults.written
  /-- The temporary file replaces the ledger. -/
  rename : faults.rename=false

/-- Then the ledger holds the lines of all records. -/
theorem Rewrites.ledger {faults : RewriteFaults} {ledger : List QuarantineRecord}
    (h : Rewrites faults ledger.length) {tempAt ledgerAt : Str} (hne : ledgerAt≠tempAt)
    (files : Files) :
    rewriteAt faults tempAt ledgerAt ledger files ledgerAt=
      some (unlines (ledger.map ledgerLine)) := by
  rw [rewriteAt_ledger faults ledger files hne,h.openTemp,h.rename]
  simp [rewrittenText,List.take_of_length_le h.written]

/-- Changing a record keeps the number of records. -/
theorem length_updateRecord (recordId : ℕ) (change : QuarantineRecord → QuarantineRecord)
    (ledger : List QuarantineRecord) :
    (updateRecord recordId change ledger).length=ledger.length := by
  induction ledger with
  | nil => rfl
  | cons record rest ih =>
    unfold updateRecord
    split
    · rfl
    · rw [List.length_cons,List.length_cons,ih]

/-- Changing flags keeps the numbers of the records. -/
theorem ids_updateRecord (recordId : ℕ) {change : QuarantineRecord → QuarantineRecord}
    (hchange : ∀ record, (change record).id=record.id) (ledger : List QuarantineRecord) :
    (updateRecord recordId change ledger).map QuarantineRecord.id=
      ledger.map QuarantineRecord.id := by
  induction ledger with
  | nil => rfl
  | cons record rest ih =>
    unfold updateRecord
    split
    · rw [List.map_cons,List.map_cons,hchange]
    · rw [List.map_cons,List.map_cons,ih]

end Rewriting

section Requests

variable {σ : Type}

/-- What can happen to the vault, with the decisions of the environment. -/
inductive Request where
  /-- A quarantine request. -/
  | quarantine (candidate : RemediationCandidate) (faults : FailingQuarantine)
  /-- A restore request. -/
  | restore (recordId : ℕ) (faults : FailingRestore)
  /-- A shred request. -/
  | shred (recordId : ℕ) (faults : FailingShred)
  /-- A fresh executor on the same vault, with any policy. -/
  | restart (policy : LocalSecurityPolicy)

/-- A request, and what the file system makes of paths while it is served. -/
structure Call where
  /-- The resolution of path texts. -/
  resolve : Resolution
  /-- What is asked of the executor. -/
  request : Request

/-- One call on the executor, with the code it returns. -/
def serve (sha256 : HashContext σ Bytes) (world : World) (call : Call) : World×ErrorCode :=
  match call.request with
  | .quarantine candidate faults =>
    let result := failingQuarantine call.resolve sha256 faults candidate world
    (result.1,result.2.1)
  | .restore recordId faults => failingRestore call.resolve faults recordId world
  | .shred recordId faults => failingShred call.resolve faults recordId world
  | .restart policy =>
    (⟨world.files,createResolved call.resolve world.executor.vaultDir policy world.files⟩,.ok)

/-- An executed call. -/
abbrev CallEvent := Event World (Call×ErrorCode)

/-- The values of a request are values of the source's types. -/
def Typed : Request → Prop
  | .quarantine candidate faults =>
    candidate.findingId < 2^64 ∧ -2^63 ≤ faults.now ∧ faults.now < 2^63
  | _ => True

/-- The file operations by which a request moves a file and keeps the
ledger all succeed. A restore request may still fail to move its file, as
long as it leaves no part of it behind. -/
def Undisturbed (world : World) : Request → Prop
  | .quarantine _ faults => faults.rename=false ∧ faults.append=false
  | .restore _ faults => (faults.rename=true → faults.copy=true → faults.part=none) ∧
      Rewrites faults.rewrite world.executor.ledger.length
  | .shred _ faults => Rewrites faults.rewrite world.executor.ledger.length
  | .restart _ => True

/-- The file system keeps the ledger of a vault at one place and apart from
the other files of the vault. -/
structure KeepsPlace (dir place : Str) (resolve : Resolution) : Prop where
  /-- The place of the ledger. -/
  ledger : resolve (ledgerPath dir)=place
  /-- The vault's own names are names of different files. -/
  separates : Separates resolve dir

/-- An admitted quarantine request leaves the ledger of earlier records in
place and can append to it: its target does not resolve to the ledger file,
unless there are no records, and the ledger does not end within a line. -/
def KeepsLedger (sha256 : HashContext σ Bytes) (dir : Str) (world : World) (call : Call) : Prop :=
  match call.request with
  | .quarantine candidate faults =>
    (admission sha256 faults.toQuarantineFaults world.executor.policy candidate
        (world.files ∘ call.resolve)).isSome=true →
      if call.resolve candidate.targetPath=call.resolve (ledgerPath dir) then
        world.executor.ledger=[]
      else ∀ text ∈ world.files (call.resolve (ledgerPath dir)), Ended text
  | _ => True

end Requests

section Invariant

variable {σ : Type} {dir place : Str} {world : World}

/-- The records that a file holds; there are none without one. -/
def recordsAt (place : Str) (files : Files) : List QuarantineRecord :=
  match files place with
  | none => []
  | some text => (loadLedger text).1

/-- The records that the ledger file holds. -/
def recordsOnDisk (dir : Str) (files : Files) : List QuarantineRecord :=
  recordsAt (ledgerPath dir) files

/-- Memory and disk agree. -/
structure Persisted (dir place : Str) (world : World) : Prop where
  /-- The vault directory never changes. -/
  vaultDir : world.executor.vaultDir=dir
  /-- Every record can be written to a line. -/
  recordable : ∀ record ∈ world.executor.ledger, Recordable record
  /-- The next number is the one of the records. -/
  number : world.executor.nextId=nextNumber 1 (world.executor.ledger.map QuarantineRecord.id)
  /-- The ledger file holds the records. -/
  onDisk : recordsAt place world.files=world.executor.ledger.map truncated

/-- A fresh executor has the same records, with times cut to whole
seconds, and the same next number. -/
def Reloads (dir place : Str) (world : World) : Prop :=
  ∀ policy resolve, KeepsPlace dir place resolve →
    createResolved resolve dir policy world.files=
      ⟨dir,policy,world.executor.ledger.map truncated,world.executor.nextId⟩

/-- The records of a fresh executor are those on disk. -/
theorem create_eq (dir : Str) (policy : LocalSecurityPolicy) (files : Files) :
    create dir policy files=⟨dir,policy,recordsOnDisk dir files,
      nextNumber 1 ((recordsOnDisk dir files).map QuarantineRecord.id)⟩ := by
  unfold create recordsOnDisk recordsAt
  cases files (ledgerPath dir) with
  | none => rfl
  | some text =>
    dsimp only
    rw [←loadLedger_number]

/-- The records of a fresh executor are those where the ledger is kept. -/
theorem createResolved_eq {resolve : Resolution} (h : resolve (ledgerPath dir)=place)
    (policy : LocalSecurityPolicy) (files : Files) :
    createResolved resolve dir policy files=⟨dir,policy,recordsAt place files,
      nextNumber 1 ((recordsAt place files).map QuarantineRecord.id)⟩ := by
  unfold createResolved
  rw [create_eq,recordsOnDisk,←h]
  rfl

/-- Cutting times keeps the numbers. -/
theorem ids_truncated (ledger : List QuarantineRecord) :
    (ledger.map truncated).map QuarantineRecord.id=ledger.map QuarantineRecord.id := by
  rw [List.map_map]
  rfl

/-- An executor whose memory agrees with the disk is reloaded. -/
theorem Persisted.reloads (h : Persisted dir place world) : Reloads dir place world := by
  intro policy resolve hplace
  rw [createResolved_eq hplace.ledger,h.onDisk,ids_truncated,←h.number]

/-- Records on disk can be written to lines, and their times are cut. -/
theorem recordsAt_recordable (place : Str) (files : Files) :
    ∀ record ∈ recordsAt place files, Recordable record ∧ truncated record=record := by
  intro record hr
  unfold recordsAt at hr
  split at hr
  · exact absurd hr List.not_mem_nil
  · exact loadLedger_recordable _ record hr

/-- A fresh executor agrees with the disk, whatever files there are. -/
theorem createResolved_persisted {resolve : Resolution} (h : resolve (ledgerPath dir)=place)
    (policy : LocalSecurityPolicy) (files : Files) :
    Persisted dir place ⟨files,createResolved resolve dir policy files⟩ := by
  have hrecords := recordsAt_recordable place files
  rw [createResolved_eq h]
  refine ⟨rfl,fun record hr => (hrecords record hr).1,rfl,?_⟩
  dsimp only
  rw [List.map_congr_left fun record hr => (hrecords record hr).2,List.map_id']

/-- A call that marks a record and writes the ledger anew. -/
theorem Persisted.mark (h : Persisted dir place world) {resolve : Resolution}
    (hplace : KeepsPlace dir place resolve) {faults : RewriteFaults}
    (hrewrites : Rewrites faults world.executor.ledger.length) (recordId : ℕ)
    (mark : QuarantineRecord → QuarantineRecord) (hid : ∀ record, (mark record).id=record.id)
    (hmark : ∀ record, Recordable record → Recordable (mark record)) (files : Files) :
    Persisted dir place (markRecord resolve faults mark recordId world.executor files) := by
  have hrecords : ∀ record ∈ updateRecord recordId mark world.executor.ledger,
      Recordable record := by
    intro record hr
    rcases mem_updateRecord hr with hold | ⟨old,hold,rfl⟩
    · exact h.recordable record hold
    · exact hmark old (h.recordable old hold)
  refine ⟨h.vaultDir,hrecords,?_,?_⟩
  · dsimp only [markRecord]
    rw [ids_updateRecord recordId hid,h.number]
  · rw [←length_updateRecord recordId mark] at hrewrites
    dsimp only [markRecord]
    unfold recordsAt
    rw [h.vaultDir,←hplace.ledger,hrewrites.ledger hplace.separates.temp]
    exact loadLedger_unlines hrecords

/-- A line appended to an ended ledger, or to none, is one more record. -/
theorem recordsAt_append {files : Files} {record : QuarantineRecord}
    (hended : ∀ text ∈ files place, Ended text) (hrecord : Recordable record) :
    recordsAt place (appendLedger false place record files)=
      recordsAt place files++[truncated record] := by
  have hline : (parseLine (ledgerLine record)).toList=[truncated record] := by
    rw [hrecord.parse]
    rfl
  unfold recordsAt appendLedger
  rw [if_neg Bool.false_ne_true,write_self]
  cases hf : files place with
  | none =>
    have hload := loadLedger_append (.inl rfl) hrecord.plain.line
    rw [hline] at hload
    exact hload
  | some text =>
    have hload := loadLedger_append (hended text hf) hrecord.plain.line
    rw [hline] at hload
    exact hload

/-- The record of an admitted candidate can be written to a line. -/
theorem recordFor_recordable {sha256 : HashContext σ Bytes} {faults : QuarantineFaults}
    {candidate : RemediationCandidate} {currentHash : Str} {seen : Files}
    (h : Persisted dir place world) (hdir : Plain dir) (hfinding : candidate.findingId < 2^64)
    (hnow : -2^63 ≤ faults.now ∧ faults.now < 2^63)
    (hadmission : admission sha256 faults world.executor.policy candidate seen=some currentHash) :
    Recordable (recordFor world.executor candidate currentHash faults.now) := by
  obtain ⟨hadmitted,-,hhash⟩ := admission_eq_some hadmission
  have hnumber : world.executor.nextId < 2^64 := by
    rw [h.number]
    exact nextNumber_lt _ (by decide)
  have hvault : Plain (vaultFile world.executor.vaultDir world.executor.nextId) := by
    rw [h.vaultDir]
    exact plain_vaultFile hdir _
  exact ⟨⟨hadmitted.plain,hvault,hhash⟩,⟨hnumber,hfinding,epochSeconds_range hnow⟩⟩

/-- A quarantine call keeps memory and disk in agreement. -/
theorem Persisted.quarantine (h : Persisted dir place world) (hdir : Plain dir)
    (sha256 : HashContext σ Bytes) {resolve : Resolution} (hplace : KeepsPlace dir place resolve)
    {candidate : RemediationCandidate} {faults : FailingQuarantine}
    (htyped : Typed (.quarantine candidate faults))
    (hsucceeds : Undisturbed world (.quarantine candidate faults))
    (hkeeps : KeepsLedger sha256 dir world ⟨resolve,.quarantine candidate faults⟩) :
    Persisted dir place (failingQuarantine resolve sha256 faults candidate world).1 := by
  rcases failingQuarantine_renamed sha256 candidate world hsucceeds.1 hsucceeds.2 with
    hsame | ⟨content,currentHash,hadmission,hafter⟩
  · rw [hsame]
    exact h
  · have hrecord := recordFor_recordable h hdir htyped.1 htyped.2 hadmission
    have hcase := hkeeps (by rw [hadmission]; rfl)
    rw [hafter]
    refine ⟨h.vaultDir,?_,?_,?_⟩
    · intro record hr
      rcases List.mem_append.mp hr with hr | hr
      · exact h.recordable record hr
      · rw [List.mem_singleton.mp hr]
        exact hrecord
    · dsimp only [takeNumber]
      rw [List.map_append,List.map_singleton]
      dsimp only [recordFor]
      rw [h.number,nextNumber_snoc]
    · obtain rfl := hplace.ledger
      dsimp only at hcase ⊢
      rw [h.vaultDir,List.map_append,List.map_singleton]
      have hledger : write (erase world.files (resolve candidate.targetPath))
          (resolve (vaultFile dir world.executor.nextId)) content (resolve (ledgerPath dir))=
            erase world.files (resolve candidate.targetPath) (resolve (ledgerPath dir)) :=
        write_other _ _ (hplace.separates.vault _).symm
      split at hcase
      · next htarget =>
        rw [htarget,erase_self] at hledger
        rw [htarget,recordsAt_append (by rw [hledger]; exact fun _ hn => by cases hn) hrecord,
          hcase]
        unfold recordsAt
        rw [hledger]
        rfl
      · next htarget =>
        rw [erase_other _ (Ne.symm htarget)] at hledger
        rw [recordsAt_append (by rw [hledger]; exact hcase) hrecord,←h.onDisk]
        unfold recordsAt
        rw [hledger]

/-- Every call that succeeds and keeps the ledger in place keeps memory
and disk in agreement. -/
theorem Persisted.step (h : Persisted dir place world) (hdir : Plain dir)
    (sha256 : HashContext σ Bytes) {call : Call} (hplace : KeepsPlace dir place call.resolve)
    (htyped : Typed call.request) (hsucceeds : Undisturbed world call.request)
    (hkeeps : KeepsLedger sha256 dir world call) :
    Persisted dir place (serve sha256 world call).1 := by
  obtain ⟨resolve,request⟩ := call
  cases request with
  | quarantine candidate faults => exact h.quarantine hdir sha256 hplace htyped hsucceeds hkeeps
  | restore recordId faults =>
    dsimp only [serve]
    rcases failingRestore_rewrites recordId world hsucceeds.1 with hsame | ⟨files,hafter⟩
    · rw [hsame]
      exact h
    · rw [hafter]
      exact h.mark hplace hsucceeds.2 recordId (fun r => {r with restored := true}) (fun _ => rfl)
        (fun record hr => hr.mark true record.shredded) files
  | shred recordId faults =>
    dsimp only [serve]
    rcases failingShred_rewrites faults recordId world with hsame | ⟨files,hafter⟩
    · rw [hsame]
      exact h
    · rw [hafter]
      exact h.mark hplace hsucceeds recordId (fun r => {r with shredded := true}) (fun _ => rfl)
        (fun record hr => hr.mark record.restored true) files
  | restart policy =>
    dsimp only [serve]
    rw [h.vaultDir]
    exact createResolved_persisted hplace.ledger policy world.files

end Invariant

/-- Over every sequence of quarantine, restore and shred calls, with
restarts in between, whose file operations succeed, from any files at all
and under any resolution of paths that keeps the vault's ledger at its
place: a fresh executor on the vault has the records of the running one in
their order, with times cut to whole seconds, and its next number, provided
the vault directory has no delimiter and every call keeps the ledger. -/
theorem ledger_reloads {σ : Type} (sha256 : HashContext σ Bytes) {dir place : Str}
    {policy : LocalSecurityPolicy} {resolve : Resolution} {files : Files} (hdir : Plain dir)
    (hstart : KeepsPlace dir place resolve) {events : List CallEvent} {world : World}
    (run : Run (Deterministic (serve sha256))
      ⟨files,createResolved resolve dir policy files⟩ events world)
    (hplaces : ∀ e ∈ events, KeepsPlace dir place e.label.1.resolve)
    (hcalls : ∀ e ∈ events, Typed e.label.1.request ∧ Undisturbed e.before e.label.1.request)
    (hkeeps : ∀ e ∈ events, KeepsLedger sha256 dir e.before e.label.1) :
    Reloads dir place world := by
  have hpersisted : Persisted dir place world := by
    induction run with
    | nil => exact createResolved_persisted hstart.ledger policy files
    | @snoc events s t label run hstep ih =>
      have hinit := ih (fun e he => hplaces e (List.mem_append_left _ he))
        (fun e he => hcalls e (List.mem_append_left _ he))
        fun e he => hkeeps e (List.mem_append_left _ he)
      have hlast : ⟨s,label,t⟩ ∈ events++[⟨s,label,t⟩] :=
        List.mem_append_right _ List.mem_cons_self
      obtain ⟨htyped,hsucceeds⟩ := hcalls _ hlast
      have hnext := hinit.step hdir sha256 (hplaces _ hlast) htyped hsucceeds (hkeeps _ hlast)
      have ht : (serve sha256 s label.1).1=t := congrArg Prod.fst hstep
      rw [ht] at hnext
      exact hnext
  exact hpersisted.reloads

section Fixture

/-- The line of the fixture's first record. -/
def fixtureLine : Str :=
  "1|1|/a|/v/q_1.gcadq|559aead08264d5795d3909718cdd05abd49572e84fe55590eef31a88a08fdffd|".toList++
    "1700000000|0|0\n".toList

/-- SHA-256 on the fixture's files and on the ledger of its first record. -/
def fixtureLedgerHash : HashContext Bytes Bytes where
  initial := []
  update := (·++·)
  finalize := fun bytes =>
    if bytes=fixtureLine.map fun c => UInt8.ofNat c.toNat then
      [236,140,11,69,92,15,12,151,226,210,152,146,47,79,23,37,149,111,224,25,217,235,197,196,34,
       166,252,175,177,220,245,246]
    else fixtureHash.finalize bytes

/-- A rewrite of the ledger that succeeds. -/
def fixtureRewrite : RewriteFaults := ⟨false,5000,false,false,false⟩

/-- A quarantine request whose operations succeed. -/
def fixtureRequest (path : Str) : Call :=
  ⟨id,.quarantine (fixtureCandidate path) ⟨fixtureFaults false,none⟩⟩

/-- One file is quarantined and restored, another is quarantined and
shredded. -/
def fixtureCalls : List Call :=
  [fixtureRequest "/a".toList,⟨id,.restore 1 ⟨⟨false,false,false,fixtureRewrite⟩,false,false,none⟩⟩,
    fixtureRequest "/b".toList,⟨id,.shred 2 ⟨⟨1,false,fixtureRewrite⟩,false⟩⟩]

/-- A file is quarantined, and then the ledger itself. -/
def fixtureLedgerCalls : List Call :=
  [fixtureRequest "/a".toList,fixtureRequest "/v/ledger.txt".toList]

/-- The fixture's vault keeps its ledger at one place. -/
theorem fixture_keepsPlace : KeepsPlace "/v".toList "/v/ledger.txt".toList id :=
  ⟨rfl,separates_id _⟩

/-- The fixture's clock and numbers are values of the source's types. -/
theorem fixture_typed (path : Str) : Typed (fixtureRequest path).request := by
  change 1 < 2^64 ∧ -2^63 ≤ seconds 1700000000 ∧ seconds 1700000000 < 2^63
  decide

/-- The fixture's quarantine calls succeed. -/
theorem fixture_undisturbed (path : Str) (world : World) :
    Undisturbed world (fixtureRequest path).request := ⟨rfl,rfl⟩

set_option maxRecDepth 10000 in
/-- After the fixture's calls a fresh executor has both records, the one
restored and the other shredded. -/
theorem ledger_reloads_fixture :
    (execute (serve fixtureHash) fixtureStart fixtureCalls).2.executor.ledger.map
      (fun record => (record.id,record.restored,record.shredded))=
        [(1,true,false),(2,false,true)] ∧
    Reloads "/v".toList "/v/ledger.txt".toList
      (execute (serve fixtureHash) fixtureStart fixtureCalls).2 := by
  refine ⟨by decide,ledger_reloads fixtureHash fixture_plain fixture_keepsPlace
    (execute_run (serve fixtureHash) fixtureStart fixtureCalls) ?_ ?_ ?_⟩
  · exact List.forall_mem_cons.mpr ⟨fixture_keepsPlace,List.forall_mem_cons.mpr
      ⟨fixture_keepsPlace,List.forall_mem_cons.mpr ⟨fixture_keepsPlace,
        List.forall_mem_singleton.mpr fixture_keepsPlace⟩⟩⟩
  · refine List.forall_mem_cons.mpr ⟨⟨fixture_typed _,fixture_undisturbed _ _⟩,
      List.forall_mem_cons.mpr ⟨⟨trivial,(fun _ _ => rfl),rfl,?_,rfl⟩,
        List.forall_mem_cons.mpr ⟨⟨fixture_typed _,fixture_undisturbed _ _⟩,
          List.forall_mem_singleton.mpr ⟨trivial,rfl,?_,rfl⟩⟩⟩⟩
    · decide
    · decide
  · refine List.forall_mem_cons.mpr ⟨?_,List.forall_mem_cons.mpr ⟨trivial,
      List.forall_mem_cons.mpr ⟨?_,List.forall_mem_singleton.mpr trivial⟩⟩⟩
    · intro _
      rw [if_neg (by decide)]
      decide
    · intro _
      rw [if_neg (by decide)]
      decide

set_option maxRecDepth 10000 in
/-- Quarantining the ledger itself loses the record of the first file: a
fresh executor knows only of the ledger. -/
theorem quarantined_ledger_not_reloaded :
    ¬∀ (sha256 : HashContext Bytes Bytes) (dir place : Str) (policy : LocalSecurityPolicy)
      (resolve : Resolution) (files : Files) (events : List CallEvent) (world : World),
      Plain dir → KeepsPlace dir place resolve →
      Run (Deterministic (serve sha256)) ⟨files,createResolved resolve dir policy files⟩ events
        world →
      (∀ e ∈ events, KeepsPlace dir place e.label.1.resolve) →
      (∀ e ∈ events, Typed e.label.1.request ∧ Undisturbed e.before e.label.1.request) →
      Reloads dir place world := by
  intro hall
  have hreloads := hall fixtureLedgerHash "/v".toList "/v/ledger.txt".toList
    LocalSecurityPolicy.default id fixtureFiles _ _ fixture_plain fixture_keepsPlace
    (execute_run (serve fixtureLedgerHash) fixtureStart fixtureLedgerCalls)
    (List.forall_mem_cons.mpr ⟨fixture_keepsPlace,List.forall_mem_singleton.mpr fixture_keepsPlace⟩)
    (List.forall_mem_cons.mpr ⟨⟨fixture_typed _,fixture_undisturbed _ _⟩,
      List.forall_mem_singleton.mpr ⟨fixture_typed _,fixture_undisturbed _ _⟩⟩)
    LocalSecurityPolicy.default id fixture_keepsPlace
  have hcount := congrArg (fun executor => executor.ledger.length) hreloads
  revert hcount
  decide

end Fixture

end Gcad.LedgerPersistence
