import Gcad.ByteView
import Gcad.FileStore
import Gcad.LedgerText
import Gcad.Observation

/-!
# The quarantine executor on a failing file system

`QuarantineExecutor` moves an approved target into the vault, moves it
back or destroys it, and keeps its ledger both in memory and as a text
file beside the vault files. Every call that can fail takes the
environment's decisions from a record of flags. The three calls hold one
mutex, so each call is one step. SHA-256 is given by its streaming
interface; no result here depends on what it computes.
-/

namespace Gcad.QuarantineVault

open Common Observation ByteView FileStore LedgerText

/-- The regular files of the machine, by path. A content is a string of
bytes. -/
abbrev Files := Store Str Str

/-- `MAX_QUARANTINE_BYTES`. -/
def maxQuarantineBytes : ℕ := 200*1024*1024

/-- `MAX_LEDGER_RECORDS`. -/
def maxLedgerRecords : ℕ := 5000

/-- The members of a `QuarantineExecutor`. -/
structure QuarantineExecutor where
  /-- The vault directory. -/
  vaultDir : Str
  /-- Policy given to the constructor. -/
  policy : LocalSecurityPolicy
  /-- The deque `ledger_`, oldest record first. -/
  ledger : List QuarantineRecord
  /-- The counter `next_id_`, a `uint64_t`. -/
  nextId : ℕ

/-- The executor together with the files it works on. -/
structure World where
  /-- All regular files. -/
  files : Files
  /-- The running executor. -/
  executor : QuarantineExecutor

section Paths

/-- `operator/` of `std::filesystem::path` in generic format. -/
def joinPath (dir name : Str) : Str :=
  if dir=[] ∨ dir.getLast?=some '/' then dir++name else dir++ '/'::name

/-- `ledger_path_`. -/
def ledgerPath (vaultDir : Str) : Str := joinPath vaultDir "ledger.txt".toList

/-- The temporary file of a ledger rewrite. -/
def tempPath (vaultDir : Str) : Str := ledgerPath vaultDir++".tmp".toList

/-- Name of the vault file with a number. -/
def vaultName (id : ℕ) : Str := "q_".toList++toDecimal id++".gcadq".toList

/-- Path of the vault file with a number. -/
def vaultFile (vaultDir : Str) (id : ℕ) : Str := joinPath vaultDir (vaultName id)

/-- One directory separates names as the names themselves do. -/
theorem joinPath_inj {dir a b : Str} (h : joinPath dir a=joinPath dir b) : a=b := by
  unfold joinPath at h
  split at h
  · exact List.append_cancel_left h
  · exact (List.cons.inj (List.append_cancel_left h)).2

/-- The number of a vault file is in its name. -/
theorem vaultFile_inj {dir : Str} {i j : ℕ} (h : vaultFile dir i=vaultFile dir j) : i=j := by
  have hname := joinPath_inj h
  unfold vaultName at hname
  exact toDecimal_injective (List.append_cancel_left (List.append_cancel_right hname))

/-- The temporary file lies beside the ledger. -/
theorem tempPath_eq (dir : Str) : tempPath dir=joinPath dir "ledger.txt.tmp".toList := by
  unfold tempPath ledgerPath joinPath
  split
  · rw [List.append_assoc]
    rfl
  · rw [List.append_assoc]
    rfl

/-- No vault file is the ledger. -/
theorem vaultFile_ne_ledgerPath (dir : Str) (i : ℕ) : vaultFile dir i≠ledgerPath dir := by
  intro h
  have hname : vaultName i="ledger.txt".toList := joinPath_inj h
  exact absurd (List.cons.inj hname).1 (by decide)

/-- No vault file is the temporary ledger. -/
theorem vaultFile_ne_tempPath (dir : Str) (i : ℕ) : vaultFile dir i≠tempPath dir := by
  intro h
  rw [tempPath_eq] at h
  have hname : vaultName i="ledger.txt.tmp".toList := joinPath_inj h
  exact absurd (List.cons.inj hname).1 (by decide)

/-- The ledger is not its own temporary file. -/
theorem ledgerPath_ne_tempPath (dir : Str) : ledgerPath dir≠tempPath dir := by
  intro h
  rw [tempPath_eq] at h
  have hname : "ledger.txt".toList="ledger.txt.tmp".toList := joinPath_inj h
  exact absurd hname (by decide)

/-- Vault files of a directory without delimiters have none either. -/
theorem plain_vaultFile {dir : Str} (h : Plain dir) (id : ℕ) : Plain (vaultFile dir id) := by
  have hname : Plain (vaultName id) := by
    intro c hc
    simp only [vaultName,List.mem_append] at hc
    rcases hc with (hc | hc) | hc
    · exact (hasUnsafeDelimiter_eq_false_iff "q_".toList).mp (by decide) c hc
    · exact (isDigit_plain (isDigit_of_mem_toDecimal hc)).2.2.2
    · exact (hasUnsafeDelimiter_eq_false_iff ".gcadq".toList).mp (by decide) c hc
  intro c hc
  unfold vaultFile joinPath at hc
  split at hc
  · rcases List.mem_append.mp hc with hc | hc
    · exact h c hc
    · exact hname c hc
  · rcases List.mem_append.mp hc with hc | hc
    · exact h c hc
    · rcases List.mem_cons.mp hc with rfl | hc
      · decide
      · exact hname c hc

end Paths

section Hash

variable {σ : Type}

/-- `SHA256::hex`. -/
def hex (digest : Bytes) : Str :=
  digest.flatMap fun b => [Nat.digitChar (b.toNat/16),Nat.digitChar (b.toNat%16)]

/-- The read loop of `SHA256::hash_file`, one buffer of 8192 bytes at a
time; the number of rounds is bounded by the number of bytes. -/
def hashBlocks (sha256 : HashContext σ Bytes) : ℕ → σ → Bytes → σ
  | 0,state,_ => state
  | rounds+1,state,bytes =>
    if bytes=[] then state
    else hashBlocks sha256 rounds (sha256.update state (bytes.take 8192)) (bytes.drop 8192)

/-- `SHA256::hash_file` on the content of a file that could be opened. -/
def hashFile (sha256 : HashContext σ Bytes) (content : Str) : Str :=
  let bytes : Bytes := content.map fun c => UInt8.ofNat c.toNat
  hex (sha256.finalize (hashBlocks sha256 bytes.length sha256.initial bytes))

/-- A hexadecimal text has no delimiter. -/
theorem plain_hex (digest : Bytes) : Plain (hex digest) := by
  have hdigit : ∀ n < 16, Nat.digitChar n ≠ '|' ∧ Nat.digitChar n ≠ '\n' := by decide
  intro c hc
  obtain ⟨b,-,hb⟩ := List.mem_flatMap.mp hc
  have hlt := b.toNat_lt
  simp only [List.mem_cons,List.not_mem_nil,or_false] at hb
  rcases hb with rfl | rfl
  · exact hdigit _ (by omega)
  · exact hdigit _ (by omega)

end Hash

section Calls

variable {σ : Type}

/-- What the environment decides during one quarantine call. -/
structure QuarantineFaults where
  /-- The target is a symbolic link or no regular file, or a query failed. -/
  probe : Bool
  /-- The target could not be opened for hashing. -/
  hash : Bool
  /-- The rename into the vault fails. -/
  rename : Bool
  /-- The copy into the vault fails. -/
  copy : Bool
  /-- The removal of the copied target fails. -/
  remove : Bool
  /-- The removal of the copy fails. -/
  cleanup : Bool
  /-- The ledger line is not appended. -/
  append : Bool
  /-- The clock. -/
  now : TimePoint

/-- What the environment decides during one rewrite of the ledger. -/
structure RewriteFaults where
  /-- The temporary file cannot be opened. -/
  openTemp : Bool
  /-- Number of lines written before a write fails. -/
  written : ℕ
  /-- The rename over the ledger fails. -/
  rename : Bool
  /-- The copy over the ledger fails. -/
  copy : Bool
  /-- The removal of the temporary file fails. -/
  remove : Bool

/-- What the environment decides during one restore call. -/
structure RestoreFaults where
  /-- The rename out of the vault fails. -/
  rename : Bool
  /-- The copy out of the vault fails. -/
  copy : Bool
  /-- The removal of the copied vault file fails. -/
  remove : Bool
  /-- Decisions of the ledger rewrite. -/
  rewrite : RewriteFaults

/-- What the environment decides during one shred call. -/
structure ShredFaults where
  /-- Number of bytes overwritten before a write fails. -/
  zeroed : ℕ
  /-- The removal of the vault file fails. -/
  remove : Bool
  /-- Decisions of the ledger rewrite. -/
  rewrite : RewriteFaults

/-- The constructor loads the ledger if it is there. -/
def create (vaultDir : Str) (policy : LocalSecurityPolicy) (files : Files) : QuarantineExecutor :=
  match files (ledgerPath vaultDir) with
  | none => ⟨vaultDir,policy,[],1⟩
  | some text => ⟨vaultDir,policy,(loadLedger text).1,(loadLedger text).2⟩

/-- `append_ledger_locked`. -/
def appendLedger (fails : Bool) (path : Str) (record : QuarantineRecord) (files : Files) : Files :=
  if fails then files
  else write files path ((files path).getD []++(ledgerLine record++['\n']))

/-- `rewrite_ledger_locked` on the two files that its paths name: the lines
go to the temporary file, which then replaces the ledger by a rename or else
by a copy. -/
def rewriteAt (faults : RewriteFaults) (tempAt ledgerAt : Str) (ledger : List QuarantineRecord)
    (files : Files) : Files :=
  if faults.openTemp then files
  else
    let written := write files tempAt (unlines ((ledger.take faults.written).map ledgerLine))
    match FileStore.rename faults.rename tempAt ledgerAt written with
    | some renamed => renamed
    | none =>
      let copied := (copyOver faults.copy tempAt ledgerAt written).getD written
      (FileStore.remove faults.remove tempAt copied).getD copied

/-- `rewrite_ledger_locked` where each path text names a file of its own. -/
def rewriteLedger (faults : RewriteFaults) (vaultDir : Str) (ledger : List QuarantineRecord)
    (files : Files) : Files :=
  rewriteAt faults (tempPath vaultDir) (ledgerPath vaultDir) ledger files

/-- The checks of `quarantine` before it takes the lock. The answer is the
current hash of an admitted target. -/
def admission (sha256 : HashContext σ Bytes) (faults : QuarantineFaults) (policy : LocalSecurityPolicy)
    (candidate : RemediationCandidate) (files : Files) : Option Str :=
  if candidate.approvalState≠.approved then none
  else if candidate.targetPath=[] then none
  else if hasUnsafeDelimiter candidate.targetPath then none
  else if isProtectedPath candidate.targetPath policy then none
  else match files candidate.targetPath with
  | none => none
  | some content =>
    if faults.probe || decide (content.length=0) || decide (maxQuarantineBytes < content.length) then
      none
    else
      let currentHash := if faults.hash then [] else hashFile sha256 content
      if currentHash=[] then none
      else if candidate.expectedSha256≠[] ∧ currentHash≠candidate.expectedSha256 then none
      else some currentHash

/-- The move into the vault: a rename, or a copy and a removal with the
copy undone when the removal fails. The flag tells whether it succeeded. -/
def moveToVault (faults : QuarantineFaults) (target vaultPath : Str) (files : Files) : Files×Bool :=
  match FileStore.rename faults.rename target vaultPath files with
  | some moved => (moved,true)
  | none =>
    match copyNew faults.copy target vaultPath files with
    | none => (files,false)
    | some copied =>
      match FileStore.remove faults.remove target copied with
      | some moved => (moved,true)
      | none => ((FileStore.remove faults.cleanup vaultPath copied).getD copied,false)

/-- The record of a completed move. -/
def recordFor (executor : QuarantineExecutor) (candidate : RemediationCandidate)
    (currentHash : Str) (now : TimePoint) : QuarantineRecord where
  id := executor.nextId
  findingId := candidate.findingId
  originalPath := candidate.targetPath
  vaultPath := vaultFile executor.vaultDir executor.nextId
  sha256AtQuarantine := currentHash
  quarantinedAt := now
  restored := false
  shredded := false

/-- The executor after it has taken a number. -/
def takeNumber (executor : QuarantineExecutor) : QuarantineExecutor :=
  {executor with nextId := (executor.nextId+1)%2^64}

/-- `QuarantineExecutor::quarantine`, with the record it hands out. -/
def quarantine (sha256 : HashContext σ Bytes) (faults : QuarantineFaults)
    (candidate : RemediationCandidate) (world : World) :
    World×ErrorCode×Option QuarantineRecord :=
  match admission sha256 faults world.executor.policy candidate world.files with
  | none => (world,.errQuarantineDenied,none)
  | some currentHash =>
    if maxLedgerRecords ≤ world.executor.ledger.length then (world,.errQuarantineFull,none)
    else
      let numbered := takeNumber world.executor
      let moved := moveToVault faults candidate.targetPath
        (vaultFile world.executor.vaultDir world.executor.nextId) world.files
      if moved.2 then
        let record := recordFor world.executor candidate currentHash faults.now
        (⟨appendLedger faults.append (ledgerPath world.executor.vaultDir) record moved.1,
          {numbered with ledger := world.executor.ledger++[record]}⟩,.ok,some record)
      else (⟨moved.1,numbered⟩,.errQuarantineDenied,none)

/-- Change the first record with a number. -/
def updateRecord (recordId : ℕ) (change : QuarantineRecord → QuarantineRecord) :
    List QuarantineRecord → List QuarantineRecord
  | [] => []
  | record::rest =>
    if record.id=recordId then change record::rest
    else record::updateRecord recordId change rest

/-- The first record with a number. -/
def findRecord (executor : QuarantineExecutor) (recordId : ℕ) : Option QuarantineRecord :=
  executor.ledger.find? fun record => record.id==recordId

/-- The move out of the vault: a rename, or a copy and a removal whose
failure is ignored. -/
def moveBack (faults : RestoreFaults) (vaultPath original : Str) (files : Files) : Option Files :=
  match FileStore.rename faults.rename vaultPath original files with
  | some moved => some moved
  | none => (copyNew faults.copy vaultPath original files).map fun copied =>
      (FileStore.remove faults.remove vaultPath copied).getD copied

/-- `QuarantineExecutor::restore`. -/
def restore (faults : RestoreFaults) (recordId : ℕ) (world : World) : World×ErrorCode :=
  match findRecord world.executor recordId with
  | none => (world,.errNotFound)
  | some record =>
    if record.shredded then (world,.errRollbackFail)
    else if record.restored then (world,.ok)
    else if (world.files record.originalPath).isSome then (world,.errRollbackFail)
    else if (world.files record.vaultPath).isNone then (world,.errRollbackFail)
    else match moveBack faults record.vaultPath record.originalPath world.files with
    | none => (world,.errRollbackFail)
    | some moved =>
      let ledger := updateRecord recordId (fun r => {r with restored := true}) world.executor.ledger
      (⟨rewriteLedger faults.rewrite world.executor.vaultDir ledger moved,
        {world.executor with ledger := ledger}⟩,.ok)

/-- Overwrite the first bytes of a content with zeros. -/
def zeroFill (count : ℕ) (content : Str) : Str :=
  List.replicate (min count content.length) '\x00'++content.drop count

/-- Overwrite and remove a vault file, as far as the environment lets it. -/
def destroy (faults : ShredFaults) (vaultPath : Str) (files : Files) : Files :=
  match files vaultPath with
  | none => files
  | some content =>
    let overwritten := write files vaultPath (zeroFill faults.zeroed content)
    (FileStore.remove faults.remove vaultPath overwritten).getD overwritten

/-- `QuarantineExecutor::shred`. -/
def shred (faults : ShredFaults) (recordId : ℕ) (world : World) : World×ErrorCode :=
  match findRecord world.executor recordId with
  | none => (world,.errNotFound)
  | some record =>
    if record.shredded then (world,.ok)
    else if record.restored then (world,.errNotFound)
    else
      let ledger := updateRecord recordId (fun r => {r with shredded := true}) world.executor.ledger
      (⟨rewriteLedger faults.rewrite world.executor.vaultDir ledger
          (destroy faults record.vaultPath world.files),
        {world.executor with ledger := ledger}⟩,.ok)

end Calls

section Outcomes

variable {σ : Type}

/-- What the executor has checked about a candidate when it touches the
file system. -/
structure Admitted (policy : LocalSecurityPolicy) (candidate : RemediationCandidate) : Prop where
  /-- The candidate is approved. -/
  approved : candidate.approvalState=.approved
  /-- It names a file. -/
  path : candidate.targetPath≠[]
  /-- The path has no delimiter. -/
  plain : Plain candidate.targetPath
  /-- The path is not protected under the executor's own policy. -/
  unprotected : isProtectedPath candidate.targetPath policy=false

/-- An admitted candidate has passed every check, its target exists, and
the hash can stand in a ledger line. -/
theorem admission_eq_some {sha256 : HashContext σ Bytes} {faults : QuarantineFaults}
    {policy : LocalSecurityPolicy} {candidate : RemediationCandidate} {files : Files}
    {currentHash : Str} (h : admission sha256 faults policy candidate files=some currentHash) :
    Admitted policy candidate ∧ (∃ content, files candidate.targetPath=some content) ∧
      Plain currentHash := by
  unfold admission at h
  split at h
  · cases h
  next happroved =>
  split at h
  · cases h
  next hpath =>
  split at h
  · cases h
  next hplain =>
  split at h
  · cases h
  next hprotected =>
  split at h
  · cases h
  next content hcontent =>
  split at h
  · cases h
  have hcurrent : Plain (if faults.hash then [] else hashFile sha256 content) := by
    split
    · exact fun c hc => absurd hc List.not_mem_nil
    · exact plain_hex _
  dsimp only at h
  generalize (if faults.hash then [] else hashFile sha256 content)=current at h hcurrent
  split at h
  · cases h
  split at h
  · cases h
  obtain rfl := Option.some.inj h
  refine ⟨⟨not_not.mp happroved,hpath,?_,Bool.eq_false_iff.mpr hprotected⟩,⟨content,hcontent⟩,
    hcurrent⟩
  exact (hasUnsafeDelimiter_eq_false_iff _).mp (Bool.eq_false_iff.mpr hplain)

/-- A successful move, by rename or by copy, takes the content from the
target to the vault path. -/
theorem moveToVault_eq_true {faults : QuarantineFaults} {target vaultPath : Str}
    {files moved : Files} (h : moveToVault faults target vaultPath files=(moved,true)) :
    ∃ content, files target=some content ∧
      moved=write (erase files target) vaultPath content := by
  unfold moveToVault at h
  split at h
  · next renamed hr =>
    obtain ⟨rfl,-⟩ := Prod.mk.inj h
    exact rename_eq_some hr
  · split at h
    · exact absurd (Prod.mk.inj h).2 (by decide)
    · next copied hc =>
      split at h
      · next removed hm =>
        obtain ⟨rfl,-⟩ := Prod.mk.inj h
        obtain ⟨content,hsource,hfree,rfl⟩ := copyNew_eq_some hc
        have hne : target≠vaultPath := by
          rintro rfl
          rw [hsource] at hfree
          cases hfree
        refine ⟨content,hsource,?_⟩
        rw [remove_eq_some hm,erase_write_move content hne]
      · exact absurd (Prod.mk.inj h).2 (by decide)

/-- A failed move changes nothing, or leaves a second copy at a vault path
that was free. -/
theorem moveToVault_eq_false {faults : QuarantineFaults} {target vaultPath : Str}
    {files moved : Files} (h : moveToVault faults target vaultPath files=(moved,false)) :
    moved=files ∨ ∃ content, files target=some content ∧ files vaultPath=none ∧
      moved=write files vaultPath content := by
  unfold moveToVault at h
  split at h
  · exact absurd (Prod.mk.inj h).2 (by decide)
  · split at h
    · exact .inl (Prod.mk.inj h).1.symm
    · next copied hc =>
      split at h
      · exact absurd (Prod.mk.inj h).2 (by decide)
      · obtain ⟨content,hsource,hfree,rfl⟩ := copyNew_eq_some hc
        obtain ⟨hmoved,-⟩ := Prod.mk.inj h
        cases hclean : FileStore.remove faults.cleanup vaultPath (write files vaultPath content) with
        | none =>
          rw [hclean,Option.getD_none] at hmoved
          exact .inr ⟨content,hsource,hfree,hmoved.symm⟩
        | some cleaned =>
          rw [hclean,Option.getD_some,remove_eq_some hclean,erase_write content hfree] at hmoved
          exact .inl hmoved.symm

/-- Everything one quarantine call can do. -/
inductive QuarantineOutcome (candidate : RemediationCandidate) (world : World) :
    World → ErrorCode → Option QuarantineRecord → Prop
  /-- The call ends before it takes a number. -/
  | refused {code : ErrorCode} (hcode : code≠.ok) : QuarantineOutcome candidate world world code none
  /-- A number is taken but the target stays where it is; a copy of it may
  be left behind at the free vault path. -/
  | abandoned {files : Files} (admitted : Admitted world.executor.policy candidate)
      (hfiles : files=world.files ∨ ∃ content, world.files candidate.targetPath=some content ∧
        world.files (vaultFile world.executor.vaultDir world.executor.nextId)=none ∧
        files=write world.files (vaultFile world.executor.vaultDir world.executor.nextId) content) :
      QuarantineOutcome candidate world ⟨files,takeNumber world.executor⟩ .errQuarantineDenied none
  /-- The target is moved to the vault path and recorded. -/
  | moved {content currentHash : Str} {append : Bool} {now : TimePoint}
      (admitted : Admitted world.executor.policy candidate)
      (hcontent : world.files candidate.targetPath=some content) (hhash : Plain currentHash) :
      QuarantineOutcome candidate world
        ⟨appendLedger append (ledgerPath world.executor.vaultDir)
          (recordFor world.executor candidate currentHash now)
          (write (erase world.files candidate.targetPath)
            (vaultFile world.executor.vaultDir world.executor.nextId) content),
          {takeNumber world.executor with
            ledger := world.executor.ledger++[recordFor world.executor candidate currentHash now]}⟩
        .ok (some (recordFor world.executor candidate currentHash now))

/-- A quarantine call does one of these. -/
theorem quarantine_outcome (sha256 : HashContext σ Bytes) (faults : QuarantineFaults)
    (candidate : RemediationCandidate) (world : World) :
    QuarantineOutcome candidate world (quarantine sha256 faults candidate world).1
      (quarantine sha256 faults candidate world).2.1
      (quarantine sha256 faults candidate world).2.2 := by
  have hdenied : ErrorCode.errQuarantineDenied≠.ok := by decide
  have hfull : ErrorCode.errQuarantineFull≠.ok := by decide
  unfold quarantine
  split
  · exact .refused hdenied
  · next currentHash hadmission =>
    obtain ⟨hadmitted,-,hplain⟩ := admission_eq_some hadmission
    split
    · exact .refused hfull
    · generalize hm : moveToVault faults candidate.targetPath
        (vaultFile world.executor.vaultDir world.executor.nextId) world.files=result
      obtain ⟨files,succeeded⟩ := result
      dsimp only
      cases succeeded with
      | true =>
        obtain ⟨content,hcontent,rfl⟩ := moveToVault_eq_true hm
        exact .moved hadmitted hcontent hplain
      | false => exact .abandoned hadmitted (moveToVault_eq_false hm)

/-- Removing the temporary file, successfully or not, leaves other files
alone. -/
theorem remove_getD_other (fails : Bool) {path other : Str} (files : Files) (h : other≠path) :
    ((FileStore.remove fails path files).getD files) other=files other := by
  cases hr : FileStore.remove fails path files with
  | none => rw [Option.getD_none]
  | some removed => rw [Option.getD_some,remove_eq_some hr,erase_other _ h]

/-- The text that a rewrite puts into its temporary file. -/
def rewrittenText (faults : RewriteFaults) (ledger : List QuarantineRecord) : Str :=
  unlines ((ledger.take faults.written).map ledgerLine)

section Rewrite

variable (faults : RewriteFaults) {tempAt ledgerAt path : Str} (ledger : List QuarantineRecord)
  (files : Files)

/-- A rewrite touches the ledger and its temporary file only. -/
theorem rewriteAt_other (hl : path≠ledgerAt) (ht : path≠tempAt) :
    rewriteAt faults tempAt ledgerAt ledger files path=files path := by
  unfold rewriteAt
  dsimp only
  split
  · rfl
  · generalize hw : write files tempAt (unlines ((ledger.take faults.written).map ledgerLine))=
      written
    have hwritten : written path=files path := by rw [←hw,write_other _ _ ht]
    cases hr : FileStore.rename faults.rename tempAt ledgerAt written with
    | some renamed =>
      obtain ⟨content,-,rfl⟩ := rename_eq_some hr
      dsimp only
      rw [move_other content ht hl,hwritten]
    | none =>
      dsimp only
      rw [remove_getD_other _ _ ht]
      cases hc : copyOver faults.copy tempAt ledgerAt written with
      | none => rw [Option.getD_none,hwritten]
      | some copied =>
        obtain ⟨content,-,rfl⟩ := copyOver_eq_some hc
        rw [Option.getD_some,write_other _ _ hl,hwritten]

/-- A rewrite puts its text at the ledger unless the temporary file cannot
be opened or neither the rename nor the copy succeeds. -/
theorem rewriteAt_ledger (hne : ledgerAt≠tempAt) :
    rewriteAt faults tempAt ledgerAt ledger files ledgerAt=
      if faults.openTemp || (faults.rename && faults.copy) then files ledgerAt
      else some (rewrittenText faults ledger) := by
  unfold rewriteAt rewrittenText FileStore.rename copyOver
  cases faults.openTemp with
  | true => rfl
  | false =>
    cases faults.rename with
    | false => simp
    | true =>
      cases faults.copy with
      | true => simp [remove_getD_other _ _ hne,write_other _ _ hne]
      | false => simp [remove_getD_other _ _ hne]

/-- A rewrite leaves its temporary file behind only if both the rename and
the removal fail. -/
theorem rewriteAt_temp (hne : ledgerAt≠tempAt) :
    rewriteAt faults tempAt ledgerAt ledger files tempAt=
      if faults.openTemp then files tempAt
      else if faults.rename && faults.remove then some (rewrittenText faults ledger)
      else none := by
  unfold rewriteAt rewrittenText FileStore.rename copyOver FileStore.remove
  cases faults.openTemp with
  | true => rfl
  | false =>
    cases faults.rename with
    | false => simp [write_other _ _ hne.symm]
    | true =>
      cases faults.copy with
      | true => cases faults.remove <;> simp
      | false => cases faults.remove <;> simp [write_other _ _ hne.symm]

end Rewrite

/-- A rewrite touches the ledger and its temporary file only. -/
theorem rewriteLedger_other (faults : RewriteFaults) (dir : Str) (ledger : List QuarantineRecord)
    (files : Files) {path : Str} (hl : path≠ledgerPath dir) (ht : path≠tempPath dir) :
    rewriteLedger faults dir ledger files path=files path :=
  rewriteAt_other faults ledger files hl ht

/-- A rewrite leaves the ledger as it was or replaces it by the lines of
the first records. -/
theorem rewriteLedger_ledger (faults : RewriteFaults) (dir : Str) (ledger : List QuarantineRecord)
    (files : Files) :
    rewriteLedger faults dir ledger files (ledgerPath dir)=files (ledgerPath dir) ∨
      ∃ n, rewriteLedger faults dir ledger files (ledgerPath dir)=
        some (unlines ((ledger.take n).map ledgerLine)) := by
  unfold rewriteLedger
  rw [rewriteAt_ledger faults ledger files (ledgerPath_ne_tempPath dir)]
  split
  · exact .inl rfl
  · exact .inr ⟨faults.written,rfl⟩

/-- Everything one restore call can do. -/
inductive RestoreOutcome (recordId : ℕ) (world : World) : World → ErrorCode → Prop
  /-- Nothing happens. -/
  | unchanged {code : ErrorCode} : RestoreOutcome recordId world world code
  /-- The vault file goes back to its free original path, and a second copy
  of it may stay in the vault. -/
  | moved {record : QuarantineRecord} {content : Str} {files : Files} {faults : RewriteFaults}
      (hfind : findRecord world.executor recordId=some record)
      (hshredded : record.shredded=false)
      (hfree : world.files record.originalPath=none)
      (hcontent : world.files record.vaultPath=some content)
      (hfiles : files=write (erase world.files record.vaultPath) record.originalPath content ∨
        files=write world.files record.originalPath content) :
      RestoreOutcome recordId world
        ⟨rewriteLedger faults world.executor.vaultDir
          (updateRecord recordId (fun r => {r with restored := true}) world.executor.ledger) files,
          {world.executor with
            ledger := updateRecord recordId (fun r => {r with restored := true})
              world.executor.ledger}⟩ .ok

/-- The move out of the vault needs a vault file, and its removal may fail. -/
theorem moveBack_eq_some {faults : RestoreFaults} {vaultPath original : Str} {files moved : Files}
    (h : moveBack faults vaultPath original files=some moved) :
    ∃ content, files vaultPath=some content ∧
      (moved=write (erase files vaultPath) original content ∨ moved=write files original content) := by
  unfold moveBack at h
  split at h
  · next renamed hr =>
    obtain rfl := Option.some.inj h
    obtain ⟨content,hcontent,hmoved⟩ := rename_eq_some hr
    exact ⟨content,hcontent,.inl hmoved⟩
  · obtain ⟨copied,hc,hmoved⟩ := Option.map_eq_some_iff.mp h
    obtain ⟨content,hcontent,hfree,rfl⟩ := copyNew_eq_some hc
    have hne : vaultPath≠original := by
      rintro rfl
      rw [hcontent] at hfree
      cases hfree
    refine ⟨content,hcontent,?_⟩
    cases hr : FileStore.remove faults.remove vaultPath (write files original content) with
    | none =>
      rw [hr,Option.getD_none] at hmoved
      exact .inr hmoved.symm
    | some removed =>
      rw [hr,Option.getD_some,remove_eq_some hr,erase_write_move content hne] at hmoved
      exact .inl hmoved.symm

/-- A restore call does one of these. -/
theorem restore_outcome (faults : RestoreFaults) (recordId : ℕ) (world : World) :
    RestoreOutcome recordId world (restore faults recordId world).1
      (restore faults recordId world).2 := by
  unfold restore
  split
  · exact .unchanged
  next record hfind =>
  split
  · exact .unchanged
  next hshredded =>
  split
  · exact .unchanged
  split
  · exact .unchanged
  next hfree =>
  split
  · exact .unchanged
  split
  · exact .unchanged
  next moved hmoved =>
  obtain ⟨content,hcontent,hfiles⟩ := moveBack_eq_some hmoved
  exact .moved hfind (Bool.eq_false_iff.mpr hshredded)
    (Option.not_isSome_iff_eq_none.mp hfree) hcontent hfiles

/-- Destroying a vault file leaves every other file alone. -/
theorem destroy_other (faults : ShredFaults) {vaultPath path : Str} (files : Files)
    (h : path≠vaultPath) : destroy faults vaultPath files path=files path := by
  unfold destroy
  cases files vaultPath with
  | none => rfl
  | some content =>
    dsimp only
    rw [remove_getD_other _ _ h,write_other _ _ h]

/-- Everything one shred call can do. -/
inductive ShredOutcome (recordId : ℕ) (world : World) : World → ErrorCode → Prop
  /-- Nothing happens. -/
  | unchanged {code : ErrorCode} : ShredOutcome recordId world world code
  /-- The vault file of an open record is destroyed. -/
  | destroyed {record : QuarantineRecord} {faults : ShredFaults}
      (hfind : findRecord world.executor recordId=some record)
      (hshredded : record.shredded=false) (hrestored : record.restored=false) :
      ShredOutcome recordId world
        ⟨rewriteLedger faults.rewrite world.executor.vaultDir
          (updateRecord recordId (fun r => {r with shredded := true}) world.executor.ledger)
          (destroy faults record.vaultPath world.files),
          {world.executor with
            ledger := updateRecord recordId (fun r => {r with shredded := true})
              world.executor.ledger}⟩ .ok

/-- A shred call does one of these. -/
theorem shred_outcome (faults : ShredFaults) (recordId : ℕ) (world : World) :
    ShredOutcome recordId world (shred faults recordId world).1
      (shred faults recordId world).2 := by
  unfold shred
  split
  · exact .unchanged
  next record hfind =>
  split
  · exact .unchanged
  next hshredded =>
  split
  · exact .unchanged
  next hrestored =>
  exact .destroyed hfind (Bool.eq_false_iff.mpr hshredded) (Bool.eq_false_iff.mpr hrestored)

/-- A changed ledger holds old records and the changed one. -/
theorem mem_updateRecord {recordId : ℕ} {change : QuarantineRecord → QuarantineRecord}
    {ledger : List QuarantineRecord} {record : QuarantineRecord}
    (h : record ∈ updateRecord recordId change ledger) :
    record ∈ ledger ∨ ∃ old ∈ ledger, record=change old := by
  induction ledger with
  | nil => exact absurd h List.not_mem_nil
  | cons head rest ih =>
    unfold updateRecord at h
    split at h
    · rcases List.mem_cons.mp h with rfl | h
      · exact .inr ⟨head,List.mem_cons_self,rfl⟩
      · exact .inl (List.mem_cons_of_mem _ h)
    · rcases List.mem_cons.mp h with rfl | h
      · exact .inl List.mem_cons_self
      · rcases ih h with hold | ⟨old,hold,he⟩
        · exact .inl (List.mem_cons_of_mem _ hold)
        · exact .inr ⟨old,List.mem_cons_of_mem _ hold,he⟩

/-- A found record is in the ledger and has the number. -/
theorem findRecord_eq_some {executor : QuarantineExecutor} {recordId : ℕ}
    {record : QuarantineRecord} (h : findRecord executor recordId=some record) :
    record ∈ executor.ledger ∧ record.id=recordId :=
  ⟨List.mem_of_find?_eq_some h,by simpa only [beq_iff_eq] using List.find?_some h⟩

end Outcomes

end Gcad.QuarantineVault
