import Gcad.QuarantineRun

/-!
# The executor's calls on a file system that resolves paths

A path text is only a spelling. The file system resolves it, and several
texts may resolve to one file: `/v/./ledger.txt` names the ledger of the
vault `/v`, and so may other letters or separators. Here the files are kept
under one text each, and every operation acts on what its path text resolves
to, while the records and the checks of the executor keep the texts. Every
single operation may fail, a failed copy may leave a part of the file, and a
query that fails counts as a missing file. With the identity as resolution,
successful queries and copies that leave nothing the calls are those of the
vault model.
-/

namespace Gcad.ResolvedVault

open Common Observation ByteView FileStore LedgerText QuarantineVault

/-- What the file system makes of path texts: the text under which the named
file is kept. -/
abbrev Resolution := Str → Str

/-- The names that the executor gives to files of its vault are names of
different files. -/
structure Separates (resolve : Resolution) (dir : Str) : Prop where
  /-- The ledger is not its own temporary file. -/
  temp : resolve (ledgerPath dir)≠resolve (tempPath dir)
  /-- No vault file is the ledger. -/
  vault : ∀ id, resolve (vaultFile dir id)≠resolve (ledgerPath dir)

/-- Path texts that each name a file of their own separate all names. -/
theorem separates_id (dir : Str) : Separates id dir :=
  ⟨ledgerPath_ne_tempPath dir,vaultFile_ne_ledgerPath dir⟩

section Calls

variable {σ : Type}

/-- What the environment decides during a quarantine call. -/
structure FailingQuarantine extends QuarantineFaults where
  /-- What a copy that fails on the way leaves at the vault path. -/
  part : Option Str

/-- What the environment decides during a restore call. -/
structure FailingRestore extends RestoreFaults where
  /-- The query does not see a file at the original path: it fails, or a
  directory of the path is only created afterwards. -/
  originalQuery : Bool
  /-- The query on the vault path fails, which counts as a missing file. -/
  vaultQuery : Bool
  /-- What a copy that fails on the way leaves at the original path. -/
  part : Option Str

/-- What the environment decides during a shred call. -/
structure FailingShred extends ShredFaults where
  /-- The query on the vault path fails, which counts as a missing file. -/
  vaultQuery : Bool

/-- `copy_file` to a new destination. A copy that fails although it could
begin may leave a part; the flag tells whether it succeeded. -/
def copyTorn (fails : Bool) (part : Option Str) (source target : Str) (files : Files) :
    Files×Bool :=
  match copyNew fails source target files with
  | some copied => (copied,true)
  | none =>
    if (files source).isSome && (files target).isNone then
      ((part.map fun content => write files target content).getD files,false)
    else (files,false)

/-- The move of `quarantine` into the vault. -/
def failingMove (faults : FailingQuarantine) (target vaultPath : Str) (files : Files) :
    Files×Bool :=
  match FileStore.rename faults.rename target vaultPath files with
  | some moved => (moved,true)
  | none =>
    let copied := copyTorn faults.copy faults.part target vaultPath files
    if copied.2 then
      match FileStore.remove faults.remove target copied.1 with
      | some moved => (moved,true)
      | none => ((FileStore.remove faults.cleanup vaultPath copied.1).getD copied.1,false)
    else copied

/-- `QuarantineExecutor::quarantine`. The checks look at the file that the
target's text resolves to. -/
def failingQuarantine (resolve : Resolution) (sha256 : HashContext σ Bytes)
    (faults : FailingQuarantine) (candidate : RemediationCandidate) (world : World) :
    World×ErrorCode×Option QuarantineRecord :=
  match admission sha256 faults.toQuarantineFaults world.executor.policy candidate
    (world.files ∘ resolve) with
  | none => (world,.errQuarantineDenied,none)
  | some currentHash =>
    if maxLedgerRecords ≤ world.executor.ledger.length then (world,.errQuarantineFull,none)
    else
      let numbered := takeNumber world.executor
      let moved := failingMove faults (resolve candidate.targetPath)
        (resolve (vaultFile world.executor.vaultDir world.executor.nextId)) world.files
      if moved.2 then
        let record := recordFor world.executor candidate currentHash faults.now
        (⟨appendLedger faults.append (resolve (ledgerPath world.executor.vaultDir)) record moved.1,
          {numbered with ledger := world.executor.ledger++[record]}⟩,.ok,some record)
      else (⟨moved.1,numbered⟩,.errQuarantineDenied,none)

/-- The move of `restore` out of the vault. -/
def failingMoveBack (faults : FailingRestore) (vaultPath original : Str) (files : Files) :
    Files×Bool :=
  match FileStore.rename faults.rename vaultPath original files with
  | some moved => (moved,true)
  | none =>
    let copied := copyTorn faults.copy faults.part vaultPath original files
    if copied.2 then ((FileStore.remove faults.remove vaultPath copied.1).getD copied.1,true)
    else copied

/-- The end of `restore` and `shred`: the record is marked and the ledger
is written anew. -/
def markRecord (resolve : Resolution) (faults : RewriteFaults)
    (mark : QuarantineRecord → QuarantineRecord) (recordId : ℕ) (executor : QuarantineExecutor)
    (files : Files) : World :=
  let ledger := updateRecord recordId mark executor.ledger
  ⟨rewriteAt faults (resolve (tempPath executor.vaultDir)) (resolve (ledgerPath executor.vaultDir))
    ledger files,{executor with ledger := ledger}⟩

/-- `QuarantineExecutor::restore`. -/
def failingRestore (resolve : Resolution) (faults : FailingRestore) (recordId : ℕ)
    (world : World) : World×ErrorCode :=
  match findRecord world.executor recordId with
  | none => (world,.errNotFound)
  | some record =>
    if record.shredded then (world,.errRollbackFail)
    else if record.restored then (world,.ok)
    else if !faults.originalQuery && (world.files (resolve record.originalPath)).isSome then
      (world,.errRollbackFail)
    else if faults.vaultQuery || (world.files (resolve record.vaultPath)).isNone then
      (world,.errRollbackFail)
    else
      let moved := failingMoveBack faults (resolve record.vaultPath) (resolve record.originalPath)
        world.files
      if moved.2 then
        (markRecord resolve faults.rewrite (fun r => {r with restored := true}) recordId
          world.executor moved.1,.ok)
      else (⟨moved.1,world.executor⟩,.errRollbackFail)

/-- `QuarantineExecutor::shred`. -/
def failingShred (resolve : Resolution) (faults : FailingShred) (recordId : ℕ) (world : World) :
    World×ErrorCode :=
  match findRecord world.executor recordId with
  | none => (world,.errNotFound)
  | some record =>
    if record.shredded then (world,.ok)
    else if record.restored then (world,.errNotFound)
    else
      let destroyed := if faults.vaultQuery then world.files
        else destroy faults.toShredFaults (resolve record.vaultPath) world.files
      (markRecord resolve faults.rewrite (fun r => {r with shredded := true}) recordId
        world.executor destroyed,.ok)

/-- The constructor loads the ledger that its path resolves to. -/
def createResolved (resolve : Resolution) (vaultDir : Str) (policy : LocalSecurityPolicy)
    (files : Files) : QuarantineExecutor :=
  create vaultDir policy (files ∘ resolve)

end Calls

section Refinement

variable {σ : Type}

/-- A failed copy that leaves nothing is the copy that has no effect. -/
theorem copyTorn_none (fails : Bool) (source target : Str) (files : Files) :
    copyTorn fails none source target files=
      match copyNew fails source target files with
      | some copied => (copied,true)
      | none => (files,false) := by
  unfold copyTorn
  split
  · rfl
  · split
    · rfl
    · rfl

/-- Without torn copies a quarantine call is the one of the vault model. -/
theorem failingQuarantine_eq (sha256 : HashContext σ Bytes) (faults : QuarantineFaults)
    (candidate : RemediationCandidate) (world : World) :
    failingQuarantine id sha256 ⟨faults,none⟩ candidate world=
      quarantine sha256 faults candidate world := by
  have hmove : ∀ target vaultPath files, failingMove ⟨faults,none⟩ target vaultPath files=
      moveToVault faults target vaultPath files := by
    intro target vaultPath files
    unfold failingMove moveToVault
    dsimp only
    rw [copyTorn_none]
    cases copyNew faults.copy target vaultPath files with
    | none => rfl
    | some copied => rfl
  unfold failingQuarantine quarantine
  dsimp only [Function.comp_id,id]
  cases admission sha256 faults world.executor.policy candidate world.files with
  | none => rfl
  | some currentHash => simp only [hmove]

/-- Without torn copies and failed queries a restore call is the one of
the vault model. -/
theorem failingRestore_eq (faults : RestoreFaults) (recordId : ℕ) (world : World) :
    failingRestore id ⟨faults,false,false,none⟩ recordId world=restore faults recordId world := by
  have hmove : ∀ vaultPath original files,
      failingMoveBack ⟨faults,false,false,none⟩ vaultPath original files=
        match moveBack faults vaultPath original files with
        | some moved => (moved,true)
        | none => (files,false) := by
    intro vaultPath original files
    unfold failingMoveBack moveBack
    dsimp only
    rw [copyTorn_none]
    cases FileStore.rename faults.rename vaultPath original files with
    | some moved => rfl
    | none =>
      cases copyNew faults.copy vaultPath original files with
      | none => rfl
      | some copied => rfl
  unfold failingRestore restore
  cases findRecord world.executor recordId with
  | none => rfl
  | some record =>
    simp only [hmove,id,Bool.not_false,Bool.true_and,Bool.false_or]
    cases moveBack faults record.vaultPath record.originalPath world.files with
    | none => rfl
    | some moved => rfl

/-- Without failed queries a shred call is the one of the vault model. -/
theorem failingShred_eq (faults : ShredFaults) (recordId : ℕ) (world : World) :
    failingShred id ⟨faults,false⟩ recordId world=shred faults recordId world := rfl

/-- So is the constructor. -/
theorem createResolved_id (vaultDir : Str) (policy : LocalSecurityPolicy) (files : Files) :
    createResolved id vaultDir policy files=create vaultDir policy files := rfl

end Refinement

section Outcomes

variable {σ : Type} {resolve : Resolution}

/-- What a copy does, by what was at the two places. -/
theorem copyTorn_eq {fails : Bool} {part : Option Str} {source target content : Str}
    {files : Files} (hsource : files source=some content) :
    copyTorn fails part source target files=
      if (files target).isSome then (files,false)
      else if fails then ((part.map fun torn => write files target torn).getD files,false)
      else (write files target content,true) := by
  unfold copyTorn copyNew
  rw [hsource]
  cases files target with
  | some old => cases fails <;> rfl
  | none => cases fails <;> rfl

/-- A quarantine call whose file operations succeed changes nothing, or
moves an admitted target into the vault and records it. -/
theorem failingQuarantine_renamed (sha256 : HashContext σ Bytes) {faults : FailingQuarantine}
    (candidate : RemediationCandidate) (world : World) (hrename : faults.rename=false)
    (happend : faults.append=false) :
    (failingQuarantine resolve sha256 faults candidate world).1=world ∨
      ∃ content currentHash,
        admission sha256 faults.toQuarantineFaults world.executor.policy candidate
          (world.files ∘ resolve)=some currentHash ∧
        (failingQuarantine resolve sha256 faults candidate world).1=
          ⟨appendLedger false (resolve (ledgerPath world.executor.vaultDir))
            (recordFor world.executor candidate currentHash faults.now)
            (write (erase world.files (resolve candidate.targetPath))
              (resolve (vaultFile world.executor.vaultDir world.executor.nextId)) content),
            {takeNumber world.executor with
              ledger := world.executor.ledger++
                [recordFor world.executor candidate currentHash faults.now]}⟩ := by
  unfold failingQuarantine
  cases hadmission : admission sha256 faults.toQuarantineFaults world.executor.policy candidate
    (world.files ∘ resolve) with
  | none => exact .inl rfl
  | some currentHash =>
    obtain ⟨-,⟨content,hcontent⟩,-⟩ := admission_eq_some hadmission
    rw [Function.comp_apply] at hcontent
    have hmove : failingMove faults (resolve candidate.targetPath)
        (resolve (vaultFile world.executor.vaultDir world.executor.nextId)) world.files=
        (write (erase world.files (resolve candidate.targetPath))
          (resolve (vaultFile world.executor.vaultDir world.executor.nextId)) content,true) := by
      unfold failingMove FileStore.rename
      rw [hrename,hcontent]
      rfl
    dsimp only
    rw [hmove,happend]
    split
    · exact .inl rfl
    · exact .inr ⟨content,currentHash,rfl,rfl⟩

/-- A failed move out of the vault whose copy leaves nothing changes
nothing. -/
theorem failingMoveBack_failed {faults : FailingRestore} {vaultPath original : Str} {files : Files}
    (hwhole : faults.rename=true → faults.copy=true → faults.part=none)
    (h : (failingMoveBack faults vaultPath original files).2=false) :
    (failingMoveBack faults vaultPath original files).1=files := by
  unfold failingMoveBack FileStore.rename at h ⊢
  cases hcontent : files vaultPath with
  | none =>
    have hcopy : copyTorn faults.copy faults.part vaultPath original files=(files,false) := by
      unfold copyTorn copyNew
      rw [hcontent]
      cases faults.copy || (files original).isSome <;> rfl
    cases faults.rename <;> simp [hcopy]
  | some content =>
    rw [copyTorn_eq hcontent,hcontent] at h
    rw [copyTorn_eq hcontent]
    cases hrename : faults.rename with
    | false =>
      rw [hrename] at h
      cases h
    | true =>
      cases hfree : files original with
      | some old => rfl
      | none =>
        cases hcopy : faults.copy with
        | true =>
          rw [hwhole hrename hcopy]
          rfl
        | false =>
          rw [hrename,hfree,hcopy] at h
          cases h

/-- A restore call whose copy leaves nothing changes nothing, or ends by
marking the record and writing the ledger anew. -/
theorem failingRestore_rewrites {faults : FailingRestore} (recordId : ℕ) (world : World)
    (hwhole : faults.rename=true → faults.copy=true → faults.part=none) :
    (failingRestore resolve faults recordId world).1=world ∨
      ∃ files, (failingRestore resolve faults recordId world).1=
        markRecord resolve faults.rewrite (fun r => {r with restored := true}) recordId
          world.executor files := by
  unfold failingRestore
  split
  · exact .inl rfl
  split
  · exact .inl rfl
  split
  · exact .inl rfl
  split
  · exact .inl rfl
  split
  · exact .inl rfl
  dsimp only
  split
  · exact .inr ⟨_,rfl⟩
  · next hfailed =>
    rw [failingMoveBack_failed hwhole (Bool.eq_false_iff.mpr hfailed)]
    exact .inl rfl

/-- So does a shred call. -/
theorem failingShred_rewrites (faults : FailingShred) (recordId : ℕ) (world : World) :
    (failingShred resolve faults recordId world).1=world ∨
      ∃ files, (failingShred resolve faults recordId world).1=
        markRecord resolve faults.rewrite (fun r => {r with shredded := true}) recordId
          world.executor files := by
  unfold failingShred
  repeat' split
  all_goals first
    | exact .inl rfl
    | exact .inr ⟨_,rfl⟩

/-- A restore call of the vault model changes nothing, or ends by marking
the record and writing the ledger anew. -/
theorem restore_rewrites (faults : RestoreFaults) (recordId : ℕ) (world : World) :
    (restore faults recordId world).1=world ∨
      ∃ files, (restore faults recordId world).1=
        ⟨rewriteLedger faults.rewrite world.executor.vaultDir
          (updateRecord recordId (fun r => {r with restored := true}) world.executor.ledger) files,
          {world.executor with
            ledger := updateRecord recordId (fun r => {r with restored := true})
              world.executor.ledger}⟩ := by
  rw [←failingRestore_eq]
  exact failingRestore_rewrites recordId world fun _ _ => rfl

/-- So does a shred call. -/
theorem shred_rewrites (faults : ShredFaults) (recordId : ℕ) (world : World) :
    (shred faults recordId world).1=world ∨
      ∃ files, (shred faults recordId world).1=
        ⟨rewriteLedger faults.rewrite world.executor.vaultDir
          (updateRecord recordId (fun r => {r with shredded := true}) world.executor.ledger) files,
          {world.executor with
            ledger := updateRecord recordId (fun r => {r with shredded := true})
              world.executor.ledger}⟩ := by
  rw [←failingShred_eq]
  exact failingShred_rewrites ⟨faults,false⟩ recordId world

end Outcomes

end Gcad.ResolvedVault
