import Gcad.ResolvedVault

/-!
# What a quarantine call may say on a failing file system

Here every single operation of the three calls may fail: the queries
whether a file exists, the renames, copies and removals, and a copy that
fails on the way may leave a part of the file behind. A call is honest if
it marks a record only when the file is where the mark says, and if an
error code means that nothing has changed. Each call is honest on exactly
the inputs on which no failure is ignored; where a record names the ledger
or its temporary file, by any spelling, the rewrite that ends the call
counts too.
-/

namespace Gcad.QuarantineHonesty

open Common Observation ByteView FileStore LedgerText QuarantineVault QuarantineRun ResolvedVault

section Honesty

variable {σ : Type}

/-- The records and all files are what they were. -/
structure Unchanged (before after : World) : Prop where
  /-- The same records in memory. -/
  ledger : after.executor.ledger=before.executor.ledger
  /-- The same content at every path. -/
  files : after.files=before.files

/-- A world is unchanged from itself. -/
theorem Unchanged.refl (world : World) : Unchanged world world := ⟨rfl,rfl⟩

/-- A file that appears is a change. -/
theorem not_unchanged {before after : World} {path content : Str}
    (hbefore : before.files path=none) (hafter : after.files path=some content) :
    ¬Unchanged before after := by
  intro h
  rw [h.files,hbefore] at hafter
  cases hafter

/-- An error code of `quarantine` means that nothing has changed. -/
def QuarantineHonest (resolve : Resolution) (sha256 : HashContext σ Bytes)
    (faults : FailingQuarantine) (candidate : RemediationCandidate) (world : World) : Prop :=
  (failingQuarantine resolve sha256 faults candidate world).2.1≠.ok →
    Unchanged world (failingQuarantine resolve sha256 faults candidate world).1

/-- What `restore` says is true. -/
structure RestoreHonest (resolve : Resolution) (faults : FailingRestore) (recordId : ℕ)
    (world : World) : Prop where
  /-- A record is marked only when its content is at the original path and
  no longer in the vault. -/
  marked : ∀ record, findRecord world.executor recordId=some record → record.restored=false →
    (failingRestore resolve faults recordId world).2=.ok →
      ∃ content, world.files (resolve record.vaultPath)=some content ∧
        (failingRestore resolve faults recordId world).1.files (resolve record.originalPath)=
          some content ∧
        (failingRestore resolve faults recordId world).1.files (resolve record.vaultPath)=none
  /-- An error code means that nothing has changed. -/
  failed : (failingRestore resolve faults recordId world).2≠.ok →
    Unchanged world (failingRestore resolve faults recordId world).1

/-- What `shred` says is true. -/
structure ShredHonest (resolve : Resolution) (faults : FailingShred) (recordId : ℕ)
    (world : World) : Prop where
  /-- A record is marked only when no file is left at its vault path. -/
  marked : ∀ record, findRecord world.executor recordId=some record → record.shredded=false →
    (failingShred resolve faults recordId world).2=.ok →
      (failingShred resolve faults recordId world).1.files (resolve record.vaultPath)=none
  /-- An error code means that nothing has changed. -/
  failed : (failingShred resolve faults recordId world).2≠.ok →
    Unchanged world (failingShred resolve faults recordId world).1

end Honesty

section Conditions

variable {σ : Type}

/-- An admitted target is copied to a free vault path because the rename
fails, and the copy stays there although the call fails: the copy was torn,
or neither the target nor the copy could be removed. -/
structure QuarantineLeaves (resolve : Resolution) (sha256 : HashContext σ Bytes)
    (faults : FailingQuarantine) (candidate : RemediationCandidate) (world : World) : Prop where
  /-- The target passes every check. -/
  admitted : (admission sha256 faults.toQuarantineFaults world.executor.policy candidate
    (world.files ∘ resolve)).isSome=true
  /-- The ledger is not full. -/
  room : world.executor.ledger.length < maxLedgerRecords
  /-- The rename fails. -/
  rename : faults.rename=true
  /-- The vault path is free. -/
  free : world.files (resolve (vaultFile world.executor.vaultDir world.executor.nextId))=none
  /-- Nobody takes the copy away. -/
  left : faults.copy=true ∧ faults.part.isSome=true ∨
    faults.copy=false ∧ faults.remove=true ∧ faults.cleanup=true

/-- After the ledger is written anew there is a file at a path, where the
proposition says whether there was one before. Only the ledger and its
temporary file are concerned: the ledger is there once it is replaced, and
the temporary file stays only if neither the rename nor its removal
succeeds, or if it was not opened. -/
def Remains (faults : RewriteFaults) (tempAt ledgerAt path : Str) (before : Prop) : Prop :=
  if path=ledgerAt then
    before ∨ faults.openTemp=false ∧ (faults.rename=false ∨ faults.copy=false)
  else if path=tempAt then
    faults.openTemp=true ∧ before ∨
      faults.openTemp=false ∧ faults.rename=true ∧ faults.remove=true
  else before

/-- A content at a path is still there after the ledger is written anew. At
the ledger this needs that it is not replaced, at the temporary file that it
was not opened, unless the content is the very text of the new ledger. -/
def Survives (faults : RewriteFaults) (tempAt ledgerAt path text content : Str) : Prop :=
  if path=ledgerAt then
    faults.openTemp=true ∨ faults.rename=true ∧ faults.copy=true ∨ text=content
  else if path=tempAt then
    faults.openTemp=true ∨ faults.rename=true ∧ faults.remove=true ∧ text=content
  else True

/-- The vault file of an open record is copied to its free original path
because the rename fails, and the copy is torn. -/
def RestoreTorn (resolve : Resolution) (faults : FailingRestore) (world : World)
    (record : QuarantineRecord) : Prop :=
  world.files (resolve record.originalPath)=none ∧ faults.rename=true ∧ faults.copy=true ∧
    faults.part.isSome=true

/-- The vault file of an open record is renamed, or copied to its free
original path. -/
def RestoreMoves (resolve : Resolution) (faults : FailingRestore) (world : World)
    (record : QuarantineRecord) : Prop :=
  faults.rename=false ∨ world.files (resolve record.originalPath)=none ∧ faults.copy=false

/-- The move does not end as the mark says: the two paths name one file, a
file stays at the vault path since it could not be removed or since the
ledger is written there, or the ledger is written over the restored
content. -/
def RestoreMisplaces (resolve : Resolution) (faults : FailingRestore) (recordId : ℕ)
    (world : World) (record : QuarantineRecord) : Prop :=
  resolve record.originalPath=resolve record.vaultPath ∨
  Remains faults.rewrite (resolve (tempPath world.executor.vaultDir))
    (resolve (ledgerPath world.executor.vaultDir)) (resolve record.vaultPath)
    (faults.rename=true ∧ faults.remove=true) ∨
  ∃ content, world.files (resolve record.vaultPath)=some content ∧
    ¬Survives faults.rewrite (resolve (tempPath world.executor.vaultDir))
      (resolve (ledgerPath world.executor.vaultDir)) (resolve record.originalPath)
      (rewrittenText faults.rewrite
        (updateRecord recordId (fun r => {r with restored := true}) world.executor.ledger)) content

/-- A restore call on an open record ignores a failure. -/
structure RestoreLeaves (resolve : Resolution) (faults : FailingRestore) (recordId : ℕ)
    (world : World) (record : QuarantineRecord) : Prop where
  /-- The record is open. -/
  isOpen : record.shredded=false ∧ record.restored=false
  /-- The vault file is there and is seen. -/
  present : (world.files (resolve record.vaultPath)).isSome=true ∧ faults.vaultQuery=false
  /-- The original path is free, or the file there is not seen. -/
  free : world.files (resolve record.originalPath)=none ∨ faults.originalQuery=true
  /-- A part is left behind, or the record is marked and should not be. -/
  left : RestoreTorn resolve faults world record ∨
    RestoreMoves resolve faults world record ∧
      RestoreMisplaces resolve faults recordId world record

/-- A file stays at the vault path of an open record: it is not seen or
cannot be removed, or the ledger is written there. -/
structure ShredLeaves (resolve : Resolution) (faults : FailingShred) (world : World)
    (record : QuarantineRecord) : Prop where
  /-- The record is open. -/
  isOpen : record.shredded=false ∧ record.restored=false
  /-- What stays. -/
  left : Remains faults.rewrite (resolve (tempPath world.executor.vaultDir))
    (resolve (ledgerPath world.executor.vaultDir)) (resolve record.vaultPath)
    ((world.files (resolve record.vaultPath)).isSome=true ∧
      (faults.vaultQuery=true ∨ faults.remove=true))

end Conditions

section Rewrite

variable {faults : RewriteFaults} {tempAt ledgerAt path : Str} (ledger : List QuarantineRecord)
  {files : Files}

/-- Where a rewrite leaves a file. -/
theorem rewriteAt_isSome_iff (files : Files) (faults : RewriteFaults) (path : Str)
    (hne : ledgerAt≠tempAt) :
    (rewriteAt faults tempAt ledgerAt ledger files path).isSome=true ↔
      Remains faults tempAt ledgerAt path ((files path).isSome=true) := by
  unfold Remains
  by_cases hl : path=ledgerAt
  · rw [if_pos hl,hl,rewriteAt_ledger faults ledger files hne]
    cases faults.openTemp <;> cases faults.rename <;> cases faults.copy <;> simp
  · rw [if_neg hl]
    by_cases ht : path=tempAt
    · rw [if_pos ht,ht,rewriteAt_temp faults ledger files hne]
      cases faults.openTemp <;> cases faults.rename <;> cases faults.remove <;> simp
    · rw [if_neg ht,rewriteAt_other faults ledger files hl ht]

/-- Where a rewrite leaves a content as it was. -/
theorem rewriteAt_eq_some_iff (faults : RewriteFaults) (hne : ledgerAt≠tempAt) {content : Str}
    (hcontent : files path=some content) :
    rewriteAt faults tempAt ledgerAt ledger files path=some content ↔
      Survives faults tempAt ledgerAt path (rewrittenText faults ledger) content := by
  unfold Survives
  by_cases hl : path=ledgerAt
  · rw [hl] at hcontent
    rw [if_pos hl,hl,rewriteAt_ledger faults ledger files hne,hcontent]
    cases faults.openTemp <;> cases faults.rename <;> cases faults.copy <;> simp
  · rw [if_neg hl]
    by_cases ht : path=tempAt
    · rw [ht] at hcontent
      rw [if_pos ht,ht,rewriteAt_temp faults ledger files hne,hcontent]
      cases faults.openTemp <;> cases faults.rename <;> cases faults.remove <;> simp
    · rw [if_neg ht,rewriteAt_other faults ledger files hl ht,hcontent]
      exact iff_of_true rfl trivial

/-- Files other than the ledger's stay where they were. -/
theorem remains_other {before : Prop} (hl : path≠ledgerAt) (ht : path≠tempAt) :
    Remains faults tempAt ledgerAt path before ↔ before := by
  unfold Remains
  rw [if_neg hl,if_neg ht]

end Rewrite

section Quarantine

variable {σ : Type}

/-- A failed move into the vault changes nothing, or what it leaves behind
is left by an ignored failure. -/
theorem failingMove_failed {faults : FailingQuarantine} {target vaultPath content : Str}
    {files : Files} (hcontent : files target=some content)
    (h : (failingMove faults target vaultPath files).2=false) :
    (failingMove faults target vaultPath files).1=files ∨
      faults.rename=true ∧ files vaultPath=none ∧
        (faults.copy=true ∧ faults.part.isSome=true ∨
          faults.copy=false ∧ faults.remove=true ∧ faults.cleanup=true) := by
  unfold failingMove FileStore.rename FileStore.remove at h ⊢
  dsimp only at h ⊢
  rw [copyTorn_eq hcontent,hcontent] at h ⊢
  cases hrename : faults.rename with
  | false =>
    rw [hrename] at h
    cases h
  | true =>
    rw [hrename] at h
    simp only [if_true] at h ⊢
    cases hfree : files vaultPath with
    | some old => exact .inl rfl
    | none =>
      rw [hfree] at h
      simp only [Option.isSome_none,Bool.false_eq_true,if_false] at h ⊢
      cases hcopy : faults.copy with
      | true =>
        cases hpart : faults.part with
        | none => exact .inl rfl
        | some torn => exact .inr ⟨trivial,trivial,.inl ⟨rfl,rfl⟩⟩
      | false =>
        rw [hcopy] at h
        cases hremove : faults.remove with
        | false =>
          rw [hremove] at h
          cases h
        | true =>
          cases hcleanup : faults.cleanup with
          | true => exact .inr ⟨trivial,trivial,.inr ⟨rfl,rfl,rfl⟩⟩
          | false => exact .inl (erase_write content hfree)

/-- An ignored failure leaves a file at the vault path. -/
theorem failingMove_leaves {faults : FailingQuarantine} {target vaultPath content : Str}
    {files : Files} (hcontent : files target=some content) (hrename : faults.rename=true)
    (hfree : files vaultPath=none)
    (hleft : faults.copy=true ∧ faults.part.isSome=true ∨
      faults.copy=false ∧ faults.remove=true ∧ faults.cleanup=true) :
    (failingMove faults target vaultPath files).2=false ∧
      ∃ left, (failingMove faults target vaultPath files).1 vaultPath=some left := by
  unfold failingMove FileStore.rename FileStore.remove
  dsimp only
  rw [copyTorn_eq hcontent,hcontent,hrename,hfree]
  simp only [if_true,Option.isSome_none,Bool.false_eq_true,if_false]
  rcases hleft with ⟨hcopy,hpart⟩ | ⟨hcopy,hremove,hcleanup⟩
  · obtain ⟨torn,htorn⟩ := Option.isSome_iff_exists.mp hpart
    rw [hcopy,htorn]
    exact ⟨rfl,torn,write_self files torn⟩
  · rw [hcopy,hremove,hcleanup]
    exact ⟨rfl,content,write_self files content⟩

/-- A quarantine call is honest exactly when it leaves nothing behind. -/
theorem quarantineHonest_iff (resolve : Resolution) (sha256 : HashContext σ Bytes)
    (faults : FailingQuarantine) (candidate : RemediationCandidate) (world : World) :
    QuarantineHonest resolve sha256 faults candidate world ↔
      ¬QuarantineLeaves resolve sha256 faults candidate world := by
  unfold QuarantineHonest failingQuarantine
  cases hadmission : admission sha256 faults.toQuarantineFaults world.executor.policy candidate
    (world.files ∘ resolve) with
  | none =>
    refine ⟨fun _ hleaves => ?_,fun _ _ => Unchanged.refl world⟩
    have hsome := hleaves.admitted
    rw [hadmission] at hsome
    cases hsome
  | some currentHash =>
    obtain ⟨-,⟨content,hcontent⟩,-⟩ := admission_eq_some hadmission
    rw [Function.comp_apply] at hcontent
    dsimp only
    split
    · next hfull =>
      exact ⟨fun _ hleaves => absurd hleaves.room (Nat.not_lt.mpr hfull),
        fun _ _ => Unchanged.refl world⟩
    · next hroom =>
      cases hmoved : (failingMove faults (resolve candidate.targetPath)
        (resolve (vaultFile world.executor.vaultDir world.executor.nextId)) world.files).2 with
      | true =>
        refine ⟨fun _ hleaves => ?_,fun _ herror => absurd rfl herror⟩
        have hfailed := (failingMove_leaves hcontent hleaves.rename hleaves.free hleaves.left).1
        rw [hmoved] at hfailed
        cases hfailed
      | false =>
        simp only [Bool.false_eq_true,if_false]
        constructor
        · intro hhonest hleaves
          obtain ⟨-,left,hleft⟩ :=
            failingMove_leaves hcontent hleaves.rename hleaves.free hleaves.left
          exact not_unchanged hleaves.free hleft (hhonest (by decide))
        · intro hleaves _
          rcases failingMove_failed hcontent hmoved with hsame | ⟨hrename,hfree,hleft⟩
          · exact ⟨rfl,hsame⟩
          · exact absurd ⟨by rw [hadmission]; rfl,Nat.not_le.mp hroom,hrename,hfree,hleft⟩ hleaves

end Quarantine

section Restore

variable {resolve : Resolution} {faults : FailingRestore} {recordId : ℕ} {world : World}
  {record : QuarantineRecord}

/-- A restore call that refuses is honest. -/
theorem restoreHonest_of_refused {code : ErrorCode}
    (h : failingRestore resolve faults recordId world=(world,code)) (hcode : code≠.ok) :
    RestoreHonest resolve faults recordId world := by
  refine ⟨fun record _ _ hok => ?_,fun _ => ?_⟩
  · rw [h] at hok
    exact absurd hok hcode
  · rw [h]
    exact Unchanged.refl world

/-- A restore call on the vault file of an open record. -/
theorem failingRestore_open (hfind : findRecord world.executor recordId=some record)
    (hopen : record.shredded=false ∧ record.restored=false)
    (hfree : (!faults.originalQuery && (world.files (resolve record.originalPath)).isSome)=false)
    (hpresent : (faults.vaultQuery || (world.files (resolve record.vaultPath)).isNone)=false) :
    failingRestore resolve faults recordId world=
      let moved := failingMoveBack faults (resolve record.vaultPath)
        (resolve record.originalPath) world.files
      if moved.2 then
        (markRecord resolve faults.rewrite (fun r => {r with restored := true}) recordId
          world.executor moved.1,.ok)
      else (⟨moved.1,world.executor⟩,.errRollbackFail) := by
  unfold failingRestore
  rw [hfind]
  simp only [hopen.1,hopen.2,hfree,hpresent,Bool.false_eq_true,if_false]

/-- What the move out of the vault does: it moves the content and may keep
the vault file, or it tears, or it is refused. -/
inductive MoveBack (faults : FailingRestore) (vaultPath original content : Str) (files : Files) :
    Files×Bool → Prop
  /-- The content is at the original path. -/
  | moved {after : Files} (hmoves : faults.rename=false ∨ files original=none ∧ faults.copy=false)
      (horiginal : after original=some content)
      (hvault : original≠vaultPath →
        ((after vaultPath).isSome=true ↔ faults.rename=true ∧ faults.remove=true)) :
      MoveBack faults vaultPath original content files (after,true)
  /-- A part of the content is at the free original path. -/
  | torn {part : Str} (hfree : files original=none) (hrename : faults.rename=true)
      (hcopy : faults.copy=true) (hpart : faults.part=some part) :
      MoveBack faults vaultPath original content files (write files original part,false)
  /-- Nothing has changed. -/
  | refused (hrename : faults.rename=true)
      (hcopy : files original=none → faults.copy=true ∧ faults.part=none) :
      MoveBack faults vaultPath original content files (files,false)

/-- The move out of the vault does one of these. -/
theorem failingMoveBack_cases (faults : FailingRestore) (original : Str)
    {vaultPath content : Str} {files : Files}
    (hcontent : files vaultPath=some content) :
    MoveBack faults vaultPath original content files
      (failingMoveBack faults vaultPath original files) := by
  unfold failingMoveBack FileStore.rename
  rw [copyTorn_eq hcontent,hcontent]
  cases hrename : faults.rename with
  | false =>
    refine .moved (.inl hrename) (write_self _ content) fun hapart => ?_
    dsimp only
    rw [write_other _ _ hapart.symm,erase_self,hrename]
    simp
  | true =>
    cases hfree : files original with
    | some old => exact .refused hrename fun hnone => absurd (hfree.symm.trans hnone) (by simp)
    | none =>
      cases hcopy : faults.copy with
      | true =>
        cases hpart : faults.part with
        | none => exact .refused hrename fun _ => ⟨hcopy,hpart⟩
        | some part => exact .torn hfree hrename hcopy hpart
      | false =>
        have hapart : original≠vaultPath := by
          rintro rfl
          rw [hfree] at hcontent
          cases hcontent
        cases hremove : faults.remove with
        | true =>
          refine .moved (.inr ⟨hfree,hcopy⟩) (write_self _ content) fun _ => ?_
          simp [FileStore.remove,write_other _ _ hapart.symm,hcontent,hrename,hremove]
        | false =>
          refine .moved (.inr ⟨hfree,hcopy⟩) ?_ fun _ => ?_
          · simp [FileStore.remove,erase_other _ hapart]
          · simp [FileStore.remove,hrename,hremove]

/-- A restore call that marks the record is honest exactly when its move
ends as the mark says. -/
theorem restoreHonest_of_moved (hnames : resolve (ledgerPath world.executor.vaultDir)≠
      resolve (tempPath world.executor.vaultDir))
    (hfind : findRecord world.executor recordId=some record) (hrestored : record.restored=false)
    {content : Str} (hcontent : world.files (resolve record.vaultPath)=some content)
    {after : Files} (horiginal : after (resolve record.originalPath)=some content)
    (hvault : resolve record.originalPath≠resolve record.vaultPath →
      ((after (resolve record.vaultPath)).isSome=true ↔ faults.rename=true ∧ faults.remove=true))
    (h : failingRestore resolve faults recordId world=
      (markRecord resolve faults.rewrite (fun r => {r with restored := true}) recordId
        world.executor after,.ok)) :
    RestoreHonest resolve faults recordId world ↔
      ¬RestoreMisplaces resolve faults recordId world record := by
  have hkept := rewriteAt_eq_some_iff
    (updateRecord recordId (fun r => {r with restored := true}) world.executor.ledger)
    faults.rewrite hnames horiginal
  have hgone := rewriteAt_isSome_iff
    (updateRecord recordId (fun r => {r with restored := true}) world.executor.ledger) after
    faults.rewrite (resolve record.vaultPath) hnames
  constructor
  · intro hhonest hmisplaces
    obtain ⟨other,hother,hat,hnone⟩ := hhonest.marked record hfind hrestored (by rw [h])
    obtain rfl := Option.some.inj (hcontent.symm.trans hother)
    rw [h] at hat hnone
    dsimp only [markRecord] at hat hnone
    rcases hmisplaces with hsame | hremains | ⟨other,hother,hlost⟩
    · rw [←hsame,hat] at hnone
      cases hnone
    · have hapart : resolve record.originalPath≠resolve record.vaultPath := by
        intro hsame
        rw [hsame,hnone] at hat
        cases hat
      rw [←propext (hvault hapart),←hgone,hnone] at hremains
      exact Bool.false_ne_true hremains
    · obtain rfl := Option.some.inj (hcontent.symm.trans hother)
      exact hlost (hkept.mp hat)
  · intro hmisplaces
    unfold RestoreMisplaces at hmisplaces
    rw [not_or,not_or] at hmisplaces
    obtain ⟨hapart,hremains,hlost⟩ := hmisplaces
    refine ⟨fun other hother _ _ => ?_,fun herror => ?_⟩
    · obtain rfl := Option.some.inj (hfind.symm.trans hother)
      rw [←propext (hvault hapart),←hgone,Option.not_isSome_iff_eq_none] at hremains
      rw [h]
      refine ⟨content,hcontent,hkept.mpr ?_,hremains⟩
      by_contra hnot
      exact hlost ⟨content,hcontent,hnot⟩
    · rw [h] at herror
      exact absurd rfl herror

/-- A restore call that fails and leaves a part at the original path is not
honest. -/
theorem not_restoreHonest_of_torn {part : Str}
    (hfree : world.files (resolve record.originalPath)=none)
    (h : failingRestore resolve faults recordId world=
      (⟨write world.files (resolve record.originalPath) part,world.executor⟩,.errRollbackFail)) :
    ¬RestoreHonest resolve faults recordId world := by
  intro hhonest
  have hfailed := hhonest.failed
  rw [h] at hfailed
  exact not_unchanged hfree (write_self world.files part) (hfailed ErrorCode.noConfusion)

/-- A restore call that reaches the move is honest exactly when it ignores
no failure. -/
theorem restoreHonest_open_iff (hnames : resolve (ledgerPath world.executor.vaultDir)≠
      resolve (tempPath world.executor.vaultDir))
    (hfind : findRecord world.executor recordId=some record)
    (hopen : record.shredded=false ∧ record.restored=false)
    (hfree : (!faults.originalQuery && (world.files (resolve record.originalPath)).isSome)=false)
    (hquery : faults.vaultQuery=false) {content : Str}
    (hcontent : world.files (resolve record.vaultPath)=some content) :
    RestoreHonest resolve faults recordId world ↔
      ¬RestoreLeaves resolve faults recordId world record := by
  have hcall := failingRestore_open hfind hopen hfree (by rw [hquery,hcontent]; rfl)
  have hleaves : RestoreLeaves resolve faults recordId world record ↔
      RestoreTorn resolve faults world record ∨ RestoreMoves resolve faults world record ∧
        RestoreMisplaces resolve faults recordId world record := by
    refine ⟨RestoreLeaves.left,fun left => ⟨hopen,⟨by rw [hcontent]; rfl,hquery⟩,?_,left⟩⟩
    cases horiginal : world.files (resolve record.originalPath) with
    | none => exact .inl rfl
    | some old =>
      rw [horiginal,Option.isSome_some,Bool.and_true,Bool.not_eq_false'] at hfree
      exact .inr hfree
  rw [hleaves]
  generalize hmove : failingMoveBack faults (resolve record.vaultPath)
    (resolve record.originalPath) world.files=result at hcall
  have hcase := failingMoveBack_cases faults (resolve record.originalPath) hcontent
  rw [hmove] at hcase
  cases hcase with
  | moved hmoves horiginal hvault =>
    rw [restoreHonest_of_moved hnames hfind hopen.2 hcontent horiginal hvault hcall]
    have hwhole : ¬RestoreTorn resolve faults world record := by
      rintro ⟨-,hrename,hcopy,-⟩
      rcases hmoves with hsucceeds | ⟨-,hsucceeds⟩
      · exact Bool.false_ne_true (hsucceeds.symm.trans hrename)
      · exact Bool.false_ne_true (hsucceeds.symm.trans hcopy)
    refine not_congr ⟨fun hmisplaces => .inr ⟨hmoves,hmisplaces⟩,fun hleft => ?_⟩
    exact (hleft.resolve_left hwhole).2
  | torn hnone hrename hcopy hpart =>
    exact iff_of_false (not_restoreHonest_of_torn hnone hcall)
      (not_not.mpr (.inl ⟨hnone,hrename,hcopy,by rw [hpart]; rfl⟩))
  | refused hrename hcopy =>
    refine iff_of_true (restoreHonest_of_refused hcall ErrorCode.noConfusion) ?_
    rintro (⟨hnone,-,-,hpart⟩ | ⟨hsucceeds | ⟨hnone,hsucceeds⟩,-⟩)
    · rw [(hcopy hnone).2] at hpart
      exact Bool.false_ne_true hpart
    · exact Bool.false_ne_true (hsucceeds.symm.trans hrename)
    · exact Bool.false_ne_true (hsucceeds.symm.trans (hcopy hnone).1)

/-- A restore call is honest exactly when it ignores no failure. -/
theorem restoreHonest_iff (hnames : resolve (ledgerPath world.executor.vaultDir)≠
      resolve (tempPath world.executor.vaultDir))
    (hfind : findRecord world.executor recordId=some record) :
    RestoreHonest resolve faults recordId world ↔
      ¬RestoreLeaves resolve faults recordId world record := by
  by_cases hshredded : record.shredded=true
  · have hcall : failingRestore resolve faults recordId world=(world,.errRollbackFail) := by
      rw [failingRestore,hfind]
      simp only [hshredded,if_true]
    refine iff_of_true (restoreHonest_of_refused hcall ErrorCode.noConfusion) fun hleaves => ?_
    exact Bool.false_ne_true (hleaves.isOpen.1.symm.trans hshredded)
  rw [Bool.not_eq_true] at hshredded
  by_cases hrestored : record.restored=true
  · have hcall : failingRestore resolve faults recordId world=(world,.ok) := by
      rw [failingRestore,hfind]
      simp only [hshredded,hrestored,Bool.false_eq_true,if_false,if_true]
    refine iff_of_true ⟨fun other hother hnot => ?_,fun herror => ?_⟩ fun hleaves => ?_
    · obtain rfl := Option.some.inj (hfind.symm.trans hother)
      exact absurd (hnot.symm.trans hrestored) Bool.false_ne_true
    · rw [hcall] at herror
      exact absurd rfl herror
    · exact Bool.false_ne_true (hleaves.isOpen.2.symm.trans hrestored)
  rw [Bool.not_eq_true] at hrestored
  by_cases hoccupied :
      (!faults.originalQuery && (world.files (resolve record.originalPath)).isSome)=true
  · have hcall : failingRestore resolve faults recordId world=(world,.errRollbackFail) := by
      rw [failingRestore,hfind]
      simp only [hshredded,hrestored,hoccupied,Bool.false_eq_true,if_false,if_true]
    refine iff_of_true (restoreHonest_of_refused hcall ErrorCode.noConfusion) fun hleaves => ?_
    rw [Bool.and_eq_true,Bool.not_eq_true'] at hoccupied
    rcases hleaves.free with hnone | hunseen
    · rw [hnone] at hoccupied
      exact Bool.false_ne_true hoccupied.2
    · exact Bool.false_ne_true (hoccupied.1.symm.trans hunseen)
  rw [Bool.not_eq_true] at hoccupied
  by_cases hmissing : (faults.vaultQuery || (world.files (resolve record.vaultPath)).isNone)=true
  · have hcall : failingRestore resolve faults recordId world=(world,.errRollbackFail) := by
      rw [failingRestore,hfind]
      simp only [hshredded,hrestored,hoccupied,hmissing,Bool.false_eq_true,if_false,if_true]
    refine iff_of_true (restoreHonest_of_refused hcall ErrorCode.noConfusion) fun hleaves => ?_
    obtain ⟨hsome,hquery⟩ := hleaves.present
    rw [hquery,Bool.false_or,Option.isNone_iff_eq_none] at hmissing
    rw [hmissing] at hsome
    exact Bool.false_ne_true hsome
  rw [Bool.not_eq_true,Bool.or_eq_false_iff] at hmissing
  obtain ⟨hquery,hpresent⟩ := hmissing
  cases hcontent : world.files (resolve record.vaultPath) with
  | none =>
    rw [hcontent] at hpresent
    cases hpresent
  | some content =>
    exact restoreHonest_open_iff hnames hfind ⟨hshredded,hrestored⟩ hoccupied hquery hcontent

end Restore

section Shred

variable {resolve : Resolution} {faults : FailingShred} {recordId : ℕ} {world : World}
  {record : QuarantineRecord}

/-- What is left at a vault path before the ledger is written anew. -/
theorem destroyed_isSome_iff (vaultPath : Str) (files : Files) :
    ((if faults.vaultQuery then files else destroy faults.toShredFaults vaultPath files)
      vaultPath).isSome=true ↔
        (files vaultPath).isSome=true ∧ (faults.vaultQuery=true ∨ faults.remove=true) := by
  unfold destroy FileStore.remove
  cases hcontent : files vaultPath with
  | none => cases faults.vaultQuery <;> simp [hcontent]
  | some content =>
    cases faults.vaultQuery with
    | true => simp [hcontent]
    | false => cases faults.remove <;> simp

/-- What is left at the vault path of an open record. -/
theorem failingShred_open (hnames : resolve (ledgerPath world.executor.vaultDir)≠
      resolve (tempPath world.executor.vaultDir))
    (hfind : findRecord world.executor recordId=some record)
    (hopen : record.shredded=false ∧ record.restored=false) :
    (failingShred resolve faults recordId world).2=.ok ∧
      (((failingShred resolve faults recordId world).1.files
        (resolve record.vaultPath)).isSome=true ↔ ShredLeaves resolve faults world record) := by
  have hleaves : ShredLeaves resolve faults world record ↔
      Remains faults.rewrite (resolve (tempPath world.executor.vaultDir))
        (resolve (ledgerPath world.executor.vaultDir)) (resolve record.vaultPath)
        ((world.files (resolve record.vaultPath)).isSome=true ∧
          (faults.vaultQuery=true ∨ faults.remove=true)) :=
    ⟨ShredLeaves.left,fun left => ⟨hopen,left⟩⟩
  unfold failingShred
  rw [hfind]
  simp only [hopen.1,hopen.2,Bool.false_eq_true,if_false,markRecord]
  refine ⟨trivial,?_⟩
  rw [rewriteAt_isSome_iff _ _ _ _ hnames,propext (destroyed_isSome_iff _ _),hleaves]

/-- A shred call is honest exactly when nothing stays at the vault path of
an open record. -/
theorem shredHonest_iff (hnames : resolve (ledgerPath world.executor.vaultDir)≠
      resolve (tempPath world.executor.vaultDir))
    (hfind : findRecord world.executor recordId=some record) :
    ShredHonest resolve faults recordId world ↔ ¬ShredLeaves resolve faults world record := by
  by_cases hopen : record.shredded=false ∧ record.restored=false
  · obtain ⟨hok,hgone⟩ := @failingShred_open resolve faults _ _ _ hnames hfind hopen
    rw [←hgone,Option.not_isSome_iff_eq_none]
    constructor
    · exact fun hhonest => hhonest.marked record hfind hopen.1 hok
    · intro hnone
      refine ⟨fun other hother _ _ => ?_,fun herror => absurd hok herror⟩
      obtain rfl := Option.some.inj (hfind.symm.trans hother)
      exact hnone
  · have hsame : (failingShred resolve faults recordId world).1=world ∧
        (record.shredded=false → (failingShred resolve faults recordId world).2≠.ok) := by
      unfold failingShred
      rw [hfind]
      cases hshredded : record.shredded with
      | true => simp only [hshredded,if_true,Bool.true_eq_false,false_implies,and_self]
      | false =>
        cases hrestored : record.restored with
        | true => simp [hshredded,hrestored]
        | false => exact absurd ⟨hshredded,hrestored⟩ hopen
    refine ⟨fun _ hleaves => hopen hleaves.isOpen,fun _ => ⟨fun other hother hnot hok => ?_,
      fun _ => ?_⟩⟩
    · obtain rfl := Option.some.inj (hfind.symm.trans hother)
      exact absurd hok (hsame.2 hnot)
    · rw [hsame.1]
      exact Unchanged.refl world

end Shred

/-- In every state of the executor and of the files, under every resolution
of paths that tells the ledger from its temporary file and for every
combination of failures: a quarantine, restore or shred call is honest
exactly when it ignores no failure, whatever files the records name. -/
theorem quarantine_outcomes_honest_iff {σ : Type} (sha256 : HashContext σ Bytes) (world : World)
    {resolve : Resolution} (hnames : resolve (ledgerPath world.executor.vaultDir)≠
      resolve (tempPath world.executor.vaultDir)) :
    (∀ faults candidate, QuarantineHonest resolve sha256 faults candidate world ↔
      ¬QuarantineLeaves resolve sha256 faults candidate world) ∧
    (∀ faults recordId, RestoreHonest resolve faults recordId world ↔
      ∀ record, findRecord world.executor recordId=some record →
        ¬RestoreLeaves resolve faults recordId world record) ∧
    (∀ faults recordId, ShredHonest resolve faults recordId world ↔
      ∀ record, findRecord world.executor recordId=some record →
        ¬ShredLeaves resolve faults world record) := by
  refine ⟨fun faults candidate => quarantineHonest_iff resolve sha256 faults candidate world,?_,?_⟩
  · intro faults recordId
    cases hfind : findRecord world.executor recordId with
    | none =>
      have hcall : failingRestore resolve faults recordId world=(world,.errNotFound) := by
        rw [failingRestore,hfind]
      exact ⟨fun _ record hnone => absurd hnone (Option.some_ne_none record).symm,
        fun _ => restoreHonest_of_refused hcall ErrorCode.noConfusion⟩
    | some record =>
      rw [restoreHonest_iff hnames hfind]
      refine ⟨fun hnot other hother => ?_,fun hall => hall record rfl⟩
      obtain rfl := Option.some.inj hother
      exact hnot
  · intro faults recordId
    cases hfind : findRecord world.executor recordId with
    | none =>
      have hcall : failingShred resolve faults recordId world=(world,.errNotFound) := by
        rw [failingShred,hfind]
      refine ⟨fun _ record hnone => absurd hnone (Option.some_ne_none record).symm,fun _ =>
        ⟨fun other hother => ?_,fun _ => ?_⟩⟩
      · rw [hfind] at hother
        cases hother
      · rw [hcall]
        exact Unchanged.refl world
    | some record =>
      rw [shredHonest_iff hnames hfind]
      refine ⟨fun hnot other hother => ?_,fun hall => hall record rfl⟩
      obtain rfl := Option.some.inj hother
      exact hnot

section Fixture

/-- The record of one quarantined file. -/
def fixtureRecord : QuarantineRecord where
  id := 1
  findingId := 1
  originalPath := "/a".toList
  vaultPath := "/v/q_1.gcadq".toList
  sha256AtQuarantine :=
    "559aead08264d5795d3909718cdd05abd49572e84fe55590eef31a88a08fdffd".toList
  quarantinedAt := seconds 1700000000
  restored := false
  shredded := false

/-- A vault that holds the file. -/
def fixtureVault : World :=
  ⟨fun path => if path="/v/q_1.gcadq".toList then some ['A'] else none,
    ⟨"/v".toList,LocalSecurityPolicy.default,[fixtureRecord],2⟩⟩

/-- The ledger is rewritten without a failure. -/
def fixtureRewrite : RewriteFaults := ⟨false,5000,false,false,false⟩

/-- With every operation successful the fixture's shred call is honest. -/
theorem quarantine_outcomes_honest_fixture :
    (failingShred id ⟨⟨1,false,fixtureRewrite⟩,false⟩ 1 fixtureVault).2=.ok ∧
      ShredHonest id ⟨⟨1,false,fixtureRewrite⟩,false⟩ 1 fixtureVault := by
  refine ⟨rfl,((quarantine_outcomes_honest_iff fixtureHash fixtureVault
    (ledgerPath_ne_tempPath "/v".toList)).2.2 _ 1).mpr ?_⟩
  intro record hfind hleaves
  obtain rfl : fixtureRecord=record := Option.some.inj hfind
  obtain ⟨-,hfails⟩ := (remains_other (by decide) (by decide)).mp hleaves.left
  rcases hfails with hfails | hfails
  · cases hfails
  · cases hfails

/-- Where the removal of the vault file fails, the record is marked as
shredded and the call succeeds while the file stays in the vault; where
the rename and the removal fail, the record is marked as restored while the
file stays in the vault; and where the rename and both removals fail, a
denied quarantine call leaves a copy of the target in the vault. -/
theorem quarantine_outcomes_dishonest :
    ¬(∀ faults recordId world, ShredHonest id faults recordId world) ∧
    ¬(∀ faults recordId world, RestoreHonest id faults recordId world) ∧
    ¬(∀ (sha256 : HashContext Bytes Bytes) faults candidate world,
      QuarantineHonest id sha256 faults candidate world) := by
  refine ⟨fun hall => ?_,fun hall => ?_,fun hall => ?_⟩
  · have hgone := (hall ⟨⟨1,true,fixtureRewrite⟩,false⟩ 1 fixtureVault).marked fixtureRecord rfl
      rfl rfl
    revert hgone
    decide
  · obtain ⟨-,-,-,hgone⟩ := (hall ⟨⟨true,false,true,fixtureRewrite⟩,false,false,none⟩ 1
      fixtureVault).marked fixtureRecord rfl rfl (by decide)
    revert hgone
    decide
  · have hsame := (hall fixtureHash
      ⟨⟨false,false,true,false,true,true,false,seconds 1700000000⟩,none⟩
      (fixtureCandidate "/a".toList) fixtureStart (by decide)).files
    have hvault := congrFun hsame "/v/q_1.gcadq".toList
    revert hvault
    decide

end Fixture

end Gcad.QuarantineHonesty
