import Gcad.LedgerPersistence

/-!
# What a loaded ledger is trusted with

The executor takes the numbers and the vault paths of its ledger as they
stand in the file. The next number is the successor of a loaded one, so the
largest 64-bit number leaves no successor, and the vault path of a loaded
record is the file that is later destroyed or moved, wherever it lies.
-/

namespace Gcad.LedgerTrust

open Common Observation ByteView FileStore StepSystem LedgerText QuarantineVault QuarantineRun
open ResolvedVault LedgerPersistence

variable {σ : Type}

/-- The requests of the executor's interface. -/
def IsCall : Action → Prop
  | .quarantine _ _ => True
  | .restore _ _ => True
  | .shred _ _ => True
  | .restart _ => False
  | .damage _ => False

/-- The numbers of the records in memory. -/
def ids (world : World) : List ℕ := world.executor.ledger.map QuarantineRecord.id

/-- The world after the executor has loaded its ledger. -/
def loaded (dir : Str) (policy : LocalSecurityPolicy) (files : Files) : World :=
  ⟨files,create dir policy files⟩

section Numbers

/-- What is promised of the numbers: the next one lies above the loaded ones,
and every record added since has a number of its own. -/
structure UniqueIds (start world : World) : Prop where
  /-- The next number after loading. -/
  above : ∀ record ∈ start.executor.ledger,record.id < start.executor.nextId
  /-- The numbers of the records added later. -/
  later : ∃ added,ids world=ids start++added ∧ added.Nodup ∧ ∀ id ∈ added,id ∉ ids start

/-- A quarantine request does not meet a counter that has wrapped around. -/
def Unwrapped (world : World) : Action → Prop
  | .quarantine _ _ => world.executor.nextId≠0
  | _ => True

/-- The invariant of the numbers. After the counter has wrapped around
nothing is said about the next one. -/
structure Numbered (start world : World) : Prop where
  /-- The records added later. -/
  later : ∃ added,ids world=ids start++added ∧ added.Nodup ∧ ∀ id ∈ added,id ∉ ids start
  /-- The next number has 64 bits. -/
  next : world.executor.nextId < 2^64
  /-- It is above all others. -/
  above : world.executor.nextId≠0 → ∀ id ∈ ids world,id < world.executor.nextId

variable {start world : World}

/-- A request that keeps the records and the counter keeps the numbers. -/
theorem Numbered.keep (h : Numbered start world) {next : World} (hids : ids next=ids world)
    (hnext : next.executor.nextId=world.executor.nextId) : Numbered start next := by
  refine ⟨?_,?_,?_⟩
  · rw [hids]
    exact h.later
  · rw [hnext]
    exact h.next
  · rw [hids,hnext]
    exact h.above

/-- A taken number is below the next one, unless that has wrapped around. -/
theorem Numbered.lt_takeNumber (h : Numbered start world) {id : ℕ}
    (hid : id ≤ world.executor.nextId) (hwrap : (takeNumber world.executor).nextId≠0) :
    id < (takeNumber world.executor).nextId := by
  have hnext := h.next
  dsimp only [takeNumber] at hwrap ⊢
  omega

/-- A quarantine request that meets an unwrapped counter keeps the numbers. -/
theorem Numbered.quarantine (h : Numbered start world) (sha256 : HashContext σ Bytes)
    (faults : QuarantineFaults) (candidate : RemediationCandidate)
    (hwrap : world.executor.nextId≠0) :
    Numbered start (QuarantineVault.quarantine sha256 faults candidate world).1 := by
  have habove := h.above hwrap
  have hlt : (takeNumber world.executor).nextId < 2^64 := Nat.mod_lt _ (by decide)
  obtain ⟨added,hids,hnodup,hfresh⟩ := h.later
  generalize (QuarantineVault.quarantine sha256 faults candidate world).1=after,
    (QuarantineVault.quarantine sha256 faults candidate world).2.1=code,
    (QuarantineVault.quarantine sha256 faults candidate world).2.2=record,
    quarantine_outcome sha256 faults candidate world=outcome
  cases outcome with
  | refused hcode => exact h
  | abandoned admitted hfiles =>
    exact ⟨h.later,hlt,fun hnext id hid => h.lt_takeNumber (habove id hid).le hnext⟩
  | @moved content currentHash append now admitted hcontent hhash =>
    have hfound : world.executor.nextId ∉ ids world := fun hin => (habove _ hin).ne rfl
    have hnew : (world.executor.ledger++[recordFor world.executor candidate currentHash now]).map
        QuarantineRecord.id=ids world++[world.executor.nextId] := List.map_append
    refine ⟨⟨added++[world.executor.nextId],hnew.trans ?_,?_,?_⟩,hlt,?_⟩
    · rw [hids,List.append_assoc]
    · rw [hids,List.mem_append,not_or] at hfound
      exact hnodup.append (List.nodup_singleton _) (List.disjoint_singleton.mpr hfound.2)
    · intro id hid
      rcases List.mem_append.mp hid with hid | hid
      · exact hfresh id hid
      · rw [List.mem_singleton.mp hid]
        rw [hids,List.mem_append,not_or] at hfound
        exact hfound.1
    · intro hnext id hid
      dsimp only [ids] at hid
      rw [hnew] at hid
      rcases List.mem_append.mp hid with hid | hid
      · exact h.lt_takeNumber (habove id hid).le hnext
      · exact h.lt_takeNumber (List.mem_singleton.mp hid).le hnext

/-- Every request that does not meet a wrapped counter keeps the numbers. -/
theorem Numbered.step (h : Numbered start world) (sha256 : HashContext σ Bytes) {action : Action}
    (hcall : IsCall action) (hwrap : Unwrapped world action) :
    Numbered start (step sha256 world action).1 := by
  cases action with
  | quarantine candidate faults => exact h.quarantine sha256 faults candidate hwrap
  | restore recordId faults =>
    dsimp only [QuarantineRun.step]
    rcases restore_rewrites faults recordId world with hsame | ⟨files,hafter⟩
    · rw [hsame]
      exact h
    · rw [hafter]
      exact h.keep (@ids_updateRecord recordId (fun r => {r with restored := true}) (fun _ => rfl)
        world.executor.ledger) rfl
  | shred recordId faults =>
    dsimp only [QuarantineRun.step]
    rcases shred_rewrites faults recordId world with hsame | ⟨files,hafter⟩
    · rw [hsame]
      exact h
    · rw [hafter]
      exact h.keep (@ids_updateRecord recordId (fun r => {r with shredded := true}) (fun _ => rfl)
        world.executor.ledger) rfl
  | restart policy => exact absurd hcall id
  | damage junk => exact absurd hcall id

variable {dir : Str} {policy : LocalSecurityPolicy} {files : Files}

/-- The next number of a loaded ledger has 64 bits. -/
theorem loaded_next_lt (dir : Str) (policy : LocalSecurityPolicy) (files : Files) :
    (loaded dir policy files).executor.nextId < 2^64 := by
  rw [loaded,create_eq]
  exact nextNumber_lt _ (by decide)

/-- The next number lies above the loaded ones where none of them is the
largest 64-bit number. -/
theorem loaded_above (h : ∀ record ∈ recordsOnDisk dir files,record.id≠2^64-1) :
    ∀ record ∈ (loaded dir policy files).executor.ledger,
      record.id < (loaded dir policy files).executor.nextId := by
  unfold recordsOnDisk recordsAt at h
  unfold loaded create
  cases hfile : files (ledgerPath dir) with
  | none => exact fun record hr => absurd hr List.not_mem_nil
  | some text =>
    rw [hfile] at h
    have hread : ∀ line ∈ text.splitOn '\n',∀ record,parseLine line=some record →
        record.id < 2^64-1 := by
      intro line hline record hparse
      have hin : record ∈ (loadLedger text).1 := by
        rw [loadLedger_records]
        exact List.mem_filterMap.mpr ⟨line,hline,hparse⟩
      have hid := (loadLedger_recordable text record hin).1.numbers.id
      have hne := h record hin
      omega
    exact (foldl_loadLine_next _ ([],1) (by decide) ⟨le_refl 1,by decide⟩ hread
      (fun record hr => absurd hr List.not_mem_nil)).2

end Numbers

/-- Over every sequence of quarantine, restore and shred calls, none of which
asks for a number after the counter has wrapped around: the next number lies
above the loaded ones and every record added later has a number of its own,
if and only if no loaded record has the largest 64-bit number. -/
theorem ledger_ids_unique_iff (sha256 : HashContext σ Bytes) {dir : Str}
    {policy : LocalSecurityPolicy} {files : Files} {events : List VaultEvent} {world : World}
    (run : Run (Deterministic (step sha256)) (loaded dir policy files) events world)
    (hcalls : ∀ e ∈ events,IsCall e.label.1) (hwrap : ∀ e ∈ events,Unwrapped e.before e.label.1) :
    UniqueIds (loaded dir policy files) world ↔
      ∀ record ∈ recordsOnDisk dir files,record.id≠2^64-1 := by
  have hledger : (loaded dir policy files).executor.ledger=recordsOnDisk dir files := by
    rw [loaded,create_eq]
  constructor
  · intro h record hr
    rw [←hledger] at hr
    have habove := h.above record hr
    have hnext := loaded_next_lt dir policy files
    omega
  · intro h
    have habove := @loaded_above dir policy files h
    have hstart : Numbered (loaded dir policy files) (loaded dir policy files) := by
      refine ⟨⟨[],(List.append_nil _).symm,List.nodup_nil,
        fun id hid => absurd hid List.not_mem_nil⟩,loaded_next_lt dir policy files,?_⟩
      intro _ id hid
      obtain ⟨record,hr,rfl⟩ := List.mem_map.mp hid
      exact habove record hr
    have hnumbered : Numbered (loaded dir policy files) world := by
      induction run with
      | nil => exact hstart
      | @snoc events s t label run hstep ih =>
        have hinit := ih (fun e he => hcalls e (List.mem_append_left _ he))
          fun e he => hwrap e (List.mem_append_left _ he)
        have hlast : ⟨s,label,t⟩ ∈ events++[⟨s,label,t⟩] :=
          List.mem_append_right _ List.mem_cons_self
        have hnext := hinit.step sha256 (hcalls _ hlast) (hwrap _ hlast)
        have ht : (step sha256 s label.1).1=t := congrArg Prod.fst hstep
        rw [ht] at hnext
        exact hnext
    exact ⟨habove,hnumbered.later⟩

section Confinement

/-- The file that a shred or a successful restore acts on. -/
def touchedBy (e : VaultEvent) : Option Str :=
  match e.label with
  | (.shred recordId _,_) => shredTarget e.before.executor recordId
  | (.restore recordId _,.ok) => shredTarget e.before.executor recordId
  | _ => none

/-- A shred or restore request leaves everything outside the vault files
alone: the file it acts on is a vault file, and every other file, the
ledger's own two aside, keeps its content. -/
structure Confined (dir : Str) (e : VaultEvent) : Prop where
  /-- The file that is overwritten, removed or moved away. -/
  target : ∀ path,touchedBy e=some path → (e.before.files path).isSome=true →
    ∃ id,path=vaultFile dir id
  /-- All other files. -/
  others : ∀ path content,e.before.files path=some content → touchedBy e≠some path →
    path≠ledgerPath dir → path≠tempPath dir → e.after.files path=some content

/-- The record that a request with a number acts on is closed or names a
vault file. -/
def Trusted (dir : Str) (executor : QuarantineExecutor) : Prop :=
  ∀ recordId record,findRecord executor recordId=some record → record.restored=false →
    record.shredded=false → ∃ id,record.vaultPath=vaultFile dir id

/-- The record found after another one has been changed. -/
theorem find_updateRecord (recordId other : ℕ) {change : QuarantineRecord → QuarantineRecord}
    (hchange : ∀ record,(change record).id=record.id) (ledger : List QuarantineRecord) :
    (updateRecord recordId change ledger).find? (fun record => record.id==other)=
      (ledger.find? fun record => record.id==other).map
        fun record => if other=recordId then change record else record := by
  induction ledger with
  | nil => rfl
  | cons head rest ih =>
    unfold updateRecord
    by_cases hhead : head.id=recordId
    · rw [if_pos hhead,List.find?_cons,List.find?_cons,hchange]
      by_cases hother : head.id=other
      · simp [hother,←hhead]
      · have hne : other≠recordId := fun heq => hother (hhead.trans heq.symm)
        simp only [beq_eq_false_iff_ne.mpr hother,hne,if_false,Option.map_id']
    · rw [if_neg hhead,List.find?_cons,List.find?_cons]
      by_cases hother : head.id=other
      · have hne : other≠recordId := fun heq => hhead (hother.trans heq)
        simp [hother,hne]
      · simp only [beq_eq_false_iff_ne.mpr hother]
        exact ih

variable {dir : Str} {executor : QuarantineExecutor}

/-- A record that has been closed needs no trust. -/
theorem Trusted.close (h : Trusted dir executor) (recordId : ℕ)
    {change : QuarantineRecord → QuarantineRecord}
    (hchange : ∀ record,(change record).id=record.id)
    (hclosed : ∀ record,(change record).restored=true ∨ (change record).shredded=true) :
    Trusted dir {executor with ledger := updateRecord recordId change executor.ledger} := by
  intro other record hfind hrestored hshredded
  unfold findRecord at hfind
  rw [find_updateRecord recordId other hchange] at hfind
  obtain ⟨old,hold,heq⟩ := Option.map_eq_some_iff.mp hfind
  split at heq
  · rcases hclosed old with hr | hs
    · rw [heq,hrestored] at hr
      cases hr
    · rw [heq,hshredded] at hs
      cases hs
  · rw [←heq] at hrestored hshredded ⊢
    exact h other old hold hrestored hshredded

/-- A record that the executor adds itself names a vault file. -/
theorem Trusted.add (h : Trusted dir executor) (hdir : executor.vaultDir=dir)
    (candidate : RemediationCandidate) (currentHash : Str) (now : TimePoint) :
    Trusted dir {takeNumber executor with
      ledger := executor.ledger++[recordFor executor candidate currentHash now]} := by
  intro recordId record hfind hrestored hshredded
  unfold findRecord at hfind
  dsimp only at hfind
  rw [List.find?_append] at hfind
  rcases Option.or_eq_some_iff.mp hfind with hold | ⟨-,hnew⟩
  · exact h recordId record hold hrestored hshredded
  · have hrecord := List.mem_singleton.mp (List.mem_of_find?_eq_some hnew)
    refine ⟨executor.nextId,?_⟩
    rw [hrecord,←hdir]
    rfl

/-- The file of an open record. -/
theorem shredTarget_eq_some {executor : QuarantineExecutor} {recordId : ℕ} {path : Str} :
    shredTarget executor recordId=some path ↔ ∃ record,findRecord executor recordId=some record ∧
      record.restored=false ∧ record.shredded=false ∧ record.vaultPath=path := by
  unfold shredTarget
  rw [Option.bind_eq_some_iff]
  refine exists_congr fun record => and_congr_right fun _ => ?_
  cases hr : record.restored <;> cases hs : record.shredded <;> simp

/-- The file of an open record is a vault file. -/
theorem Trusted.target (h : Trusted dir executor) {recordId : ℕ} {path : Str}
    (htarget : shredTarget executor recordId=some path) : ∃ id,path=vaultFile dir id := by
  obtain ⟨record,hfind,hrestored,hshredded,rfl⟩ := shredTarget_eq_some.mp htarget
  exact h recordId record hfind hrestored hshredded

variable {world : World}

/-- A shred request leaves every file but its target alone. -/
theorem shred_elsewhere (hdir : world.executor.vaultDir=dir) (faults : ShredFaults) {recordId : ℕ}
    {path content : Str} (hcontent : world.files path=some content)
    (hother : shredTarget world.executor recordId≠some path) (hledger : path≠ledgerPath dir)
    (htemp : path≠tempPath dir) :
    (QuarantineVault.shred faults recordId world).1.files path=some content := by
  have houtcome := shred_outcome faults recordId world
  generalize QuarantineVault.shred faults recordId world=result at houtcome ⊢
  obtain ⟨next,code⟩ := result
  cases houtcome with
  | unchanged => exact hcontent
  | @destroyed record faults hfind hshredded hrestored =>
    have hne : path≠record.vaultPath := by
      rintro rfl
      exact hother (shredTarget_eq_some.mpr ⟨record,hfind,hrestored,hshredded,rfl⟩)
    dsimp only
    rw [hdir,rewriteLedger_other _ _ _ _ hledger htemp,destroy_other _ _ hne,hcontent]

/-- A shred request is confined. -/
theorem Trusted.shred (h : Trusted dir world.executor) (hdir : world.executor.vaultDir=dir)
    (faults : ShredFaults) (recordId : ℕ) {e : VaultEvent} (hbefore : e.before=world)
    (hlabel : e.label.1=.shred recordId faults)
    (hafter : e.after=(QuarantineVault.shred faults recordId world).1) : Confined dir e := by
  have htouched : touchedBy e=shredTarget world.executor recordId := by
    unfold touchedBy
    rw [←hbefore]
    obtain ⟨before,⟨action,code⟩,after⟩ := e
    dsimp only at hlabel ⊢
    rw [hlabel]
  refine ⟨?_,?_⟩
  · intro path hpath _
    rw [htouched] at hpath
    exact h.target hpath
  · intro path content hcontent hother hledger htemp
    rw [hbefore] at hcontent
    rw [htouched] at hother
    rw [hafter]
    exact shred_elsewhere hdir faults hcontent hother hledger htemp

/-- A restore request for a record that is restored does nothing. -/
theorem restore_restored {faults : RestoreFaults} {recordId : ℕ} {record : QuarantineRecord}
    (hfind : findRecord world.executor recordId=some record) (hrestored : record.restored=true) :
    (QuarantineVault.restore faults recordId world).1=world := by
  unfold QuarantineVault.restore
  rw [hfind]
  dsimp only
  split
  · rfl
  · rfl

/-- A restore request leaves every file but the one it moves alone. -/
theorem restore_elsewhere (hdir : world.executor.vaultDir=dir) (faults : RestoreFaults)
    {recordId : ℕ} {path content : Str} (hcontent : world.files path=some content)
    (hother : (QuarantineVault.restore faults recordId world).2=.ok →
      shredTarget world.executor recordId≠some path)
    (hledger : path≠ledgerPath dir) (htemp : path≠tempPath dir) :
    (QuarantineVault.restore faults recordId world).1.files path=some content := by
  by_cases hdone : ∃ record,findRecord world.executor recordId=some record ∧ record.restored=true
  · obtain ⟨record,hfind,hrestored⟩ := hdone
    rw [restore_restored hfind hrestored]
    exact hcontent
  have houtcome := restore_outcome faults recordId world
  generalize QuarantineVault.restore faults recordId world=result at houtcome hother ⊢
  obtain ⟨next,code⟩ := result
  cases houtcome with
  | unchanged => exact hcontent
  | @moved record moved files faults hfind hshredded hfree hmoved hfiles =>
    have hopen : record.restored=false :=
      Bool.eq_false_iff.mpr fun hrestored => hdone ⟨record,hfind,hrestored⟩
    have hvault : path≠record.vaultPath := by
      rintro rfl
      exact hother rfl (shredTarget_eq_some.mpr ⟨record,hfind,hopen,hshredded,rfl⟩)
    have horiginal : path≠record.originalPath := by
      rintro rfl
      rw [hfree] at hcontent
      cases hcontent
    dsimp only
    rw [hdir,rewriteLedger_other _ _ _ _ hledger htemp]
    rcases hfiles with rfl | rfl
    · rw [write_other _ _ horiginal,erase_other _ hvault,hcontent]
    · rw [write_other _ _ horiginal,hcontent]

/-- A restore request is confined. -/
theorem Trusted.restore (h : Trusted dir world.executor) (hdir : world.executor.vaultDir=dir)
    (faults : RestoreFaults) (recordId : ℕ) {e : VaultEvent} (hbefore : e.before=world)
    (hlabel : e.label=(.restore recordId faults,(QuarantineVault.restore faults recordId world).2))
    (hafter : e.after=(QuarantineVault.restore faults recordId world).1) : Confined dir e := by
  refine ⟨?_,?_⟩
  · intro path hpath _
    unfold touchedBy at hpath
    rw [hlabel,hbefore] at hpath
    split at hpath
    · next heq => cases heq
    · next heq =>
      obtain ⟨haction,-⟩ := Prod.mk.inj heq
      obtain ⟨rfl,rfl⟩ := Action.restore.inj haction
      exact h.target hpath
    · cases hpath
  · intro path content hcontent hother hledger htemp
    unfold touchedBy at hother
    rw [hbefore] at hcontent hother
    rw [hafter]
    refine restore_elsewhere hdir faults hcontent (fun hok => ?_) hledger htemp
    rw [hlabel,hok] at hother
    exact hother

/-- The calls keep the vault directory and add no record that names another
file. -/
theorem Trusted.step (h : Trusted dir world.executor) (hdir : world.executor.vaultDir=dir)
    (sha256 : HashContext σ Bytes) {action : Action} (hcall : IsCall action) :
    (step sha256 world action).1.executor.vaultDir=dir ∧
      Trusted dir (step sha256 world action).1.executor := by
  cases action with
  | quarantine candidate faults =>
    dsimp only [QuarantineRun.step]
    have houtcome := quarantine_outcome sha256 faults candidate world
    generalize QuarantineVault.quarantine sha256 faults candidate world=result at houtcome ⊢
    obtain ⟨next,code,out⟩ := result
    cases houtcome with
    | refused hcode => exact ⟨hdir,h⟩
    | abandoned admitted hfiles => exact ⟨hdir,h⟩
    | moved admitted hcontent hhash => exact ⟨hdir,h.add hdir candidate _ _⟩
  | restore recordId faults =>
    dsimp only [QuarantineRun.step]
    rcases restore_rewrites faults recordId world with hsame | ⟨files,hafter⟩
    · rw [hsame]
      exact ⟨hdir,h⟩
    · rw [hafter]
      exact ⟨hdir,h.close recordId (fun _ => rfl) fun _ => .inl rfl⟩
  | shred recordId faults =>
    dsimp only [QuarantineRun.step]
    rcases shred_rewrites faults recordId world with hsame | ⟨files,hafter⟩
    · rw [hsame]
      exact ⟨hdir,h⟩
    · rw [hafter]
      exact ⟨hdir,h.close recordId (fun _ => rfl) fun _ => .inr rfl⟩
  | restart policy => exact absurd hcall id
  | damage junk => exact absurd hcall id

end Confinement

/-- A shred or restore request. -/
def IsAccess : Action → Prop
  | .restore _ _ => True
  | .shred _ _ => True
  | _ => False

/-- Over every sequence of quarantine, restore and shred calls on a loaded
ledger whose open records, as far as a request can find them, name vault
files: every shred and restore call touches vault files only. -/
theorem vault_confined (sha256 : HashContext σ Bytes) {dir : Str} {policy : LocalSecurityPolicy}
    {files : Files} {events : List VaultEvent} {world : World}
    (run : Run (Deterministic (step sha256)) (loaded dir policy files) events world)
    (hcalls : ∀ e ∈ events,IsCall e.label.1)
    (htrusted : Trusted dir (loaded dir policy files).executor) :
    ∀ e ∈ events,IsAccess e.label.1 → Confined dir e := by
  have hdir : (loaded dir policy files).executor.vaultDir=dir := by
    rw [loaded,create_eq]
  have hboth : (world.executor.vaultDir=dir ∧ Trusted dir world.executor) ∧
      ∀ e ∈ events,IsAccess e.label.1 → Confined dir e := by
    induction run with
    | nil => exact ⟨⟨hdir,htrusted⟩,fun e he => absurd he List.not_mem_nil⟩
    | @snoc events s t label run hstep ih =>
      obtain ⟨⟨hvault,hrecords⟩,hearlier⟩ := ih fun e he => hcalls e (List.mem_append_left _ he)
      have hlast : ⟨s,label,t⟩ ∈ events++[⟨s,label,t⟩] :=
        List.mem_append_right _ List.mem_cons_self
      have hafter : (step sha256 s label.1).1=t := congrArg Prod.fst hstep
      have hnext := hrecords.step hvault sha256 (hcalls _ hlast)
      dsimp only at hnext
      rw [hafter] at hnext
      refine ⟨hnext,?_⟩
      intro e he haccess
      rcases List.mem_append.mp he with he | he
      · exact hearlier e he haccess
      · obtain rfl := List.mem_singleton.mp he
        obtain ⟨action,code⟩ := label
        cases action with
        | quarantine candidate faults => exact absurd haccess id
        | restore recordId faults =>
          have hcode : (QuarantineVault.restore faults recordId s).2=code := congrArg Prod.snd hstep
          exact hrecords.restore hvault faults recordId rfl (by rw [hcode]) hafter.symm
        | shred recordId faults => exact hrecords.shred hvault faults recordId rfl rfl hafter.symm
        | restart policy => exact absurd haccess id
        | damage junk => exact absurd haccess id
  exact hboth.2

/-- A ledger file in the vault directory and a file outside. -/
def ledgerFiles (text : Str) : Files := fun path =>
  if path="/v/ledger.txt".toList then some text else fixtureFiles path

/-- The world after a ledger has been loaded. -/
def ledgerStart (text : Str) : World :=
  loaded "/v".toList LocalSecurityPolicy.default (ledgerFiles text)

/-- A request to quarantine the file outside. -/
def ledgerCalls : List Action :=
  [.quarantine (fixtureCandidate "/a".toList) (fixtureFaults false)]

set_option maxRecDepth 10000 in
/-- After a ledger with the number 7 the next record gets the number 8. -/
theorem ledger_ids_unique_fixture :
    ids (execute (step fixtureHash) (ledgerStart "7|1|/x|/v/q_7.gcadq||0|1|0\n".toList)
      ledgerCalls).2=[7,8] ∧
    UniqueIds (ledgerStart "7|1|/x|/v/q_7.gcadq||0|1|0\n".toList) (execute (step fixtureHash)
      (ledgerStart "7|1|/x|/v/q_7.gcadq||0|1|0\n".toList) ledgerCalls).2 := by
  refine ⟨by decide,(ledger_ids_unique_iff fixtureHash (execute_run (step fixtureHash)
    (ledgerStart "7|1|/x|/v/q_7.gcadq||0|1|0\n".toList) ledgerCalls) ?_ ?_).mpr (by decide)⟩
  · exact List.forall_mem_singleton.mpr trivial
  · refine List.forall_mem_singleton.mpr ?_
    unfold Unwrapped
    decide

/-- A ledger with the smallest and the largest number. -/
def wrappedLedger : Str :=
  "0|1|/x|/v/q_0.gcadq||0|0|0\n".toList++
    "18446744073709551615|1|/y|/v/q_1.gcadq||0|0|0\n".toList

set_option maxRecDepth 10000 in
/-- After it the next record gets the number zero a second time. -/
theorem ledger_id_reused :
    ¬∀ (sha256 : HashContext Bytes Bytes) (dir : Str) (policy : LocalSecurityPolicy)
      (files : Files) (events : List VaultEvent) (world : World),
      Run (Deterministic (step sha256)) (loaded dir policy files) events world →
      (∀ e ∈ events,IsCall e.label.1) → UniqueIds (loaded dir policy files) world := by
  intro hall
  have hunique := hall fixtureHash "/v".toList LocalSecurityPolicy.default
    (ledgerFiles wrappedLedger) _ _
    (execute_run (step fixtureHash) (ledgerStart wrappedLedger) ledgerCalls)
    (List.forall_mem_singleton.mpr trivial)
  obtain ⟨added,hids,-,hfresh⟩ := hunique.later
  have hbefore : ids (loaded "/v".toList LocalSecurityPolicy.default (ledgerFiles wrappedLedger))=
      [0,2^64-1] := by decide
  have hafter : ids (execute (step fixtureHash) (ledgerStart wrappedLedger) ledgerCalls).2=
      [0,2^64-1,0] := by decide
  rw [hafter,hbefore] at hids
  have hadded : [0]=added := @List.append_cancel_left _ [0,2^64-1] [0] added hids
  have hzero := hfresh 0 (by rw [←hadded]; exact List.mem_cons_self)
  rw [hbefore] at hzero
  exact hzero List.mem_cons_self

/-- The line of an open record with the number 1. -/
def openLine (vaultPath : Str) : Str := "1|1|/x|".toList++vaultPath++"||0|0|0\n".toList

/-- A request to destroy its file. -/
def shredCalls : List Action := [.shred 1 ⟨5,false,fixtureRewrite⟩]

set_option maxRecDepth 10000 in
/-- A ledger with a record of a vault file is trusted. -/
theorem vault_confined_fixture :
    IsAccess (.shred 1 ⟨5,false,fixtureRewrite⟩) ∧
    ∀ e ∈ (execute (step fixtureHash) (ledgerStart (openLine "/v/q_1.gcadq".toList)) shredCalls).1,
      IsAccess e.label.1 → Confined "/v".toList e := by
  refine ⟨trivial,vault_confined fixtureHash (execute_run (step fixtureHash)
    (ledgerStart (openLine "/v/q_1.gcadq".toList)) shredCalls)
    (List.forall_mem_singleton.mpr trivial) ?_⟩
  intro recordId record hfind _ _
  have hmem := (findRecord_eq_some hfind).1
  have hpaths : ∀ record ∈ (ledgerStart (openLine "/v/q_1.gcadq".toList)).executor.ledger,
      record.vaultPath=vaultFile "/v".toList 1 := by decide
  exact ⟨1,hpaths record hmem⟩

set_option maxRecDepth 10000 in
/-- A line that names another file makes a shred request destroy it. -/
theorem vault_not_confined :
    ¬∀ (sha256 : HashContext Bytes Bytes) (dir : Str) (policy : LocalSecurityPolicy)
      (files : Files) (events : List VaultEvent) (world : World),
      Run (Deterministic (step sha256)) (loaded dir policy files) events world →
      (∀ e ∈ events,IsCall e.label.1) → ∀ e ∈ events,IsAccess e.label.1 → Confined dir e := by
  intro hall
  have hconfined := hall fixtureHash "/v".toList LocalSecurityPolicy.default
    (ledgerFiles (openLine "/a".toList)) _ _
    (execute_run (step fixtureHash) (ledgerStart (openLine "/a".toList)) shredCalls)
    (List.forall_mem_singleton.mpr trivial) _ List.mem_cons_self trivial
  obtain ⟨id,hid⟩ := hconfined.target "/a".toList (by decide) (by decide)
  have hname : vaultFile "/v".toList id= '/':: 'v':: '/'::vaultName id := rfl
  rw [hname] at hid
  cases hid

end Gcad.LedgerTrust
