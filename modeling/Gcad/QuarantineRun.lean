import Gcad.StepSystem
import Gcad.QuarantineVault

/-!
# What the vault keeps over restarts

A run is any sequence of quarantine, restore and shred calls, process
restarts on the same vault, and damage to ledger lines, with every file
operation free to fail. A content is numbered when it enters the vault;
the number it got is a ghost of the proof. The invariant couples the
counter, the vault files, the records in memory and the lines on disk.
-/

namespace Gcad.QuarantineRun

open Common Observation ByteView FileStore LedgerText QuarantineVault StepSystem

variable {σ : Type}

/-- What can happen to a vault. -/
inductive Action where
  /-- A quarantine request. -/
  | quarantine (candidate : RemediationCandidate) (faults : QuarantineFaults)
  /-- A restore request. -/
  | restore (recordId : ℕ) (faults : RestoreFaults)
  /-- A shred request. -/
  | shred (recordId : ℕ) (faults : ShredFaults)
  /-- A fresh executor on the same vault, with any policy. -/
  | restart (policy : LocalSecurityPolicy)
  /-- Lines of the ledger are replaced by lines that do not parse. -/
  | damage (junk : ℕ → Option Str)

/-- A damaged line: replaced by the given text if that is one line which
the loader skips. -/
def damageLine (junk : Option Str) (line : Str) : Str :=
  match junk with
  | none => line
  | some other => if line=[] ∨ '\n' ∈ other ∨ (parseLine other).isSome then line else other

/-- Damage the lines of a text, by their position. -/
def damageText (junk : ℕ → Option Str) (text : Str) : Str :=
  ['\n'].intercalate ((text.splitOn '\n').mapIdx fun i line => damageLine (junk i) line)

/-- One step of a vault, with the code a call returns. -/
def step (sha256 : HashContext σ Bytes) (world : World) : Action → World×ErrorCode
  | .quarantine candidate faults =>
    let result := quarantine sha256 faults candidate world
    (result.1,result.2.1)
  | .restore recordId faults => restore faults recordId world
  | .shred recordId faults => shred faults recordId world
  | .restart policy =>
    (⟨world.files,create world.executor.vaultDir policy world.files⟩,.ok)
  | .damage junk =>
    match world.files (ledgerPath world.executor.vaultDir) with
    | none => (world,.ok)
    | some text => ({ world with
        files := write world.files (ledgerPath world.executor.vaultDir) (damageText junk text) },.ok)

/-- An executed step of a vault. -/
abbrev VaultEvent := Event World (Action×ErrorCode)

/-- The path and the content a successful quarantine call took. -/
def quarantinedBy (e : VaultEvent) : List (Str×Str) :=
  match e.label with
  | (.quarantine candidate _,.ok) =>
    (e.before.files candidate.targetPath).toList.map fun content => (candidate.targetPath,content)
  | _ => []

/-- The vault path on which a shred call acts. -/
def shredTarget (executor : QuarantineExecutor) (recordId : ℕ) : Option Str :=
  (findRecord executor recordId).bind fun record =>
    if record.shredded || record.restored then none else some record.vaultPath

/-- The contents a shred call ran over: what the vault file held before,
and what is left of it if it could not be removed. -/
def shreddedBy (e : VaultEvent) : List Str :=
  match e.label with
  | (.shred recordId _,_) =>
    match shredTarget e.before.executor recordId with
    | none => []
    | some path => (e.before.files path).toList++(e.after.files path).toList
  | _ => []

/-- Every path and content that was successfully quarantined. -/
def quarantined (events : List VaultEvent) : List (Str×Str) := events.flatMap quarantinedBy

/-- Every content that was shredded. -/
def shredded (events : List VaultEvent) : List Str := events.flatMap shreddedBy

/-- What is promised of a history and the world it ends in. -/
structure NeverLoses (dir : Str) (events : List VaultEvent) (world : World) : Prop where
  /-- A quarantine call that takes a number finds its vault path free. -/
  noOverwrite : ∀ e ∈ events, ∀ candidate faults code,
    e.label=(.quarantine candidate faults,code) →
      e.after.executor.nextId≠e.before.executor.nextId →
        e.before.files (vaultFile dir e.before.executor.nextId)=none
  /-- A quarantined content that was not shredded is at a vault path or at
  a path it was quarantined from. -/
  present : ∀ path content, (path,content) ∈ quarantined events → content ∉ shredded events →
    (∃ id, world.files (vaultFile dir id)=some content) ∨
      ∃ original, (original,content) ∈ quarantined events ∧ world.files original=some content

/-- The steps under which the promise is kept. A quarantine call does not
meet the last value of the counter, nothing is restored over the ledger or
its temporary file, and at a restart every vault file lies below the
number of some ledger line that loads. -/
def Safe (dir : Str) (world : World) : Action → Prop
  | .quarantine _ _ => world.executor.nextId≠2^64-1
  | .restore recordId _ => ∀ record, findRecord world.executor recordId=some record →
      record.originalPath≠ledgerPath dir ∧ record.originalPath≠tempPath dir
  | .shred _ _ => True
  | .restart policy => ∀ id, (world.files (vaultFile dir id)).isSome=true →
      ∃ record ∈ (create dir policy world.files).ledger, id ≤ record.id
  | .damage _ => True

/-- A directory without a ledger and without vault files. -/
structure EmptyVault (dir : Str) (files : Files) : Prop where
  /-- No ledger. -/
  ledger : files (ledgerPath dir)=none
  /-- No vault file. -/
  vault : ∀ id, files (vaultFile dir id)=none

section Records

/-- What a record says about the content that was given its number. -/
structure RecordOk (dir : Str) (given : ℕ → Str) (moved : List (Str×Str)) (gone : List Str)
    (next : ℕ) (record : QuarantineRecord) : Prop where
  /-- The vault path is the one of the number. -/
  vault : record.vaultPath=vaultFile dir record.id
  /-- The number has been given. -/
  below : record.id < next
  /-- The content was quarantined from the original path. -/
  origin : (record.originalPath,given record.id) ∈ moved
  /-- An original path inside the vault held the content before. -/
  nested : ∀ i, record.originalPath=vaultFile dir i →
    i < record.id ∧ (given i=given record.id ∨ given record.id ∈ gone)
  /-- The record can be written to the ledger. -/
  plain : PlainRecord record

variable {dir : Str} {given : ℕ → Str} {moved moved' : List (Str×Str)} {gone gone' : List Str}
variable {next next' : ℕ} {record : QuarantineRecord}

/-- Flags and time of a record play no part. -/
theorem RecordOk.of_same (h : RecordOk dir given moved gone next record) {other : QuarantineRecord}
    (hid : other.id=record.id) (horiginal : other.originalPath=record.originalPath)
    (hvault : other.vaultPath=record.vaultPath)
    (hsha : other.sha256AtQuarantine=record.sha256AtQuarantine) :
    RecordOk dir given moved gone next other where
  vault := by rw [hvault,hid]; exact h.vault
  below := by rw [hid]; exact h.below
  origin := by rw [horiginal,hid]; exact h.origin
  nested := by rw [horiginal,hid]; exact h.nested
  plain := ⟨by rw [horiginal]; exact h.plain.original,by rw [hvault]; exact h.plain.vault,
    by rw [hsha]; exact h.plain.sha256⟩

/-- More history keeps a record right. -/
theorem RecordOk.mono (h : RecordOk dir given moved gone next record) (hm : moved ⊆ moved')
    (hg : gone ⊆ gone') : RecordOk dir given moved' gone' next record where
  vault := h.vault
  below := h.below
  origin := hm h.origin
  nested := fun i hi => ⟨(h.nested i hi).1,(h.nested i hi).2.imp_right fun hin => hg hin⟩
  plain := h.plain

/-- Only the record's own number bounds the counter. -/
theorem RecordOk.bound (h : RecordOk dir given moved gone next record) (hb : record.id < next') :
    RecordOk dir given moved gone next' record where
  vault := h.vault
  below := hb
  origin := h.origin
  nested := h.nested
  plain := h.plain

/-- Giving the next number to a content does not concern earlier records. -/
theorem RecordOk.fresh (h : RecordOk dir given moved gone next record) (content : Str) :
    RecordOk dir (Function.update given next content) moved gone (next+1) record := by
  have hid : Function.update given next content record.id=given record.id :=
    Function.update_of_ne h.below.ne _ _
  refine ⟨h.vault,Nat.lt_succ_of_lt h.below,?_,?_,h.plain⟩
  · rw [hid]
    exact h.origin
  · intro i hi
    obtain ⟨hlt,hsame⟩ := h.nested i hi
    have hbelow := h.below
    have hi' : Function.update given next content i=given i :=
      Function.update_of_ne (by omega) _ _
    rw [hid,hi']
    exact ⟨hlt,hsame⟩

/-- A record survives being written and read. -/
theorem RecordOk.parse (h : RecordOk dir given moved gone next record) {read : QuarantineRecord}
    (hread : parseLine (ledgerLine record)=some read) :
    RecordOk dir given moved gone next read := by
  rw [h.plain.parseLine_eq_some hread]
  exact h.of_same rfl rfl rfl rfl

end Records

section Lines

variable {dir : Str} {given : ℕ → Str} {moved : List (Str×Str)} {gone : List Str} {next : ℕ}

/-- A ledger of complete lines, each of which is skipped or gives a right
record. -/
def LedgerOk (dir : Str) (given : ℕ → Str) (moved : List (Str×Str)) (gone : List Str) (next : ℕ)
    (text : Str) : Prop :=
  ∃ lines, text=unlines lines ∧ ∀ line ∈ lines, '\n' ∉ line ∧
    ∀ record, parseLine line=some record → RecordOk dir given moved gone next record

/-- A change of the bookkeeping that keeps every record right keeps the
ledger right. -/
theorem LedgerOk.imp {given' : ℕ → Str} {moved' : List (Str×Str)} {gone' : List Str} {next' : ℕ}
    {text : Str} (h : LedgerOk dir given moved gone next text)
    (himp : ∀ record, RecordOk dir given moved gone next record →
      RecordOk dir given' moved' gone' next' record) :
    LedgerOk dir given' moved' gone' next' text := by
  obtain ⟨lines,rfl,hlines⟩ := h
  exact ⟨lines,rfl,fun line hl => ⟨(hlines line hl).1,
    fun record hr => himp record ((hlines line hl).2 record hr)⟩⟩

/-- The lines of right records are a right ledger. -/
theorem ledgerOk_unlines {ledger : List QuarantineRecord}
    (h : ∀ record ∈ ledger, RecordOk dir given moved gone next record) :
    LedgerOk dir given moved gone next (unlines (ledger.map ledgerLine)) := by
  refine ⟨_,rfl,?_⟩
  intro line hl
  obtain ⟨record,hr,rfl⟩ := List.mem_map.mp hl
  exact ⟨(h record hr).plain.line,fun read hread => (h record hr).parse hread⟩

/-- Appending the line of a right record keeps the ledger right. -/
theorem LedgerOk.append {text : Str} (h : LedgerOk dir given moved gone next text)
    {record : QuarantineRecord} (hr : RecordOk dir given moved gone next record) :
    LedgerOk dir given moved gone next (text++(ledgerLine record++['\n'])) := by
  obtain ⟨lines,rfl,hlines⟩ := h
  refine ⟨lines++[ledgerLine record],?_,?_⟩
  · simp only [unlines,List.flatMap_append,List.flatMap_cons,List.flatMap_nil,List.append_nil]
  · intro line hl
    rcases List.mem_append.mp hl with hl | hl
    · exact hlines line hl
    · rw [List.mem_singleton.mp hl]
      exact ⟨hr.plain.line,fun read hread => hr.parse hread⟩

/-- An empty ledger is right. -/
theorem ledgerOk_nil : LedgerOk dir given moved gone next [] :=
  ⟨[],rfl,fun _ hl => absurd hl List.not_mem_nil⟩

/-- Joining lines and an empty rest ends every line with a break. -/
theorem intercalate_rest (lines : List Str) : ['\n'].intercalate (lines++[[]])=unlines lines := by
  induction lines with
  | nil => rfl
  | cons line rest ih =>
    have hne : rest++[[]]≠[] := List.append_ne_nil_of_right_ne_nil _ (List.cons_ne_nil _ _)
    rw [List.cons_append,List.intercalate_cons_of_ne_nil hne,ih]
    simp only [unlines,List.flatMap_cons]

/-- Damage keeps a ledger right. -/
theorem LedgerOk.damage {text : Str} (h : LedgerOk dir given moved gone next text)
    (junk : ℕ → Option Str) : LedgerOk dir given moved gone next (damageText junk text) := by
  obtain ⟨lines,rfl,hlines⟩ := h
  have hrest : ∀ i, damageLine (junk i) []=[] := by
    intro i
    unfold damageLine
    split
    · rfl
    · rw [if_pos (.inl rfl)]
  refine ⟨lines.mapIdx fun i line => damageLine (junk i) line,?_,?_⟩
  · unfold damageText
    rw [splitOn_unlines fun line hl => (hlines line hl).1,List.mapIdx_append]
    simp only [List.mapIdx_cons,List.mapIdx_nil,hrest]
    exact intercalate_rest _
  · intro line hl
    obtain ⟨i,hi,rfl⟩ := List.mem_mapIdx.mp hl
    have hold := hlines _ (List.getElem_mem hi)
    unfold damageLine
    split
    · exact hold
    · next other hj =>
      split
      · exact hold
      · next hn =>
        rw [not_or,not_or] at hn
        refine ⟨hn.2.1,?_⟩
        intro record hr
        exact absurd (by rw [hr]; rfl) hn.2.2

/-- The records loaded from a right ledger are right, and every record on
disk is below the counter that was computed from them. -/
theorem LedgerOk.load {text : Str} (h : LedgerOk dir given moved gone next text)
    (hpos : 1 ≤ next) (hbound : next < 2^64) :
    (∀ record ∈ (loadLedger text).1,
      RecordOk dir given moved gone (loadLedger text).2 record) ∧
    LedgerOk dir given moved gone (loadLedger text).2 text ∧
    1 ≤ (loadLedger text).2 ∧ (loadLedger text).2 < 2^64 := by
  obtain ⟨lines,rfl,hlines⟩ := h
  have hsplit := splitOn_unlines fun line hl => (hlines line hl).1
  have hread : ∀ line ∈ lines++[[]], ∀ record, parseLine line=some record →
      line ∈ lines ∧ RecordOk dir given moved gone next record := by
    intro line hl record hr
    rcases List.mem_append.mp hl with hl | hl
    · exact ⟨hl,(hlines line hl).2 record hr⟩
    · rw [List.mem_singleton.mp hl] at hr
      cases hr
  have hstart : ∀ record ∈ ([] : List QuarantineRecord), record.id < 1 :=
    fun record hr => absurd hr List.not_mem_nil
  have hnext := foldl_loadLine_next (lines++[[]]) ([],1) hbound ⟨le_refl 1,hpos⟩
    (fun line hl record hr => (hread line hl record hr).2.below) hstart
  have hload : loadLedger (unlines lines)=(lines++[[]]).foldl loadLine ([],1) := by
    rw [loadLedger,hsplit]
  rw [←hload] at hnext
  have hmem : ∀ line ∈ lines++[[]], ∀ record, parseLine line=some record →
      record ∈ (loadLedger (unlines lines)).1 := by
    intro line hl record hr
    rw [loadLedger_records,hsplit]
    exact List.mem_filterMap.mpr ⟨line,hl,hr⟩
  refine ⟨?_,⟨lines,rfl,?_⟩,hnext.1.1,
    lt_of_le_of_lt hnext.1.2 hbound⟩
  · intro record hr
    have hr' := hr
    rw [loadLedger_records,hsplit] at hr'
    obtain ⟨line,hl,hp⟩ := List.mem_filterMap.mp hr'
    exact (hread line hl record hp).2.bound (hnext.2 record hr)
  · intro line hl
    refine ⟨(hlines line hl).1,?_⟩
    intro record hp
    have hin := hmem line (List.mem_append_left _ hl) record hp
    exact ((hlines line hl).2 record hp).bound (hnext.2 record hin)

end Lines

section Invariant

/-- The invariant of a vault: which content was given which number, what
was moved in, what was shredded. -/
structure VaultInv (dir : Str) (given : ℕ → Str) (moved : List (Str×Str)) (gone : List Str)
    (world : World) : Prop where
  /-- The executor works on this directory. -/
  vaultDir : world.executor.vaultDir=dir
  /-- The counter has not wrapped. -/
  counter : 1 ≤ world.executor.nextId ∧ world.executor.nextId < 2^64
  /-- A vault file has a number that was given, and holds the content the
  number was given to unless a shred has run over what it holds. -/
  held : ∀ id content, world.files (vaultFile dir id)=some content →
    id < world.executor.nextId ∧ (content=given id ∨ content ∈ gone)
  /-- The records in memory are right. -/
  records : ∀ record ∈ world.executor.ledger,
    RecordOk dir given moved gone world.executor.nextId record
  /-- The ledger on disk is right. -/
  lines : ∀ text, world.files (ledgerPath dir)=some text →
    LedgerOk dir given moved gone world.executor.nextId text
  /-- A moved content that was not shredded has a place that no rewrite of
  the ledger touches. -/
  present : ∀ path content, (path,content) ∈ moved → content ∉ gone →
    ∃ place, world.files place=some content ∧ place≠ledgerPath dir ∧ place≠tempPath dir ∧
      ((∃ id, place=vaultFile dir id) ∨ (place,content) ∈ moved)

variable {dir : Str} {given : ℕ → Str} {moved : List (Str×Str)} {gone : List Str}
variable {world : World}

/-- The vault path of the next number is free. -/
theorem VaultInv.free (h : VaultInv dir given moved gone world) :
    world.files (vaultFile dir world.executor.nextId)=none := by
  cases hf : world.files (vaultFile dir world.executor.nextId) with
  | none => rfl
  | some content => exact absurd (h.held _ _ hf).1 (lt_irrefl _)

/-- Only the ledger and its temporary file change, and the ledger stays
right. -/
theorem VaultInv.relabel (h : VaultInv dir given moved gone world) {files : Files}
    (hother : ∀ path, path≠ledgerPath dir → path≠tempPath dir → files path=world.files path)
    (hlines : ∀ text, files (ledgerPath dir)=some text →
      LedgerOk dir given moved gone world.executor.nextId text) :
    VaultInv dir given moved gone ⟨files,world.executor⟩ where
  vaultDir := h.vaultDir
  counter := h.counter
  held := by
    intro id content hf
    dsimp only at hf
    rw [hother _ (vaultFile_ne_ledgerPath dir id) (vaultFile_ne_tempPath dir id)] at hf
    exact h.held id content hf
  records := h.records
  lines := hlines
  present := by
    intro path content hin hgone
    obtain ⟨place,hp,hl,ht,hwhere⟩ := h.present path content hin hgone
    exact ⟨place,(hother place hl ht).trans hp,hl,ht,hwhere⟩

/-- Rewriting the ledger keeps the invariant. -/
theorem VaultInv.rewrite (h : VaultInv dir given moved gone world) (faults : RewriteFaults) :
    VaultInv dir given moved gone
      ⟨rewriteLedger faults dir world.executor.ledger world.files,world.executor⟩ := by
  apply h.relabel
  · intro path hl ht
    exact rewriteLedger_other faults dir _ world.files hl ht
  · intro text htext
    rcases rewriteLedger_ledger faults dir world.executor.ledger world.files with hold | ⟨n,hnew⟩
    · rw [hold] at htext
      exact h.lines text htext
    · rw [hnew] at htext
      obtain rfl := Option.some.inj htext
      exact ledgerOk_unlines fun record hr => h.records record (List.mem_of_mem_take hr)

/-- Appending the line of a right record keeps the invariant. -/
theorem VaultInv.append (h : VaultInv dir given moved gone world) (fails : Bool)
    {record : QuarantineRecord}
    (hr : RecordOk dir given moved gone world.executor.nextId record) :
    VaultInv dir given moved gone
      ⟨appendLedger fails (ledgerPath dir) record world.files,world.executor⟩ := by
  cases fails with
  | true => exact h
  | false =>
    apply h.relabel
    · intro path hl ht
      exact write_other world.files _ hl
    · intro text htext
      have hself : some ((world.files (ledgerPath dir)).getD []++(ledgerLine record++['\n']))=
          some text := by
        rw [←htext]
        exact (write_self world.files _).symm
      obtain rfl := Option.some.inj hself
      cases hold : world.files (ledgerPath dir) with
      | none => exact ledgerOk_nil.append hr
      | some old => exact (h.lines old hold).append hr

/-- Damaging ledger lines keeps the invariant. -/
theorem VaultInv.damage (h : VaultInv dir given moved gone world) (junk : ℕ → Option Str)
    {text : Str} (htext : world.files (ledgerPath dir)=some text) :
    VaultInv dir given moved gone
      ⟨write world.files (ledgerPath dir) (damageText junk text),world.executor⟩ := by
  apply h.relabel
  · intro path hl ht
    exact write_other world.files _ hl
  · intro other hother
    rw [write_self] at hother
    obtain rfl := Option.some.inj hother
    exact (h.lines text htext).damage junk

/-- Changing flags in memory keeps the invariant. -/
theorem VaultInv.setFlags (h : VaultInv dir given moved gone world) (recordId : ℕ)
    (change : QuarantineRecord → QuarantineRecord)
    (hchange : ∀ record, (change record).id=record.id ∧
      (change record).originalPath=record.originalPath ∧
      (change record).vaultPath=record.vaultPath ∧
      (change record).sha256AtQuarantine=record.sha256AtQuarantine) :
    VaultInv dir given moved gone ⟨world.files,
      {world.executor with ledger := updateRecord recordId change world.executor.ledger}⟩ where
  vaultDir := h.vaultDir
  counter := h.counter
  held := h.held
  records := by
    intro record hr
    rcases mem_updateRecord hr with hold | ⟨old,hold,rfl⟩
    · exact h.records record hold
    · obtain ⟨hid,horiginal,hvault,hsha⟩ := hchange old
      exact (h.records old hold).of_same hid horiginal hvault hsha
  lines := h.lines
  present := h.present

/-- The number after the next one, when the counter does not wrap. -/
theorem VaultInv.takeNumber_nextId (h : VaultInv dir given moved gone world)
    (hlast : world.executor.nextId≠2^64-1) :
    (takeNumber world.executor).nextId=world.executor.nextId+1 := by
  have hlt := h.counter.2
  exact Nat.mod_eq_of_lt (by omega)

/-- A number that is not used is skipped. -/
theorem VaultInv.skip (h : VaultInv dir given moved gone world)
    (hlast : world.executor.nextId≠2^64-1) :
    VaultInv dir given moved gone ⟨world.files,takeNumber world.executor⟩ := by
  have hnext := h.takeNumber_nextId hlast
  have hlt := h.counter.2
  have hgrow : ∀ record, RecordOk dir given moved gone world.executor.nextId record →
      RecordOk dir given moved gone (takeNumber world.executor).nextId record := by
    intro record hr
    have hbelow := hr.below
    exact hr.bound (by omega)
  refine ⟨h.vaultDir,?_,?_,fun record hr => hgrow record (h.records record hr),
    fun text htext => (h.lines text htext).imp hgrow,h.present⟩
  · dsimp only
    omega
  · intro id content hf
    obtain ⟨hbelow,hheld⟩ := h.held id content hf
    dsimp only
    exact ⟨by omega,hheld⟩

/-- The next number is given to a content that lies at its vault path; every
other place has what it had, or lost a content that is now there. -/
theorem VaultInv.give (h : VaultInv dir given moved gone world)
    (hlast : world.executor.nextId≠2^64-1) {files : Files} {content : Str}
    (hnew : files (vaultFile dir world.executor.nextId)=some content)
    (hold : ∀ path, path≠vaultFile dir world.executor.nextId →
      files path=world.files path ∨
        world.files path=some content ∧ files path=none) :
    VaultInv dir (Function.update given world.executor.nextId content) moved gone
      ⟨files,takeNumber world.executor⟩ := by
  have hnext := h.takeNumber_nextId hlast
  have hlt := h.counter.2
  have hupdate : ∀ id, id < world.executor.nextId →
      Function.update given world.executor.nextId content id=given id :=
    fun id hid => Function.update_of_ne hid.ne _ _
  refine ⟨h.vaultDir,?_,?_,?_,?_,?_⟩
  · dsimp only
    rw [hnext]
    omega
  · intro id held hf
    dsimp only at hf ⊢
    rw [hnext]
    by_cases hid : id=world.executor.nextId
    · subst hid
      rw [hnew] at hf
      obtain rfl := Option.some.inj hf
      exact ⟨Nat.lt_succ_self _,.inl (by rw [Function.update_self])⟩
    · have hne : vaultFile dir id≠vaultFile dir world.executor.nextId :=
        fun he => hid (vaultFile_inj he)
      rcases hold _ hne with hsame | ⟨-,hnone⟩
      · rw [hsame] at hf
        obtain ⟨hbelow,hheld⟩ := h.held id held hf
        rw [hupdate id hbelow]
        exact ⟨Nat.lt_succ_of_lt hbelow,hheld⟩
      · rw [hnone] at hf
        cases hf
  · intro record hr
    dsimp only
    rw [hnext]
    exact (h.records record hr).fresh content
  · intro text htext
    dsimp only at htext ⊢
    rw [hnext]
    have hne := (vaultFile_ne_ledgerPath dir world.executor.nextId).symm
    rcases hold _ hne with hsame | ⟨-,hnone⟩
    · rw [hsame] at htext
      exact (h.lines text htext).imp fun record hr => hr.fresh content
    · rw [hnone] at htext
      cases htext
  · intro path other hin hgone
    obtain ⟨place,hp,hl,ht,hwhere⟩ := h.present path other hin hgone
    have hne : place≠vaultFile dir world.executor.nextId := by
      rintro rfl
      rw [h.free] at hp
      cases hp
    rcases hold place hne with hsame | ⟨hsource,-⟩
    · exact ⟨place,hsame.trans hp,hl,ht,hwhere⟩
    · rw [hsource] at hp
      obtain rfl := Option.some.inj hp
      exact ⟨_,hnew,vaultFile_ne_ledgerPath dir _,vaultFile_ne_tempPath dir _,.inl ⟨_,rfl⟩⟩

/-- A content at a vault path is added to the history. -/
theorem VaultInv.addMoved (h : VaultInv dir given moved gone world) {id : ℕ} {content : Str}
    (hheld : world.files (vaultFile dir id)=some content) (path : Str) :
    VaultInv dir given (moved++[(path,content)]) gone world where
  vaultDir := h.vaultDir
  counter := h.counter
  held := h.held
  records := fun record hr => (h.records record hr).mono (List.subset_append_left _ _) (List.Subset.refl _)
  lines := fun text htext =>
    (h.lines text htext).imp fun _ hr => hr.mono (List.subset_append_left _ _) (List.Subset.refl _)
  present := by
    intro other content' hin hgone
    rcases List.mem_append.mp hin with hin | hin
    · obtain ⟨place,hp,hl,ht,hwhere⟩ := h.present other content' hin hgone
      exact ⟨place,hp,hl,ht,hwhere.imp_right (List.mem_append_left _)⟩
    · obtain ⟨rfl,rfl⟩ := Prod.mk.inj (List.mem_singleton.mp hin)
      exact ⟨_,hheld,vaultFile_ne_ledgerPath dir id,vaultFile_ne_tempPath dir id,.inl ⟨id,rfl⟩⟩

/-- A right record is added to the ledger in memory. -/
theorem VaultInv.push (h : VaultInv dir given moved gone world) {record : QuarantineRecord}
    (hr : RecordOk dir given moved gone world.executor.nextId record) :
    VaultInv dir given moved gone ⟨world.files,
      {world.executor with ledger := world.executor.ledger++[record]}⟩ where
  vaultDir := h.vaultDir
  counter := h.counter
  held := h.held
  records := by
    intro other ho
    rcases List.mem_append.mp ho with ho | ho
    · exact h.records other ho
    · rw [List.mem_singleton.mp ho]
      exact hr
  lines := h.lines
  present := h.present

/-- A completed quarantine call keeps the invariant. -/
theorem VaultInv.quarantine (h : VaultInv dir given moved gone world) (hdir : Plain dir)
    (hlast : world.executor.nextId≠2^64-1) {candidate : RemediationCandidate}
    (hplain : Plain candidate.targetPath) {content currentHash : Str}
    (hcontent : world.files candidate.targetPath=some content) (hhash : Plain currentHash)
    (append : Bool) (now : TimePoint) :
    VaultInv dir (Function.update given world.executor.nextId content)
      (moved++[(candidate.targetPath,content)]) gone
      ⟨appendLedger append (ledgerPath dir) (recordFor world.executor candidate currentHash now)
        (write (erase world.files candidate.targetPath)
          (vaultFile dir world.executor.nextId) content),
        {takeNumber world.executor with
          ledger := world.executor.ledger++[recordFor world.executor candidate currentHash now]}⟩ := by
  have hgiven := h.give hlast (write_self (erase world.files candidate.targetPath) content)
    (by
      intro path hne
      by_cases hpath : path=candidate.targetPath
      · subst hpath
        refine .inr ⟨hcontent,?_⟩
        rw [write_other _ _ hne,erase_self]
      · exact .inl (move_other content hpath hne))
  have hmoved := hgiven.addMoved (write_self (erase world.files candidate.targetPath) content)
    candidate.targetPath
  have hrecord : RecordOk dir (Function.update given world.executor.nextId content)
      (moved++[(candidate.targetPath,content)]) gone (takeNumber world.executor).nextId
      (recordFor world.executor candidate currentHash now) := by
    refine ⟨?_,?_,?_,?_,?_⟩
    · unfold recordFor
      rw [h.vaultDir]
    · rw [h.takeNumber_nextId hlast]
      exact Nat.lt_succ_self _
    · refine List.mem_append_right _ (List.mem_singleton.mpr ?_)
      unfold recordFor
      rw [Function.update_self]
    · intro i hi
      have hin : world.files (vaultFile dir i)=some content := by
        rw [←hi]
        exact hcontent
      obtain ⟨hbelow,hheld⟩ := h.held i content hin
      refine ⟨hbelow,?_⟩
      unfold recordFor
      rw [Function.update_self,Function.update_of_ne hbelow.ne]
      exact hheld.imp_left Eq.symm
    · refine ⟨hplain,?_,hhash⟩
      unfold recordFor
      rw [h.vaultDir]
      exact plain_vaultFile hdir _
  exact (hmoved.push hrecord).append append hrecord

/-- Moving a vault file back to its free original path keeps the
invariant. -/
theorem VaultInv.restore (h : VaultInv dir given moved gone world) {record : QuarantineRecord}
    (hr : record ∈ world.executor.ledger) {content : Str} {files : Files}
    (hl : record.originalPath≠ledgerPath dir) (ht : record.originalPath≠tempPath dir)
    (hfree : world.files record.originalPath=none)
    (hcontent : world.files record.vaultPath=some content)
    (hnew : files record.originalPath=some content)
    (hold : ∀ path, path≠record.originalPath →
      files path=world.files path ∨ path=record.vaultPath ∧ files path=none) :
    VaultInv dir given moved gone ⟨files,world.executor⟩ := by
  have hrecord := h.records record hr
  have hvault := hrecord.vault
  rw [hvault] at hcontent hold
  obtain ⟨-,hheld⟩ := h.held record.id content hcontent
  refine ⟨h.vaultDir,h.counter,?_,h.records,?_,?_⟩
  · intro id other hf
    dsimp only at hf ⊢
    by_cases ho : vaultFile dir id=record.originalPath
    · rw [ho,hnew] at hf
      obtain rfl := Option.some.inj hf
      obtain ⟨hbelow,hsame⟩ := hrecord.nested id ho.symm
      have hrecordBelow := hrecord.below
      refine ⟨by omega,?_⟩
      rcases hheld with rfl | hgone
      · exact hsame.imp_left Eq.symm
      · exact .inr hgone
    · rcases hold _ ho with hsame | ⟨-,hnone⟩
      · rw [hsame] at hf
        exact h.held id other hf
      · rw [hnone] at hf
        cases hf
  · intro text htext
    dsimp only at htext
    rcases hold _ hl.symm with hsame | ⟨he,-⟩
    · rw [hsame] at htext
      exact h.lines text htext
    · exact absurd he.symm (vaultFile_ne_ledgerPath dir _)
  · intro path other hin hgone
    obtain ⟨place,hp,hpl,hpt,hwhere⟩ := h.present path other hin hgone
    have hne : place≠record.originalPath := by
      rintro rfl
      rw [hfree] at hp
      cases hp
    rcases hold place hne with hsame | ⟨rfl,-⟩
    · exact ⟨place,hsame.trans hp,hpl,hpt,hwhere⟩
    · rw [hcontent] at hp
      obtain rfl := Option.some.inj hp
      rcases hheld with rfl | hin
      · exact ⟨record.originalPath,hnew,hl,ht,.inr hrecord.origin⟩
      · exact absurd hin hgone

/-- Counting more contents as shredded keeps the invariant. -/
theorem VaultInv.more (h : VaultInv dir given moved gone world) {gone' : List Str}
    (hgone : gone ⊆ gone') : VaultInv dir given moved gone' world where
  vaultDir := h.vaultDir
  counter := h.counter
  held := fun id content hf =>
    ⟨(h.held id content hf).1,(h.held id content hf).2.imp_right fun hin => hgone hin⟩
  records := fun record hr => (h.records record hr).mono (List.Subset.refl _) hgone
  lines := fun text htext =>
    (h.lines text htext).imp fun _ hr => hr.mono (List.Subset.refl _) hgone
  present := fun path content hin hnot => h.present path content hin fun hg => hnot (hgone hg)

/-- Running over a vault file keeps the invariant when the contents before
and after count as shredded. -/
theorem VaultInv.shred (h : VaultInv dir given moved gone world) {id : ℕ}
    (hid : id < world.executor.nextId) {files : Files}
    (hbefore : ∀ content, world.files (vaultFile dir id)=some content → content ∈ gone)
    (hafter : ∀ content, files (vaultFile dir id)=some content → content ∈ gone)
    (hold : ∀ path, path≠vaultFile dir id → files path=world.files path) :
    VaultInv dir given moved gone ⟨files,world.executor⟩ := by
  refine ⟨h.vaultDir,h.counter,?_,h.records,?_,?_⟩
  · intro other content hf
    dsimp only at hf ⊢
    by_cases ho : other=id
    · subst ho
      exact ⟨hid,.inr (hafter content hf)⟩
    · rw [hold _ fun he => ho (vaultFile_inj he)] at hf
      exact h.held other content hf
  · intro text htext
    dsimp only at htext
    rw [hold _ (vaultFile_ne_ledgerPath dir id).symm] at htext
    exact h.lines text htext
  · intro path content hin hnot
    obtain ⟨place,hp,hl,ht,hwhere⟩ := h.present path content hin hnot
    have hne : place≠vaultFile dir id := by
      rintro rfl
      exact hnot (hbefore content hp)
    exact ⟨place,(hold place hne).trans hp,hl,ht,hwhere⟩

/-- A restart keeps the invariant when every vault file is covered by a
line that loads. -/
theorem VaultInv.restart (h : VaultInv dir given moved gone world) (policy : LocalSecurityPolicy)
    (hcovered : ∀ id, (world.files (vaultFile dir id)).isSome=true →
      ∃ record ∈ (create dir policy world.files).ledger, id ≤ record.id) :
    VaultInv dir given moved gone ⟨world.files,create dir policy world.files⟩ := by
  have hvault : (create dir policy world.files).vaultDir=dir := by
    unfold create
    split <;> rfl
  have hload : (1 ≤ (create dir policy world.files).nextId ∧
        (create dir policy world.files).nextId < 2^64) ∧
      (∀ record ∈ (create dir policy world.files).ledger,
        RecordOk dir given moved gone (create dir policy world.files).nextId record) ∧
      ∀ text, world.files (ledgerPath dir)=some text →
        LedgerOk dir given moved gone (create dir policy world.files).nextId text := by
    unfold create
    cases hf : world.files (ledgerPath dir) with
    | none =>
      have hone : 1 < 2^64 := by decide
      refine ⟨⟨le_refl 1,hone⟩,fun record hr => absurd hr List.not_mem_nil,?_⟩
      intro text htext
      cases htext
    | some text =>
      obtain ⟨hrecords,hlines,hpos,hlt⟩ := (h.lines text hf).load h.counter.1 h.counter.2
      refine ⟨⟨hpos,hlt⟩,hrecords,?_⟩
      intro other hother
      obtain rfl := Option.some.inj hother
      exact hlines
  refine ⟨hvault,hload.1,?_,hload.2.1,hload.2.2,h.present⟩
  intro id content hf
  obtain ⟨record,hr,hle⟩ := hcovered id (by rw [hf]; rfl)
  exact ⟨lt_of_le_of_lt hle (hload.2.1 record hr).below,(h.held id content hf).2⟩

end Invariant

section Steps

variable {dir : Str} {given : ℕ → Str} {moved : List (Str×Str)} {gone : List Str}
variable {world after : World} {code : ErrorCode}

/-- The bookkeeping of a history that grows by one event. -/
theorem bookkeeping_snoc (events : List VaultEvent) (e : VaultEvent) :
    quarantined (events++[e])=quarantined events++quarantinedBy e ∧
      shredded (events++[e])=shredded events++shreddedBy e := by
  unfold quarantined shredded
  simp only [List.flatMap_append,List.flatMap_cons,List.flatMap_nil,List.append_nil,and_self]

/-- A call that does not answer with success has quarantined nothing. -/
theorem quarantinedBy_failed {candidate : RemediationCandidate} {faults : QuarantineFaults}
    (hcode : code≠.ok) : quarantinedBy ⟨world,(.quarantine candidate faults,code),after⟩=[] := by
  unfold quarantinedBy
  split
  · next heq =>
    obtain ⟨-,hok⟩ := Prod.mk.inj heq
    exact absurd hok hcode
  · rfl

/-- A successful call has quarantined what its target held. -/
theorem quarantinedBy_ok {candidate : RemediationCandidate} {faults : QuarantineFaults}
    {content : Str} (hcontent : world.files candidate.targetPath=some content) :
    quarantinedBy ⟨world,(.quarantine candidate faults,.ok),after⟩=
      [(candidate.targetPath,content)] := by
  unfold quarantinedBy
  dsimp only
  rw [hcontent]
  rfl

/-- A quarantine call keeps the invariant. -/
theorem VaultInv.quarantineStep (h : VaultInv dir given moved gone world) (hdir : Plain dir)
    (hlast : world.executor.nextId≠2^64-1) {candidate : RemediationCandidate}
    (faults : QuarantineFaults) {record : Option QuarantineRecord}
    (houtcome : QuarantineOutcome candidate world after code record) :
    ∃ given', VaultInv dir given'
      (moved++quarantinedBy ⟨world,(.quarantine candidate faults,code),after⟩) gone after := by
  obtain rfl := h.vaultDir
  cases houtcome with
  | refused hcode =>
    rw [quarantinedBy_failed hcode,List.append_nil]
    exact ⟨given,h⟩
  | abandoned admitted hfiles =>
    rw [quarantinedBy_failed (by decide),List.append_nil]
    rcases hfiles with rfl | ⟨content,hcontent,hfree,rfl⟩
    · exact ⟨given,h.skip hlast⟩
    · refine ⟨_,h.give hlast (write_self world.files content) ?_⟩
      intro path hne
      exact .inl (write_other world.files content hne)
  | moved admitted hcontent hhash =>
    rw [quarantinedBy_ok hcontent]
    exact ⟨_,h.quarantine hdir hlast admitted.plain hcontent hhash _ _⟩

/-- A restore call keeps the invariant. -/
theorem VaultInv.restoreStep (h : VaultInv dir given moved gone world) {recordId : ℕ}
    (hsafe : ∀ record, findRecord world.executor recordId=some record →
      record.originalPath≠ledgerPath dir ∧ record.originalPath≠tempPath dir)
    (houtcome : RestoreOutcome recordId world after code) :
    VaultInv dir given moved gone after := by
  obtain rfl := h.vaultDir
  cases houtcome with
  | unchanged => exact h
  | @moved record content files rewriteFaults hfind hshredded hfree hcontent hfiles =>
    obtain ⟨hin,-⟩ := findRecord_eq_some hfind
    obtain ⟨hl,ht⟩ := hsafe record hfind
    have hnew : files record.originalPath=some content := by
      rcases hfiles with rfl | rfl
      · exact write_self _ _
      · exact write_self _ _
    have hold : ∀ path, path≠record.originalPath →
        files path=world.files path ∨ path=record.vaultPath ∧ files path=none := by
      intro path hne
      rcases hfiles with rfl | rfl
      · rw [write_other _ _ hne]
        by_cases hv : path=record.vaultPath
        · exact .inr ⟨hv,by rw [hv,erase_self]⟩
        · exact .inl (erase_other _ hv)
      · exact .inl (write_other _ _ hne)
    have hmoved := h.restore hin hl ht hfree hcontent hnew hold
    have hflags := hmoved.setFlags recordId (fun r => {r with restored := true})
      fun _ => ⟨rfl,rfl,rfl,rfl⟩
    exact hflags.rewrite rewriteFaults

/-- A shred call keeps the invariant. -/
theorem VaultInv.shredStep (h : VaultInv dir given moved gone world) {recordId : ℕ}
    (faults : ShredFaults) (houtcome : ShredOutcome recordId world after code) :
    VaultInv dir given moved
      (gone++shreddedBy ⟨world,(.shred recordId faults,code),after⟩) after := by
  obtain rfl := h.vaultDir
  cases houtcome with
  | unchanged => exact h.more (List.subset_append_left _ _)
  | @destroyed record shredFaults hfind hshredded hrestored =>
    obtain ⟨hin,-⟩ := findRecord_eq_some hfind
    have hrecord := h.records record hin
    have hvault := hrecord.vault
    have htarget : shredTarget world.executor recordId=some record.vaultPath := by
      rw [shredTarget,hfind,Option.bind_some,hshredded,hrestored]
      rfl
    have hafter : ∀ ledger, rewriteLedger shredFaults.rewrite world.executor.vaultDir ledger
        (destroy shredFaults record.vaultPath world.files) record.vaultPath=
          destroy shredFaults record.vaultPath world.files record.vaultPath := by
      intro ledger
      rw [hvault]
      exact rewriteLedger_other _ _ _ _ (vaultFile_ne_ledgerPath _ _) (vaultFile_ne_tempPath _ _)
    unfold shreddedBy
    dsimp only
    rw [htarget]
    dsimp only
    rw [hafter]
    have hmore := h.more (List.subset_append_left gone ((world.files record.vaultPath).toList++
      (destroy shredFaults record.vaultPath world.files record.vaultPath).toList))
    have hdestroyed : VaultInv world.executor.vaultDir given moved
        (gone++((world.files record.vaultPath).toList++
          (destroy shredFaults record.vaultPath world.files record.vaultPath).toList))
        ⟨destroy shredFaults record.vaultPath world.files,world.executor⟩ := by
      apply hmore.shred hrecord.below
      · intro content hc
        rw [←hvault] at hc
        rw [hc]
        exact List.mem_append_right _ (List.mem_append_left _ List.mem_cons_self)
      · intro content hc
        rw [←hvault] at hc
        rw [hc]
        exact List.mem_append_right _ (List.mem_append_right _ List.mem_cons_self)
      · intro path hne
        rw [←hvault] at hne
        exact destroy_other shredFaults world.files hne
    have hflags := hdestroyed.setFlags recordId (fun r => {r with shredded := true})
      fun _ => ⟨rfl,rfl,rfl,rfl⟩
    exact hflags.rewrite shredFaults.rewrite

/-- Every safe step keeps the invariant over the history it extends. -/
theorem step_inv (sha256 : HashContext σ Bytes) (hdir : Plain dir) {events : List VaultEvent}
    (h : VaultInv dir given (quarantined events) (shredded events) world) {action : Action}
    (hsafe : Safe dir world action) (hstep : step sha256 world action=(after,code)) :
    ∃ given', VaultInv dir given' (quarantined (events++[⟨world,(action,code),after⟩]))
      (shredded (events++[⟨world,(action,code),after⟩])) after := by
  obtain ⟨hmoved,hgone⟩ := bookkeeping_snoc events ⟨world,(action,code),after⟩
  rw [hmoved,hgone]
  cases action with
  | quarantine candidate faults =>
    obtain ⟨rfl,rfl⟩ := Prod.mk.inj hstep
    have hnone : ∀ c, shreddedBy ⟨world,(.quarantine candidate faults,c),
        (quarantine sha256 faults candidate world).1⟩=[] := fun _ => rfl
    rw [hnone,List.append_nil]
    exact h.quarantineStep hdir hsafe faults (quarantine_outcome sha256 faults candidate world)
  | restore recordId faults =>
    have hcall : restore faults recordId world=(after,code) := hstep
    have houtcome := restore_outcome faults recordId world
    rw [hcall] at houtcome
    have hkeep := h.restoreStep hsafe houtcome
    refine ⟨given,?_⟩
    simpa only [quarantinedBy,shreddedBy,List.append_nil] using hkeep
  | shred recordId faults =>
    have hcall : shred faults recordId world=(after,code) := hstep
    have houtcome := shred_outcome faults recordId world
    rw [hcall] at houtcome
    have hkeep := h.shredStep faults houtcome
    refine ⟨given,?_⟩
    simpa only [quarantinedBy,List.append_nil] using hkeep
  | restart policy =>
    obtain ⟨rfl,rfl⟩ := Prod.mk.inj hstep
    have hkeep := h.restart policy hsafe
    refine ⟨given,?_⟩
    simpa only [quarantinedBy,shreddedBy,List.append_nil,h.vaultDir] using hkeep
  | damage junk =>
    refine ⟨given,?_⟩
    simp only [quarantinedBy,shreddedBy,List.append_nil]
    simp only [step,h.vaultDir] at hstep
    split at hstep
    · obtain ⟨rfl,rfl⟩ := Prod.mk.inj hstep
      exact h
    · next text htext =>
      obtain ⟨rfl,rfl⟩ := Prod.mk.inj hstep
      exact h.damage junk htext

/-- An empty vault starts the invariant. -/
theorem EmptyVault.start {files : Files} (h : EmptyVault dir files) (policy : LocalSecurityPolicy) :
    VaultInv dir (fun _ => []) (quarantined []) (shredded []) ⟨files,create dir policy files⟩ := by
  have hcreate : create dir policy files=⟨dir,policy,[],1⟩ := by rw [create,h.ledger]
  have hone : 1 < 2^64 := by decide
  rw [hcreate]
  refine ⟨rfl,⟨le_refl 1,hone⟩,?_,?_,?_,?_⟩
  · intro id content hf
    dsimp only at hf
    rw [h.vault id] at hf
    cases hf
  · intro record hr
    exact absurd hr List.not_mem_nil
  · intro text htext
    dsimp only at htext
    rw [h.ledger] at htext
    cases htext
  · intro path content hin
    exact absurd hin List.not_mem_nil

/-- The invariant holds at the end of every run of safe steps, and at every
quarantine call of it the next vault path was free. -/
theorem run_inv (sha256 : HashContext σ Bytes) {policy : LocalSecurityPolicy} {files : Files}
    (hdir : Plain dir) (hempty : EmptyVault dir files) {events : List VaultEvent}
    (run : Run (Deterministic (step sha256)) ⟨files,create dir policy files⟩ events world)
    (hsafe : ∀ e ∈ events, Safe dir e.before e.label.1) :
    (∃ given, VaultInv dir given (quarantined events) (shredded events) world) ∧
      ∀ e ∈ events, e.before.files (vaultFile dir e.before.executor.nextId)=none := by
  induction run with
  | nil => exact ⟨⟨_,hempty.start policy⟩,fun e he => absurd he List.not_mem_nil⟩
  | @snoc events s t label run hstep ih =>
    obtain ⟨⟨given,hinv⟩,hfree⟩ := ih fun e he => hsafe e (List.mem_append_left _ he)
    have hlast := hsafe _ (List.mem_append_right _ List.mem_cons_self)
    refine ⟨step_inv sha256 hdir hinv hlast hstep,?_⟩
    intro e he
    rcases List.mem_append.mp he with he | he
    · exact hfree e he
    · rw [List.mem_singleton.mp he]
      exact hinv.free

end Steps

/-- Over every sequence of quarantine, restore and shred calls, restarts
and damage to the ledger, with every file operation free to fail, a vault
that starts empty never overwrites a vault file and never loses a content
that was not shredded, provided every step is safe. -/
theorem quarantine_never_loses (sha256 : HashContext σ Bytes) {dir : Str}
    {policy : LocalSecurityPolicy} {files : Files} (hdir : Plain dir)
    (hempty : EmptyVault dir files) {events : List VaultEvent} {world : World}
    (run : Run (Deterministic (step sha256)) ⟨files,create dir policy files⟩ events world)
    (hsafe : ∀ e ∈ events, Safe dir e.before e.label.1) : NeverLoses dir events world := by
  obtain ⟨⟨given,hinv⟩,hfree⟩ := run_inv sha256 hdir hempty run hsafe
  refine ⟨fun e he _ _ _ _ _ => hfree e he,?_⟩
  intro path content hin hgone
  obtain ⟨place,hplace,-,-,hwhere⟩ := hinv.present path content hin hgone
  rcases hwhere with ⟨id,rfl⟩ | horigin
  · exact .inl ⟨id,hplace⟩
  · exact .inr ⟨place,horigin,hplace⟩

/-- SHA-256 on the two one-byte files of the fixture. -/
def fixtureHash : HashContext Bytes Bytes where
  initial := []
  update := (·++·)
  finalize := fun bytes =>
    if bytes=[65] then
      [85,154,234,208,130,100,213,121,93,57,9,113,140,221,5,171,212,149,114,232,79,229,85,
       144,238,243,26,136,160,143,223,253]
    else if bytes=[66] then
      [223,126,112,229,2,21,68,244,131,75,190,230,74,158,55,137,254,188,75,232,20,112,223,
       98,156,173,109,219,3,50,10,92]
    else List.replicate 32 0

/-- Two files outside the vault directory. -/
def fixtureFiles : Files := fun path =>
  if path="/a".toList then some ['A'] else if path="/b".toList then some ['B'] else none

/-- An approved candidate for a file. -/
def fixtureCandidate (path : Str) : RemediationCandidate where
  findingId := 1
  requestedAction := .quarantineCandidate
  approvalState := .approved
  targetPath := path
  expectedSha256 := []
  rationale := "signature match".toList

/-- A quarantine call in which at most the ledger line is not written. -/
def fixtureFaults (append : Bool) : QuarantineFaults :=
  ⟨false,false,false,false,false,false,append,seconds 1700000000⟩

/-- A quarantine call, a restart and a second quarantine call. -/
def fixtureActions (append : Bool) : List Action :=
  [.quarantine (fixtureCandidate "/a".toList) (fixtureFaults append),
    .restart LocalSecurityPolicy.default,
    .quarantine (fixtureCandidate "/b".toList) (fixtureFaults false)]

/-- The fixture's vault directory is empty. -/
theorem fixture_empty : EmptyVault "/v".toList fixtureFiles := by
  have hother : ∀ name, fixtureFiles (joinPath "/v".toList name)=none := fun _ => rfl
  exact ⟨hother _,fun id => hother _⟩

/-- The fixture's vault directory can be written to the ledger. -/
theorem fixture_plain : Plain "/v".toList := (hasUnsafeDelimiter_eq_false_iff _).mp (by decide)

/-- The world in which the fixture starts. -/
def fixtureStart : World :=
  ⟨fixtureFiles,create "/v".toList LocalSecurityPolicy.default fixtureFiles⟩

set_option maxRecDepth 10000 in
/-- With both lines written every step of the fixture is safe, and both
contents are kept in the vault. -/
theorem quarantine_never_loses_fixture :
    quarantined (execute (step fixtureHash) fixtureStart (fixtureActions false)).1=
      [("/a".toList,['A']),("/b".toList,['B'])] ∧
    NeverLoses "/v".toList (execute (step fixtureHash) fixtureStart (fixtureActions false)).1
      (execute (step fixtureHash) fixtureStart (fixtureActions false)).2 := by
  have hfirst : Safe "/v".toList fixtureStart
      (.quarantine (fixtureCandidate "/a".toList) (fixtureFaults false)) := by
    unfold Safe
    decide
  obtain ⟨⟨given,hinv⟩,-⟩ := run_inv fixtureHash fixture_plain fixture_empty
    (execute_run (step fixtureHash) fixtureStart
      [.quarantine (fixtureCandidate "/a".toList) (fixtureFaults false)])
    (List.forall_mem_singleton.mpr hfirst)
  refine ⟨by decide,quarantine_never_loses fixtureHash fixture_plain fixture_empty
    (execute_run (step fixtureHash) fixtureStart (fixtureActions false)) ?_⟩
  refine List.forall_mem_cons.mpr ⟨hfirst,List.forall_mem_cons.mpr ⟨?_,
    List.forall_mem_singleton.mpr ?_⟩⟩
  · intro id hid
    obtain ⟨content,hcontent⟩ := Option.isSome_iff_exists.mp hid
    have hlt : id < 2 := (hinv.held id content hcontent).1
    have hloaded : ∃ record ∈ (create "/v".toList LocalSecurityPolicy.default
        (step fixtureHash fixtureStart
          (.quarantine (fixtureCandidate "/a".toList) (fixtureFaults false))).1.files).ledger,
        1 ≤ record.id := by decide
    obtain ⟨record,hin,hle⟩ := hloaded
    exact ⟨record,hin,by omega⟩
  · unfold Safe
    decide

set_option maxRecDepth 10000 in
/-- When the line of the first file is lost, the counter restarts and the
second file is renamed over the first one's vault file. -/
theorem quarantine_overwrites_after_restart :
    ¬∀ (sha256 : HashContext Bytes Bytes) (dir : Str) (policy : LocalSecurityPolicy)
      (files : Files) (events : List VaultEvent) (world : World), Plain dir →
      EmptyVault dir files →
      Run (Deterministic (step sha256)) ⟨files,create dir policy files⟩ events world →
      NeverLoses dir events world := by
  intro hall
  have hkept := hall fixtureHash "/v".toList LocalSecurityPolicy.default fixtureFiles _ _
    fixture_plain fixture_empty (execute_run (step fixtureHash) fixtureStart (fixtureActions true))
  have hfree := hkept.noOverwrite _
    (List.mem_cons_of_mem _ (List.mem_cons_of_mem _ List.mem_cons_self))
    (fixtureCandidate "/b".toList) (fixtureFaults false) .ok (by rfl) (by decide)
  exact absurd hfree (by decide)

end Gcad.QuarantineRun
