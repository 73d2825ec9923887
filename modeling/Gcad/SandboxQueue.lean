import Gcad.BoundedLog
import Gcad.StepSystem
import Gcad.Threat

/-!
# The queue of the sandbox

Every submission appends a record that is pending and a work item with its
path. One worker takes the items in order, analyses the file without the lock
and writes the result over the first pending record of that path. The empty
path stands for no work at all, so an item with that path is dropped. The
questions whether a file exists and how large it is may raise an exception,
which nothing on the worker thread catches: the process ends.
-/

namespace Gcad.SandboxQueue

open Common BoundedLog StepSystem Threat

/-- `SandboxVerdict`. -/
inductive SandboxVerdict where
  | pending
  | clean
  | suspicious
  | malicious
  | analysisError
  deriving DecidableEq

/-- What `classify` and `generate_summary` read of a `SandboxBehavior`. -/
structure SandboxBehavior where
  /-- How many files the program created. -/
  filesCreated : ℕ
  /-- How many it changed. -/
  filesModified : ℕ
  /-- How many it deleted. -/
  filesDeleted : ℕ
  /-- Writes to the registry. -/
  registryWrites : ℕ
  /-- Connections it opened. -/
  networkConnections : ℕ
  /-- Sightings of a process that it is the parent of. -/
  childProcesses : ℕ
  /-- Sightings of committed pages that can be written and executed. -/
  memoryAllocations : ℕ
  /-- It reached for more privileges. -/
  attemptedPrivilegeEscalation : Bool
  /-- It called a function for debuggers. -/
  attemptedDebugApi : Bool
  /-- More than ten such pages were seen. -/
  attemptedProcessInjection : Bool
  /-- It tried to leave the job object. -/
  attemptedSandboxEscape : Bool
  /-- It put itself among the programs run at logon. -/
  modifiedStartupEntries : Bool
  /-- It encrypted files of the user. -/
  encryptedFiles : Bool
  /-- Names of functions, in the order they were noted. -/
  suspiciousApis : List Str

/-- The member initialisers of `SandboxBehavior`. -/
def SandboxBehavior.default : SandboxBehavior :=
  ⟨0,0,0,0,0,0,0,false,false,false,false,false,false,[]⟩

/-- `SandboxAnalysis`. -/
structure SandboxAnalysis where
  /-- The number that `submit` returned. -/
  id : UInt64
  /-- The path as it was submitted. -/
  filePath : Str
  /-- Pending until the worker has analysed the file. -/
  verdict : SandboxVerdict
  /-- The level that belongs to the verdict. -/
  threatLevel : ThreatLevel
  /-- From 0 to 100, always a whole number. -/
  riskScore : ℕ
  /-- What the program was seen doing. -/
  behavior : SandboxBehavior
  /-- The text that threats and observations carry. -/
  summary : Str
  /-- The time of the submission, then of the start of the analysis. -/
  startedAt : TimePoint
  /-- The end of the analysis. -/
  completedAt : TimePoint
  /-- Milliseconds between the two, as an `int`. -/
  durationMs : ℤ

/-- A new record of a path. -/
def SandboxAnalysis.submitted (id : UInt64) (filePath : Str) (startedAt : TimePoint) :
    SandboxAnalysis :=
  ⟨id,filePath,.pending,.safe,0,.default,[],startedAt,0,0⟩

/-- The risk that `classify` adds up. -/
def riskOf (b : SandboxBehavior) : ℕ :=
  (if b.attemptedSandboxEscape then 40 else 0)+
  (if b.attemptedProcessInjection then 35 else 0)+
  (if b.attemptedPrivilegeEscalation then 30 else 0)+
  (if b.attemptedDebugApi then 15 else 0)+
  (if b.encryptedFiles then 35 else 0)+
  (if b.modifiedStartupEntries then 20 else 0)+
  (if b.filesDeleted > 20 then 15 else if b.filesDeleted > 5 then 5 else 0)+
  (if b.registryWrites > 10 then 10 else if b.registryWrites > 3 then 5 else 0)+
  (if b.networkConnections > 5 then 10 else if b.networkConnections > 0 then 3 else 0)+
  (if b.childProcesses > 5 then 10 else if b.childProcesses > 2 then 5 else 0)+
  (if b.memoryAllocations > 50 then 5 else 0)+
  b.suspiciousApis.length*5

/-- `SandboxEngine::classify`. -/
def classify (b : SandboxBehavior) : SandboxVerdict×ℕ :=
  let risk := min (riskOf b) 100
  (if risk ≥ 70 then .malicious else if risk ≥ 30 then .suspicious else .clean,risk)

/-- The text of a verdict. -/
def verdictText : SandboxVerdict → Str
  | .malicious => "MALICIOUS".toList
  | .suspicious => "SUSPICIOUS".toList
  | .analysisError => "ERROR".toList
  | _ => "CLEAN".toList

/-- A sentence of the summary. -/
def sentence (flag : Bool) (text : String) : Str := if flag then text.toList else []

/-- `SandboxEngine::generate_summary`. -/
def generateSummary (b : SandboxBehavior) (verdict : SandboxVerdict) : Str :=
  "Verdict: ".toList++verdictText verdict++". ".toList++
  sentence b.attemptedSandboxEscape "Sandbox escape attempt detected. "++
  sentence b.attemptedProcessInjection "Process injection attempt. "++
  sentence b.attemptedPrivilegeEscalation "Privilege escalation attempt. "++
  sentence b.encryptedFiles "File encryption activity (possible ransomware). "++
  sentence b.modifiedStartupEntries "Modified startup/autorun entries. "++
  "Files: ".toList++toDecimal b.filesCreated++" created, ".toList++toDecimal b.filesModified++
  " modified, ".toList++toDecimal b.filesDeleted++" deleted. ".toList++
  "Registry: ".toList++toDecimal b.registryWrites++" writes. ".toList++
  "Network: ".toList++toDecimal b.networkConnections++" connections. ".toList++
  "Children: ".toList++toDecimal b.childProcesses++". ".toList++
  (if b.suspiciousApis=[] then []
  else "Suspicious APIs: ".toList++", ".toList.intercalate (b.suspiciousApis.take 5)++
    (if b.suspiciousApis.length > 5 then
      " (+".toList++toDecimal (b.suspiciousApis.length-5)++" more)".toList else [])++". ".toList)

/-- What the analysis of a file meets. -/
structure Observed where
  /-- Whether the file exists, or nothing where the question raises. -/
  found : Option Bool
  /-- The size of the file, or nothing where the question raises. -/
  fileSize : Option ℕ
  /-- What the program does while it is watched. -/
  behavior : SandboxBehavior
  /-- The clock at the start. -/
  startedAt : TimePoint
  /-- The clock at the end. -/
  completedAt : TimePoint

/-- The level of a verdict. -/
def verdictLevel : SandboxVerdict → ThreatLevel
  | .malicious => .high
  | .suspicious => .medium
  | _ => .safe

/-- `analyze_file`, or nothing where it raises an exception. -/
def analyzeFile (filePath : Str) (seen : Observed) : Option SandboxAnalysis :=
  match seen.found with
  | none => none
  | some false =>
    some ⟨0,filePath,.analysisError,.safe,0,.default,"File not found: ".toList++filePath,
      seen.startedAt,seen.completedAt,0⟩
  | some true =>
    match seen.fileSize with
    | none => none
    | some _ =>
      let classified := classify seen.behavior
      some ⟨0,filePath,classified.1,verdictLevel classified.1,classified.2,seen.behavior,
        generateSummary seen.behavior classified.1,seen.startedAt,seen.completedAt,
        ((seen.completedAt-seen.startedAt).tdiv (10^6)).bmod (2^32)⟩

/-- What a callback is given. -/
inductive Emission where
  /-- `emit_threat`, always high and a suspicious binary. -/
  | threat (description filePath : Str)
  /-- `emit_observation` with the confidence in hundredths. -/
  | observation (level : ThreatLevel) (hundredths : ℕ) (evidence filePath : Str)

/-- What the worker emits about a result. -/
def emissions (result : SandboxAnalysis) (filePath : Str) : List Emission :=
  match result.verdict with
  | .malicious =>
    [.threat ("Sandbox: ".toList++result.summary) filePath,
      .observation .high result.riskScore result.summary filePath]
  | .suspicious => [.observation .medium result.riskScore result.summary filePath]
  | _ => []

/-- The state of a `SandboxEngine` and of its worker. -/
structure SandboxEngine where
  /-- The records, oldest first. -/
  analyses : List SandboxAnalysis
  /-- Paths and timeouts that the worker has not taken. -/
  pendingQueue : List (Str×ℤ)
  /-- The number of the next submission. -/
  nextId : UInt64
  /-- How many analyses ended. -/
  eventsProcessed : UInt64
  /-- How many of them were malicious. -/
  threatsDetected : UInt64
  /-- `file_path` and `timeout` of the worker, while it analyses. -/
  worker : Option (Str×ℤ)
  /-- An exception has left the worker thread and ended the process. -/
  terminated : Bool

/-- A new engine. -/
def create : SandboxEngine := ⟨[],[],1,0,0,none,false⟩

/-- `MAX_ANALYSES`. -/
def MAX_ANALYSES : ℕ := 500

/-- `submit`. -/
def submit (s : SandboxEngine) (filePath : Str) (timeoutMs : ℤ) (now : TimePoint) :
    SandboxEngine×UInt64 :=
  ({ s with
    analyses := push MAX_ANALYSES s.analyses (.submitted s.nextId filePath now)
    pendingQueue := s.pendingQueue++[(filePath,timeoutMs)]
    nextId := s.nextId+1 },s.nextId)

/-- The start of a round of `worker_loop`: an item with an empty path is as
good as none. -/
def takeItem (s : SandboxEngine) : SandboxEngine :=
  match s.pendingQueue with
  | [] => s
  | item::rest =>
    { s with pendingQueue := rest,worker := if item.1=[] then none else some item }

/-- The loop that stores a result in the first pending record of a path. -/
def storeResult (filePath : Str) (result : SandboxAnalysis) :
    List SandboxAnalysis → List SandboxAnalysis
  | [] => []
  | a::rest =>
    if a.filePath=filePath ∧ a.verdict=.pending then { result with id := a.id }::rest
    else a::storeResult filePath result rest

/-- The rest of the round of `worker_loop`. -/
def finishItem (s : SandboxEngine) (filePath : Str) (seen : Observed) :
    SandboxEngine×List Emission :=
  match analyzeFile filePath seen with
  | none => ({ s with terminated := true },[])
  | some result =>
    ({ s with
      analyses := storeResult filePath result s.analyses
      eventsProcessed := s.eventsProcessed+1
      threatsDetected :=
        if result.verdict=.malicious then s.threatsDetected+1 else s.threatsDetected
      worker := none },emissions result filePath)

/-- What happens at a step, with its reply. -/
inductive Label where
  /-- A call of `submit` returns a number. -/
  | submit (filePath : Str) (timeoutMs : ℤ) (now : TimePoint) (id : UInt64)
  /-- The worker looks at the queue. -/
  | take
  /-- The worker ends an analysis, or an exception ends the worker. -/
  | finish (filePath : Str) (seen : Observed) (emitted : List Emission)

/-- The steps of callers and worker, in any order, while the process runs. -/
inductive Step : SandboxEngine → Label → SandboxEngine → Prop where
  /-- A caller submits a path. -/
  | submit (s : SandboxEngine) (filePath : Str) (timeoutMs : ℤ) (now : TimePoint)
      (running : s.terminated=false) :
      Step s (.submit filePath timeoutMs now (submit s filePath timeoutMs now).2)
        (submit s filePath timeoutMs now).1
  /-- The worker is between items. -/
  | take (s : SandboxEngine) (running : s.terminated=false) (idle : s.worker=none) :
      Step s .take (takeItem s)
  /-- The worker has an item. -/
  | finish (s : SandboxEngine) (filePath : Str) (timeoutMs : ℤ) (seen : Observed)
      (running : s.terminated=false) (busy : s.worker=some (filePath,timeoutMs)) :
      Step s (.finish filePath seen (finishItem s filePath seen).2)
        (finishItem s filePath seen).1

/-- A recorded step. -/
abbrev SandboxEvent := Event SandboxEngine Label

/-- The number and path of a submission. -/
def submission (e : SandboxEvent) : Option (UInt64×Str) :=
  match e.label with
  | .submit filePath _ _ id => some (id,filePath)
  | _ => none

/-- All submissions, oldest first. -/
def submissions (events : List SandboxEvent) : List (UInt64×Str) := events.filterMap submission

/-- The process has ended, or the queue is empty and the worker between items. -/
def Over (s : SandboxEngine) : Prop := s.terminated=true ∨ s.pendingQueue=[] ∧ s.worker=none

/-- A question about the file raises an exception: whether it exists, or how
large it is. -/
def Raises (seen : Observed) : Prop :=
  seen.found=none ∨ seen.found=some true ∧ seen.fileSize=none

/-- A record is pending or holds the analysis of its path by the worker. -/
def Own (events : List SandboxEvent) (r : SandboxAnalysis) : Prop :=
  r.verdict=.pending ∨ ∃ e ∈ events,∃ seen emitted result,
    e.label=.finish r.filePath seen emitted ∧ analyzeFile r.filePath seen=some result ∧
      r={ result with id := r.id }

/-- Every submission has its record with the number it was given, every
result is that of its own path, and nothing is pending once nothing more
happens. -/
structure Completes (events : List SandboxEvent) (s : SandboxEngine) : Prop where
  /-- The records are those of the submissions. -/
  kept : s.analyses.map (fun r => (r.id,r.filePath))=submissions events
  /-- Every result is that of its path. -/
  own : ∀ r ∈ s.analyses,Own events r
  /-- Nothing is left over. -/
  settled : Over s → ∀ r ∈ s.analyses,r.verdict≠.pending

/-- No analysis of the run raises an exception. -/
def Quietly (events : List SandboxEvent) : Prop :=
  ∀ e ∈ events,∀ filePath seen emitted,e.label=.finish filePath seen emitted → ¬Raises seen

section Results

/-- An analysis has no result exactly where a question about its file raises. -/
theorem analyzeFile_eq_none {filePath : Str} {seen : Observed} :
    analyzeFile filePath seen=none ↔ Raises seen := by
  rw [analyzeFile,Raises]
  cases seen.found with
  | none => exact ⟨fun _ => .inl rfl,fun _ => rfl⟩
  | some found =>
    cases found with
    | false => exact ⟨fun h => absurd h nofun,fun h => absurd h (by simp)⟩
    | true =>
      cases seen.fileSize with
      | none => exact ⟨fun _ => .inr ⟨rfl,rfl⟩,fun _ => rfl⟩
      | some size => exact ⟨fun h => absurd h nofun,fun h => absurd h (by simp)⟩

/-- The result of an analysis is one of its path and not pending. -/
theorem analyzeFile_result {filePath : Str} {seen : Observed} {result : SandboxAnalysis}
    (h : analyzeFile filePath seen=some result) :
    result.filePath=filePath ∧ result.verdict≠.pending := by
  rw [analyzeFile] at h
  cases hfound : seen.found with
  | none =>
    rw [hfound] at h
    exact absurd h nofun
  | some found =>
    rw [hfound] at h
    cases found with
    | false =>
      rw [←Option.some.inj h]
      exact ⟨rfl,SandboxVerdict.noConfusion⟩
    | true =>
      cases hsize : seen.fileSize with
      | none =>
        rw [hsize] at h
        exact absurd h nofun
      | some size =>
        rw [hsize] at h
        rw [←Option.some.inj h]
        refine ⟨rfl,?_⟩
        dsimp only [classify]
        split_ifs
        · exact SandboxVerdict.noConfusion
        · exact SandboxVerdict.noConfusion
        · exact SandboxVerdict.noConfusion

variable {filePath : Str} {result : SandboxAnalysis}

/-- Storing a result keeps the numbers and paths. -/
theorem storeResult_keys (hpath : result.filePath=filePath) (analyses : List SandboxAnalysis) :
    (storeResult filePath result analyses).map (fun r => (r.id,r.filePath))=
      analyses.map fun r => (r.id,r.filePath) := by
  induction analyses with
  | nil => rfl
  | cons a rest ih =>
    rw [storeResult]
    split_ifs with hfound
    · rw [List.map_cons,List.map_cons,hpath,hfound.1]
    · rw [List.map_cons,List.map_cons,ih]

/-- A record after storing is an old one, or the result under an old number. -/
theorem mem_storeResult {r : SandboxAnalysis} {analyses : List SandboxAnalysis}
    (h : r ∈ storeResult filePath result analyses) :
    r ∈ analyses ∨ r={ result with id := r.id } := by
  induction analyses with
  | nil => exact absurd h List.not_mem_nil
  | cons a rest ih =>
    rw [storeResult] at h
    split_ifs at h with hfound
    · rcases List.mem_cons.mp h with rfl | hrest
      · exact .inr rfl
      · exact .inl (List.mem_cons_of_mem _ hrest)
    · rcases List.mem_cons.mp h with rfl | hrest
      · exact .inl List.mem_cons_self
      · exact (ih hrest).imp_left (List.mem_cons_of_mem _)

/-- A record of a path is pending. -/
def Waits (path : Str) (r : SandboxAnalysis) : Bool := r.filePath=path ∧ r.verdict=.pending

/-- How many records of a path are pending. -/
def pendingOf (path : Str) (analyses : List SandboxAnalysis) : ℕ := analyses.countP (Waits path)

/-- Storing a result takes one pending record of its path away. -/
theorem pendingOf_storeResult (hdone : result.verdict≠.pending) {analyses : List SandboxAnalysis}
    (hsome : 0 < pendingOf filePath analyses) (path : Str) :
    pendingOf path (storeResult filePath result analyses)+(if filePath=path then 1 else 0)=
      pendingOf path analyses := by
  induction analyses with
  | nil => exact absurd hsome (Nat.lt_irrefl 0)
  | cons a rest ih =>
    rw [storeResult,pendingOf,pendingOf]
    by_cases hfound : a.filePath=filePath ∧ a.verdict=.pending
    · rw [if_pos hfound]
      have hnew : Waits path { result with id := a.id }=false := decide_eq_false fun h => hdone h.2
      have hold : Waits path a=decide (filePath=path) := by
        rw [Waits,hfound.1,hfound.2]
        simp only [and_true]
      rw [List.countP_cons,List.countP_cons,hnew,hold]
      simp only [Bool.false_eq_true,if_false,decide_eq_true_eq,Nat.add_zero]
    · have hold : Waits filePath a=false := decide_eq_false hfound
      rw [pendingOf,List.countP_cons,hold,if_neg Bool.false_ne_true] at hsome
      have hrest := ih hsome
      rw [pendingOf,pendingOf] at hrest
      rw [if_neg hfound,List.countP_cons,List.countP_cons]
      omega

end Results

section Invariant

/-- The paths of the work that is not done: what the worker has and what is
queued. -/
def workOf (s : SandboxEngine) : List Str :=
  (s.worker.toList++s.pendingQueue).map Prod.fst

/-- The records and the work that is not done agree. -/
structure Queued (events : List SandboxEvent) (s : SandboxEngine) : Prop where
  /-- The records are those of the submissions. -/
  kept : s.analyses.map (fun r => (r.id,r.filePath))=submissions events
  /-- Every result is that of its path. -/
  own : ∀ r ∈ s.analyses,Own events r
  /-- As many records of a path are pending as there is work for it. -/
  waiting : ∀ path,path≠[] → pendingOf path s.analyses=(workOf s).count path
  /-- A record of the empty path stays pending. -/
  dropped : ∀ r ∈ s.analyses,r.filePath=[] → r.verdict=.pending
  /-- The worker never has the empty path. -/
  busy : ∀ item ∈ s.worker,item.1≠[]
  /-- Where an exception ended the process, the worker still has its item. -/
  ended : s.terminated=true → s.worker≠none ∧ ¬Quietly events
  /-- Before that no analysis has raised. -/
  running : s.terminated=false → Quietly events

/-- A longer history has more results. -/
theorem Own.more {events : List SandboxEvent} {r : SandboxAnalysis} (h : Own events r)
    (e : SandboxEvent) : Own (events++[e]) r := by
  refine h.imp_right ?_
  rintro ⟨other,hmem,hown⟩
  exact ⟨other,List.mem_append_left _ hmem,hown⟩

/-- A step that ends no analysis with an exception leaves the run quiet. -/
theorem Quietly.more {events : List SandboxEvent} (h : Quietly events) {e : SandboxEvent}
    (quiet : ∀ filePath seen emitted,e.label=.finish filePath seen emitted → ¬Raises seen) :
    Quietly (events++[e]) := by
  intro other member
  rcases List.mem_append.mp member with member | member
  · exact h other member
  · rw [List.mem_singleton.mp member]
    exact quiet

/-- A submission adds a record and the work for it. -/
theorem Queued.submit {events : List SandboxEvent} {s : SandboxEngine} (inv : Queued events s)
    (running : s.terminated=false) (hroom : s.analyses.length < MAX_ANALYSES) (filePath : Str)
    (timeoutMs : ℤ) (now : TimePoint) :
    Queued (events++[⟨s,.submit filePath timeoutMs now s.nextId,
      (submit s filePath timeoutMs now).1⟩]) (submit s filePath timeoutMs now).1 := by
  have hpush : (SandboxQueue.submit s filePath timeoutMs now).1.analyses=
      s.analyses++[.submitted s.nextId filePath now] := by
    rw [SandboxQueue.submit]
    dsimp only
    have hfits : s.analyses.length+1-MAX_ANALYSES=0 := by omega
    rw [push,retain,List.length_append,List.length_singleton,hfits,List.drop_zero]
  have hworker : (SandboxQueue.submit s filePath timeoutMs now).1.worker=s.worker := by
    rw [SandboxQueue.submit]
  have hqueue : (SandboxQueue.submit s filePath timeoutMs now).1.pendingQueue=
      s.pendingQueue++[(filePath,timeoutMs)] := by
    rw [SandboxQueue.submit]
  have hrunning : (SandboxQueue.submit s filePath timeoutMs now).1.terminated=s.terminated := by
    rw [SandboxQueue.submit]
  refine ⟨?_,?_,?_,?_,?_,?_,?_⟩
  · rw [hpush,List.map_append,inv.kept,submissions,submissions,List.filterMap_append]
    rfl
  · intro r hr
    rw [hpush] at hr
    rcases List.mem_append.mp hr with hold | hnew
    · exact (inv.own r hold).more _
    · rw [List.mem_singleton.mp hnew]
      exact .inl rfl
  · intro path hpath
    have hwork : workOf (SandboxQueue.submit s filePath timeoutMs now).1=workOf s++[filePath] := by
      rw [workOf,workOf,hworker,hqueue,←List.append_assoc,List.map_append,List.map_singleton]
    have hnew : Waits path (.submitted s.nextId filePath now)=(filePath==path) := by
      rw [Waits,SandboxAnalysis.submitted]
      simp only [and_true]
      exact (beq_eq_decide filePath path).symm
    rw [hpush,hwork,pendingOf,List.countP_append,List.count_append,←inv.waiting path hpath,
      pendingOf,List.countP_singleton,List.count_singleton,hnew]
  · intro r hr hempty
    rw [hpush] at hr
    rcases List.mem_append.mp hr with hold | hnew
    · exact inv.dropped r hold hempty
    · rw [List.mem_singleton.mp hnew]
      rfl
  · rw [hworker]
    exact inv.busy
  · rw [hrunning,running]
    exact fun hended => absurd hended Bool.false_ne_true
  · exact fun _ => (inv.running running).more fun _ _ _ h => by cases h

/-- Taking an item from the queue drops only the empty path. -/
theorem Queued.take {events : List SandboxEvent} {s : SandboxEngine} (inv : Queued events s)
    (running : s.terminated=false) (idle : s.worker=none) :
    Queued (events++[⟨s,.take,takeItem s⟩]) (takeItem s) := by
  have hsubmitted : submissions (events++[⟨s,.take,takeItem s⟩])=submissions events := by
    rw [submissions,List.filterMap_append]
    exact List.append_nil _
  have hrecords : (takeItem s).analyses=s.analyses := by
    rw [takeItem]
    split
    · rfl
    · rfl
  have hrunning : (takeItem s).terminated=s.terminated := by
    rw [takeItem]
    split
    · rfl
    · rfl
  refine ⟨?_,?_,?_,?_,?_,?_,?_⟩
  · rw [hrecords,hsubmitted]
    exact inv.kept
  · intro r hr
    rw [hrecords] at hr
    exact (inv.own r hr).more _
  · intro path hpath
    rw [hrecords,inv.waiting path hpath,workOf,workOf,takeItem,idle]
    cases hqueue : s.pendingQueue with
    | nil =>
      dsimp only
      rw [idle,hqueue]
    | cons item rest =>
      dsimp only
      split_ifs with hempty
      · rw [Option.toList_none,List.nil_append,List.nil_append,List.map_cons,hempty,
          List.count_cons_of_ne (Ne.symm hpath)]
      · rfl
  · intro r hr hempty
    rw [hrecords] at hr
    exact inv.dropped r hr hempty
  · intro item hitem
    rw [takeItem] at hitem
    cases hqueue : s.pendingQueue with
    | nil =>
      rw [hqueue] at hitem
      exact inv.busy item hitem
    | cons next rest =>
      rw [hqueue] at hitem
      dsimp only at hitem
      split_ifs at hitem with hempty
      · exact absurd hitem.symm (Option.some_ne_none _)
      · rw [←Option.some.inj hitem]
        exact hempty
  · rw [hrunning,running]
    exact fun hended => absurd hended Bool.false_ne_true
  · exact fun _ => (inv.running running).more fun _ _ _ h => absurd h nofun

/-- A finished analysis is stored in a record that was pending. -/
theorem Queued.store {events : List SandboxEvent} {s : SandboxEngine} (inv : Queued events s)
    {filePath : Str} {timeoutMs : ℤ} (running : s.terminated=false)
    (busy : s.worker=some (filePath,timeoutMs)) {seen : Observed} {result : SandboxAnalysis}
    (hresult : analyzeFile filePath seen=some result) :
    Queued (events++[⟨s,.finish filePath seen (finishItem s filePath seen).2,
      (finishItem s filePath seen).1⟩]) (finishItem s filePath seen).1 := by
  obtain ⟨hpath,hdone⟩ := analyzeFile_result hresult
  have hne : filePath≠[] := inv.busy _ busy
  have hwork : workOf s=filePath::s.pendingQueue.map Prod.fst := by
    rw [workOf,busy]
    rfl
  have hsome : 0 < pendingOf filePath s.analyses := by
    rw [inv.waiting filePath hne,hwork,List.count_cons_self]
    exact Nat.succ_pos _
  have hrecords : (finishItem s filePath seen).1.analyses=
      storeResult filePath result s.analyses := by
    rw [finishItem,hresult]
  have hworker : (finishItem s filePath seen).1.worker=none := by rw [finishItem,hresult]
  have hqueue : (finishItem s filePath seen).1.pendingQueue=s.pendingQueue := by
    rw [finishItem,hresult]
  have hrunning : (finishItem s filePath seen).1.terminated=s.terminated := by
    rw [finishItem,hresult]
  refine ⟨?_,?_,?_,?_,?_,?_,?_⟩
  · rw [hrecords,storeResult_keys hpath,inv.kept,submissions,submissions,List.filterMap_append]
    exact (List.append_nil _).symm
  · intro r hr
    rw [hrecords] at hr
    rcases mem_storeResult hr with hold | hnew
    · exact (inv.own r hold).more _
    · have hsame : r.filePath=filePath := by
        rw [hnew]
        exact hpath
      refine .inr ⟨_,List.mem_append_right _ List.mem_cons_self,seen,
        (finishItem s filePath seen).2,result,?_,?_,hnew⟩
      · rw [hsame]
      · rw [hsame]
        exact hresult
  · intro path hne'
    have hstored := pendingOf_storeResult hdone hsome path
    rw [inv.waiting path hne',hwork,List.count_cons] at hstored
    rw [hrecords,workOf,hworker,hqueue,Option.toList_none,List.nil_append]
    simp only [beq_iff_eq] at hstored
    omega
  · intro r hr hempty
    rw [hrecords] at hr
    rcases mem_storeResult hr with hold | hnew
    · exact inv.dropped r hold hempty
    · rw [hnew] at hempty
      exact absurd (hpath.symm.trans hempty) hne
  · rw [hworker]
    exact fun item hitem => absurd hitem.symm (Option.some_ne_none _)
  · rw [hrunning,running]
    exact fun hended => absurd hended Bool.false_ne_true
  · refine fun _ => (inv.running running).more fun _ _ _ h => ?_
    obtain ⟨rfl,rfl,-⟩ := Label.finish.inj h
    rw [←analyzeFile_eq_none,hresult]
    exact Option.some_ne_none _

/-- An exception leaves all records and the work that is not done. -/
theorem Queued.raise {events : List SandboxEvent} {s : SandboxEngine} (inv : Queued events s)
    {filePath : Str} {timeoutMs : ℤ} (busy : s.worker=some (filePath,timeoutMs)) {seen : Observed}
    (hraised : analyzeFile filePath seen=none) :
    Queued (events++[⟨s,.finish filePath seen (finishItem s filePath seen).2,
      (finishItem s filePath seen).1⟩]) (finishItem s filePath seen).1 := by
  have hstate : (finishItem s filePath seen).1={ s with terminated := true } := by
    rw [finishItem,hraised]
  rw [hstate]
  refine ⟨?_,fun r hr => (inv.own r hr).more _,inv.waiting,inv.dropped,inv.busy,?_,?_⟩
  · rw [inv.kept,submissions,submissions,List.filterMap_append]
    exact (List.append_nil _).symm
  · refine fun _ => ⟨fun hnone => ?_,fun quietly => ?_⟩
    · exact absurd (busy.symm.trans hnone) (Option.some_ne_none _)
    · exact quietly _ (List.mem_append_right _ List.mem_cons_self) _ _ _ rfl
        (analyzeFile_eq_none.mp hraised)
  · exact fun hrunning => absurd hrunning.symm Bool.false_ne_true

/-- In a run of at most as many submissions as are kept, the records and the
work that is not done agree. -/
theorem run_queued {events : List SandboxEvent} {s : SandboxEngine}
    (run : Run Step create events s) (hbound : (submissions events).length ≤ MAX_ANALYSES) :
    Queued events s := by
  induction run with
  | nil =>
    exact ⟨rfl,fun _ h => absurd h List.not_mem_nil,fun _ _ => rfl,
      fun _ h => absurd h List.not_mem_nil,fun _ h => absurd h.symm (Option.some_ne_none _),
      fun h => absurd h Bool.false_ne_true,fun _ _ h => absurd h List.not_mem_nil⟩
  | @snoc events s t label run step ih =>
    have hlength : (submissions (events++[⟨s,label,t⟩])).length=
        (submissions events).length+(submissions [⟨s,label,t⟩]).length := by
      rw [submissions,List.filterMap_append,List.length_append]
      rfl
    have inv := ih (by omega)
    have hrecords : s.analyses.length=(submissions events).length := by
      rw [←inv.kept,List.length_map]
    cases step with
    | submit filePath timeoutMs now running =>
      have hone : (submissions [(⟨s,.submit filePath timeoutMs now s.nextId,
          (submit s filePath timeoutMs now).1⟩ : SandboxEvent)]).length=1 := rfl
      refine inv.submit running ?_ filePath timeoutMs now
      rw [hrecords]
      exact lt_of_lt_of_le (by rw [hlength]; exact Nat.lt_add_of_pos_right Nat.one_pos) hbound
    | take running idle => exact inv.take running idle
    | finish filePath timeoutMs seen running busy =>
      cases hresult : analyzeFile filePath seen with
      | none => exact inv.raise busy hresult
      | some result => exact inv.store running busy hresult

/-- In every run of callers and worker with at most as many submissions as are
kept: the records keep their numbers and hold results of their own paths, and
nothing is pending once nothing more happens, if and only if until then the
empty path was not submitted and no question about a file raised an exception. -/
theorem submissions_complete_iff {events : List SandboxEvent} {s : SandboxEngine}
    (run : Run Step create events s) (hbound : (submissions events).length ≤ MAX_ANALYSES) :
    Completes events s ↔ (Over s → (∀ p ∈ submissions events,p.2≠[]) ∧ Quietly events) := by
  have inv := run_queued run hbound
  have hkeys : ∀ r ∈ s.analyses,(r.id,r.filePath) ∈ submissions events := by
    intro r hr
    rw [←inv.kept]
    exact List.mem_map_of_mem hr
  constructor
  · intro completes hover
    have hdone := completes.settled hover
    refine ⟨?_,?_⟩
    · rintro ⟨id,path⟩ hp rfl
      rw [←inv.kept] at hp
      obtain ⟨r,hr,hkey⟩ := List.mem_map.mp hp
      exact hdone r hr (inv.dropped r hr (Prod.mk.inj hkey).2)
    · cases hended : s.terminated with
      | false => exact inv.running hended
      | true =>
        -- the item that raised is still with the worker, so its record is pending
        obtain ⟨item,hitem⟩ := Option.ne_none_iff_exists'.mp (inv.ended hended).1
        have hwaits := inv.waiting item.1 (inv.busy item hitem)
        rw [workOf,hitem,Option.toList_some,List.singleton_append,List.map_cons,
          List.count_cons_self] at hwaits
        have hsome : 0 < pendingOf item.1 s.analyses := by
          rw [hwaits]
          exact Nat.succ_pos _
        obtain ⟨r,hr,hpending⟩ := List.countP_pos_iff.mp hsome
        exact absurd (of_decide_eq_true hpending).2 (hdone r hr)
  · refine fun h => ⟨inv.kept,inv.own,fun hover r hr hpending => ?_⟩
    obtain ⟨hnames,hquietly⟩ := h hover
    rcases hover with hended | ⟨hqueue,hworker⟩
    · exact (inv.ended hended).2 hquietly
    · have hne : r.filePath≠[] := hnames _ (hkeys r hr)
      have hsome : 0 < pendingOf r.filePath s.analyses :=
        List.countP_pos_iff.mpr ⟨r,hr,decide_eq_true ⟨rfl,hpending⟩⟩
      rw [inv.waiting r.filePath hne,workOf,hqueue,hworker] at hsome
      exact absurd hsome (Nat.lt_irrefl 0)

end Invariant

section EmptyPath

/-- The empty path has been submitted. -/
def emptySubmitted : SandboxEngine := (submit create [] 30000 0).1

/-- Its record stays pending when the queue is empty and the worker between
items. -/
theorem empty_path_stays_pending :
    ∃ events s,Run Step create events s ∧ (submissions events).length ≤ MAX_ANALYSES ∧
      s.pendingQueue=[] ∧ s.worker=none ∧ s.terminated=false ∧ ¬Completes events s := by
  have hrun := (Run.nil.snoc (Step.submit create [] 30000 0 rfl)).snoc
    (Step.take emptySubmitted rfl rfl)
  refine ⟨_,_,hrun,by decide,rfl,rfl,rfl,fun completes => ?_⟩
  exact completes.settled (.inr ⟨rfl,rfl⟩) _ List.mem_cons_self rfl

/-- The path of a file. -/
def samplePath : Str := ['f']

/-- A look at a path where there is no file. -/
def notFound : Observed := ⟨some false,none,.default,0,0⟩

/-- Two submissions of one path are both analysed. -/
theorem repeated_path_completes :
    ∃ events s,Run Step create events s ∧ (submissions events).length=2 ∧ Over s ∧
      Completes events s := by
  have hboth := (Run.nil.snoc (Step.submit create samplePath 1 0 rfl)).snoc
    (.submit _ samplePath 2 0 rfl)
  have hfirst := (hboth.snoc (.take _ rfl rfl)).snoc (.finish _ samplePath 1 notFound rfl rfl)
  have hrun := (hfirst.snoc (.take _ rfl rfl)).snoc (.finish _ samplePath 2 notFound rfl rfl)
  have hpaths := (submissions_complete_iff hrun (by decide)).mpr fun _ => ⟨by decide,?_⟩
  · exact ⟨_,_,hrun,rfl,.inr ⟨rfl,rfl⟩,hpaths⟩
  · -- both looks find that there is no file
    intro e member filePath seen emitted hlabel
    have hseen : seen=notFound := by
      simp only [List.nil_append,List.cons_append,List.mem_cons,List.not_mem_nil,or_false]
        at member
      rcases member with rfl | rfl | rfl | rfl | rfl | rfl
      · exact absurd hlabel nofun
      · exact absurd hlabel nofun
      · exact absurd hlabel nofun
      · exact (Label.finish.inj hlabel).2.1.symm
      · exact absurd hlabel nofun
      · exact (Label.finish.inj hlabel).2.1.symm
    rw [hseen]
    exact fun h => absurd h (by simp [Raises,notFound])

end EmptyPath

end Gcad.SandboxQueue
