import Gcad.DeepScan
import Gcad.MemoryWalk
import Gcad.PoolAccounts
import Gcad.StepSystem

/-!
# Results of a scan

What `DeepScanner` of deep_scanner.cpp files and reports while the monitor
submits targets, the workers of the pool scan them, and callers start, cancel
and register callbacks. Every step is what a thread does between two accesses to
what is shared. A file or a process may change between two steps, so each step
brings what it finds. The monitor may throw, and a `cancel_scan` may be late and
clear the queue of the next scan. Whatever the order, what is filed is what was
found, once, and nothing of an earlier scan is among it.
-/

namespace Gcad.ScanRun

open Common ByteView Observation StepSystem PoolAccounts ScanVerdict
open MemoryWalk hiding total
open ArtifactTrust (ArtifactFile Tools)
open Authenticode (Primitives)
open DeepScan (ScanMode)

/-- What a task of the pool scans. -/
inductive Target where
  /-- A file. -/
  | file (path : Str)
  /-- The memory of a process. -/
  | process (pid : UInt32) (pname : Str)

/-- What a task does when it has filed a result. -/
inductive Next where
  /-- `scan_file` reports with the callbacks it has copied. -/
  | escalate (resCb obsCb : Bool)
  /-- `scan_process_memory` goes on with its walk. -/
  | walk (addr : UInt64) (scanned : ℕ)

/-- Where a task stands. -/
inductive Stage where
  /-- Before it loads `cancel_`. -/
  | entered
  /-- `scan_file`, before it reads the file. -/
  | reading
  /-- `scan_file` after its checks. -/
  | judged (found : Option ScanResult)
  /-- The loop of `scan_process_memory`. -/
  | walking (addr : UInt64) (scanned : ℕ)
  /-- Before it adds to `threats_found_`. -/
  | counting (result : ScanResult) (next : Next)
  /-- Before it files the result. -/
  | filing (result : ScanResult) (next : Next)
  /-- Before it calls the result callback. -/
  | reporting (result : ScanResult) (next : Next)
  /-- `scan_file`, before the check of executables. -/
  | escalating (obsCb : Bool)
  /-- Before it adds to `files_scanned_`. -/
  | finishing

/-- A task that a worker has taken. -/
structure Job where
  /-- What it scans. -/
  target : Target
  /-- Where it stands. -/
  stage : Stage

/-- Where the monitor thread stands. -/
inductive Monitor where
  /-- Not there, or returned. -/
  | idle
  /-- Enumerating. -/
  | enumerating
  /-- At the head of the submitting loop. -/
  | submitting (left : List Target)
  /-- Before an `enqueue`. -/
  | pushing (target : Target) (left : List Target)
  /-- The loop that waits for the tasks. -/
  | waiting

/-- The targets that the monitor has still to submit. -/
def Monitor.left : Monitor → List Target
  | .submitting left => left
  | .pushing target left => target::left
  | _ => []

/-- The members of `DeepScanner`. -/
structure State where
  /-- A scan is under way. -/
  scanning : Bool
  /-- Its cancellation was asked for. -/
  cancel : Bool
  /-- Calls of `cancel_scan` between its two stores. -/
  flagging : ℕ
  /-- Calls of `cancel_scan` between the second store and `clear_queue`. -/
  clearing : ℕ
  /-- Quick, full or custom. -/
  currentMode : ScanMode
  /-- The thread that waits for the workers. -/
  monitor : Monitor
  /-- The queue of `pool_`. -/
  queue : List Target
  /-- The tasks of the workers. -/
  running : List Job
  /-- Files the scan enumerated. -/
  filesTotal : ℕ
  /-- Files it is done with. -/
  filesScanned : ℕ
  /-- Files it reported. -/
  threatsFound : ℕ
  /-- The reports of the scan. -/
  results : List ScanResult
  /-- Whether `result_cb_` is set. -/
  resultCb : Bool
  /-- Whether `observation_cb_` is set. -/
  observationCb : Bool

/-- A new scanner. -/
def State.initial : State :=
  ⟨false,false,0,0,.quick,.idle,[],[],0,0,0,[],false,false⟩

/-- What a task does in one step. -/
inductive Work where
  /-- It loads `cancel_`. -/
  | check
  /-- It reads a file and checks it. -/
  | read (file : ScannedFile)
  /-- It copies the callbacks. -/
  | copy
  /-- It adds to `threats_found_`. -/
  | count
  /-- It files the result. -/
  | file
  /-- It calls the result callback. -/
  | report
  /-- It inspects an executable. -/
  | escalate (artifact : ArtifactFile)
  /-- One turn of the walk through a process. -/
  | visit (memory : Memory)
  /-- Something throws. -/
  | throw

/-- What one thread does in one step. A number picks a task. -/
inductive Action where
  /-- `start_scan`, once it has found the pool idle. -/
  | start (mode : ScanMode)
  /-- The monitor has enumerated the targets. -/
  | enumerate (targets : List Target)
  /-- The monitor loads `cancel_` before a submission. -/
  | submit
  /-- The monitor enqueues a task. -/
  | push
  /-- The waiting loop ends. -/
  | finishScan
  /-- Something throws in the monitor, which catches it and returns. -/
  | abort
  /-- A worker takes a task. -/
  | take
  /-- A task goes on. -/
  | work (i : ℕ) (work : Work)
  /-- A task adds to `files_scanned_` and returns. -/
  | finish (i : ℕ)
  /-- `cancel_scan` stores `cancel_`. -/
  | cancelFlag
  /-- It stores `scanning_`. -/
  | cancelStop
  /-- It clears the queue, of the next scan if that has begun. -/
  | cancelClear
  /-- The callback for reports is installed or removed. -/
  | onResult (present : Bool)
  /-- The callback for observations is installed or removed. -/
  | onObservation (present : Bool)

/-- What a step shows. -/
inductive Reply where
  /-- Nothing. -/
  | silent
  /-- A scan begins. -/
  | began
  /-- The targets of the scan. -/
  | given (targets : List Target)
  /-- A worker took a task. -/
  | took (target : Target)
  /-- A task found the scan cancelled. -/
  | skipped (target : Target)
  /-- A file was checked. -/
  | scanned (target : Target) (found : Option ScanResult)
  /-- A buffer of a process holds something. -/
  | held (target : Target) (result : ScanResult)
  /-- The walk through a process is over. -/
  | walked (target : Target)
  /-- A threat was counted. -/
  | counted (result : ScanResult)
  /-- A result was filed. -/
  | filed (result : ScanResult)
  /-- A result was reported, with the callback or without. -/
  | reported (result : ScanResult) (called : Bool)
  /-- An executable was inspected. -/
  | inspected (observations : List SecurityObservation)
  /-- A task has thrown. -/
  | threw (job : Job)
  /-- A task has returned. -/
  | finished (target : Target)

/-- What the scanner works with. -/
structure Equipment (σ τ : Type) where
  /-- The signatures and measures. -/
  scanner : Scanner
  /-- The primitives of the offline verification. -/
  primitives : Primitives σ τ
  /-- The tools of the trust engine. -/
  tools : Tools

section Steps

variable {σ τ : Type} (eq : Equipment σ τ)

/-- The observations of a file. -/
def observe (mode : ScanMode) (obsCb : Bool) (target : Target) (artifact : ArtifactFile) :
    List SecurityObservation :=
  match target with
  | .file path => escalation eq.primitives eq.tools mode obsCb path artifact
  | .process _ _ => []

/-- Where a task goes after its result is reported. -/
def Next.stage : Next → Stage
  | .escalate _ obsCb => .escalating obsCb
  | .walk addr scanned => .walking addr scanned

/-- Whether the result callback is called: the copy of it, or what is set now. -/
def Next.calls (next : Next) (resultCb : Bool) : Bool :=
  match next with
  | .escalate resCb _ => resCb
  | .walk _ _ => resultCb

/-- Where a task begins its scan. -/
def Target.begin : Target → Stage
  | .file _ => .reading
  | .process _ _ => .walking 0 0

/-- A task that reads a file. -/
def readFile (target : Target) (file : ScannedFile) : Option (Stage×Reply) :=
  match target with
  | .file path =>
    match scanFile eq.scanner path file with
    | .ok found => some (.judged found,.scanned target found)
    | .error _ => none
  | .process _ _ => none

/-- What a buffer of a process is found to hold. -/
def judge (target : Target) (region : Region) : Option ScanResult :=
  match target with
  | .file _ => none
  | .process pid pname => scanBuffer eq.scanner region.bytes (origin pid pname region.base)

/-- One turn of the walk through a process. -/
def walkTurn (cancel : Bool) (target : Target) (addr : UInt64) (scanned : ℕ) (memory : Memory) :
    Stage×Reply :=
  if cancel then (.finishing,.skipped target)
  else if kMaxPerProc ≤ scanned then (.finishing,.walked target)
  else
    match visit memory addr with
    | none => (.finishing,.walked target)
    | some (next,none) => (.walking next scanned,.silent)
    | some (next,some region) =>
      match judge eq target region with
      | none => (.walking next (scanned+region.bytes.length),.silent)
      | some result =>
        (.counting result (.walk next (scanned+region.bytes.length)),.held target result)

/-- One step of a task, if it stands where the step is made. -/
def advance (s : State) (job : Job) : Work → Option (Stage×Reply)
  | .check =>
    match job.stage with
    | .entered =>
      some (if s.cancel then (.finishing,.skipped job.target) else (job.target.begin,.silent))
    | _ => none
  | .read file =>
    match job.stage with
    | .reading => readFile eq job.target file
    | _ => none
  | .copy =>
    match job.stage with
    | .judged none => some (.escalating s.observationCb,.silent)
    | .judged (some result) =>
      some (.counting result (.escalate s.resultCb s.observationCb),.silent)
    | _ => none
  | .count =>
    match job.stage with
    | .counting result next => some (.filing result next,.counted result)
    | _ => none
  | .file =>
    match job.stage with
    | .filing result next => some (.reporting result next,.filed result)
    | _ => none
  | .report =>
    match job.stage with
    | .reporting result next => some (next.stage,.reported result (next.calls s.resultCb))
    | _ => none
  | .escalate artifact =>
    match job.stage with
    | .escalating obsCb =>
      some (.finishing,.inspected (observe eq s.currentMode obsCb job.target artifact))
    | _ => none
  | .visit memory =>
    match job.stage with
    | .walking addr scanned => some (walkTurn eq s.cancel job.target addr scanned memory)
    | _ => none
  | .throw =>
    match job.stage with
    | .counting _ _ | .finishing => none
    | _ => some (.finishing,.threw job)

/-- What a reply of a task does to the results. -/
def State.after (s : State) (reply : Reply) : State :=
  match reply with
  | .counted _ => { s with threatsFound := s.threatsFound+1 }
  | .filed result => { s with results := s.results++[result] }
  | _ => s

/-- Processes are the targets of a memory scan only. -/
def fits (mode : ScanMode) : Target → Bool
  | .file _ => mode≠.memory
  | .process _ _ => mode=.memory

/-- Nothing of an earlier scan is under way, a late `cancel_scan` apart. -/
def State.ready (s : State) : Bool :=
  !s.scanning && s.running.isEmpty &&
    match s.monitor with
    | .idle => true
    | _ => false

/-- The state in which a scan begins. -/
def State.reset (s : State) (mode : ScanMode) : State :=
  { s with
    scanning := true
    cancel := false
    currentMode := mode
    monitor := .enumerating
    queue := []
    filesTotal := 0
    filesScanned := 0
    threatsFound := 0
    results := [] }

/-- One step. A step that its thread cannot make does nothing. -/
def step (s : State) : Action → State×Reply
  | .start mode =>
    if s.ready then (s.reset mode,.began) else (s,.silent)
  | .enumerate targets =>
    match s.monitor with
    | .enumerating =>
      if s.cancel then ({ s with monitor := .idle,scanning := false },.silent)
      else if targets.all (fits s.currentMode) then
        ({ s with monitor := .submitting targets,filesTotal := targets.length },.given targets)
      else (s,.silent)
    | _ => (s,.silent)
  | .submit =>
    match s.monitor with
    | .submitting [] => ({ s with monitor := .waiting },.silent)
    | .submitting (target::left) =>
      if s.cancel then ({ s with monitor := .waiting },.silent)
      else ({ s with monitor := .pushing target left },.silent)
    | _ => (s,.silent)
  | .push =>
    match s.monitor with
    | .pushing target left =>
      ({ s with monitor := .submitting left,queue := s.queue++[target] },.silent)
    | _ => (s,.silent)
  | .finishScan =>
    match s.monitor with
    | .waiting =>
      if s.filesTotal ≤ s.filesScanned ∨ s.cancel=true then
        ({ s with monitor := .idle,scanning := false },.silent)
      else (s,.silent)
    | _ => (s,.silent)
  | .abort =>
    match s.monitor with
    | .enumerating | .submitting _ | .pushing _ _ =>
      ({ s with monitor := .idle,scanning := false },.silent)
    | _ => (s,.silent)
  | .take =>
    match s.queue with
    | [] => (s,.silent)
    | target::rest => ({ s with queue := rest,running := ⟨target,.entered⟩::s.running },.took target)
  | .work i work =>
    match s.running[i]? with
    | none => (s,.silent)
    | some job =>
      match advance eq s job work with
      | none => (s,.silent)
      | some (stage,reply) =>
        ({ s.after reply with running := ⟨job.target,stage⟩::s.running.eraseIdx i },reply)
  | .finish i =>
    match s.running[i]? with
    | some ⟨target,.finishing⟩ =>
      ({ s with running := s.running.eraseIdx i,filesScanned := s.filesScanned+1 },
        .finished target)
    | _ => (s,.silent)
  | .cancelFlag =>
    ({ s with cancel := true,flagging := s.flagging+1 },.silent)
  | .cancelStop =>
    if s.flagging=0 then (s,.silent)
    else
      ({ s with scanning := false,flagging := s.flagging-1,clearing := s.clearing+1 },.silent)
  | .cancelClear =>
    if s.clearing=0 then (s,.silent)
    else ({ s with queue := [],clearing := s.clearing-1 },.silent)
  | .onResult present => ({ s with resultCb := present },.silent)
  | .onObservation present => ({ s with observationCb := present },.silent)

end Steps

/-- A step of a thread. -/
abbrev Step := Event State (Action×Reply)

/-- The replies of a scan: a new scan begins them anew. -/
def extend (replies : List Reply) : Reply → List Reply
  | .began => []
  | reply => replies++[reply]

/-- The replies since the last scan began. -/
def current (events : List Step) : List Reply :=
  (events.map fun e => e.label.2).foldl extend []

/-- The verdict that a task has found and not filed. -/
def Stage.verdict : Stage → Option ScanResult
  | .judged found => found
  | .counting result _ | .filing result _ => some result
  | _ => none

/-- The result that is counted and not filed. -/
def Stage.counted : Stage → Option ScanResult
  | .filing result _ => some result
  | _ => none

/-- The result that is filed and not reported. -/
def Stage.unreported : Stage → Option ScanResult
  | .reporting result _ => some result
  | _ => none

/-- Whether the target is still to be scanned, or to be scanned further. -/
def Stage.open : Stage → Bool
  | .entered | .reading | .walking _ _ | .counting _ (.walk _ _) | .filing _ (.walk _ _)
  | .reporting _ (.walk _ _) => true
  | _ => false

/-- The target that is still to be scanned. -/
def Job.pending (job : Job) : Option Target := if job.stage.open then some job.target else none

/-- What was found. -/
def foundBy : Reply → Option ScanResult
  | .scanned _ found => found
  | .held _ result => some result
  | _ => none

/-- What was counted. -/
def countedBy : Reply → Option ScanResult
  | .counted result => some result
  | _ => none

/-- What was filed. -/
def filedBy : Reply → Option ScanResult
  | .filed result => some result
  | _ => none

/-- What was reported. -/
def reportedBy : Reply → Option ScanResult
  | .reported result _ => some result
  | _ => none

/-- What the result callback was called with. -/
def calledBy : Reply → Option ScanResult
  | .reported result true => some result
  | _ => none

/-- The task that has thrown. -/
def threwBy : Reply → Option Job
  | .threw job => some job
  | _ => none

/-- The target that a worker took. -/
def tookBy : Reply → Option Target
  | .took target => some target
  | _ => none

/-- The target of a task that returned. -/
def finishedBy : Reply → Option Target
  | .finished target => some target
  | _ => none

/-- The target that was scanned to its end. -/
def coveredBy : Reply → Option Target
  | .scanned target _ | .walked target => some target
  | _ => none

/-- The target that a cancelled task left. -/
def skippedBy : Reply → Option Target
  | .skipped target => some target
  | _ => none

/-- The tasks of the workers. -/
def tasks : Account Job Reply Target where
  hold job := some job.target
  gain := tookBy
  loss := finishedBy

/-- The verdicts from the check to the file. -/
def verdicts : Account Job Reply ScanResult where
  hold job := job.stage.verdict
  gain := foundBy
  loss reply := (filedBy reply).or ((threwBy reply).bind fun job => job.stage.verdict)

/-- The results from the counter to the file. -/
def counts : Account Job Reply ScanResult where
  hold job := job.stage.counted
  gain := countedBy
  loss reply := (filedBy reply).or ((threwBy reply).bind fun job => job.stage.counted)

/-- The results from the file to the report. -/
def reports : Account Job Reply ScanResult where
  hold job := job.stage.unreported
  gain := filedBy
  loss reply := (reportedBy reply).or ((threwBy reply).bind fun job => job.stage.unreported)

/-- The targets until they are scanned. -/
def coverage : Account Job Reply Target where
  hold := Job.pending
  gain := tookBy
  loss reply := (coveredBy reply).or ((skippedBy reply).or ((threwBy reply).bind Job.pending))

/-- The targets of a scan. -/
def givenBy : Reply → List Target
  | .given targets => targets
  | _ => []

/-- What one step of a task can do. -/
inductive Progress (scanner : Scanner) (s : State) (target : Target) :
    Stage → Stage → Reply → Prop where
  /-- It finds the scan cancelled. -/
  | skip (h : s.cancel=true) : Progress scanner s target .entered .finishing (.skipped target)
  /-- It begins. -/
  | begin : Progress scanner s target .entered target.begin .silent
  /-- It has checked a file. -/
  | scan {path : Str} {file : ScannedFile} {found : Option ScanResult} (h : target=.file path)
      (hscan : scanFile scanner path file=.ok found) :
      Progress scanner s target .reading (.judged found) (.scanned target found)
  /-- It has found nothing and goes on. -/
  | clean {obsCb : Bool} :
      Progress scanner s target (.judged none) (.escalating obsCb) .silent
  /-- It has found something. -/
  | threat {result : ScanResult} {resCb obsCb : Bool} :
      Progress scanner s target (.judged (some result))
        (.counting result (.escalate resCb obsCb)) .silent
  /-- It counts. -/
  | count {result : ScanResult} {next : Next} :
      Progress scanner s target (.counting result next) (.filing result next) (.counted result)
  /-- It files. -/
  | file {result : ScanResult} {next : Next} :
      Progress scanner s target (.filing result next) (.reporting result next) (.filed result)
  /-- It reports. -/
  | report {result : ScanResult} {next : Next} {called : Bool} :
      Progress scanner s target (.reporting result next) next.stage (.reported result called)
  /-- It inspects. -/
  | inspect {obsCb : Bool} {observations : List SecurityObservation} :
      Progress scanner s target (.escalating obsCb) .finishing (.inspected observations)
  /-- It finds the scan cancelled during a walk. -/
  | leave {addr : UInt64} {scanned : ℕ} (h : s.cancel=true) :
      Progress scanner s target (.walking addr scanned) .finishing (.skipped target)
  /-- The walk is over. -/
  | walked {addr : UInt64} {scanned : ℕ} :
      Progress scanner s target (.walking addr scanned) .finishing (.walked target)
  /-- A turn without a finding. -/
  | pass {addr next : UInt64} {scanned more : ℕ} :
      Progress scanner s target (.walking addr scanned) (.walking next more) .silent
  /-- A turn with a finding. -/
  | hold {addr next : UInt64} {scanned more : ℕ} {pid : UInt32} {pname : Str} {region : Region}
      {result : ScanResult} (h : target=.process pid pname)
      (hscan : scanBuffer scanner region.bytes (origin pid pname region.base)=some result) :
      Progress scanner s target (.walking addr scanned) (.counting result (.walk next more))
        (.held target result)
  /-- It throws, before a result is counted or after. -/
  | throw {stage : Stage} (h : ∀ result next,stage≠.counting result next)
      (hend : stage≠.finishing) :
      Progress scanner s target stage .finishing (.threw ⟨target,stage⟩)

section Facts

variable {σ τ : Type} {eq : Equipment σ τ} {s t : State} {job : Job} {stage : Stage}
variable {reply : Reply} {action : Action} {work : Work}

/-- A turn of a walk is one of four things. -/
theorem walkTurn_progress {target : Target} {addr : UInt64} {scanned : ℕ} {memory : Memory}
    (h : walkTurn eq s.cancel target addr scanned memory=(stage,reply)) :
    Progress eq.scanner s target (.walking addr scanned) stage reply := by
  unfold walkTurn at h
  split_ifs at h with hcancel hspent
  · cases h
    exact .leave hcancel
  · cases h
    exact .walked
  · split at h
    · cases h
      exact .walked
    · cases h
      exact .pass
    · split at h
      · cases h
        exact .pass
      · next result hjudge =>
        cases h
        cases target with
        | file path => simp [judge] at hjudge
        | process pid pname => exact .hold rfl hjudge

/-- What a task does is one of the steps. -/
theorem advance_progress (h : advance eq s job work=some (stage,reply)) :
    Progress eq.scanner s job.target job.stage stage reply := by
  obtain ⟨target,before⟩ := job
  cases work with
  | check =>
    simp only [advance] at h
    split at h
    · split_ifs at h with hcancel
      · cases h
        exact .skip hcancel
      · cases h
        exact .begin
    · cases h
  | read file =>
    simp only [advance] at h
    split at h
    · cases target with
      | file path =>
        simp only [readFile] at h
        split at h
        · next found hscan =>
          cases h
          exact .scan rfl hscan
        · cases h
      | process pid pname => simp [readFile] at h
    · cases h
  | copy =>
    simp only [advance] at h
    split at h
    · cases h
      exact .clean
    · cases h
      exact .threat
    · cases h
  | count =>
    simp only [advance] at h
    split at h
    · cases h
      exact .count
    · cases h
  | file =>
    simp only [advance] at h
    split at h
    · cases h
      exact .file
    · cases h
  | report =>
    simp only [advance] at h
    split at h
    · cases h
      exact .report
    · cases h
  | escalate artifact =>
    simp only [advance] at h
    split at h
    · cases h
      exact .inspect
    · cases h
  | visit memory =>
    simp only [advance] at h
    split at h
    · exact walkTurn_progress (Option.some.inj h)
    · cases h
  | throw =>
    simp only [advance] at h
    split at h
    · cases h
    · cases h
    · next hcounting hfinishing =>
      cases h
      exact .throw hcounting hfinishing

/-- What a step changes that shows nothing. -/
structure Silent (s t : State) : Prop where
  /-- No task. -/
  running : t.running=s.running
  /-- No result. -/
  results : t.results=s.results
  /-- No counter. -/
  threatsFound : t.threatsFound=s.threatsFound
  /-- No counter. -/
  filesScanned : t.filesScanned=s.filesScanned
  /-- No counter. -/
  filesTotal : t.filesTotal=s.filesTotal
  /-- Targets go from the monitor to the queue, or are dropped. -/
  waiting : (t.queue++t.monitor.left).Sublist (s.queue++s.monitor.left)
  /-- A scan stays cancelled. -/
  cancel : s.cancel=true → t.cancel=true
  /-- The enumeration does not begin. -/
  enumerating : t.monitor=.enumerating → s.monitor=.enumerating

/-- What a step does. -/
inductive Effect (scanner : Scanner) : State → Reply → State → Prop where
  /-- A scan begins when nothing is under way. -/
  | start (s : State) (mode : ScanMode) (h : s.ready=true) :
      Effect scanner s .began (s.reset mode)
  /-- The targets of a scan are known. -/
  | given (s : State) (targets : List Target) (h : s.monitor=.enumerating) :
      Effect scanner s (.given targets)
        { s with monitor := .submitting targets,filesTotal := targets.length }
  /-- Nothing is shown. -/
  | silent (s t : State) (h : Silent s t) : Effect scanner s .silent t
  /-- A worker takes the oldest target. -/
  | take (s : State) (target : Target) (rest : List Target) (h : s.queue=target::rest) :
      Effect scanner s (.took target)
        { s with queue := rest,running := ⟨target,.entered⟩::s.running }
  /-- A task goes on. -/
  | work (s : State) (i : ℕ) (job : Job) (stage : Stage) (reply : Reply)
      (hget : s.running[i]?=some job)
      (progress : Progress scanner s job.target job.stage stage reply) :
      Effect scanner s reply
        { s.after reply with running := ⟨job.target,stage⟩::s.running.eraseIdx i }
  /-- A task returns. -/
  | finish (s : State) (i : ℕ) (target : Target) (hget : s.running[i]?=some ⟨target,.finishing⟩) :
      Effect scanner s (.finished target)
        { s with running := s.running.eraseIdx i,filesScanned := s.filesScanned+1 }

/-- Nothing changes. -/
theorem silent_refl (s : State) : Silent s s :=
  ⟨rfl,rfl,rfl,rfl,rfl,List.Sublist.refl _,id,id⟩

/-- A step has one of the effects. -/
theorem step_effect (h : step eq s action=(t,reply)) : Effect eq.scanner s reply t := by
  have hnothing : Effect eq.scanner s .silent s := .silent s s (silent_refl s)
  cases action with
  | start mode =>
    simp only [step] at h
    split_ifs at h with hready
    · cases h
      exact .start s mode hready
    · cases h
      exact hnothing
  | enumerate targets =>
    simp only [step] at h
    split at h
    · next hmonitor =>
      split_ifs at h
      · cases h
        exact .silent _ _ ⟨rfl,rfl,rfl,rfl,rfl,by simp [hmonitor,Monitor.left],id,by simp⟩
      · cases h
        exact .given s targets hmonitor
      · cases h
        exact hnothing
    · cases h
      exact hnothing
  | submit =>
    simp only [step] at h
    split at h
    · next hmonitor =>
      cases h
      exact .silent _ _ ⟨rfl,rfl,rfl,rfl,rfl,by simp [hmonitor,Monitor.left],id,by simp⟩
    · next target left hmonitor =>
      split_ifs at h
      · cases h
        exact .silent _ _ ⟨rfl,rfl,rfl,rfl,rfl,by simp [Monitor.left],id,by simp⟩
      · cases h
        exact .silent _ _ ⟨rfl,rfl,rfl,rfl,rfl,by simp [hmonitor,Monitor.left],id,by simp⟩
    · cases h
      exact hnothing
  | push =>
    simp only [step] at h
    split at h
    · next target left hmonitor =>
      cases h
      exact .silent _ _ ⟨rfl,rfl,rfl,rfl,rfl,by simp [hmonitor,Monitor.left],id,by simp⟩
    · cases h
      exact hnothing
  | finishScan =>
    simp only [step] at h
    split at h
    · next hmonitor =>
      split_ifs at h
      · cases h
        exact .silent _ _ ⟨rfl,rfl,rfl,rfl,rfl,by simp [hmonitor,Monitor.left],id,by simp⟩
      · cases h
        exact hnothing
    · cases h
      exact hnothing
  | abort =>
    simp only [step] at h
    split at h
    · cases h
      exact .silent _ _ ⟨rfl,rfl,rfl,rfl,rfl,by simp [Monitor.left],id,by simp⟩
    · cases h
      exact .silent _ _ ⟨rfl,rfl,rfl,rfl,rfl,by simp [Monitor.left],id,by simp⟩
    · cases h
      exact .silent _ _ ⟨rfl,rfl,rfl,rfl,rfl,by simp [Monitor.left],id,by simp⟩
    · cases h
      exact hnothing
  | take =>
    simp only [step] at h
    split at h
    · cases h
      exact hnothing
    · next target rest hqueue =>
      cases h
      exact .take s target rest hqueue
  | work i work =>
    simp only [step] at h
    split at h
    · cases h
      exact hnothing
    · next job hget =>
      split at h
      · cases h
        exact hnothing
      · next stage reply hadvance =>
        cases h
        exact .work s i job stage reply hget (advance_progress hadvance)
  | finish i =>
    simp only [step] at h
    split at h
    · next target hget =>
      cases h
      exact .finish s i target hget
    · cases h
      exact hnothing
  | cancelFlag =>
    cases h
    exact .silent _ _ ⟨rfl,rfl,rfl,rfl,rfl,List.Sublist.refl _,fun _ => rfl,id⟩
  | cancelStop =>
    simp only [step] at h
    split_ifs at h
    · cases h
      exact hnothing
    · cases h
      exact .silent _ _ ⟨rfl,rfl,rfl,rfl,rfl,List.Sublist.refl _,id,id⟩
  | cancelClear =>
    simp only [step] at h
    split_ifs at h
    · cases h
      exact hnothing
    · cases h
      exact .silent _ _ ⟨rfl,rfl,rfl,rfl,rfl,by simp,id,id⟩
  | onResult present =>
    cases h
    exact .silent _ _ ⟨rfl,rfl,rfl,rfl,rfl,List.Sublist.refl _,id,id⟩
  | onObservation present =>
    cases h
    exact .silent _ _ ⟨rfl,rfl,rfl,rfl,rfl,List.Sublist.refl _,id,id⟩

section Accounts

variable {α : Type} {scanner : Scanner} {replies : List Reply}

/-- An account that every effect keeps in balance. -/
structure Sound (account : Account Job Reply α) : Prop where
  /-- A step that shows nothing. -/
  silent : account.loss .silent=account.gain .silent
  /-- The enumeration. -/
  given : ∀ targets,account.loss (.given targets)=account.gain (.given targets)
  /-- A task that enters. -/
  took : ∀ target,opt (account.hold ⟨target,.entered⟩)+opt (account.loss (.took target))=
    opt (account.gain (.took target))
  /-- A task that leaves. -/
  finished : ∀ target,opt (account.loss (.finished target))=
    opt (account.hold ⟨target,.finishing⟩)+opt (account.gain (.finished target))
  /-- A task that goes on. -/
  keeps : ∀ (scanner : Scanner) (s : State) (target : Target) (stage next : Stage) (reply : Reply),
    Progress scanner s target stage next reply → account.Keeps ⟨target,stage⟩ ⟨target,next⟩ reply

/-- The replies of a task begin no scan. -/
theorem extend_progress {target : Target} {before : Stage}
    (h : Progress scanner s target before stage reply) :
    extend replies reply=replies++[reply] := by
  cases h <;> rfl

/-- A settled account stays settled. -/
theorem settled_step {account : Account Job Reply α} (sound : Sound account)
    (settled : account.Settled s.running replies) (effect : Effect scanner s reply t) :
    account.Settled t.running (extend replies reply) := by
  cases effect with
  | start mode hready =>
    have hidle : s.running=[] := by
      simp only [State.ready,Bool.and_eq_true,List.isEmpty_iff] at hready
      exact hready.1.2
    simpa [State.reset,hidle,extend] using Account.settled_nil
  | given targets h => exact settled.step (Account.balanced_keep (sound.given targets))
  | silent next h =>
    rw [h.running]
    exact settled.step (Account.balanced_keep sound.silent)
  | take target rest h => exact settled.step (Account.balanced_enter (sound.took target))
  | work i job stage reply hget progress =>
    rw [extend_progress progress]
    exact settled.step ((sound.keeps _ _ _ _ _ _ progress).balanced hget)
  | finish i target hget =>
    exact settled.step (Account.balanced_leave hget (sound.finished target))

/-- The account of the tasks is kept. -/
theorem tasks_sound : Sound tasks where
  silent := rfl
  given _ := rfl
  took target := by simp [tasks,tookBy,finishedBy]
  finished target := by simp [tasks,tookBy,finishedBy]
  keeps scanner s target stage next reply h := by
    cases h <;> simp [Account.Keeps,tasks,tookBy,finishedBy]

/-- The account of the verdicts is kept. -/
theorem verdicts_sound : Sound verdicts where
  silent := rfl
  given _ := rfl
  took target := by simp [verdicts,foundBy,filedBy,threwBy,Stage.verdict]
  finished target := by simp [verdicts,foundBy,filedBy,threwBy,Stage.verdict]
  keeps scanner s target stage next reply h := by
    cases h with
    | begin =>
      cases target <;> simp [Account.Keeps,verdicts,foundBy,filedBy,threwBy,Stage.verdict,Target.begin]
    | @report result next called =>
      cases next <;> simp [Account.Keeps,verdicts,foundBy,filedBy,threwBy,Stage.verdict,Next.stage]
    | _ => simp [Account.Keeps,verdicts,foundBy,filedBy,threwBy,Stage.verdict]

/-- The account of the counted results is kept. -/
theorem counts_sound : Sound counts where
  silent := rfl
  given _ := rfl
  took target := by simp [counts,countedBy,filedBy,threwBy,Stage.counted]
  finished target := by simp [counts,countedBy,filedBy,threwBy,Stage.counted]
  keeps scanner s target stage next reply h := by
    cases h with
    | begin =>
      cases target <;> simp [Account.Keeps,counts,countedBy,filedBy,threwBy,Stage.counted,Target.begin]
    | @report result next called =>
      cases next <;> simp [Account.Keeps,counts,countedBy,filedBy,threwBy,Stage.counted,Next.stage]
    | _ => simp [Account.Keeps,counts,countedBy,filedBy,threwBy,Stage.counted]

/-- The account of the reports is kept. -/
theorem reports_sound : Sound reports where
  silent := rfl
  given _ := rfl
  took target := by simp [reports,reportedBy,filedBy,threwBy,Stage.unreported]
  finished target := by simp [reports,reportedBy,filedBy,threwBy,Stage.unreported]
  keeps scanner s target stage next reply h := by
    cases h with
    | begin =>
      cases target <;>
        simp [Account.Keeps,reports,reportedBy,filedBy,threwBy,Stage.unreported,Target.begin]
    | @report result next called =>
      cases next <;>
        simp [Account.Keeps,reports,reportedBy,filedBy,threwBy,Stage.unreported,Next.stage]
    | _ => simp [Account.Keeps,reports,reportedBy,filedBy,threwBy,Stage.unreported]

/-- The account of the targets is kept. -/
theorem coverage_sound : Sound coverage where
  silent := rfl
  given _ := rfl
  took target := by
    simp [coverage,tookBy,coveredBy,skippedBy,threwBy,Job.pending,Stage.open]
  finished target := by
    simp [coverage,tookBy,coveredBy,skippedBy,threwBy,Job.pending,Stage.open]
  keeps scanner s target stage next reply h := by
    cases h with
    | begin =>
      cases target <;>
        simp [Account.Keeps,coverage,tookBy,coveredBy,skippedBy,threwBy,Job.pending,Stage.open,
          Target.begin]
    | @count result next | @file result next =>
      cases next <;>
        simp [Account.Keeps,coverage,tookBy,coveredBy,skippedBy,threwBy,Job.pending,Stage.open]
    | @report result next called =>
      cases next <;>
        simp [Account.Keeps,coverage,tookBy,coveredBy,skippedBy,threwBy,Job.pending,Stage.open,
          Next.stage]
    | _ => simp [Account.Keeps,coverage,tookBy,coveredBy,skippedBy,threwBy,Job.pending,Stage.open]

/-- The result is one that the target can have. -/
def Target.Bears (scanner : Scanner) (target : Target) (result : ScanResult) : Prop :=
  match target with
  | .file path => Justified scanner path result
  | .process pid pname => ∃ base,Justified scanner (origin pid pname base) result

/-- The targets that a scan was given. -/
def given (replies : List Reply) : List Target := replies.flatMap givenBy

/-- The state agrees with the replies of its scan. -/
structure Books (scanner : Scanner) (replies : List Reply) (s : State) : Prop where
  /-- The results are the filed ones. -/
  results : s.results=replies.filterMap filedBy
  /-- Every threat was counted. -/
  threats : s.threatsFound=(replies.filterMap countedBy).length
  /-- Every returned task was counted. -/
  scanned : s.filesScanned=(replies.filterMap finishedBy).length
  /-- The total is that of the targets. -/
  total : s.filesTotal=(given replies).length
  /-- Targets are taken in their order. -/
  order : (replies.filterMap tookBy++(s.queue++s.monitor.left)).Sublist (given replies)
  /-- None is skipped in a scan that is not cancelled. -/
  unskipped : s.cancel=false → replies.filterMap skippedBy=[]
  /-- There are none before the enumeration is over. -/
  early : s.monitor=.enumerating → given replies=[]
  /-- What was found is justified by a target. -/
  sound : ∀ result ∈ replies.filterMap foundBy,∃ target ∈ given replies,
    target.Bears scanner result

/-- Before the first scan there is nothing. -/
theorem books_initial : Books scanner [] State.initial := by
  constructor <;> simp [State.initial,given,Monitor.left]

/-- A task that has been taken has a target of the scan. -/
theorem target_given (books : Books scanner replies s) (settled : tasks.Settled s.running replies)
    {i : ℕ} (hget : s.running[i]?=some job) : job.target ∈ given replies := by
  have htook : job.target ∈ replies.filterMap tookBy := by
    have hmem : job.target ∈ total tasks.hold s.running := by
      rw [total_eraseIdx tasks.hold hget]
      simp [tasks]
    have hgain := Multiset.mem_of_le (Multiset.le_add_right _ (total tasks.loss replies)) hmem
    rw [settled] at hgain
    exact Multiset.mem_coe.mp hgain
  exact books.order.subset (List.mem_append_left _ htook)

/-- The books are kept by a step that shows nothing. -/
theorem books_silent (books : Books scanner replies s) (h : Silent s t) :
    Books scanner (replies++[.silent]) t where
  results := by simp [h.results,books.results,filedBy]
  threats := by simp [h.threatsFound,books.threats,countedBy]
  scanned := by simp [h.filesScanned,books.scanned,finishedBy]
  total := by simp [h.filesTotal,books.total,given,givenBy]
  order := by
    rw [filterMap_snoc]
    simpa [given,givenBy,tookBy] using (h.waiting.append_left _).trans books.order
  unskipped hgo := by
    have hrunning : s.cancel=false := by
      by_contra hcancel
      simp [h.cancel (by simpa using hcancel)] at hgo
    simpa [skippedBy] using books.unskipped hrunning
  early hmonitor := by simpa [given,givenBy] using books.early (h.enumerating hmonitor)
  sound := by simpa [given,givenBy,foundBy] using books.sound

/-- A scan that begins has empty books. -/
theorem books_start (s : State) (mode : ScanMode) : Books scanner [] (s.reset mode) := by
  constructor <;> simp [State.reset,given,Monitor.left]

/-- The books are kept when the targets become known. -/
theorem books_given (books : Books scanner replies s) (h : s.monitor=.enumerating)
    (targets : List Target) :
    Books scanner (replies++[Reply.given targets])
      { s with monitor := .submitting targets,filesTotal := targets.length } := by
  have hnone := books.early h
  have hempty := books.order
  rw [hnone,List.sublist_nil,List.append_eq_nil_iff,List.append_eq_nil_iff] at hempty
  obtain ⟨htook,hqueue,-⟩ := hempty
  have hgiven : given (replies++[Reply.given targets])=targets := by
    rw [given,List.flatMap_append,← given,hnone]
    simp [givenBy]
  have horder : (replies++[Reply.given targets]).filterMap tookBy++(s.queue++targets)=targets := by
    rw [filterMap_snoc,htook,hqueue]
    simp [tookBy]
  constructor
  case results => simp [books.results,filedBy]
  case threats => simp [books.threats,countedBy]
  case scanned => simp [books.scanned,finishedBy]
  case total => rw [hgiven]
  case order =>
    rw [hgiven]
    change ((replies++[Reply.given targets]).filterMap tookBy++(s.queue++targets)).Sublist targets
    rw [horder]
  case unskipped =>
    intro hgo
    rw [filterMap_snoc,books.unskipped hgo]
    rfl
  case early => simp
  case sound =>
    intro result hresult
    rw [filterMap_snoc,List.mem_append] at hresult
    obtain ⟨target,htarget,-⟩ := books.sound result (hresult.resolve_right List.not_mem_nil)
    simp [hnone] at htarget

/-- The books are kept when a worker takes a target. -/
theorem books_take (books : Books scanner replies s) {target : Target} {rest : List Target}
    (h : s.queue=target::rest) :
    Books scanner (replies++[Reply.took target])
      { s with queue := rest,running := ⟨target,.entered⟩::s.running } := by
  have hgiven : given (replies++[Reply.took target])=given replies := by simp [given,givenBy]
  have horder : (replies++[Reply.took target]).filterMap tookBy++(rest++s.monitor.left)=
      replies.filterMap tookBy++(s.queue++s.monitor.left) := by
    rw [filterMap_snoc,h]
    simp [tookBy]
  constructor
  case results => simp [books.results,filedBy]
  case threats => simp [books.threats,countedBy]
  case scanned => simp [books.scanned,finishedBy]
  case total => rw [hgiven,← books.total]
  case order =>
    rw [hgiven]
    exact horder ▸ books.order
  case unskipped =>
    intro hgo
    rw [filterMap_snoc,books.unskipped hgo]
    rfl
  case early =>
    rw [hgiven]
    exact books.early
  case sound =>
    rw [hgiven,filterMap_snoc]
    simpa [foundBy] using books.sound

/-- What a task shows is nothing of the monitor or the pool. -/
theorem progress_shows {target : Target} {before : Stage}
    (h : Progress scanner s target before stage reply) :
    tookBy reply=none ∧ givenBy reply=[] ∧ finishedBy reply=none ∧
      (s.cancel=false → skippedBy reply=none) := by
  cases h with
  | skip hcancel => simp [tookBy,givenBy,finishedBy,hcancel]
  | leave hcancel => simp [tookBy,givenBy,finishedBy,hcancel]
  | _ => exact ⟨rfl,rfl,rfl,fun _ => rfl⟩

/-- What a task finds is justified by its target. -/
theorem progress_bears {target : Target} {before : Stage} {result : ScanResult}
    (h : Progress scanner s target before stage reply) (hfound : foundBy reply=some result) :
    target.Bears scanner result := by
  cases h with
  | @scan path file found htarget hscan =>
    obtain ⟨other,hreturned,hjustified⟩ := scanFile_returns scanner path file
    rw [hscan] at hreturned
    cases hreturned
    rw [htarget]
    exact hjustified result hfound
  | @hold addr next scanned more pid pname region other htarget hscan =>
    cases hfound
    rw [htarget]
    exact ⟨region.base,scanBuffer_justified hscan⟩
  | _ => simp [foundBy] at hfound

/-- What a reply of a task does to the state. -/
theorem after_eq (s : State) (reply : Reply) :
    s.after reply=
      { s with
        threatsFound := s.threatsFound+(countedBy reply).toList.length
        results := s.results++(filedBy reply).toList } := by
  cases reply <;> simp [State.after,countedBy,filedBy]

/-- The books are kept when a task goes on. -/
theorem books_work (books : Books scanner replies s) {target : Target} {before : Stage}
    (htarget : target ∈ given replies) (h : Progress scanner s target before stage reply)
    (running : List Job) :
    Books scanner (replies++[reply]) { s.after reply with running := running } := by
  obtain ⟨htook,hnone,hfinished,hskipped⟩ := progress_shows h
  have hgiven : given (replies++[reply])=given replies := by
    rw [given,List.flatMap_append,← given]
    simp [hnone]
  have horder : (replies++[reply]).filterMap tookBy=replies.filterMap tookBy := by
    rw [filterMap_snoc,htook]
    simp
  rw [after_eq]
  constructor
  case results => rw [filterMap_snoc,← books.results]
  case threats => rw [filterMap_snoc,List.length_append,← books.threats]
  case scanned => simp [hfinished,books.scanned]
  case total => rw [hgiven,← books.total]
  case order =>
    rw [hgiven,horder]
    exact books.order
  case unskipped =>
    intro hgo
    rw [filterMap_snoc,books.unskipped hgo,hskipped hgo]
    rfl
  case early =>
    rw [hgiven]
    exact books.early
  case sound =>
    intro result hresult
    rw [filterMap_snoc,List.mem_append,Option.mem_toList] at hresult
    rw [hgiven]
    rcases hresult with hbefore | hfound
    · exact books.sound result hbefore
    · exact ⟨target,htarget,progress_bears h hfound⟩

/-- The books are kept when a task returns. -/
theorem books_finish (books : Books scanner replies s) (target : Target) (running : List Job) :
    Books scanner (replies++[Reply.finished target])
      { s with running := running,filesScanned := s.filesScanned+1 } := by
  have hgiven : given (replies++[Reply.finished target])=given replies := by simp [given,givenBy]
  have horder : (replies++[Reply.finished target]).filterMap tookBy=replies.filterMap tookBy := by
    rw [filterMap_snoc]
    simp [tookBy]
  constructor
  case results => simp [books.results,filedBy]
  case threats => simp [books.threats,countedBy]
  case scanned => simp [finishedBy,books.scanned]
  case total => rw [hgiven,← books.total]
  case order =>
    rw [hgiven,horder]
    exact books.order
  case unskipped =>
    intro hgo
    rw [filterMap_snoc,books.unskipped hgo]
    rfl
  case early =>
    rw [hgiven]
    exact books.early
  case sound =>
    rw [hgiven,filterMap_snoc]
    simpa [foundBy] using books.sound

/-- Every effect keeps the books. -/
theorem books_step (books : Books scanner replies s) (settled : tasks.Settled s.running replies)
    (effect : Effect scanner s reply t) : Books scanner (extend replies reply) t := by
  cases effect with
  | start mode hready => exact books_start s mode
  | given targets h => exact books_given books h targets
  | silent next h => exact books_silent books h
  | take target rest h => exact books_take books h
  | work i job stage reply hget progress =>
    rw [extend_progress progress]
    exact books_work books (target_given books settled hget) progress _
  | finish i target hget => exact books_finish books target _

end Accounts

/-- All accounts are settled. -/
structure AllSettled (running : List Job) (replies : List Reply) : Prop where
  /-- A task that was taken is finished or with a worker. -/
  tasks : tasks.Settled running replies
  /-- A verdict that was found is filed, with its task or dropped. -/
  verdicts : verdicts.Settled running replies
  /-- The counted results. -/
  counts : counts.Settled running replies
  /-- A result that was filed is reported, with its task or dropped. -/
  reports : reports.Settled running replies
  /-- The targets. -/
  coverage : coverage.Settled running replies

/-- One more event. -/
theorem current_snoc (events : List Step) (e : Step) :
    current (events++[e])=extend (current events) e.label.2 := by
  simp [current]

/-- In every run the books are kept and the accounts are settled. -/
theorem run_books {events : List Step}
    (run : Run (Deterministic (step eq)) State.initial events s) :
    Books eq.scanner (current events) s ∧ AllSettled s.running (current events) := by
  induction run with
  | nil =>
    exact ⟨books_initial,Account.settled_nil,Account.settled_nil,Account.settled_nil,
      Account.settled_nil,Account.settled_nil⟩
  | @snoc events s t label run hstep ih =>
    obtain ⟨books,settled⟩ := ih
    have heffect := step_effect hstep
    rw [current_snoc]
    exact ⟨books_step books settled.tasks heffect,
      settled_step tasks_sound settled.tasks heffect,
      settled_step verdicts_sound settled.verdicts heffect,
      settled_step counts_sound settled.counts heffect,
      settled_step reports_sound settled.reports heffect,
      settled_step coverage_sound settled.coverage heffect⟩

end Facts

/-- The verdict that a task took with it when it threw. -/
def droppedBy (reply : Reply) : Option ScanResult :=
  (threwBy reply).bind fun job => job.stage.verdict

/-- The counted result that a task took with it when it threw. -/
def miscountedBy (reply : Reply) : Option ScanResult :=
  (threwBy reply).bind fun job => job.stage.counted

/-- The results of a scan against what was found. -/
structure ScanAccounts (scanner : Scanner) (replies : List Reply) (s : State) : Prop where
  /-- The results are those that were filed since the scan began. -/
  results : s.results=replies.filterMap filedBy
  /-- Whatever was found is filed once, or still with its task, or gone with a task
  that threw. -/
  once : (s.results++(s.running.filterMap fun job => job.stage.verdict)++
    replies.filterMap droppedBy).Perm (replies.filterMap foundBy)
  /-- The counter is ahead by the results that tasks have yet to file, or threw
  away. -/
  counted : s.threatsFound=s.results.length+
    (s.running.filterMap fun job => job.stage.counted).length+
    (replies.filterMap miscountedBy).length
  /-- The callback is called at most once for a result. -/
  called : (replies.filterMap calledBy).Subperm s.results
  /-- A result is justified by a target of the scan. -/
  sound : ∀ result ∈ s.results,∃ target ∈ given replies,target.Bears scanner result
  /-- A target is taken once, and its task returns or is under way. -/
  tasks : (replies.filterMap finishedBy++s.running.map Job.target).Perm (replies.filterMap tookBy) ∧
    (replies.filterMap tookBy).Sublist (given replies)
  /-- The counters of the progress. -/
  counters : s.filesScanned=(replies.filterMap finishedBy).length ∧
    s.filesTotal=(given replies).length ∧ s.filesScanned ≤ s.filesTotal
  /-- A scan that has counted all its targets, was not cancelled and had no
  exceptions has scanned each of them and filed all that was found. -/
  complete : s.cancel=false → s.filesTotal ≤ s.filesScanned → replies.filterMap threwBy=[] →
    (replies.filterMap coveredBy).Perm (given replies) ∧
      s.results.Perm (replies.filterMap foundBy) ∧ s.threatsFound=s.results.length

section Accounts

variable {scanner : Scanner} {replies : List Reply} {s : State}

/-- What is paid out of the verdicts is filed or dropped. -/
theorem verdicts_loss (replies : List Reply) :
    total verdicts.loss replies=total filedBy replies+total droppedBy replies := by
  refine total_or (fun reply => ?_) replies
  cases reply <;> simp [filedBy,threwBy]

/-- What is paid out of the counted results is filed or thrown away. -/
theorem counts_loss (replies : List Reply) :
    total counts.loss replies=total filedBy replies+total miscountedBy replies := by
  refine total_or (fun reply => ?_) replies
  cases reply <;> simp [filedBy,threwBy]

/-- What is found is filed, with a task, or dropped. -/
theorem found_once (books : Books scanner replies s) (settled : AllSettled s.running replies) :
    (s.results++(s.running.filterMap fun job => job.stage.verdict)++
      replies.filterMap droppedBy).Perm (replies.filterMap foundBy) := by
  have hsettled := settled.verdicts
  rw [Account.Settled,verdicts_loss] at hsettled
  rw [books.results,← Multiset.coe_eq_coe,← Multiset.coe_add,← Multiset.coe_add]
  calc total filedBy replies+total verdicts.hold s.running+total droppedBy replies
      =total verdicts.hold s.running+(total filedBy replies+total droppedBy replies) := by abel
    _ =total foundBy replies := hsettled

/-- The counter of the threats. -/
theorem threats_counted (books : Books scanner replies s)
    (settled : AllSettled s.running replies) :
    s.threatsFound=s.results.length+
      (s.running.filterMap fun job => job.stage.counted).length+
      (replies.filterMap miscountedBy).length := by
  have hsettled := settled.counts
  rw [Account.Settled,counts_loss] at hsettled
  have hcard := congrArg Multiset.card hsettled
  rw [Multiset.card_add,Multiset.card_add] at hcard
  have hgain : (replies.filterMap countedBy).length=(total counts.gain replies).card := rfl
  have hheld : (s.running.filterMap fun job => job.stage.counted).length=
      (total counts.hold s.running).card := rfl
  have hfiled : (replies.filterMap filedBy).length=(total filedBy replies).card := rfl
  have hlost : (replies.filterMap miscountedBy).length=(total miscountedBy replies).card := rfl
  rw [books.threats,books.results]
  omega

/-- The callback is called for results, and once for each at most. -/
theorem called_once (books : Books scanner replies s) (settled : AllSettled s.running replies) :
    (replies.filterMap calledBy).Subperm s.results := by
  have hcalled : total calledBy replies ≤ total reports.loss replies := by
    refine total_le (fun reply result h => ?_) replies
    cases reply with
    | reported other called => cases called <;> simp_all [calledBy,reports,reportedBy]
    | _ => simp [calledBy] at h
  rw [← Multiset.coe_le,books.results]
  calc total calledBy replies ≤ total reports.loss replies := hcalled
    _ ≤ total reports.hold s.running+total reports.loss replies := Multiset.le_add_left _ _
    _ =total filedBy replies := settled.reports

/-- A target that was taken is finished or under way. -/
theorem taken_once (settled : AllSettled s.running replies) :
    (replies.filterMap finishedBy++s.running.map Job.target).Perm
      (replies.filterMap tookBy) := by
  have hheld : total tasks.hold s.running=(s.running.map Job.target : Multiset Target) := by
    simp [total,tasks]
  have hsettled := settled.tasks
  rw [Account.Settled,hheld] at hsettled
  rw [← Multiset.coe_eq_coe,← Multiset.coe_add,add_comm]
  exact hsettled

/-- The progress never exceeds its total. -/
theorem progress_bounded (books : Books scanner replies s)
    (settled : AllSettled s.running replies) :
    s.filesScanned+s.running.length ≤ (replies.filterMap tookBy).length ∧
      (replies.filterMap tookBy).length+(s.queue++s.monitor.left).length ≤ s.filesTotal := by
  have htaken := (taken_once settled).length_eq
  have horder := books.order.length_le
  rw [List.length_append] at htaken horder
  rw [List.length_map] at htaken
  rw [books.scanned,books.total]
  constructor <;> omega

/-- A scan that was not cancelled and has counted all its targets is complete. -/
theorem scan_complete (books : Books scanner replies s)
    (settled : AllSettled s.running replies) (hgo : s.cancel=false)
    (hcounted : s.filesTotal ≤ s.filesScanned) (hcalm : replies.filterMap threwBy=[]) :
    (replies.filterMap coveredBy).Perm (given replies) ∧
      s.results.Perm (replies.filterMap foundBy) ∧ s.threatsFound=s.results.length := by
  obtain ⟨hfinished,htotal⟩ := progress_bounded books settled
  have hrunning : s.running=[] := List.eq_nil_of_length_eq_zero (by omega)
  have hleft : s.queue++s.monitor.left=[] := List.eq_nil_of_length_eq_zero (by omega)
  have hquiet : ∀ {α : Type} (f : Job → Option α),
      replies.filterMap (fun reply => (threwBy reply).bind f)=[] := by
    intro α f
    rw [← List.filterMap_filterMap,hcalm]
    rfl
  have hwhole : replies.filterMap tookBy=given replies := by
    have hsub := books.order
    rw [hleft,List.append_nil] at hsub
    have hcount := books.total
    exact hsub.eq_of_length_le (by omega)
  refine ⟨?_,?_,?_⟩
  · have hsettled := settled.coverage
    have hloss : total coverage.loss replies=total coveredBy replies := by
      have hskipped : total skippedBy replies=0 := by
        rw [total,books.unskipped hgo]
        rfl
      have hthrew : total (fun reply => (threwBy reply).bind Job.pending) replies=0 := by
        rw [total,hquiet Job.pending]
        rfl
      have hinner : total
          (fun reply => (skippedBy reply).or ((threwBy reply).bind Job.pending)) replies=0 := by
        rw [total_or (fun reply => by cases reply <;> simp [skippedBy,threwBy]),hskipped,hthrew]
        rfl
      have houter := total_or (f:=coveredBy)
        (g:=fun reply => (skippedBy reply).or ((threwBy reply).bind Job.pending))
        (fun reply => by cases reply <;> simp [coveredBy,skippedBy,threwBy]) replies
      rw [hinner,add_zero] at houter
      exact houter
    rw [Account.Settled,hrunning,total_nil,zero_add,hloss] at hsettled
    rw [← hwhole]
    exact Multiset.coe_eq_coe.mp hsettled
  · have hfound := found_once books settled
    rw [hrunning,List.filterMap_nil,List.append_nil] at hfound
    have hdropped : replies.filterMap droppedBy=[] := hquiet fun job => job.stage.verdict
    rwa [hdropped,List.append_nil] at hfound
  · have hthreats := threats_counted books settled
    have hmiscounted : replies.filterMap miscountedBy=[] := hquiet fun job => job.stage.counted
    rw [hrunning,hmiscounted] at hthreats
    simpa using hthreats

end Accounts

/-- In every run of scans, cancellations and callbacks over any number of
workers, also where the monitor throws or a cancellation is late, the results
and the counters of the scan that began last agree with what its tasks found:
nothing is lost but with a task that threw, nothing is filed or reported twice,
nothing of an earlier scan is among it, and a scan that ran to its end has
covered its targets. -/
theorem scan_results_accounted {σ τ : Type} {eq : Equipment σ τ} {events : List Step} {s : State}
    (run : Run (Deterministic (step eq)) State.initial events s) :
    ScanAccounts eq.scanner (current events) s := by
  obtain ⟨books,settled⟩ := run_books run
  obtain ⟨hfinished,htotal⟩ := progress_bounded books settled
  exact {
    results := books.results
    once := found_once books settled
    counted := threats_counted books settled
    called := called_once books settled
    sound := fun result hresult => by
      refine books.sound result ((found_once books settled).subset ?_)
      exact List.mem_append_left _ (List.mem_append_left _ hresult)
    tasks := ⟨taken_once settled,(List.sublist_append_left _ _).trans books.order⟩
    counters := ⟨books.scanned,books.total,by omega⟩
    complete := scan_complete books settled }

/-- One signature, no entropies, and a trust engine that trusts nothing. -/
def sampleEquipment : Equipment Bytes Bytes where
  scanner := {
    signatures := [{
      name := "Sample".toList
      level := Threat.levelValue .high
      category := .shellcode
      pattern := [0x41,0x42]
      description := [] }]
    entropy := ⟨fun _ => .nan,fun _ => .nan⟩
    shannon := fun _ _ => .nan }
  primitives := TrustedVerdict.fixturePrimitives
  tools := ⟨fun _ => .nan,fun _ => []⟩

/-- A scan of one file that carries the signature. -/
def oneScan : List Action :=
  [.onResult true,.start .custom,.enumerate [.file "a".toList],.submit,.push,.submit,.take,
    .work 0 .check,.work 0 (.read ⟨some 3,some [0x40,0x41,0x42]⟩),.work 0 .copy,.work 0 .count,
    .work 0 .file,.work 0 .report]

/-- The scan of the one file has filed its one threat. -/
theorem scan_results_accounted_one :
    ScanAccounts sampleEquipment.scanner
        (current (execute (step sampleEquipment) State.initial oneScan).1)
        (execute (step sampleEquipment) State.initial oneScan).2 ∧
      (execute (step sampleEquipment) State.initial oneScan).2.results.length=1 :=
  ⟨scan_results_accounted (execute_run (step sampleEquipment) State.initial oneScan),by decide⟩

end Gcad.ScanRun
