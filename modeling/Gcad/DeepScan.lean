import Gcad.WorkerPool

/-!
# The deep scanner

`DeepScanner` of deep_scanner.cpp as an interleaving of three kinds of
threads: one controlling thread that calls `start_scan` and `cancel_scan`,
the monitor thread of the current scan and the workers of the pool. Every
atomic load or store and every operation of the pool is one step. Tasks and
monitor carry the number of the scan that created them; the number of the
current scan grows with the first store of `start_scan`.
-/

namespace Gcad.DeepScan

open StepSystem WorkerPool

/-- `ScanMode`. -/
inductive ScanMode where
  | quick
  | deep
  | memory
  | custom
  deriving DecidableEq

/-- Where the function of a task stands. -/
inductive Phase where
  /-- Before it loads `cancel_`. -/
  | entered
  /-- Inside `scan_file` or `scan_process_memory`. -/
  | scanning
  /-- Before it adds one to `files_scanned_`. -/
  | counting
  /-- After that. -/
  | returned
  deriving DecidableEq

/-- The function object of one file or process. -/
structure ScanTask where
  /-- The scan that enqueued it. -/
  scan : ℕ
  /-- Where it stands. -/
  phase : Phase

/-- Where the controlling thread stands. -/
inductive Controller where
  | idle
  /-- `start_scan`, before it loads `scanning_`. -/
  | checkScanning (mode : ScanMode)
  /-- Before the join of the monitor thread. -/
  | join (mode : ScanMode)
  /-- Before `clear_queue`. -/
  | clearQueue (mode : ScanMode)
  /-- Inside `wait_idle`. -/
  | waitIdle (mode : ScanMode)
  /-- Before `scanning_.store(true)`. -/
  | storeScanning (mode : ScanMode)
  /-- Before `cancel_.store(false)`. -/
  | storeCancel (mode : ScanMode)
  /-- Before `files_scanned_.store(0)`. -/
  | resetScanned (mode : ScanMode)
  /-- Before `threats_found_.store(0)`. -/
  | resetThreats (mode : ScanMode)
  /-- Before `files_total_.store(0)`. -/
  | resetTotal (mode : ScanMode)
  /-- Before the monitor thread is created. -/
  | spawn (mode : ScanMode)
  /-- `cancel_scan`, before `cancel_.store(true)`. -/
  | cancelFlag
  /-- Before `scanning_.store(false)`. -/
  | cancelScanning
  /-- Before `clear_queue`. -/
  | cancelClear

/-- Where the monitor thread stands. -/
inductive Monitor where
  /-- Never created, or joined. -/
  | absent
  /-- Enumerating files: roots left, paths found. -/
  | roots (left found : ℕ)
  /-- Enumerating processes. -/
  | processes
  /-- Before the load of `cancel_` that follows the enumeration. -/
  | checkCancel (count : ℕ)
  /-- Before `files_total_.store`. -/
  | storeTotal (count : ℕ)
  /-- At the head of the submitting loop. -/
  | submit (left : ℕ)
  /-- Before an `enqueue`. -/
  | push (left : ℕ)
  /-- The wait loop, before it loads `files_scanned_`. -/
  | loadScanned
  /-- Before it loads `files_total_`. -/
  | loadTotal (seen : ℕ)
  /-- Before it loads `cancel_`. -/
  | loadCancel
  /-- After the loop, before `scanning_.store(false)`. -/
  | storeIdle
  /-- Before the load for `lifetime_scanned_`. -/
  | readScanned
  /-- Before the addition to `lifetime_scanned_`. -/
  | addScanned (value : ℕ)
  /-- Before the load for `lifetime_threats_`. -/
  | readThreats
  /-- Before the addition to `lifetime_threats_`. -/
  | addThreats (value : ℕ)
  /-- Before the last load of `cancel_`. -/
  | readCancel
  /-- Before the addition to `scans_completed_`. -/
  | addCompleted
  /-- Before the `scanning_.store(false)` of an early return or a handler. -/
  | abort
  /-- Returned, not yet joined. -/
  | done

/-- The state of a `DeepScanner`. -/
structure DeepScanner where
  /-- The workers and their queue. -/
  pool : ThreadPool ScanTask
  /-- A scan is under way. -/
  scanning : Bool
  /-- Its cancellation was asked for. -/
  cancel : Bool
  /-- Files the scan enumerated. -/
  filesTotal : ℕ
  /-- Files it is done with. -/
  filesScanned : ℕ
  /-- Files it reported. -/
  threatsFound : ℕ
  /-- Files of all scans that ended. -/
  lifetimeScanned : ℕ
  /-- Reports of all scans that ended. -/
  lifetimeThreats : ℕ
  /-- Scans that ended. -/
  scansCompleted : ℕ
  /-- The controlling thread. -/
  controller : Controller
  /-- The thread that waits for the workers. -/
  monitor : Monitor
  /-- The scan of the monitor thread. -/
  monitorScan : ℕ
  /-- The current scan, the one the counters belong to. -/
  scan : ℕ

/-- A new scanner with a pool of `n` workers. -/
def create (n : ℕ) : DeepScanner :=
  ⟨WorkerPool.create n,false,false,0,0,0,0,0,0,.idle,.absent,0,0⟩

/-- What a step shows. -/
inductive Action where
  /-- The controlling thread. -/
  | control
  /-- The monitor thread. -/
  | monitor
  /-- The monitor stores the total. -/
  | total (count : ℕ)
  /-- The monitor leaves its wait loop. -/
  | leave (cancelled : Bool)
  /-- A worker, without touching a counter. -/
  | worker
  /-- A task of the given scan adds to `threats_found_`. -/
  | threat (scan : ℕ)
  /-- A task of the given scan adds to `files_scanned_`. -/
  | count (scan : ℕ)

/-- The steps of the controlling thread. -/
inductive ControllerStep : DeepScanner → Action → DeepScanner → Prop where
  | startScan (s : DeepScanner) (mode : ScanMode) (h : s.controller=.idle) :
      ControllerStep s .control { s with controller := .checkScanning mode }
  | busy (s : DeepScanner) (mode : ScanMode) (h : s.controller=.checkScanning mode)
      (scanning : s.scanning=true) : ControllerStep s .control { s with controller := .idle }
  | free (s : DeepScanner) (mode : ScanMode) (h : s.controller=.checkScanning mode)
      (scanning : s.scanning=false) :
      ControllerStep s .control { s with controller := .join mode }
  | join (s : DeepScanner) (mode : ScanMode) (h : s.controller=.join mode)
      (ended : s.monitor=.done ∨ s.monitor=.absent) :
      ControllerStep s .control { s with controller := .clearQueue mode,monitor := .absent }
  | clearQueue (s : DeepScanner) (mode : ScanMode) (h : s.controller=.clearQueue mode) :
      ControllerStep s .control { s with controller := .waitIdle mode,pool := s.pool.clearQueue }
  | waitIdle (s : DeepScanner) (mode : ScanMode) (h : s.controller=.waitIdle mode)
      (idle : WorkerPool.Step s.pool .waitIdle s.pool) :
      ControllerStep s .control { s with controller := .storeScanning mode }
  | storeScanning (s : DeepScanner) (mode : ScanMode) (h : s.controller=.storeScanning mode) :
      ControllerStep s .control
        { s with controller := .storeCancel mode,scanning := true,scan := s.scan+1 }
  | storeCancel (s : DeepScanner) (mode : ScanMode) (h : s.controller=.storeCancel mode) :
      ControllerStep s .control { s with controller := .resetScanned mode,cancel := false }
  | resetScanned (s : DeepScanner) (mode : ScanMode) (h : s.controller=.resetScanned mode) :
      ControllerStep s .control { s with controller := .resetThreats mode,filesScanned := 0 }
  | resetThreats (s : DeepScanner) (mode : ScanMode) (h : s.controller=.resetThreats mode) :
      ControllerStep s .control { s with controller := .resetTotal mode,threatsFound := 0 }
  | resetTotal (s : DeepScanner) (mode : ScanMode) (h : s.controller=.resetTotal mode) :
      ControllerStep s .control { s with controller := .spawn mode,filesTotal := 0 }
  | spawnMemory (s : DeepScanner) (h : s.controller=.spawn .memory) :
      ControllerStep s .control
        { s with controller := .idle,monitor := .processes,monitorScan := s.scan }
  | spawnFiles (s : DeepScanner) (mode : ScanMode) (roots : ℕ) (h : s.controller=.spawn mode)
      (files : mode≠.memory) :
      ControllerStep s .control
        { s with controller := .idle,monitor := .roots roots 0,monitorScan := s.scan }
  | cancelScan (s : DeepScanner) (h : s.controller=.idle) :
      ControllerStep s .control { s with controller := .cancelFlag }
  | cancelFlag (s : DeepScanner) (h : s.controller=.cancelFlag) :
      ControllerStep s .control { s with controller := .cancelScanning,cancel := true }
  | cancelScanning (s : DeepScanner) (h : s.controller=.cancelScanning) :
      ControllerStep s .control { s with controller := .cancelClear,scanning := false }
  | cancelClear (s : DeepScanner) (h : s.controller=.cancelClear) :
      ControllerStep s .control { s with controller := .idle,pool := s.pool.clearQueue }

/-- The steps of the monitor thread. The enumeration may find any number of
paths and may stop early at a cancelled root. An exception leads to the
handler. The two loads of the wait loop are taken from left to right. -/
inductive MonitorStep : DeepScanner → Action → DeepScanner → Prop where
  | root (s : DeepScanner) (left found more : ℕ) (h : s.monitor=.roots (left+1) found)
      (go : s.cancel=false) :
      MonitorStep s .monitor { s with monitor := .roots left (found+more) }
  | rootCancelled (s : DeepScanner) (left found : ℕ) (h : s.monitor=.roots (left+1) found)
      (cancelled : s.cancel=true) : MonitorStep s .monitor { s with monitor := .checkCancel found }
  | rootsDone (s : DeepScanner) (found : ℕ) (h : s.monitor=.roots 0 found) :
      MonitorStep s .monitor { s with monitor := .checkCancel found }
  | processes (s : DeepScanner) (count : ℕ) (h : s.monitor=.processes) :
      MonitorStep s .monitor { s with monitor := .checkCancel count }
  | cancelled (s : DeepScanner) (count : ℕ) (h : s.monitor=.checkCancel count)
      (cancelled : s.cancel=true) : MonitorStep s .monitor { s with monitor := .abort }
  | proceed (s : DeepScanner) (count : ℕ) (h : s.monitor=.checkCancel count)
      (go : s.cancel=false) : MonitorStep s .monitor { s with monitor := .storeTotal count }
  | storeTotal (s : DeepScanner) (count : ℕ) (h : s.monitor=.storeTotal count) :
      MonitorStep s (.total count) { s with monitor := .submit count,filesTotal := count }
  | submitDone (s : DeepScanner) (h : s.monitor=.submit 0) :
      MonitorStep s .monitor { s with monitor := .loadScanned }
  | submitCancelled (s : DeepScanner) (left : ℕ) (h : s.monitor=.submit (left+1))
      (cancelled : s.cancel=true) : MonitorStep s .monitor { s with monitor := .loadScanned }
  | submitNext (s : DeepScanner) (left : ℕ) (h : s.monitor=.submit (left+1))
      (go : s.cancel=false) : MonitorStep s .monitor { s with monitor := .push left }
  | push (s : DeepScanner) (left : ℕ) (h : s.monitor=.push left) :
      MonitorStep s .monitor
        { s with monitor := .submit left,pool := s.pool.enqueue ⟨s.monitorScan,.entered⟩ }
  | loadScanned (s : DeepScanner) (h : s.monitor=.loadScanned) :
      MonitorStep s .monitor { s with monitor := .loadTotal s.filesScanned }
  | loadTotal (s : DeepScanner) (seen : ℕ) (h : s.monitor=.loadTotal seen)
      (less : seen < s.filesTotal) : MonitorStep s .monitor { s with monitor := .loadCancel }
  | leave (s : DeepScanner) (seen : ℕ) (h : s.monitor=.loadTotal seen)
      (complete : ¬seen < s.filesTotal) :
      MonitorStep s (.leave false) { s with monitor := .storeIdle }
  | again (s : DeepScanner) (h : s.monitor=.loadCancel) (go : s.cancel=false) :
      MonitorStep s .monitor { s with monitor := .loadScanned }
  | leaveCancelled (s : DeepScanner) (h : s.monitor=.loadCancel) (cancelled : s.cancel=true) :
      MonitorStep s (.leave true) { s with monitor := .storeIdle }
  | storeIdle (s : DeepScanner) (h : s.monitor=.storeIdle) :
      MonitorStep s .monitor { s with monitor := .readScanned,scanning := false }
  | readScanned (s : DeepScanner) (h : s.monitor=.readScanned) :
      MonitorStep s .monitor { s with monitor := .addScanned s.filesScanned }
  | addScanned (s : DeepScanner) (value : ℕ) (h : s.monitor=.addScanned value) :
      MonitorStep s .monitor
        { s with monitor := .readThreats,lifetimeScanned := s.lifetimeScanned+value }
  | readThreats (s : DeepScanner) (h : s.monitor=.readThreats) :
      MonitorStep s .monitor { s with monitor := .addThreats s.threatsFound }
  | addThreats (s : DeepScanner) (value : ℕ) (h : s.monitor=.addThreats value) :
      MonitorStep s .monitor
        { s with monitor := .readCancel,lifetimeThreats := s.lifetimeThreats+value }
  | readCancel (s : DeepScanner) (h : s.monitor=.readCancel) (go : s.cancel=false) :
      MonitorStep s .monitor { s with monitor := .addCompleted }
  | readCancelled (s : DeepScanner) (h : s.monitor=.readCancel) (cancelled : s.cancel=true) :
      MonitorStep s .monitor { s with monitor := .done }
  | addCompleted (s : DeepScanner) (h : s.monitor=.addCompleted) :
      MonitorStep s .monitor { s with monitor := .done,scansCompleted := s.scansCompleted+1 }
  | throw (s : DeepScanner) (alive : s.monitor≠.absent) (running : s.monitor≠.done) :
      MonitorStep s .monitor { s with monitor := .abort }
  | abort (s : DeepScanner) (h : s.monitor=.abort) :
      MonitorStep s .monitor { s with monitor := .done,scanning := false }

/-- A running task moves to another phase. -/
def moveTask (pool : ThreadPool ScanTask) (left right : List (Worker ScanTask))
    (task : PoolTask ScanTask) (phase : Phase) : ThreadPool ScanTask :=
  { pool with workers := left++.running ⟨task.ticket,⟨task.body.scan,phase⟩⟩::right }

/-- The steps of the workers. A task can throw only inside its own `try`. -/
inductive WorkerStep : DeepScanner → Action → DeepScanner → Prop where
  | take (s : DeepScanner) (worker : ℕ) (task : PoolTask ScanTask) (pool : ThreadPool ScanTask)
      (step : WorkerPool.Step s.pool (.take worker task) pool) :
      WorkerStep s .worker { s with pool := pool }
  | checkCancel (s : DeepScanner) (left right : List (Worker ScanTask)) (task : PoolTask ScanTask)
      (busy : s.pool.workers=left++.running task::right) (h : task.body.phase=.entered) :
      WorkerStep s .worker
        { s with
          pool := moveTask s.pool left right task (if s.cancel then .counting else .scanning) }
  | threat (s : DeepScanner) (left right : List (Worker ScanTask)) (task : PoolTask ScanTask)
      (busy : s.pool.workers=left++.running task::right) (h : task.body.phase=.scanning) :
      WorkerStep s (.threat task.body.scan) { s with threatsFound := s.threatsFound+1 }
  | scanned (s : DeepScanner) (left right : List (Worker ScanTask)) (task : PoolTask ScanTask)
      (busy : s.pool.workers=left++.running task::right) (h : task.body.phase=.scanning) :
      WorkerStep s .worker { s with pool := moveTask s.pool left right task .counting }
  | count (s : DeepScanner) (left right : List (Worker ScanTask)) (task : PoolTask ScanTask)
      (busy : s.pool.workers=left++.running task::right) (h : task.body.phase=.counting) :
      WorkerStep s (.count task.body.scan)
        { s with
          pool := moveTask s.pool left right task .returned
          filesScanned := s.filesScanned+1 }
  | finish (s : DeepScanner) (worker : ℕ) (task : PoolTask ScanTask) (pool : ThreadPool ScanTask)
      (h : task.body.phase=.returned)
      (step : WorkerPool.Step s.pool (.finish worker task false) pool) :
      WorkerStep s .worker { s with pool := pool }

/-- A step of any thread. -/
inductive Step (s : DeepScanner) (action : Action) (t : DeepScanner) : Prop where
  | controller (step : ControllerStep s action t)
  | monitor (step : MonitorStep s action t)
  | worker (step : WorkerStep s action t)

/-- Tasks of the pool that have not been counted yet. -/
def pending (pool : ThreadPool ScanTask) : ℕ :=
  pool.held.countP fun task => task.body.phase≠.returned

/-- The monitor has not stored the total of its scan. -/
def Monitor.Enumerating : Monitor → Prop
  | .roots _ _ | .processes | .checkCancel _ | .storeTotal _ => True
  | _ => False

/-- Tasks the monitor may still enqueue. -/
def Monitor.owed : Monitor → ℕ
  | .submit left => left
  | .push left => left+1
  | _ => 0

/-- `start_scan` has joined the monitor of the previous scan. -/
def Controller.Joined : Controller → Prop
  | .clearQueue _ | .waitIdle _ | .storeScanning _ | .storeCancel _ | .resetScanned _
  | .resetThreats _ | .resetTotal _ | .spawn _ => True
  | _ => False

/-- `start_scan` has seen the pool idle. -/
def Controller.Resetting : Controller → Prop
  | .storeScanning _ | .storeCancel _ | .resetScanned _ | .resetThreats _ | .resetTotal _
  | .spawn _ => True
  | _ => False

/-- `start_scan` has stored zero into `files_scanned_`. -/
def Controller.Zeroed : Controller → Prop
  | .resetThreats _ | .resetTotal _ | .spawn _ => True
  | _ => False

/-- The pool is idle only after the join. -/
theorem joined_of_resetting {controller : Controller} (h : controller.Resetting) :
    controller.Joined := by
  cases controller <;> first | exact h | trivial

/-- The counter is reset only when the pool is idle. -/
theorem resetting_of_zeroed {controller : Controller} (h : controller.Zeroed) :
    controller.Resetting := by
  cases controller <;> first | exact h | trivial

/-- What holds in every state. -/
structure Bounded (s : DeepScanner) : Prop where
  /-- The counter of the pool is exact. -/
  balance : s.pool.outstanding=s.pool.tasks.length+s.pool.running.length
  /-- Every task in the pool belongs to the current scan. -/
  own : ∀ task ∈ s.pool.held,task.body.scan=s.scan
  /-- A joined monitor is gone. -/
  joined : s.controller.Joined → s.monitor=.absent
  /-- The pool is empty from `wait_idle` until the total is stored. -/
  drained : s.controller.Resetting ∨ s.monitor.Enumerating → s.pool.held=[]
  /-- The counter stays zero from its reset until the total is stored. -/
  zeroed : s.controller.Zeroed ∨ s.monitor.Enumerating → s.filesScanned=0
  /-- The monitor works for the current scan. -/
  current : s.monitor≠.absent → s.monitorScan=s.scan
  /-- Counted, pending and still owed tasks together stay within the total. -/
  bound : s.filesScanned+pending s.pool+s.monitor.owed ≤ s.filesTotal
  /-- A value the wait loop has loaded is not ahead of the counter. -/
  seen : ∀ seen,s.monitor=.loadTotal seen → seen ≤ s.filesScanned

/-- Clearing the queue leaves fewer pending tasks. -/
theorem pending_clearQueue (pool : ThreadPool ScanTask) :
    pending pool.clearQueue ≤ pending pool :=
  (clearQueue_held pool).countP_le

/-- A new task is pending. -/
theorem pending_enqueue (pool : ThreadPool ScanTask) (scan : ℕ) :
    pending (pool.enqueue ⟨scan,.entered⟩)=pending pool+1 := by
  rw [pending,(enqueue_held pool ⟨scan,.entered⟩).countP_eq,List.countP_cons_of_pos rfl,
    pending]

/-- A running task and the others in the pool, before and after it moves. -/
theorem moveTask_held {pool : ThreadPool ScanTask} {left right : List (Worker ScanTask)}
    {task : PoolTask ScanTask} (busy : pool.workers=left++.running task::right) (phase : Phase) :
    ∃ others,pool.held.Perm (task::others) ∧ (moveTask pool left right task phase).held.Perm
      (⟨task.ticket,⟨task.body.scan,phase⟩⟩::others) := by
  refine ⟨pool.tasks++(left++right).flatMap Worker.held,?_,?_⟩
  · rw [ThreadPool.held,ThreadPool.running,busy]
    exact ((running_split left right (.running task)).append_left _).trans List.perm_middle
  · rw [ThreadPool.held,ThreadPool.running,moveTask]
    exact ((running_split left right _).append_left _).trans List.perm_middle

/-- Moving a task leaves the accounting of the pool alone. -/
theorem moveTask_balance {pool : ThreadPool ScanTask} {left right : List (Worker ScanTask)}
    {task : PoolTask ScanTask} (busy : pool.workers=left++.running task::right) (phase : Phase)
    (h : pool.outstanding=pool.tasks.length+pool.running.length) :
    (moveTask pool left right task phase).outstanding=
      (moveTask pool left right task phase).tasks.length+
      (moveTask pool left right task phase).running.length := by
  have hold := (running_split left right (.running task)).length_eq
  have hnew := (running_split left right
    (.running ⟨task.ticket,⟨task.body.scan,phase⟩⟩)).length_eq
  simp only [ThreadPool.running,moveTask] at h ⊢
  simp only [Worker.held,List.length_append,List.length_singleton] at hold hnew
  rw [busy,hold] at h
  rw [h,hnew]

/-- The tasks keep their scan when one of them moves. -/
theorem moveTask_own {pool : ThreadPool ScanTask} {left right : List (Worker ScanTask)}
    {task : PoolTask ScanTask} {scan : ℕ} (busy : pool.workers=left++.running task::right)
    (phase : Phase) (own : ∀ other ∈ pool.held,other.body.scan=scan) :
    ∀ other ∈ (moveTask pool left right task phase).held,other.body.scan=scan := by
  obtain ⟨others,hold,hnew⟩ := moveTask_held busy phase
  intro other member
  rcases List.mem_cons.mp (hnew.mem_iff.mp member) with rfl | h
  · exact own task (hold.mem_iff.mpr List.mem_cons_self)
  · exact own other (hold.mem_iff.mpr (List.mem_cons_of_mem _ h))

/-- A running task is in the hands of the pool. -/
theorem mem_held {pool : ThreadPool ScanTask} {left right : List (Worker ScanTask)}
    {task : PoolTask ScanTask} (busy : pool.workers=left++.running task::right) :
    task ∈ pool.held := by
  obtain ⟨others,hold,-⟩ := moveTask_held busy .returned
  exact hold.mem_iff.mpr List.mem_cons_self

/-- The controlling thread moves and touches nothing the invariant reads. -/
theorem Bounded.control {s t : DeepScanner} (inv : Bounded s) (pool : t.pool=s.pool)
    (monitor : t.monitor=s.monitor) (monitorScan : t.monitorScan=s.monitorScan)
    (scan : t.scan=s.scan) (filesScanned : t.filesScanned=s.filesScanned)
    (filesTotal : t.filesTotal=s.filesTotal) (joined : t.controller.Joined → s.controller.Joined)
    (resetting : t.controller.Resetting → s.controller.Resetting)
    (zeroed : t.controller.Zeroed → s.controller.Zeroed) : Bounded t := by
  constructor
  · rw [pool]
    exact inv.balance
  · rw [pool,scan]
    exact inv.own
  · rw [monitor]
    exact fun h => inv.joined (joined h)
  · rw [monitor,pool]
    exact fun h => inv.drained (h.imp_left resetting)
  · rw [monitor,filesScanned]
    exact fun h => inv.zeroed (h.imp_left zeroed)
  · rw [monitor,monitorScan,scan]
    exact inv.current
  · rw [filesScanned,pool,monitor,filesTotal]
    exact inv.bound
  · rw [monitor,filesScanned]
    exact inv.seen

/-- The monitor moves and touches nothing the invariant reads. -/
theorem Bounded.watch {s t : DeepScanner} (inv : Bounded s) (pool : t.pool=s.pool)
    (controller : t.controller=s.controller) (monitorScan : t.monitorScan=s.monitorScan)
    (scan : t.scan=s.scan) (filesScanned : t.filesScanned=s.filesScanned)
    (filesTotal : t.filesTotal=s.filesTotal) (alive : s.monitor≠.absent)
    (enumerating : t.monitor.Enumerating → s.monitor.Enumerating)
    (owed : t.monitor.owed ≤ s.monitor.owed)
    (seen : ∀ seen,t.monitor=.loadTotal seen → seen ≤ s.filesScanned) : Bounded t := by
  constructor
  · rw [pool]
    exact inv.balance
  · rw [pool,scan]
    exact inv.own
  · rw [controller]
    exact fun h => absurd (inv.joined h) alive
  · rw [controller,pool]
    exact fun h => inv.drained (h.imp_right enumerating)
  · rw [controller,filesScanned]
    exact fun h => inv.zeroed (h.imp_right enumerating)
  · rw [monitorScan,scan]
    exact fun _ => inv.current alive
  · rw [filesScanned,pool,filesTotal]
    have hbound := inv.bound
    omega
  · rw [filesScanned]
    exact seen

/-- The monitor moves while it enumerates. -/
theorem Bounded.enumerate {s : DeepScanner} (inv : Bounded s) {pc : Monitor}
    (alive : s.monitor≠.absent) (before : s.monitor.Enumerating) (owed : pc.owed=0)
    (seen : ∀ seen,pc≠.loadTotal seen) : Bounded { s with monitor := pc } :=
  inv.watch rfl rfl rfl rfl rfl rfl alive (fun _ => before)
    (owed.le.trans (Nat.zero_le _)) fun k h => absurd h (seen k)

/-- The monitor moves to where it neither enumerates nor enqueues nor compares,
and may store what the invariant does not read. -/
theorem Bounded.pass {s : DeepScanner} (inv : Bounded s) {pc : Monitor} {scanning : Bool}
    {lifetimeScanned lifetimeThreats scansCompleted : ℕ} (alive : s.monitor≠.absent)
    (behind : ¬pc.Enumerating) (owed : pc.owed=0) (seen : ∀ seen,pc≠.loadTotal seen) :
    Bounded { s with
      monitor := pc,scanning := scanning,lifetimeScanned := lifetimeScanned
      lifetimeThreats := lifetimeThreats,scansCompleted := scansCompleted } :=
  inv.watch rfl rfl rfl rfl rfl rfl alive (fun h => absurd h behind)
    (owed.le.trans (Nat.zero_le _)) fun k h => absurd h (seen k)

/-- The queue of the pool is cleared. -/
theorem Bounded.clear {s : DeepScanner} (inv : Bounded s) {controller : Controller}
    (joined : controller.Joined → s.controller.Joined)
    (resetting : controller.Resetting → s.controller.Resetting)
    (zeroed : controller.Zeroed → s.controller.Zeroed) :
    Bounded { s with controller := controller,pool := s.pool.clearQueue } := by
  have hpending := pending_clearQueue s.pool
  have hbound := inv.bound
  have hsub := clearQueue_held s.pool
  refine ⟨step_balance (.clearQueue s.pool) inv.balance,
    fun task member => inv.own task (hsub.mem member),fun h => inv.joined (joined h),?_,
    fun h => inv.zeroed (h.imp_left zeroed),inv.current,?_,inv.seen⟩
  · intro h
    rw [inv.drained (h.imp_left resetting)] at hsub
    exact List.sublist_nil.mp hsub
  · dsimp only
    omega

/-- A monitor starts after the counters have been reset. -/
theorem Bounded.spawn {s : DeepScanner} (inv : Bounded s) (reset : s.controller.Zeroed)
    {monitor : Monitor} (owed : monitor.owed=0) (loaded : ∀ seen,monitor≠.loadTotal seen) :
    Bounded { s with controller := .idle,monitor := monitor,monitorScan := s.scan } := by
  have hbound := inv.bound
  refine ⟨inv.balance,inv.own,nofun,fun _ => inv.drained (.inl (resetting_of_zeroed reset)),
    fun _ => inv.zeroed (.inl reset),fun _ => rfl,?_,fun seen h => absurd h (loaded seen)⟩
  dsimp only
  omega

/-- The controlling thread keeps the invariant. -/
theorem ControllerStep.bounded {s t : DeepScanner} {action : Action}
    (step : ControllerStep s action t) (inv : Bounded s) : Bounded t := by
  cases step with
  | startScan mode h => exact inv.control rfl rfl rfl rfl rfl rfl nofun nofun nofun
  | busy mode h scanning => exact inv.control rfl rfl rfl rfl rfl rfl nofun nofun nofun
  | free mode h scanning => exact inv.control rfl rfl rfl rfl rfl rfl nofun nofun nofun
  | join mode h ended =>
    have howed : s.monitor.owed=0 := by
      rcases ended with h | h <;> rw [h] <;> rfl
    have hbound := inv.bound
    refine ⟨inv.balance,inv.own,fun _ => rfl,nofun,nofun,fun h => absurd rfl h,?_,nofun⟩
    dsimp only [Monitor.owed]
    omega
  | clearQueue mode h => exact inv.clear (fun _ => by rw [h]; trivial) nofun nofun
  | waitIdle mode h idle =>
    have hgone := inv.joined (by rw [h]; trivial)
    cases idle with
    | waitIdle idle =>
      refine ⟨inv.balance,inv.own,fun _ => hgone,fun _ => held_of_idle inv.balance idle,?_,
        inv.current,inv.bound,inv.seen⟩
      rw [hgone]
      exact nofun
  | storeScanning mode h =>
    have hgone := inv.joined (by rw [h]; trivial)
    have hnil := inv.drained (.inl (by rw [h]; trivial))
    refine ⟨inv.balance,?_,fun _ => hgone,fun _ => hnil,?_,fun alive => absurd hgone alive,
      inv.bound,inv.seen⟩
    · dsimp only
      rw [hnil]
      exact nofun
    · rw [hgone]
      exact nofun
  | storeCancel mode h =>
    exact inv.control rfl rfl rfl rfl rfl rfl (by rw [h]; exact id) (by rw [h]; exact id) nofun
  | resetScanned mode h =>
    have hgone := inv.joined (by rw [h]; trivial)
    have hbound := inv.bound
    refine ⟨inv.balance,inv.own,fun _ => hgone,fun _ => inv.drained (.inl (by rw [h]; trivial)),
      fun _ => rfl,inv.current,?_,?_⟩
    · dsimp only
      omega
    · dsimp only
      rw [hgone]
      exact nofun
  | resetThreats mode h =>
    exact inv.control rfl rfl rfl rfl rfl rfl (by rw [h]; exact id) (by rw [h]; exact id)
      (by rw [h]; exact id)
  | resetTotal mode h =>
    have hgone := inv.joined (by rw [h]; trivial)
    have hnil := inv.drained (.inl (by rw [h]; trivial))
    have hzero := inv.zeroed (.inl (by rw [h]; trivial))
    refine ⟨inv.balance,inv.own,fun _ => hgone,fun _ => hnil,fun _ => hzero,inv.current,?_,
      inv.seen⟩
    dsimp only
    rw [hzero,hgone,pending,hnil]
    exact le_refl _
  | spawnMemory h => exact inv.spawn (by rw [h]; trivial) rfl nofun
  | spawnFiles mode roots h files => exact inv.spawn (by rw [h]; trivial) rfl nofun
  | cancelScan h => exact inv.control rfl rfl rfl rfl rfl rfl nofun nofun nofun
  | cancelFlag h => exact inv.control rfl rfl rfl rfl rfl rfl nofun nofun nofun
  | cancelScanning h => exact inv.control rfl rfl rfl rfl rfl rfl nofun nofun nofun
  | cancelClear h => exact inv.clear nofun nofun nofun

/-- The monitor thread keeps the invariant. -/
theorem MonitorStep.bounded {s t : DeepScanner} {action : Action}
    (step : MonitorStep s action t) (inv : Bounded s) : Bounded t := by
  have alive : ∀ {pc : Monitor},s.monitor=pc → pc≠.absent → s.monitor≠.absent :=
    fun h ne absent => ne (h.symm.trans absent)
  cases step with
  | root left found more h go =>
    exact inv.enumerate (alive h nofun) (by rw [h]; trivial) rfl nofun
  | rootCancelled left found h cancelled =>
    exact inv.enumerate (alive h nofun) (by rw [h]; trivial) rfl nofun
  | rootsDone found h =>
    exact inv.enumerate (alive h nofun) (by rw [h]; trivial) rfl nofun
  | processes count h =>
    exact inv.enumerate (alive h nofun) (by rw [h]; trivial) rfl nofun
  | cancelled count h cancelled => exact inv.pass (alive h nofun) nofun rfl nofun
  | proceed count h go =>
    exact inv.enumerate (alive h nofun) (by rw [h]; trivial) rfl nofun
  | storeTotal count h =>
    have hnil := inv.drained (.inr (by rw [h]; trivial))
    have hzero := inv.zeroed (.inr (by rw [h]; trivial))
    have here := alive h nofun
    refine ⟨inv.balance,inv.own,fun joined => absurd (inv.joined joined) here,fun _ => hnil,
      fun _ => hzero,fun _ => inv.current here,?_,nofun⟩
    dsimp only [Monitor.owed]
    rw [hzero,pending,hnil]
    exact (Nat.zero_add _).le
  | submitDone h => exact inv.pass (alive h nofun) nofun rfl nofun
  | submitCancelled left h cancelled => exact inv.pass (alive h nofun) nofun rfl nofun
  | submitNext left h go =>
    exact inv.watch rfl rfl rfl rfl rfl rfl (alive h nofun) nofun (by rw [h]; exact le_refl _) nofun
  | push left h =>
    have here := alive h nofun
    have hbound := inv.bound
    rw [h] at hbound
    refine ⟨step_balance (.enqueue s.pool _) inv.balance,fun task member => ?_,
      fun joined => absurd (inv.joined joined) here,fun resetting => ?_,fun zeroed => ?_,
      fun _ => inv.current here,?_,nofun⟩
    · rcases List.mem_cons.mp ((enqueue_held s.pool _).mem_iff.mp member) with rfl | hold
      · exact inv.current here
      · exact inv.own task hold
    · exact absurd (inv.joined (joined_of_resetting (resetting.resolve_right nofun))) here
    · exact inv.zeroed (.inl (zeroed.resolve_right nofun))
    · dsimp only [Monitor.owed] at hbound ⊢
      rw [pending_enqueue]
      omega
  | loadScanned h =>
    refine inv.watch rfl rfl rfl rfl rfl rfl (alive h nofun) nofun (Nat.zero_le _) ?_
    rintro seen ⟨⟩
    exact le_refl _
  | loadTotal seen h less => exact inv.pass (alive h nofun) nofun rfl nofun
  | leave seen h complete => exact inv.pass (alive h nofun) nofun rfl nofun
  | again h go => exact inv.pass (alive h nofun) nofun rfl nofun
  | leaveCancelled h cancelled => exact inv.pass (alive h nofun) nofun rfl nofun
  | storeIdle h => exact inv.pass (alive h nofun) nofun rfl nofun
  | readScanned h => exact inv.pass (alive h nofun) nofun rfl nofun
  | addScanned value h => exact inv.pass (alive h nofun) nofun rfl nofun
  | readThreats h => exact inv.pass (alive h nofun) nofun rfl nofun
  | addThreats value h => exact inv.pass (alive h nofun) nofun rfl nofun
  | readCancel h go => exact inv.pass (alive h nofun) nofun rfl nofun
  | readCancelled h cancelled => exact inv.pass (alive h nofun) nofun rfl nofun
  | addCompleted h => exact inv.pass (alive h nofun) nofun rfl nofun
  | throw here running => exact inv.pass here nofun rfl nofun
  | abort h => exact inv.pass (alive h nofun) nofun rfl nofun

/-- A change of the pool that keeps its tasks, their scans and the sum of
counted and pending tasks keeps the invariant. -/
theorem Bounded.work {s : DeepScanner} {pool : ThreadPool ScanTask} {filesScanned : ℕ}
    (inv : Bounded s) (balance : pool.outstanding=pool.tasks.length+pool.running.length)
    (own : ∀ task ∈ pool.held,task.body.scan=s.scan) (busy : s.pool.held≠[])
    (grows : s.filesScanned ≤ filesScanned)
    (sum : filesScanned+pending pool ≤ s.filesScanned+pending s.pool) :
    Bounded { s with pool := pool,filesScanned := filesScanned } := by
  have hbound := inv.bound
  refine ⟨balance,own,inv.joined,fun h => absurd (inv.drained h) busy,fun h => ?_,inv.current,?_,
    fun seen h => (inv.seen seen h).trans grows⟩
  · exact absurd (inv.drained (h.imp_left resetting_of_zeroed)) busy
  · dsimp only
    omega

/-- A moved task changes the number of pending tasks by its own part. -/
theorem pending_moveTask {pool : ThreadPool ScanTask} {left right : List (Worker ScanTask)}
    {task : PoolTask ScanTask} (busy : pool.workers=left++.running task::right) (phase : Phase) :
    pending (moveTask pool left right task phase)+(if task.body.phase≠.returned then 1 else 0)=
      pending pool+(if phase≠.returned then 1 else 0) := by
  obtain ⟨others,hold,hnew⟩ := moveTask_held busy phase
  rw [pending,pending,hold.countP_eq,hnew.countP_eq,List.countP_cons,List.countP_cons]
  simp only [decide_eq_true_eq]
  omega

/-- The workers keep the invariant. -/
theorem WorkerStep.bounded {s t : DeepScanner} {action : Action}
    (step : WorkerStep s action t) (inv : Bounded s) : Bounded t := by
  cases step with
  | take worker task pool step =>
    have hheld := take_held step
    refine inv.work (step_balance step inv.balance)
      (fun other member => inv.own other (hheld.mem_iff.mp member)) ?_ (le_refl _) ?_
    · intro hnil
      cases step with
      | take left right task rest waiting queued =>
        rw [ThreadPool.held,queued] at hnil
        exact absurd hnil (List.cons_ne_nil _ _)
    · rw [pending,pending,hheld.countP_eq]
  | checkCancel left right task busy h =>
    have hpending := pending_moveTask busy (if s.cancel then .counting else .scanning)
    have hphase : (if s.cancel then Phase.counting else Phase.scanning)≠.returned := by
      split <;> decide
    have hentered : Phase.entered≠.returned := by decide
    rw [h,if_pos hphase,if_pos hentered] at hpending
    exact inv.work (moveTask_balance busy _ inv.balance) (moveTask_own busy _ inv.own)
      (List.ne_nil_of_mem (mem_held busy)) (le_refl _) (by omega)
  | threat left right task busy h =>
    exact ⟨inv.balance,inv.own,inv.joined,inv.drained,inv.zeroed,inv.current,inv.bound,inv.seen⟩
  | scanned left right task busy h =>
    have hpending := pending_moveTask busy .counting
    have hscanning : Phase.scanning≠.returned := by decide
    have hcounting : Phase.counting≠.returned := by decide
    rw [h,if_pos hscanning,if_pos hcounting] at hpending
    exact inv.work (moveTask_balance busy _ inv.balance) (moveTask_own busy _ inv.own)
      (List.ne_nil_of_mem (mem_held busy)) (le_refl _) (by omega)
  | count left right task busy h =>
    have hpending := pending_moveTask busy .returned
    have hcounting : Phase.counting≠.returned := by decide
    rw [h,if_pos hcounting,if_neg (not_not_intro rfl)] at hpending
    exact inv.work (moveTask_balance busy _ inv.balance) (moveTask_own busy _ inv.own)
      (List.ne_nil_of_mem (mem_held busy)) (Nat.le_succ _) (by omega)
  | finish worker task pool h step =>
    have hheld := finish_held step
    refine inv.work (step_balance step inv.balance)
      (fun other member => inv.own other (hheld.mem_iff.mp (List.mem_cons_of_mem _ member))) ?_
      (le_refl _) ?_
    · intro hnil
      rw [hnil] at hheld
      exact absurd hheld.eq_nil (List.cons_ne_nil _ _)
    · have hcount := hheld.countP_eq fun task => task.body.phase≠.returned
      rw [List.countP_cons_of_neg (by rw [h]; decide)] at hcount
      rw [pending,pending,hcount]

/-- Every step keeps the invariant. -/
theorem Step.bounded {s t : DeepScanner} {action : Action} (step : Step s action t)
    (inv : Bounded s) : Bounded t := by
  cases step with
  | controller step => exact step.bounded inv
  | monitor step => exact step.bounded inv
  | worker step => exact step.bounded inv

/-- The invariant holds in every reachable state. -/
theorem run_bounded {n : ℕ} {events : List (Event DeepScanner Action)} {s : DeepScanner}
    (run : Run Step (create n) events s) : Bounded s := by
  refine run.invariant (fun _ s => Bounded s) ?_ (fun _ _ _ _ inv step => step.bounded inv)
  have hpool : Run WorkerPool.Step (WorkerPool.create n : ThreadPool ScanTask) [] _ := .nil
  have hbalance := (run_accounted hpool).balance
  have hnil : (WorkerPool.create n : ThreadPool ScanTask).held=[] := held_of_idle hbalance rfl
  refine ⟨hbalance,?_,fun _ => rfl,fun _ => hnil,fun _ => rfl,fun h => absurd rfl h,?_,nofun⟩
  · rw [create,hnil]
    exact nofun
  · rw [create,pending,hnil]
    exact le_refl _

/-- A counter grows only by a task in the pool. -/
theorem Step.increase {s t : DeepScanner} {action : Action} (step : Step s action t)
    (grows : s.filesScanned < t.filesScanned ∨ s.threatsFound < t.threatsFound) :
    ∃ task ∈ s.pool.held,action=.count task.body.scan ∨ action=.threat task.body.scan := by
  have same : ∀ k : ℕ,¬(k < k) := Nat.lt_irrefl
  cases step with
  | controller step =>
    cases step with
    | resetScanned mode h => exact absurd grows (not_or_intro (Nat.not_lt_zero _) (same _))
    | resetThreats mode h => exact absurd grows (not_or_intro (same _) (Nat.not_lt_zero _))
    | _ => exact absurd grows (not_or_intro (same _) (same _))
  | monitor step => cases step <;> exact absurd grows (not_or_intro (same _) (same _))
  | worker step =>
    cases step with
    | take | checkCancel | scanned | finish =>
      exact absurd grows (not_or_intro (same _) (same _))
    | threat left right task busy h => exact ⟨task,mem_held busy,.inr rfl⟩
    | count left right task busy h => exact ⟨task,mem_held busy,.inl rfl⟩

/-- A step that counts is taken by a task in the pool. -/
theorem Step.counting_task {s t : DeepScanner} {action : Action} {scan : ℕ}
    (step : Step s action t) (counts : action=.count scan ∨ action=.threat scan) :
    ∃ task ∈ s.pool.held,task.body.scan=scan := by
  cases step with
  | controller step => cases step <;> exact absurd counts nofun
  | monitor step => cases step <;> exact absurd counts nofun
  | worker step =>
    cases step with
    | take | checkCancel | scanned | finish => exact absurd counts nofun
    | threat left right task busy h =>
      have hscan := Action.threat.inj (counts.resolve_left nofun)
      exact ⟨task,mem_held busy,hscan⟩
    | count left right task busy h =>
      have hscan := Action.count.inj (counts.resolve_right nofun)
      exact ⟨task,mem_held busy,hscan⟩

/-- The wait loop is left without cancellation only when the counter has
reached the total. -/
theorem Step.leave_complete {s t : DeepScanner} (step : Step s (.leave false) t)
    (inv : Bounded s) : t.filesScanned=t.filesTotal := by
  cases step with
  | controller step => cases step
  | worker step => cases step
  | monitor step =>
    cases step with
    | leave seen h complete =>
      have hseen := inv.seen seen h
      have hbound := inv.bound
      dsimp only
      omega

/-- For every interleaving of the controlling thread, the monitor and any
number of workers: the progress never passes the total; a counter grows only
by a task of the scan it was reset for; and the monitor leaves its wait loop
without cancellation only when both are equal. -/
theorem progress_never_overruns {n : ℕ} {events : List (Event DeepScanner Action)}
    {s : DeepScanner} (run : Run Step (create n) events s) :
    s.filesScanned ≤ s.filesTotal ∧
    (∀ e ∈ events,e.before.filesScanned < e.after.filesScanned ∨
        e.before.threatsFound < e.after.threatsFound →
      e.label=.count e.before.scan ∨ e.label=.threat e.before.scan) ∧
    (∀ e ∈ events,∀ scan,e.label=.count scan ∨ e.label=.threat scan →
      scan=e.before.scan ∧ ¬e.before.controller.Resetting) ∧
    (∀ e ∈ events,e.label=.leave false → e.after.filesScanned=e.after.filesTotal) := by
  have hevent : ∀ e ∈ events,Bounded e.before ∧ Step e.before e.label e.after := by
    intro e member
    obtain ⟨first,rest,rfl⟩ := List.append_of_mem member
    obtain ⟨hfirst,step,-⟩ := run.event_step
    exact ⟨run_bounded hfirst,step⟩
  have hbound := (run_bounded run).bound
  refine ⟨by omega,?_,?_,?_⟩
  · intro e member grows
    obtain ⟨inv,step⟩ := hevent e member
    obtain ⟨task,held,hlabel⟩ := step.increase grows
    rw [inv.own task held] at hlabel
    exact hlabel
  · intro e member scan hlabel
    obtain ⟨inv,step⟩ := hevent e member
    obtain ⟨task,held,rfl⟩ := step.counting_task hlabel
    refine ⟨inv.own task held,fun resetting => ?_⟩
    rw [inv.drained (.inl resetting)] at held
    exact List.not_mem_nil held
  · intro e member hlabel
    obtain ⟨inv,step⟩ := hevent e member
    rw [hlabel] at step
    exact step.leave_complete inv

/-- A scan of one root with one worker starts its monitor. -/
theorem one_root_run : ∃ events,Run Step (create 1) events
    { create 1 with scanning := true,monitor := .roots 1 0,monitorScan := 1,scan := 1 } := by
  have h0 : Run Step (create 1) [] (create 1) := .nil
  have h1 := h0.snoc (.controller (.startScan _ .custom rfl))
  have h2 := h1.snoc (.controller (.free _ .custom rfl rfl))
  have h3 := h2.snoc (.controller (.join _ .custom rfl (.inr rfl)))
  have h4 := h3.snoc (.controller (.clearQueue _ .custom rfl))
  have h5 := h4.snoc (.controller (.waitIdle _ .custom rfl (.waitIdle _ rfl)))
  have h6 := h5.snoc (.controller (.storeScanning _ .custom rfl))
  have h7 := h6.snoc (.controller (.storeCancel _ .custom rfl))
  have h8 := h7.snoc (.controller (.resetScanned _ .custom rfl))
  have h9 := h8.snoc (.controller (.resetThreats _ .custom rfl))
  have h10 := h9.snoc (.controller (.resetTotal _ .custom rfl))
  exact ⟨_,h10.snoc (.controller (.spawnFiles _ .custom 1 rfl nofun))⟩

/-- One file, one worker: the monitor sees the file counted and leaves. -/
theorem one_file_scanned :
    ∃ (events : List (Event DeepScanner Action)) (s : DeepScanner),
      Run Step (create 1) events s ∧ s.monitor=.storeIdle ∧ s.filesTotal=1 ∧
      s.filesScanned=s.filesTotal := by
  obtain ⟨events,h0⟩ := one_root_run
  have h1 := h0.snoc (.monitor (.root _ 0 0 1 rfl rfl))
  have h2 := h1.snoc (.monitor (.rootsDone _ 1 rfl))
  have h3 := h2.snoc (.monitor (.proceed _ 1 rfl rfl))
  have h4 := h3.snoc (.monitor (.storeTotal _ 1 rfl))
  have h5 := h4.snoc (.monitor (.submitNext _ 0 rfl rfl))
  have h6 := h5.snoc (.monitor (.push _ 0 rfl))
  have h7 := h6.snoc (.monitor (.submitDone _ rfl))
  have h8 := h7.snoc (.worker (.take _ 0 ⟨0,⟨1,.entered⟩⟩ _ (.take _ [] [] _ [] rfl rfl)))
  have h9 := h8.snoc (.worker (.checkCancel _ [] [] ⟨0,⟨1,.entered⟩⟩ rfl rfl))
  have h10 := h9.snoc (.worker (.scanned _ [] [] ⟨0,⟨1,.scanning⟩⟩ rfl rfl))
  have h11 := h10.snoc (.worker (.count _ [] [] ⟨0,⟨1,.counting⟩⟩ rfl rfl))
  have h12 := h11.snoc (.monitor (.loadScanned _ rfl))
  have h13 := h12.snoc (.monitor (.leave _ 1 rfl (Nat.lt_irrefl 1)))
  obtain ⟨-,-,-,hleave⟩ := progress_never_overruns h13
  exact ⟨_,_,h13,rfl,rfl,hleave _ List.mem_concat_self rfl⟩

end Gcad.DeepScan
