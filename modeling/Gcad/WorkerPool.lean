import Gcad.StepSystem

/-!
# The thread pool

`ThreadPool` of common.hpp as an interleaving of its critical sections, for
any number of workers. A worker takes a task in one critical section, runs it
outside the lock and lowers the counter in another. The tasks carry the
number of the `enqueue` call that brought them, so that equal functions stay
apart. The counter is an integer: one decrement too many would show as a
negative value.
-/

namespace Gcad.WorkerPool

open StepSystem

variable {Body : Type*}

/-- A task in the hands of the pool. -/
structure PoolTask (Body : Type*) where
  /-- The number of the `enqueue` call. -/
  ticket : ℕ
  /-- The function object. -/
  body : Body

/-- Where a worker thread stands. -/
inductive Worker (Body : Type*) where
  /-- Before its next critical section. -/
  | waiting
  /-- Inside `task()`, or between it and the decrement. -/
  | running (task : PoolTask Body)
  /-- Returned from its loop. -/
  | exited

/-- The state of a `ThreadPool`. -/
structure ThreadPool (Body : Type*) where
  /-- The threads of the pool. -/
  workers : List (Worker Body)
  /-- Tasks nobody has taken, oldest first. -/
  tasks : List (PoolTask Body)
  /-- The pool is being shut down. -/
  stop : Bool
  /-- Tasks submitted and not yet accounted for. -/
  outstanding : ℤ
  /-- Calls of `enqueue` so far. -/
  issued : ℕ

/-- A new pool of `n` workers. -/
def create (n : ℕ) : ThreadPool Body := ⟨List.replicate n .waiting,[],false,0,0⟩

/-- The task a worker is busy with. -/
def Worker.held : Worker Body → List (PoolTask Body)
  | .running task => [task]
  | _ => []

/-- The running tasks. -/
def ThreadPool.running (pool : ThreadPool Body) : List (PoolTask Body) :=
  pool.workers.flatMap Worker.held

/-- The tasks in the hands of the pool. -/
def ThreadPool.held (pool : ThreadPool Body) : List (PoolTask Body) := pool.tasks++pool.running

/-- Every worker has returned. -/
def ThreadPool.AllExited (pool : ThreadPool Body) : Prop :=
  ∀ worker ∈ pool.workers, worker=.exited

/-- `enqueue`. -/
def ThreadPool.enqueue (pool : ThreadPool Body) (body : Body) : ThreadPool Body :=
  { pool with
    tasks := pool.tasks++[⟨pool.issued,body⟩]
    outstanding := pool.outstanding+1
    issued := pool.issued+1 }

/-- The loop of `clear_queue`: the counter falls once for each popped task. -/
def popAll : List (PoolTask Body) → ℤ → ℤ
  | [],outstanding => outstanding
  | _::rest,outstanding => popAll rest (outstanding-1)

/-- `clear_queue`. -/
def ThreadPool.clearQueue (pool : ThreadPool Body) : ThreadPool Body :=
  { pool with tasks := [],outstanding := popAll pool.tasks pool.outstanding }

/-- The loop of `clear_queue` lowers the counter by the length of the queue. -/
theorem popAll_eq (tasks : List (PoolTask Body)) (outstanding : ℤ) :
    popAll tasks outstanding=outstanding-tasks.length := by
  induction tasks generalizing outstanding with
  | nil => simp only [popAll,List.length_nil,Nat.cast_zero,sub_zero]
  | cons task rest ih =>
    rw [popAll,ih,List.length_cons]
    push_cast
    ring

/-- One critical section of some thread. -/
inductive Operation (Body : Type*) where
  /-- A caller's `enqueue`. -/
  | enqueue (body : Body)
  /-- A worker pops the oldest task. -/
  | take (worker : ℕ) (task : PoolTask Body)
  /-- A worker lowers the counter after its task returned or threw. -/
  | finish (worker : ℕ) (task : PoolTask Body) (threw : Bool)
  /-- A caller's `clear_queue`. -/
  | clearQueue
  /-- The destructor stores the stop flag. -/
  | shutdown
  /-- A worker returns from its loop. -/
  | exit (worker : ℕ)
  /-- A call of `wait_idle` returns. -/
  | waitIdle

/-- The effect of a critical section. A wait that finds its predicate false
changes nothing and is no step. -/
inductive Step : ThreadPool Body → Operation Body → ThreadPool Body → Prop where
  | enqueue (pool : ThreadPool Body) (body : Body) :
      Step pool (.enqueue body) (pool.enqueue body)
  | take (pool : ThreadPool Body) (left right : List (Worker Body)) (task : PoolTask Body)
      (rest : List (PoolTask Body)) (waiting : pool.workers=left++.waiting::right)
      (queued : pool.tasks=task::rest) :
      Step pool (.take left.length task)
        { pool with workers := left++.running task::right,tasks := rest }
  | finish (pool : ThreadPool Body) (left right : List (Worker Body)) (task : PoolTask Body)
      (threw : Bool) (busy : pool.workers=left++.running task::right) :
      Step pool (.finish left.length task threw)
        { pool with workers := left++.waiting::right,outstanding := pool.outstanding-1 }
  | clearQueue (pool : ThreadPool Body) : Step pool .clearQueue pool.clearQueue
  | shutdown (pool : ThreadPool Body) : Step pool .shutdown { pool with stop := true }
  | exit (pool : ThreadPool Body) (left right : List (Worker Body))
      (waiting : pool.workers=left++.waiting::right) (stopped : pool.stop=true)
      (drained : pool.tasks=[]) :
      Step pool (.exit left.length) { pool with workers := left++.exited::right }
  | waitIdle (pool : ThreadPool Body) (idle : pool.outstanding=0) : Step pool .waitIdle pool

/-- A recorded critical section. -/
abbrev PoolEvent (Body : Type*) := Event (ThreadPool Body) (Operation Body)

/-- The task a critical section put into the queue. -/
def enqueued (e : PoolEvent Body) : List (PoolTask Body) :=
  match e.label with
  | .enqueue body => [⟨e.before.issued,body⟩]
  | _ => []

/-- The task a critical section handed to a worker to run. -/
def started (e : PoolEvent Body) : List (PoolTask Body) :=
  match e.label with
  | .take _ task => [task]
  | _ => []

/-- The task a critical section recorded as finished. -/
def finished (e : PoolEvent Body) : List (PoolTask Body) :=
  match e.label with
  | .finish _ task _ => [task]
  | _ => []

/-- The tasks a critical section dropped from the queue. -/
def cleared (e : PoolEvent Body) : List (PoolTask Body) :=
  match e.label with
  | .clearQueue => e.before.tasks
  | _ => []

/-- The accounting of a history. -/
structure Accounted (events : List (PoolEvent Body)) (pool : ThreadPool Body) : Prop where
  /-- The counter counts the queued and the running tasks. -/
  balance : pool.outstanding=pool.tasks.length+pool.running.length
  /-- Every enqueued task was started, was dropped or is queued. -/
  fate : (events.flatMap started++(events.flatMap cleared++pool.tasks)).Perm
    (events.flatMap enqueued)
  /-- The enqueued tasks are numbered in order. -/
  numbered : (events.flatMap enqueued).map PoolTask.ticket=List.range pool.issued
  /-- Every started task finished or is running. -/
  progress : (events.flatMap finished++pool.running).Perm (events.flatMap started)
  /-- Once the workers are gone, the queue holds only tasks that came later. -/
  drained : pool.AllExited → ∀ e ∈ events,∀ task ∈ enqueued e,¬e.before.AllExited →
    task ∉ pool.tasks

/-- One changed worker changes the running tasks by what it holds. -/
theorem running_split (left right : List (Worker Body)) (worker : Worker Body) :
    ((left++worker::right).flatMap Worker.held).Perm
      (worker.held++(left++right).flatMap Worker.held) := by
  rw [List.flatMap_append,List.flatMap_cons,List.flatMap_append]
  exact List.perm_append_comm_assoc _ _ _

/-- A worker that has not returned keeps the pool alive. -/
theorem not_allExited {pool : ThreadPool Body} {left right : List (Worker Body)}
    {worker : Worker Body} (h : pool.workers=left++worker::right) (alive : worker≠.exited) :
    ¬pool.AllExited := by
  intro all
  exact alive (all worker (by rw [h]; exact List.mem_append_right _ List.mem_cons_self))

/-- The counter agrees with the queue and the workers after every critical
section. -/
theorem step_balance {pool next : ThreadPool Body} {operation : Operation Body}
    (step : Step pool operation next)
    (h : pool.outstanding=pool.tasks.length+pool.running.length) :
    next.outstanding=next.tasks.length+next.running.length := by
  cases step with
  | enqueue body =>
    rw [ThreadPool.enqueue]
    dsimp only [ThreadPool.running] at h ⊢
    rw [h,List.length_append,List.length_singleton]
    push_cast
    ring
  | take left right task rest waiting queued =>
    have hold := (running_split left right .waiting).length_eq
    have hnew := (running_split left right (.running task)).length_eq
    simp only [ThreadPool.running] at h ⊢
    simp only [Worker.held,List.length_append,List.length_nil,List.length_singleton] at hold hnew
    rw [waiting,queued,hold,List.length_cons] at h
    rw [h,hnew]
    push_cast
    ring
  | finish left right task threw busy =>
    have hold := (running_split left right (.running task)).length_eq
    have hnew := (running_split left right .waiting).length_eq
    simp only [ThreadPool.running] at h ⊢
    simp only [Worker.held,List.length_append,List.length_nil,List.length_singleton] at hold hnew
    rw [busy,hold] at h
    rw [h,hnew]
    push_cast
    ring
  | clearQueue =>
    rw [ThreadPool.clearQueue]
    dsimp only [ThreadPool.running] at h ⊢
    rw [popAll_eq,h,List.length_nil]
    push_cast
    ring
  | shutdown => exact h
  | exit left right waiting stopped drained =>
    have hold := (running_split left right .waiting).length_eq
    have hnew := (running_split left right .exited).length_eq
    simp only [ThreadPool.running] at h ⊢
    simp only [Worker.held,List.length_append,List.length_nil] at hold hnew
    rw [waiting,hold] at h
    rw [h,hnew]
  | waitIdle idle => exact h

/-- Every critical section keeps the queued tasks, the started ones and the
dropped ones together. -/
theorem step_fate {pool next : ThreadPool Body} {operation : Operation Body}
    (step : Step pool operation next) :
    (started ⟨pool,operation,next⟩++(cleared ⟨pool,operation,next⟩++next.tasks)).Perm
      (pool.tasks++enqueued ⟨pool,operation,next⟩) := by
  cases step with
  | enqueue body => exact List.Perm.refl _
  | take left right task rest waiting queued =>
    simp only [started,cleared,enqueued,queued,List.nil_append,List.append_nil,
      List.singleton_append]
    exact List.Perm.refl _
  | finish | clearQueue | shutdown | exit | waitIdle =>
    simp only [started,cleared,enqueued,ThreadPool.clearQueue,List.nil_append,List.append_nil]
    exact List.Perm.refl _

/-- Every critical section keeps the running tasks and the finished ones
together. -/
theorem step_progress {pool next : ThreadPool Body} {operation : Operation Body}
    (step : Step pool operation next) :
    (finished ⟨pool,operation,next⟩++next.running).Perm
      (pool.running++started ⟨pool,operation,next⟩) := by
  cases step with
  | take left right task rest waiting queued =>
    simp only [ThreadPool.running,waiting,finished,started,List.nil_append]
    have hold := running_split left right .waiting
    have hnew := running_split left right (.running task)
    exact (hnew.trans List.perm_append_comm).trans (hold.symm.append_right [task])
  | finish left right task threw busy =>
    simp only [ThreadPool.running,busy,finished,started,List.append_nil]
    have hold := running_split left right (.running task)
    have hnew := running_split left right .waiting
    exact (hnew.append_left [task]).trans hold.symm
  | exit left right waiting stopped drained =>
    simp only [ThreadPool.running,waiting,finished,started,List.nil_append,List.append_nil]
    exact (running_split left right .exited).trans (running_split left right .waiting).symm
  | enqueue | clearQueue | shutdown | waitIdle =>
    simp only [finished,started,List.nil_append,List.append_nil]
    exact List.Perm.refl _

/-- The number of the next call grows exactly with the enqueued tasks. -/
theorem step_numbered {pool next : ThreadPool Body} {operation : Operation Body}
    (step : Step pool operation next) :
    List.range pool.issued++(enqueued ⟨pool,operation,next⟩).map PoolTask.ticket=
      List.range next.issued := by
  cases step with
  | enqueue body => exact List.range_succ.symm
  | take | finish | clearQueue | shutdown | exit | waitIdle => exact List.append_nil _

/-- A worker leaves only an empty queue behind, and tasks that arrive
afterwards are new. -/
theorem step_drained {pool next : ThreadPool Body} {operation : Operation Body}
    (step : Step pool operation next) (exited : next.AllExited) :
    next.tasks=[] ∨ pool.AllExited ∧ ∀ task ∈ next.tasks,
      task ∈ pool.tasks ∨ task.ticket=pool.issued := by
  cases step with
  | enqueue body =>
    refine .inr ⟨exited,fun task member => ?_⟩
    rcases List.mem_append.mp member with h | h
    · exact .inl h
    · exact .inr (by rw [List.mem_singleton.mp h])
  | take left right task rest waiting queued =>
    exact absurd exited (not_allExited rfl nofun)
  | finish left right task threw busy =>
    exact absurd exited (not_allExited rfl nofun)
  | clearQueue => exact .inl rfl
  | shutdown => exact .inr ⟨exited,fun task member => .inl member⟩
  | exit left right waiting stopped drained => exact .inl drained
  | waitIdle idle => exact .inr ⟨exited,fun task member => .inl member⟩

/-- Taking a task only moves it. -/
theorem take_held {pool next : ThreadPool Body} {worker : ℕ} {task : PoolTask Body}
    (step : Step pool (.take worker task) next) : next.held.Perm pool.held := by
  have hfate := step_fate step
  have hprogress := step_progress step
  simp only [started,cleared,enqueued,finished,List.nil_append,List.append_nil] at hfate hprogress
  have hmoved := (hprogress.trans List.perm_append_comm).append_left next.tasks
  have hswap : (next.tasks++([task]++pool.running)).Perm ([task]++next.tasks++pool.running) := by
    rw [←List.append_assoc]
    exact List.perm_append_comm.append_right _
  exact (hmoved.trans hswap).trans (hfate.append_right _)

/-- Finishing a task takes it out of the pool. -/
theorem finish_held {pool next : ThreadPool Body} {worker : ℕ} {task : PoolTask Body} {threw : Bool}
    (step : Step pool (.finish worker task threw) next) : (task::next.held).Perm pool.held := by
  have hfate := step_fate step
  have hprogress := step_progress step
  simp only [started,cleared,enqueued,finished,List.nil_append,List.append_nil] at hfate hprogress
  have hmoved : (task::(next.tasks++next.running)).Perm (next.tasks++([task]++next.running)) :=
    List.perm_middle.symm
  exact hmoved.trans (hfate.append hprogress)

/-- A new task joins the others. -/
theorem enqueue_held (pool : ThreadPool Body) (body : Body) :
    (pool.enqueue body).held.Perm (⟨pool.issued,body⟩::pool.held) := by
  rw [ThreadPool.held,ThreadPool.enqueue,ThreadPool.held,List.append_assoc]
  exact List.perm_middle

/-- Clearing the queue leaves the running tasks. -/
theorem clearQueue_held (pool : ThreadPool Body) :
    pool.clearQueue.held.Sublist pool.held := by
  exact List.sublist_append_right _ _

/-- A pool whose counter is zero holds nothing. -/
theorem held_of_idle {pool : ThreadPool Body}
    (h : pool.outstanding=pool.tasks.length+pool.running.length) (idle : pool.outstanding=0) :
    pool.held=[] := by
  rw [idle] at h
  have htasks : pool.tasks.length=0 := by omega
  have hrunning : pool.running.length=0 := by omega
  rw [ThreadPool.held,List.length_eq_zero_iff.mp htasks,List.length_eq_zero_iff.mp hrunning,
    List.nil_append]

/-- A step keeps the accounting. -/
theorem Accounted.snoc {events : List (PoolEvent Body)} {pool next : ThreadPool Body}
    {operation : Operation Body} (inv : Accounted events pool) (step : Step pool operation next) :
    Accounted (events++[⟨pool,operation,next⟩]) next := by
  have hnumbered : ((events++[(⟨pool,operation,next⟩ : PoolEvent Body)]).flatMap enqueued).map
      PoolTask.ticket=List.range next.issued := by
    rw [List.flatMap_append,List.flatMap_singleton,List.map_append,inv.numbered,step_numbered step]
  refine ⟨step_balance step inv.balance,?_,hnumbered,?_,?_⟩
  · simp only [List.flatMap_append,List.flatMap_singleton,List.append_assoc]
    have hmove : (events.flatMap started++(started ⟨pool,operation,next⟩++(events.flatMap cleared++
        (cleared ⟨pool,operation,next⟩++next.tasks)))).Perm
        (events.flatMap started++(events.flatMap cleared++(started ⟨pool,operation,next⟩++
          (cleared ⟨pool,operation,next⟩++next.tasks)))) :=
      (List.perm_append_comm_assoc _ _ _).append_left _
    have hstep := ((step_fate step).append_left (events.flatMap cleared)).append_left
      (events.flatMap started)
    have hold := inv.fate.append_right (enqueued ⟨pool,operation,next⟩)
    simp only [List.append_assoc] at hold
    exact (hmove.trans hstep).trans hold
  · simp only [List.flatMap_append,List.flatMap_singleton,List.append_assoc]
    have hstep := (step_progress step).append_left (events.flatMap finished)
    have hold := inv.progress.append_right (started ⟨pool,operation,next⟩)
    rw [List.append_assoc] at hold
    exact hstep.trans hold
  · intro exited e member task enqueuedHere alive queued
    rcases step_drained step exited with hnil | ⟨gone,hold⟩
    · rw [hnil] at queued
      exact absurd queued List.not_mem_nil
    · rcases List.mem_append.mp member with earlier | here
      · have hticket : task.ticket ∈ List.range pool.issued := by
          rw [←inv.numbered]
          exact List.mem_map_of_mem (List.mem_flatMap.mpr ⟨e,earlier,enqueuedHere⟩)
        rcases hold task queued with h | h
        · exact inv.drained gone e earlier task enqueuedHere alive h
        · rw [h] at hticket
          exact absurd (List.mem_range.mp hticket) (Nat.lt_irrefl _)
      · rw [List.mem_singleton.mp here] at alive
        exact alive gone

/-- The accounting holds in every reachable state. -/
theorem run_accounted {n : ℕ} {events : List (PoolEvent Body)} {pool : ThreadPool Body}
    (run : Run Step (create n) events pool) : Accounted events pool := by
  refine run.invariant Accounted ?_ (fun _ _ _ _ inv step => inv.snoc step)
  have hrunning : (create n : ThreadPool Body).running=[] := by
    rw [ThreadPool.running,create]
    exact List.flatMap_eq_nil_iff.mpr (fun worker member => by rw [List.eq_of_mem_replicate member]; rfl)
  refine ⟨?_,List.Perm.refl _,rfl,?_,fun _ e member => absurd member List.not_mem_nil⟩
  · rw [hrunning]
    rfl
  · rw [hrunning]
    exact List.Perm.refl _

/-- No two starts carry the same ticket. -/
theorem Accounted.started_nodup {events : List (PoolEvent Body)} {pool : ThreadPool Body}
    (inv : Accounted events pool) : ((events.flatMap started).map PoolTask.ticket).Nodup := by
  have hall : ((events.flatMap enqueued).map PoolTask.ticket).Nodup := by
    rw [inv.numbered]
    exact List.nodup_range
  have hmoved := (inv.fate.map PoolTask.ticket).nodup_iff.mpr hall
  rw [List.map_append] at hmoved
  exact hmoved.of_append_left

/-- A task that was neither dropped nor left in the queue was started once. -/
theorem Accounted.started_once {events : List (PoolEvent Body)} {pool : ThreadPool Body}
    (inv : Accounted events pool) {task : PoolTask Body} (issued : task ∈ events.flatMap enqueued)
    (kept : task ∉ events.flatMap cleared) (gone : task ∉ pool.tasks) :
    ((events.flatMap started).map PoolTask.ticket).count task.ticket=1 := by
  have hfate := inv.fate.mem_iff.mpr issued
  rcases List.mem_append.mp hfate with hstarted | hrest
  · exact List.count_eq_one_of_mem inv.started_nodup (List.mem_map_of_mem hstarted)
  · rcases List.mem_append.mp hrest with h | h
    · exact absurd h kept
    · exact absurd h gone

/-- A pool whose workers have returned runs nothing. -/
theorem running_of_allExited {pool : ThreadPool Body} (exited : pool.AllExited) :
    pool.running=[] := by
  exact List.flatMap_eq_nil_iff.mpr (fun worker member => by rw [exited worker member]; rfl)

/-- For every interleaving of any number of workers and callers: the counter
is the number of queued and running tasks and is never negative; `wait_idle`
returns only when nothing is queued or running; no task is started twice; and
once the workers have returned, every task that was enqueued before that and
was not dropped has been started once and has finished once. -/
theorem outstanding_counts_queued_and_running {n : ℕ} {events : List (PoolEvent Body)}
    {pool : ThreadPool Body} (run : Run Step (create n) events pool) :
    pool.outstanding=pool.tasks.length+pool.running.length ∧ 0 ≤ pool.outstanding ∧
    (∀ e ∈ events,e.label=.waitIdle → e.before.tasks=[] ∧ e.before.running=[]) ∧
    ((events.flatMap started).map PoolTask.ticket).Nodup ∧
    (∀ task ∈ events.flatMap started,task ∈ events.flatMap enqueued) ∧
    (pool.AllExited → ∀ e ∈ events,∀ task ∈ enqueued e,¬e.before.AllExited →
      task ∉ events.flatMap cleared →
      ((events.flatMap started).map PoolTask.ticket).count task.ticket=1 ∧
      ((events.flatMap finished).map PoolTask.ticket).count task.ticket=1) := by
  have inv := run_accounted run
  refine ⟨inv.balance,?_,?_,inv.started_nodup,?_,?_⟩
  · rw [inv.balance]
    positivity
  · rintro ⟨before,label,after⟩ member hlabel
    obtain ⟨first,rest,rfl⟩ := List.append_of_mem member
    obtain ⟨hfirst,step,-⟩ := run.event_step
    have hbalance := (run_accounted hfirst).balance
    dsimp only at hlabel step hbalance ⊢
    subst hlabel
    cases step with
    | waitIdle idle =>
      exact List.append_eq_nil_iff.mp (held_of_idle hbalance idle)
  · intro task member
    exact inv.fate.mem_iff.mp (List.mem_append_left _ member)
  · intro exited e member task here alive kept
    have hissued := List.mem_flatMap.mpr ⟨e,member,here⟩
    have hgone := inv.drained exited e member task here alive
    have hstarted := inv.started_once hissued kept hgone
    refine ⟨hstarted,?_⟩
    have hfinished := inv.progress
    rw [running_of_allExited exited,List.append_nil] at hfinished
    rw [(hfinished.map PoolTask.ticket).count_eq,hstarted]

/-- A task that throws in a pool of one worker, followed by the shutdown. -/
theorem throwing_task_counted :
    ∃ (events : List (PoolEvent Unit)) (pool : ThreadPool Unit),
      Run Step (create 1) events pool ∧ pool.AllExited ∧ pool.outstanding=0 ∧
      ((events.flatMap finished).map PoolTask.ticket).count 0=1 := by
  have hnil : Run Step (create 1 : ThreadPool Unit) [] (create 1) := .nil
  have henqueue := hnil.snoc (.enqueue _ ())
  have htake := henqueue.snoc (.take _ [] [] ⟨0,()⟩ [] rfl rfl)
  have hfinish := htake.snoc (.finish _ [] [] ⟨0,()⟩ true rfl)
  have hstop := hfinish.snoc (.shutdown _)
  have hexit := hstop.snoc (.exit _ [] [] rfl rfl rfl)
  have hall : ∀ worker ∈ [(Worker.exited : Worker Unit)],worker=.exited :=
    fun worker member => List.mem_singleton.mp member
  obtain ⟨hbalance,-,-,-,-,honce⟩ := outstanding_counts_queued_and_running hexit
  refine ⟨_,_,hexit,hall,hbalance,?_⟩
  have halive : ¬(create 1 : ThreadPool Unit).AllExited :=
    @not_allExited _ _ [] [] Worker.waiting rfl nofun
  have htask := honce hall ⟨create 1,.enqueue (),(create 1).enqueue ()⟩
    List.mem_cons_self ⟨0,()⟩ List.mem_cons_self halive
  exact (htask List.not_mem_nil).2

end Gcad.WorkerPool
