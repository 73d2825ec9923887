import Mathlib

/-!
# The polling of new processes

Without a tracing session `EngineManager` compares process snapshots. A poll
visits the process numbers of the current snapshot in the order of a hash set
and submits the new ones, but at most one in a quarter of a second; then the
current set becomes the known one. What the limit passes over is known from
then on and is not visited again.
-/

namespace Gcad.ProcessPoll

/-- One round of the loop: a snapshot, the order in which the set that is
built from it is visited and the clock as it is read at each visit. -/
structure Poll where
  /-- The process numbers that `enumerate_processes` returns. -/
  snapshot : List UInt32
  /-- The set `current`, in iteration order. -/
  current : List UInt32
  /-- A set visits nothing twice. -/
  nodup : current.Nodup
  /-- The set holds what the snapshot does. -/
  mem_iff : ∀ pid,pid ∈ current ↔ pid ∈ snapshot
  /-- `now_ms`, where a number is examined. -/
  nowMs : UInt32 → ℤ

/-- What the loop keeps between visits. -/
structure LoopState where
  /-- The processes seen in the last poll. -/
  known : List UInt32
  /-- When a process was last handed to the pool. -/
  lastProcessInspectionMs : ℤ
  /-- What was handed to `process_inspection_pool_`, oldest first. -/
  enqueued : List UInt32

/-- The state in front of the loop, after the first snapshot. -/
def start (snapshot : List UInt32) (last : ℤ) : LoopState := ⟨snapshot,last,[]⟩

/-- The visit of one process number. -/
def visit (nowMs : UInt32 → ℤ) (s : LoopState) (pid : UInt32) : LoopState :=
  if pid ∈ s.known then s
  else if nowMs pid-s.lastProcessInspectionMs < 250 then s
  else { s with lastProcessInspectionMs := nowMs pid,enqueued := s.enqueued++[pid] }

/-- The visits of a poll. -/
def visits (nowMs : UInt32 → ℤ) (s : LoopState) (pids : List UInt32) : LoopState :=
  pids.foldl (visit nowMs) s

/-- One round of the loop. -/
def poll (s : LoopState) (p : Poll) : LoopState :=
  { visits p.nowMs s p.current with known := p.current }

/-- `process_poll_loop`, from a state on. -/
def processPollLoop (s : LoopState) (polls : List Poll) : LoopState := polls.foldl poll s

/-- The snapshot before the next poll. -/
def previous (snapshot : List UInt32) (before : List Poll) : List UInt32 :=
  (before.getLast?.map Poll.snapshot).getD snapshot

/-- A process was submitted between two states of a run. -/
def SubmittedSince (s s' : LoopState) (pid : UInt32) : Prop :=
  pid ∈ s'.enqueued.drop s.enqueued.length

instance (s s' : LoopState) (pid : UInt32) : Decidable (SubmittedSince s s' pid) :=
  inferInstanceAs (Decidable (_ ∈ _))

/-- Time of the last inspection when it is the turn of a process. -/
def lastAtTurn (s : LoopState) (p : Poll) (pid : UInt32) : ℤ :=
  (visits p.nowMs s (p.current.takeWhile fun other => other≠pid)).lastProcessInspectionMs

/-- Every process that appears in a poll and stays is submitted at that poll
or at a later one. -/
def EveryNewInspected (snapshot : List UInt32) (last : ℤ) (polls : List Poll) : Prop :=
  ∀ before p after,polls=before++p::after → ∀ pid ∈ p.snapshot,pid ∉ previous snapshot before →
    (∀ later ∈ after,pid ∈ later.snapshot) →
      SubmittedSince (processPollLoop (start snapshot last) before)
        (processPollLoop (start snapshot last) polls) pid

section Visits

variable (nowMs : UInt32 → ℤ)

/-- A visit leaves the known set alone. -/
theorem visit_known (s : LoopState) (pid : UInt32) : (visit nowMs s pid).known=s.known := by
  rw [visit]
  split_ifs <;> rfl

/-- So does any number of visits. -/
theorem visits_known (s : LoopState) (pids : List UInt32) :
    (visits nowMs s pids).known=s.known := by
  induction pids generalizing s with
  | nil => rfl
  | cons pid rest ih => exact (ih (visit nowMs s pid)).trans (visit_known nowMs s pid)

/-- Visits in a row. -/
theorem visits_append (s : LoopState) (front back : List UInt32) :
    visits nowMs s (front++back)=visits nowMs (visits nowMs s front) back :=
  List.foldl_append

/-- Visits of known processes submit nothing, and the others submit nothing
that they do not visit. -/
theorem visits_enqueued (s : LoopState) (pids : List UInt32) :
    ∃ tasks,(visits nowMs s pids).enqueued=s.enqueued++tasks ∧
      ∀ pid ∈ tasks,pid ∈ pids ∧ pid ∉ s.known := by
  induction pids generalizing s with
  | nil => exact ⟨[],(List.append_nil _).symm,fun pid hpid => absurd hpid List.not_mem_nil⟩
  | cons pid rest ih =>
    obtain ⟨tasks,htasks,hnew⟩ := ih (visit nowMs s pid)
    rw [visit_known] at hnew
    have hrest : ∀ other ∈ tasks,other ∈ pid::rest ∧ other ∉ s.known := fun other hother =>
      ⟨List.mem_cons_of_mem pid (hnew other hother).1,(hnew other hother).2⟩
    change ∃ tasks,(visits nowMs (visit nowMs s pid) rest).enqueued=s.enqueued++tasks ∧ _
    rw [htasks]
    by_cases hknown : pid ∈ s.known
    · rw [visit,if_pos hknown]
      exact ⟨tasks,rfl,hrest⟩
    · rw [visit,if_neg hknown]
      split_ifs
      · exact ⟨tasks,rfl,hrest⟩
      · refine ⟨pid::tasks,List.append_assoc _ _ _,?_⟩
        intro other hother
        rcases List.mem_cons.mp hother with rfl | hlater
        · exact ⟨List.mem_cons_self,hknown⟩
        · exact hrest other hlater

/-- The visit of a new process submits it exactly when the last inspection
is a quarter of a second old. -/
theorem visit_enqueued {s : LoopState} {pid : UInt32} (h : pid ∉ s.known) :
    (visit nowMs s pid).enqueued=
      s.enqueued++if 250 ≤ nowMs pid-s.lastProcessInspectionMs then [pid] else [] := by
  rw [visit,if_neg h]
  by_cases hlimit : nowMs pid-s.lastProcessInspectionMs < 250
  · rw [if_pos hlimit,if_neg (not_le.mpr hlimit),List.append_nil]
  · rw [if_neg hlimit,if_pos (not_lt.mp hlimit)]

end Visits

/-- What was submitted since is what was added. -/
theorem submittedSince_iff {s s' : LoopState} {tasks : List UInt32} {pid : UInt32}
    (h : s'.enqueued=s.enqueued++tasks) : SubmittedSince s s' pid ↔ pid ∈ tasks := by
  rw [SubmittedSince,h,List.drop_left]

/-- The known set is the previous snapshot. -/
theorem known_processPollLoop (snapshot : List UInt32) (last : ℤ) (before : List Poll)
    (pid : UInt32) : pid ∈ (processPollLoop (start snapshot last) before).known ↔
      pid ∈ previous snapshot before := by
  induction before using List.reverseRecOn with
  | nil => rfl
  | append_singleton before p ih =>
    rw [processPollLoop,List.foldl_append,List.foldl_cons,List.foldl_nil,poll,previous,
      List.getLast?_concat]
    exact p.mem_iff pid

/-- A poll submits a new process exactly when the limit lets it pass at its
turn. -/
theorem poll_enqueued {s : LoopState} {p : Poll} {pid : UInt32} (hpresent : pid ∈ p.snapshot)
    (hnew : pid ∉ s.known) : ∃ tasks,(poll s p).enqueued=s.enqueued++tasks ∧
      (pid ∈ tasks ↔ 250 ≤ p.nowMs pid-lastAtTurn s p pid) := by
  obtain ⟨front,back,hcurrent,hfront⟩ :=
    List.eq_append_cons_of_mem ((p.mem_iff pid).mpr hpresent)
  have hback : pid ∉ back := by
    have hnodup := p.nodup
    rw [hcurrent] at hnodup
    exact (List.nodup_cons.mp hnodup.of_append_right).1
  have hturn : p.current.takeWhile (fun other => other≠pid)=front := by
    rw [hcurrent,List.takeWhile_append_of_pos,List.takeWhile_cons_of_neg,List.append_nil]
    · exact of_eq_false (by rw [decide_eq_true_eq,ne_self_iff_false])
    · intro other hother
      exact decide_eq_true fun heq => hfront (heq ▸ hother)
  obtain ⟨early,hearly,hearlier⟩ := visits_enqueued p.nowMs s front
  have hunknown : pid ∉ (visits p.nowMs s front).known := by rwa [visits_known]
  have hvisit := visit_enqueued p.nowMs hunknown
  obtain ⟨late,hlate,hlater⟩ :=
    visits_enqueued p.nowMs (visit p.nowMs (visits p.nowMs s front) pid) back
  refine ⟨early++((if 250 ≤ p.nowMs pid-(visits p.nowMs s front).lastProcessInspectionMs
    then [pid] else [])++late),?_,?_⟩
  · rw [poll,hcurrent,visits_append]
    change (visits p.nowMs (visit p.nowMs (visits p.nowMs s front) pid) back).enqueued=_
    rw [hlate,hvisit,hearly,List.append_assoc,List.append_assoc]
  · have hnotearly : pid ∉ early := fun h => hfront (hearlier pid h).1
    have hnotlate : pid ∉ late := fun h => hback (hlater pid h).1
    rw [lastAtTurn,hturn,List.mem_append,List.mem_append,or_iff_right hnotearly,
      or_iff_left hnotlate]
    split_ifs with hlimit
    · exact iff_of_true List.mem_cons_self hlimit
    · exact iff_of_false List.not_mem_nil hlimit

/-- A process that is known and stays is not submitted any more. -/
theorem processPollLoop_stays {s : LoopState} {pid : UInt32} (polls : List Poll)
    (hknown : pid ∈ s.known) (hstays : ∀ later ∈ polls,pid ∈ later.snapshot) :
    ∃ tasks,(processPollLoop s polls).enqueued=s.enqueued++tasks ∧ pid ∉ tasks := by
  induction polls generalizing s with
  | nil => exact ⟨[],(List.append_nil _).symm,List.not_mem_nil⟩
  | cons p rest ih =>
    obtain ⟨now,hnow,hvisited⟩ := visits_enqueued p.nowMs s p.current
    have hnext : pid ∈ (poll s p).known := (p.mem_iff pid).mpr (hstays p List.mem_cons_self)
    obtain ⟨later,hlater,hnever⟩ :=
      ih hnext fun q hq => hstays q (List.mem_cons_of_mem p hq)
    refine ⟨now++later,?_,?_⟩
    · change (processPollLoop (poll s p) rest).enqueued=_
      rw [hlater,poll,hnow,List.append_assoc]
    · intro hmem
      rcases List.mem_append.mp hmem with h | h
      · exact (hvisited pid h).2 hknown
      · exact hnever h

/-- A process that appears and stays is submitted at its first poll or at a
later one exactly when the limit lets it pass at its turn of the first. -/
theorem new_process_inspected_iff (snapshot : List UInt32) (last : ℤ) (before : List Poll)
    (p : Poll) (after : List Poll) (pid : UInt32) (hpresent : pid ∈ p.snapshot)
    (habsent : pid ∉ previous snapshot before) (hstays : ∀ later ∈ after,pid ∈ later.snapshot) :
    SubmittedSince (processPollLoop (start snapshot last) before)
        (processPollLoop (start snapshot last) (before++p::after)) pid ↔
      250 ≤ p.nowMs pid-lastAtTurn (processPollLoop (start snapshot last) before) p pid := by
  have hnew : pid ∉ (processPollLoop (start snapshot last) before).known := fun h =>
    habsent ((known_processPollLoop snapshot last before pid).mp h)
  obtain ⟨first,hfirst,hpassed⟩ := poll_enqueued hpresent hnew
  have hknown : pid ∈ (poll (processPollLoop (start snapshot last) before) p).known :=
    (p.mem_iff pid).mpr hpresent
  obtain ⟨later,hlater,hnever⟩ := processPollLoop_stays after hknown hstays
  have hall : (processPollLoop (start snapshot last) (before++p::after)).enqueued=
      (processPollLoop (start snapshot last) before).enqueued++(first++later) := by
    rw [processPollLoop,List.foldl_append,List.foldl_cons,← List.append_assoc,← hfirst]
    exact hlater
  rw [submittedSince_iff hall,List.mem_append,or_iff_left hnever,hpassed]

/-- Two processes that appear in one poll, visited within a millisecond. -/
def twoAtOnce : Poll where
  snapshot := [4,100,200]
  current := [200,100,4]
  nodup := by decide
  mem_iff pid := (List.reverse_perm [4,100,200]).mem_iff
  nowMs _ := 60000

/-- The one that is visited first is submitted. -/
theorem first_of_two_inspected :
    SubmittedSince (processPollLoop (start [4] 0) []) (processPollLoop (start [4] 0) [twoAtOnce])
        200 ↔
      250 ≤ twoAtOnce.nowMs 200-lastAtTurn (processPollLoop (start [4] 0) []) twoAtOnce 200 :=
  new_process_inspected_iff [4] 0 [] twoAtOnce [] 200 (by decide) (by decide) (by decide)

/-- The other one never is. -/
theorem second_of_two_missed : ¬EveryNewInspected [4] 0 [twoAtOnce,twoAtOnce] := by
  intro h
  have hsubmitted := h [] twoAtOnce [twoAtOnce] rfl 100 (by decide) (by decide) (by decide)
  exact absurd hsubmitted (by decide)

end Gcad.ProcessPoll
