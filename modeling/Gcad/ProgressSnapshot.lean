import Gcad.DeepScan

/-!
# Progress snapshots of the deep scanner

`DeepScanner::progress` reads the counters of a scan with separate atomic
loads, the total first. Between two loads the other threads take any steps.
The invariants of the scanner bound the counter by the total of the same
state, so a snapshot is wrong exactly when the total is published and a file
is counted between the first two loads.
-/

namespace Gcad.ProgressSnapshot

open StepSystem DeepScan

/-- A step of the scanner's threads. -/
abbrev ScanEvent := Event DeepScanner Action

/-- `ScanProgress`. The mode, the elapsed time and the current file depend on
no counter and are left out. -/
structure ScanProgress where
  /-- Files enumerated. -/
  filesTotal : ℕ
  /-- Files done with. -/
  filesScanned : ℕ
  /-- Files reported. -/
  threatsFound : ℕ
  /-- A scan is under way. -/
  active : Bool

/-- A call of `progress` that begins in the state `s`: its four loads, in the
order of the source, and the steps of the other threads between them. -/
inductive Progress (s : DeepScanner) :
    List ScanEvent → List ScanEvent → List ScanEvent → ScanProgress → Prop where
  | loads {window between last : List ScanEvent} {t u v : DeepScanner}
      (scanned : Run Step s window t) (threats : Run Step t between u)
      (active : Run Step u last v) :
      Progress s window between last ⟨s.filesTotal,t.filesScanned,u.threatsFound,v.scanning⟩

/-- The steps of a running scan: its monitor has not been joined. -/
def Running (window : List ScanEvent) : Prop :=
  ∀ e ∈ window,¬e.before.controller.Joined ∧ ¬e.after.controller.Joined

/-- The step stores the total. -/
def Publishes (e : ScanEvent) : Prop := ∃ count,e.label=.total count

/-- The step counts a file. -/
def Counts (e : ScanEvent) : Prop := ∃ scan,e.label=.count scan

/-- The total is published, and afterwards a file is counted. -/
def Overtaken (window : List ScanEvent) : Prop :=
  ∃ first e middle e' rest,window=first++e::(middle++e'::rest) ∧ Publishes e ∧ Counts e'

/-- The total is zero from its reset until the monitor stores it. -/
def Unpublished (s : DeepScanner) : Prop :=
  (∃ mode,s.controller=.spawn mode) ∨ s.monitor.Enumerating → s.filesTotal=0

section Steps

variable {s t : DeepScanner} {action : Action}

/-- A monitor that enumerates has been enumerating since the controlling
thread spawned it. -/
theorem enumerating_before (step : Step s action t) (running : ¬s.controller.Joined)
    (h : t.monitor.Enumerating) : s.monitor.Enumerating := by
  cases step with
  | controller step =>
    cases step with
    | join => exact absurd h nofun
    | spawnMemory hspawn => exact absurd (by rw [hspawn]; trivial) running
    | spawnFiles mode roots hspawn => exact absurd (by rw [hspawn]; trivial) running
    | _ => exact h
  | monitor step =>
    cases step with
    | root left found more hroot => rw [hroot]; trivial
    | rootCancelled left found hroot => rw [hroot]; trivial
    | rootsDone found hroot => rw [hroot]; trivial
    | processes count hprocesses => rw [hprocesses]; trivial
    | proceed count hcheck => rw [hcheck]; trivial
    | _ => exact absurd h nofun
  | worker step => cases step <;> exact h

/-- Only the monitor changes the total of a running scan. -/
theorem total_same (step : Step s action t) (running : ¬t.controller.Joined)
    (h : ∀ count,action≠.total count) : t.filesTotal=s.filesTotal := by
  cases step with
  | controller step =>
    cases step with
    | resetTotal => exact absurd trivial running
    | _ => rfl
  | monitor step =>
    cases step with
    | storeTotal count => exact absurd rfl (h count)
    | _ => rfl
  | worker step => cases step <;> rfl

/-- A step that stores the total is taken by an enumerating monitor and
leaves the counter alone. -/
theorem publish_step {count : ℕ} (step : Step s (.total count) t) :
    s.monitor.Enumerating ∧ t.filesScanned=s.filesScanned := by
  cases step with
  | controller step => cases step
  | monitor step =>
    cases step with
    | storeTotal count h =>
      rw [h]
      exact ⟨trivial,rfl⟩
  | worker step => cases step

/-- The counter of a running scan grows by counted files only. -/
theorem scanned_step (step : Step s action t) (running : ¬t.controller.Joined) :
    s.filesScanned ≤ t.filesScanned ∧
      ((∀ scan,action≠.count scan) → t.filesScanned=s.filesScanned) := by
  cases step with
  | controller step =>
    cases step with
    | resetScanned => exact absurd trivial running
    | _ => exact ⟨le_refl _,fun _ => rfl⟩
  | monitor step => cases step <;> exact ⟨le_refl _,fun _ => rfl⟩
  | worker step =>
    cases step with
    | count left right task => exact ⟨Nat.le_succ _,fun h => absurd rfl (h task.body.scan)⟩
    | _ => exact ⟨le_refl _,fun _ => rfl⟩

/-- A step that counts adds one. -/
theorem count_step {scan : ℕ} (step : Step s (.count scan) t) :
    t.filesScanned=s.filesScanned+1 := by
  cases step with
  | controller step => cases step
  | monitor step => cases step
  | worker step =>
    cases step with
    | count => rfl

/-- A monitor that takes a step has not been joined. -/
theorem monitor_unjoined (step : MonitorStep s action t) (inv : Bounded s) :
    ¬s.controller.Joined ∧ t.controller=s.controller := by
  have hsame : t.controller=s.controller := by cases step <;> rfl
  refine ⟨fun joined => ?_,hsame⟩
  have habsent := inv.joined joined
  cases step with
  | throw alive running => exact alive habsent
  | _ => simp_all only [reduceCtorEq]

/-- Every step keeps an unpublished total at zero. -/
theorem step_unpublished (step : Step s action t) (inv : Bounded s) (h : Unpublished s) :
    Unpublished t := by
  cases step with
  | controller step =>
    cases step with
    | resetTotal => exact fun _ => rfl
    | spawnMemory hspawn => exact fun _ => h (.inl ⟨_,hspawn⟩)
    | spawnFiles mode roots hspawn => exact fun _ => h (.inl ⟨_,hspawn⟩)
    | join =>
      rintro (⟨mode,hmode⟩ | enumerating)
      · exact absurd hmode nofun
      · exact absurd enumerating nofun
    | _ =>
      rintro (⟨mode,hmode⟩ | enumerating)
      · exact absurd hmode nofun
      · exact h (.inr enumerating)
  | monitor step =>
    obtain ⟨running,hsame⟩ := monitor_unjoined step inv
    rintro (⟨mode,hmode⟩ | enumerating)
    · rw [hsame] at hmode
      exact absurd (by rw [hmode]; trivial) running
    · have hbefore := enumerating_before (.monitor step) running enumerating
      have htotal : t.filesTotal=s.filesTotal := by
        cases step with
        | storeTotal => exact absurd enumerating nofun
        | _ => rfl
      rw [htotal]
      exact h (.inr hbefore)
  | worker step => cases step <;> exact h

end Steps

section Windows

variable {s t : DeepScanner} {window : List ScanEvent}

/-- A window that goes on after its first steps. -/
theorem Running.init {e : ScanEvent} (h : Running (window++[e])) :
    Running window ∧ ¬e.before.controller.Joined ∧ ¬e.after.controller.Joined :=
  ⟨fun e' member => h e' (List.mem_append_left _ member),
    h e (List.mem_append_right _ List.mem_cons_self)⟩

/-- A monitor that enumerates at the end has done so all along. -/
theorem enumerating_throughout (run : Run Step s window t) (running : Running window)
    (h : t.monitor.Enumerating) : s.monitor.Enumerating := by
  induction run with
  | nil => exact h
  | snoc run step ih => exact ih running.init.1 (enumerating_before step running.init.2.1 h)

/-- The total stays while nobody publishes it. -/
theorem total_throughout (run : Run Step s window t) (running : Running window)
    (h : ∀ e ∈ window,¬Publishes e) : t.filesTotal=s.filesTotal := by
  induction run with
  | nil => rfl
  | snoc run step ih =>
    have hlast := h _ (List.mem_append_right _ List.mem_cons_self)
    have hstep := total_same step running.init.2.2 fun count hlabel => hlast ⟨count,hlabel⟩
    exact hstep.trans (ih running.init.1 fun e member => h e (List.mem_append_left _ member))

/-- The counter never falls during a scan, and stays while nobody counts. -/
theorem scanned_throughout (run : Run Step s window t) (running : Running window) :
    s.filesScanned ≤ t.filesScanned ∧
      ((∀ e ∈ window,¬Counts e) → t.filesScanned=s.filesScanned) := by
  induction run with
  | nil => exact ⟨le_refl _,fun _ => rfl⟩
  | snoc run step ih =>
    obtain ⟨hle,hsame⟩ := ih running.init.1
    obtain ⟨hstep,hstay⟩ := scanned_step step running.init.2.2
    refine ⟨hle.trans hstep,fun h => ?_⟩
    have hlast := h _ (List.mem_append_right _ List.mem_cons_self)
    have hbefore := hsame fun e member => h e (List.mem_append_left _ member)
    exact (hstay fun scan hlabel => hlast ⟨scan,hlabel⟩).trans hbefore

end Windows

section Snapshots

variable {n : ℕ} {earlier window between last : List ScanEvent} {s : DeepScanner}
  {p : ScanProgress}

/-- The total is zero until it is published, in every reachable state. -/
theorem run_unpublished (run : Run Step (create n) earlier s) : Unpublished s := by
  have hinv : Bounded s ∧ Unpublished s := by
    refine run.invariant (fun _ s => Bounded s ∧ Unpublished s) ⟨run_bounded .nil,fun _ => rfl⟩ ?_
    intro events s label t inv step
    exact ⟨step.bounded inv.1,step_unpublished step inv.1 inv.2⟩
  exact hinv.2

/-- A window in which the total is published and then a file is counted
began without a total and ends with a counted file. -/
theorem overtaken_snapshot {t : DeepScanner} (run : Run Step (create n) earlier s)
    (inside : Run Step s window t) (running : Running window) (h : Overtaken window) :
    s.filesTotal=0 ∧ 0 < t.filesScanned := by
  obtain ⟨first,e,middle,e',rest,rfl,⟨count,hpublish⟩,⟨scan,hcount⟩⟩ := h
  obtain ⟨hfirst,hstep,hafter⟩ := inside.event_step
  obtain ⟨hmiddle,hstep',hrest⟩ := hafter.event_step
  have hbefore : Running first := fun e member => running e (List.mem_append_left _ member)
  have hlater : Running rest := fun e member => running e (by simp [member])
  rw [hpublish] at hstep
  rw [hcount] at hstep'
  have henumerating := enumerating_throughout hfirst hbefore (publish_step hstep).1
  have hgrown := (scanned_throughout hrest hlater).1
  rw [count_step hstep'] at hgrown
  exact ⟨run_unpublished run (.inr henumerating),by omega⟩

/-- For every call of `progress` during a running scan: the counter it
returns is within the total it returns, if and only if no file is counted
after the total has been published, both between the first two loads. -/
theorem progress_consistent_iff (run : Run Step (create n) earlier s)
    (call : Progress s window between last p) (running : Running window) :
    p.filesScanned ≤ p.filesTotal ↔ ¬Overtaken window := by
  cases call with
  | @loads t u v inside threats active =>
    dsimp only
    constructor
    · intro hle hover
      obtain ⟨hzero,hpos⟩ := overtaken_snapshot run inside running hover
      omega
    · intro hnot
      by_cases hpublish : ∃ e ∈ window,Publishes e
      · obtain ⟨e,member,count,hlabel⟩ := hpublish
        obtain ⟨first,rest,rfl⟩ := List.append_of_mem member
        obtain ⟨hfirst,hstep,hrest⟩ := inside.event_step
        have hquiet : ∀ e' ∈ rest,¬Counts e' := by
          intro e' member' hcounts
          obtain ⟨middle,tail,rfl⟩ := List.append_of_mem member'
          exact hnot ⟨first,e,middle,e',tail,rfl,⟨count,hlabel⟩,hcounts⟩
        have hlater : Running rest := fun e' member' =>
          running e' (List.mem_append_right _ (List.mem_cons_of_mem _ member'))
        rw [hlabel] at hstep
        obtain ⟨henumerating,hsame⟩ := publish_step hstep
        have hzero := (run_bounded (run.append hfirst)).zeroed (.inr henumerating)
        have hstay := (scanned_throughout hrest hlater).2 hquiet
        omega
      · have htotal := total_throughout inside running fun e member h => hpublish ⟨e,member,h⟩
        have hbound := (run_bounded (run.append inside)).bound
        omega

end Snapshots

section OneFile

/-- A scan of one file whose monitor enumerates. -/
def enumerating : DeepScanner :=
  { create 1 with scanning := true,monitor := .roots 1 0,monitorScan := 1,scan := 1 }

/-- The scan once the total has been published. -/
def published : DeepScanner := { enumerating with monitor := .submit 1,filesTotal := 1 }

/-- The file is counted. -/
def counted : DeepScanner :=
  { published with
    monitor := .submit 0
    filesScanned := 1
    pool := { (create 1).pool with
      workers := [.running ⟨0,⟨1,.returned⟩⟩],outstanding := 1,issued := 1 } }

/-- Such a scan is reached. -/
theorem enumerating_run : ∃ earlier,Run Step (create 1) earlier enumerating := one_root_run

/-- A run in which the controlling thread stays idle. -/
theorem running_of_idle {window : List ScanEvent}
    (h : ∀ e ∈ window,e.before.controller=.idle ∧ e.after.controller=.idle) : Running window := by
  intro e member
  obtain ⟨hbefore,hafter⟩ := h e member
  rw [hbefore,hafter]
  exact ⟨nofun,nofun⟩

/-- The monitor finds the file and publishes the total. -/
theorem publish_run : ∃ window,Run Step enumerating window published ∧
    ∀ e ∈ window,e.before.controller=.idle ∧ e.after.controller=.idle := by
  have h0 : Run Step enumerating [] enumerating := .nil
  have h1 := h0.snoc (.monitor (.root _ 0 0 1 rfl rfl))
  have h2 := h1.snoc (.monitor (.rootsDone _ 1 rfl))
  have h3 := h2.snoc (.monitor (.proceed _ 1 rfl rfl))
  have h4 := h3.snoc (.monitor (.storeTotal _ 1 rfl))
  refine ⟨_,h4,fun e member => ?_⟩
  simp only [List.nil_append,List.cons_append,List.mem_cons,List.not_mem_nil,or_false] at member
  rcases member with rfl | rfl | rfl | rfl <;> exact ⟨rfl,rfl⟩

/-- A worker scans the file and counts it. -/
theorem count_run : ∃ window,Run Step published window counted ∧
    (∀ e ∈ window,e.before.controller=.idle ∧ e.after.controller=.idle) ∧
    ∀ e ∈ window,¬Publishes e := by
  have h0 : Run Step published [] published := .nil
  have h1 := h0.snoc (.monitor (.submitNext _ 0 rfl rfl))
  have h2 := h1.snoc (.monitor (.push _ 0 rfl))
  have h3 := h2.snoc (.worker (.take _ 0 ⟨0,⟨1,.entered⟩⟩ _ (.take _ [] [] _ [] rfl rfl)))
  have h4 := h3.snoc (.worker (.checkCancel _ [] [] ⟨0,⟨1,.entered⟩⟩ rfl rfl))
  have h5 := h4.snoc (.worker (.scanned _ [] [] ⟨0,⟨1,.scanning⟩⟩ rfl rfl))
  have h6 := h5.snoc (.worker (.count _ [] [] ⟨0,⟨1,.counting⟩⟩ rfl rfl))
  refine ⟨_,h6,fun e member => ?_,fun e member => ?_⟩
  · simp only [List.nil_append,List.cons_append,List.mem_cons,List.not_mem_nil,or_false] at member
    rcases member with rfl | rfl | rfl | rfl | rfl | rfl <;> exact ⟨rfl,rfl⟩
  · simp only [List.nil_append,List.cons_append,List.mem_cons,List.not_mem_nil,or_false] at member
    rcases member with rfl | rfl | rfl | rfl | rfl | rfl <;> exact nofun

/-- A call that loads the total after its publication is consistent. -/
theorem published_total_consistent :
    ∃ (earlier window : List ScanEvent) (p : ScanProgress),
      Run Step (create 1) earlier published ∧ Progress published window [] [] p ∧
        p.filesScanned=1 ∧ p.filesScanned ≤ p.filesTotal := by
  obtain ⟨earlier,hrun⟩ := enumerating_run
  obtain ⟨window,hpublish,-⟩ := publish_run
  obtain ⟨window',hcount,hidle,hquiet⟩ := count_run
  have hcall : Progress published window' [] [] ⟨1,1,0,true⟩ := .loads hcount .nil .nil
  refine ⟨_,_,_,hrun.append hpublish,hcall,rfl,?_⟩
  refine (progress_consistent_iff (hrun.append hpublish) hcall (running_of_idle hidle)).mpr ?_
  rintro ⟨first,e,middle,e',rest,rfl,hpublishes,-⟩
  exact hquiet e (List.mem_append_right _ List.mem_cons_self) hpublishes

/-- A call that loads the total before its publication and the counter after
the file has been counted returns more files than the total. -/
theorem snapshot_torn :
    ¬∀ (n : ℕ) (earlier window between last : List ScanEvent) (s : DeepScanner)
      (p : ScanProgress),Run Step (create n) earlier s → Progress s window between last p →
        Running window → p.filesScanned ≤ p.filesTotal := by
  intro hall
  obtain ⟨earlier,hrun⟩ := enumerating_run
  obtain ⟨window,hpublish,hidle⟩ := publish_run
  obtain ⟨window',hcount,hidle',-⟩ := count_run
  have hcall : Progress enumerating (window++window') [] [] ⟨0,1,0,true⟩ :=
    .loads (hpublish.append hcount) .nil .nil
  have hrunning : Running (window++window') :=
    running_of_idle (List.forall_mem_append.mpr ⟨hidle,hidle'⟩)
  have hle := hall 1 earlier _ _ _ _ _ hrun hcall hrunning
  exact absurd hle (by decide)

end OneFile

end Gcad.ProgressSnapshot
