import Mathlib

/-!
# Labelled runs and history invariants

A run is a finite list of executed transitions. Every event keeps the
state before, the label and the state after, so a property of a whole
history is a property of the event list. Labels carry the caller's action,
the environment's choices and the reply. Nothing here depends on a
particular program.
-/

namespace Gcad.StepSystem

variable {State Label : Type*}

/-- One executed transition of a labelled system. -/
structure Event (State Label : Type*) where
  /-- The state in which the transition was taken. -/
  before : State
  /-- The action, the environment's choices and the reply. -/
  label : Label
  /-- The state the transition produced. -/
  after : State

/-- Finite executions from a fixed start, recorded oldest event first. -/
inductive Run (Step : State → Label → State → Prop) (start : State) :
    List (Event State Label) → State → Prop
  /-- The empty execution stays at the start. -/
  | nil : Run Step start [] start
  /-- One more transition is appended to the recorded history. -/
  | snoc {events : List (Event State Label)} {s t : State} {label : Label}
      (run : Run Step start events s) (step : Step s label t) :
      Run Step start (events++[⟨s,label,t⟩]) t

/-- A history invariant established at the start and preserved by every
transition of a run holds for every run. -/
theorem Run.invariant {Step : State → Label → State → Prop} {start : State}
    (P : List (Event State Label) → State → Prop) (h0 : P [] start)
    (hstep : ∀ events s label t, P events s → Step s label t → P (events++[⟨s,label,t⟩]) t)
    {events : List (Event State Label)} {t : State} (run : Run Step start events t) :
    P events t := by
  induction run with
  | nil => exact h0
  | snoc run step ih => exact hstep _ _ _ _ ih step

/-- An execution without events stays where it is. -/
theorem Run.eq_of_nil {Step : State → Label → State → Prop} {start t : State}
    (run : Run Step start [] t) : t=start := by
  generalize he : ([] : List (Event State Label))=events at run
  cases run with
  | nil => rfl
  | snoc run step => exact absurd he.symm (List.append_ne_nil_of_right_ne_nil _ (List.cons_ne_nil _ _))

/-- Runs compose by concatenating their histories. -/
theorem Run.append {Step : State → Label → State → Prop} {start s t : State}
    {first second : List (Event State Label)}
    (h1 : Run Step start first s) (h2 : Run Step s second t) :
    Run Step start (first++second) t := by
  induction h2 with
  | nil => simpa only [List.append_nil] using h1
  | snoc run step ih =>
    rw [←List.append_assoc]
    exact ih.snoc step

/-- A history can be cut anywhere: the two halves are runs that meet. -/
theorem Run.split {Step : State → Label → State → Prop} {start t : State}
    {first second : List (Event State Label)} (run : Run Step start (first++second) t) :
    ∃ s, Run Step start first s ∧ Run Step s second t := by
  generalize he : first++second=events at run
  induction run generalizing second with
  | nil =>
    obtain ⟨rfl,rfl⟩ := List.append_eq_nil_iff.mp he
    exact ⟨_,.nil,.nil⟩
  | snoc run step ih =>
    rcases List.eq_nil_or_concat second with rfl | ⟨rest,last,rfl⟩
    · rw [List.append_nil] at he
      exact ⟨_,he ▸ run.snoc step,.nil⟩
    · rw [List.concat_eq_append,←List.append_assoc] at he
      obtain ⟨hinit,hlast⟩ := List.append_inj' he rfl
      obtain ⟨s,h1,h2⟩ := ih hinit
      obtain rfl := List.singleton_inj.mp hlast
      refine ⟨s,h1,?_⟩
      rw [List.concat_eq_append]
      exact h2.snoc step

/-- The last recorded event is the last transition of the run. -/
theorem Run.last_step {Step : State → Label → State → Prop} {start t : State}
    {events : List (Event State Label)} {e : Event State Label}
    (run : Run Step start (events++[e]) t) :
    Run Step start events e.before ∧ Step e.before e.label e.after ∧ e.after=t := by
  generalize he : events++[e]=all at run
  cases run with
  | nil => exact absurd he (List.append_ne_nil_of_right_ne_nil _ (List.cons_ne_nil _ _))
  | snoc run step =>
    obtain ⟨rfl,hlast⟩ := List.append_inj' he rfl
    obtain rfl := List.singleton_inj.mp hlast
    exact ⟨run,step,rfl⟩

/-- Every recorded event is a real transition taken at the end of the
history that precedes it. -/
theorem Run.event_step {Step : State → Label → State → Prop} {start t : State}
    {first rest : List (Event State Label)} {e : Event State Label}
    (run : Run Step start (first++e::rest) t) :
    Run Step start first e.before ∧ Step e.before e.label e.after ∧ Run Step e.after rest t := by
  rw [List.append_cons] at run
  obtain ⟨s,h1,h2⟩ := run.split
  obtain ⟨h3,hstep,rfl⟩ := h1.last_step
  exact ⟨h3,hstep,h2⟩

/-- A property that one transition keeps exactly under a condition on the
state before it and the label holds after every transition of a run exactly
when the condition holds at every one. -/
theorem Run.forall_after_iff {Step : State → Label → State → Prop} {start : State}
    (Inv Good : State → Prop) (Cond : State → Label → Prop) (hinv0 : Inv start)
    (hinv : ∀ s label t,Inv s → Step s label t → Inv t) (hgood0 : Good start)
    (hgood : ∀ s label t,Inv s → Good s → Step s label t → (Good t ↔ Cond s label))
    {events : List (Event State Label)} {t : State} (run : Run Step start events t) :
    (∀ e ∈ events,Good e.after) ↔ ∀ e ∈ events,Cond e.before e.label := by
  have hboth : Inv t ∧ ((∀ e ∈ events,Good e.after) → Good t) ∧
      ((∀ e ∈ events,Good e.after) ↔ ∀ e ∈ events,Cond e.before e.label) := by
    induction run with
    | nil =>
      exact ⟨hinv0,fun _ => hgood0,fun _ _ h => absurd h List.not_mem_nil,
        fun _ _ h => absurd h List.not_mem_nil⟩
    | @snoc events s t label run step ih =>
      obtain ⟨inv,last,hiff⟩ := ih
      refine ⟨hinv _ _ _ inv step,fun good => ?_,?_⟩
      · exact good ⟨s,label,t⟩ (List.mem_append_right _ List.mem_cons_self)
      · rw [List.forall_mem_append,List.forall_mem_append,List.forall_mem_singleton,
          List.forall_mem_singleton]
        constructor
        · rintro ⟨earlier,good⟩
          exact ⟨hiff.mp earlier,(hgood _ _ _ inv (last earlier) step).mp good⟩
        · rintro ⟨earlier,cond⟩
          have hearlier := hiff.mpr earlier
          exact ⟨hearlier,(hgood _ _ _ inv (last hearlier) step).mpr cond⟩
  exact hboth.2.2

/-- What one more event adds to a filtered history. -/
theorem filterMap_snoc {α β : Type*} (f : α → Option β) (events : List α) (e : α) :
    (events++[e]).filterMap f=events.filterMap f++(f e).toList := by
  rw [List.filterMap_append]
  cases h : f e <;> simp [h]

/-- A deterministic step function seen as a labelled relation. The label
pairs the action with the reply the function computes. -/
def Deterministic {Action Reply : Type*} (step : State → Action → State×Reply) :
    State → Action×Reply → State → Prop :=
  fun s label t => step s label.1=(t,label.2)

/-- Execute a list of actions, recording every event. -/
def execute {Action Reply : Type*} (step : State → Action → State×Reply) :
    State → List Action → List (Event State (Action×Reply))×State
  | s,[] => ([],s)
  | s,action::rest =>
    let child := execute step (step s action).1 rest
    (⟨s,(action,(step s action).2),(step s action).1⟩::child.1,child.2)

/-- Every executed action list is a run. -/
theorem execute_run {Action Reply : Type*} (step : State → Action → State×Reply)
    (s : State) (actions : List Action) :
    Run (Deterministic step) s (execute step s actions).1 (execute step s actions).2 := by
  induction actions generalizing s with
  | nil => exact .nil
  | cons action rest ih =>
    have hone : Run (Deterministic step) s
        ([]++[⟨s,(action,(step s action).2),(step s action).1⟩]) (step s action).1 :=
      Run.nil.snoc rfl
    exact hone.append (ih _)

/-- The events of an executed action list carry its actions. -/
theorem map_execute {Action Reply : Type*} (step : State → Action → State×Reply)
    (s : State) (actions : List Action) :
    (execute step s actions).1.map (fun e => e.label.1)=actions := by
  induction actions generalizing s with
  | nil => rfl
  | cons action rest ih => rw [execute,List.map_cons,ih]

/-- Action lists are executed one after the other. -/
theorem execute_append {Action Reply : Type*} (step : State → Action → State×Reply)
    (s : State) (first rest : List Action) :
    execute step s (first++rest)=
      ((execute step s first).1++(execute step (execute step s first).2 rest).1,
        (execute step (execute step s first).2 rest).2) := by
  induction first generalizing s with
  | nil => rfl
  | cons action first ih => rw [List.cons_append,execute,ih,execute,List.cons_append]

end Gcad.StepSystem
