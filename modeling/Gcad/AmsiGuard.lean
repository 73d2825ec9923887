import Gcad.ByteView
import Gcad.StepSystem
import Gcad.Threat

/-!
# The AMSI guard

Integrity check, repair and monitor loop of amsi_guard_engine.cpp in a
Windows build. The first bytes of `AmsiScanBuffer` are memory that an
attacker may rewrite at any time between two iterations of the loop. An
iteration is one step; the waiting between them changes nothing.
-/

namespace Gcad.AmsiGuard

open Common ByteView StepSystem Threat

/-- An `AmsiGuardEngine` with the memory it guards and the local variable of
its monitor loop. -/
structure AmsiGuardEngine where
  /-- The library of the scan interface is loaded. -/
  amsiAvailable : Bool
  /-- Where its scan function starts, zero when it was not found. -/
  amsiScanBufferAddr : ℕ
  /-- The first bytes of that function as `start` read them. -/
  originalPrologue : Bytes
  /-- Iterations of the monitor. -/
  eventsProcessed : UInt64
  /-- Alerts raised. -/
  threatsDetected : UInt64
  /-- `was_bypassed` of `monitor_loop`. -/
  wasBypassed : Bool
  /-- The bytes at the guarded address. -/
  prologue : Bytes

/-- The constructor, where amsi.dll exports `AmsiScanBuffer` at an address
with the given bytes, and the start of the monitor loop. -/
def create (addr : ℕ) (code : Bytes) : AmsiGuardEngine :=
  ⟨true,addr,code.take 16,0,0,false,code.take 16⟩

/-- `is_patch_bypass`. -/
def isPatchBypass (code : Bytes) : Bool :=
  if code=[] then false
  else if code.take 1=[0xC3] ∨ code.take 1=[0xC2] then true
  else if code.take 6=[0xB8,0x57,0x00,0x07,0x80,0xC3] then true
  else if code.take 3=[0x31,0xC0,0xC3] ∨ code.take 3=[0x29,0xC0,0xC3] then true
  else if code.take 4=[0x48,0x31,0xC0,0xC3] then true
  else false

/-- The engine has nothing to guard. -/
def AmsiGuardEngine.Idle (engine : AmsiGuardEngine) : Prop :=
  engine.amsiAvailable=false ∨ engine.amsiScanBufferAddr=0 ∨ engine.originalPrologue=[]

instance (engine : AmsiGuardEngine) : Decidable engine.Idle := inferInstanceAs (Decidable (_ ∨ _))

/-- `check_amsi_integrity`, without its counter. -/
def checkAmsiIntegrity (engine : AmsiGuardEngine) : Bool :=
  if engine.Idle then true
  else if isPatchBypass engine.prologue then false
  else if engine.prologue≠engine.originalPrologue then false
  else true

/-- `restore_amsi_prologue`; the flag says whether `VirtualProtect` succeeds. -/
def restoreAmsiPrologue (engine : AmsiGuardEngine) (protect : Bool) : AmsiGuardEngine×Bool :=
  if engine.Idle then (engine,false)
  else if protect=false then (engine,false)
  else ({ engine with prologue := engine.originalPrologue },true)

/-- The level, the category and the text of an emitted threat. -/
abbrev Emitted := ThreatLevel×ThreatCategory×Str

/-- One iteration of `monitor_loop` with the threat it emits. -/
def iterate (engine : AmsiGuardEngine) : AmsiGuardEngine×Option Emitted :=
  let checked := { engine with eventsProcessed := engine.eventsProcessed+1 }
  if checkAmsiIntegrity engine=false then
    if engine.wasBypassed=false then
      let emitted := { checked with
        wasBypassed := true
        threatsDetected := checked.threatsDetected+1 }
      ((restoreAmsiPrologue emitted true).1,some (.high,.evasionAmsi,
        "AMSI AmsiScanBuffer memory patch bypass detected; repairing prologue".toList))
    else (checked,none)
  else ({ checked with wasBypassed := false },none)

/-- What happens to the guarded bytes. -/
inductive Action where
  /-- The attacker rewrites them. -/
  | write (code : Bytes)
  /-- The monitor loop runs once and emits a threat or none. -/
  | monitor (emitted : Option Emitted)

/-- Attacker and monitor take turns in any order. -/
inductive Step : AmsiGuardEngine → Action → AmsiGuardEngine → Prop where
  | write (engine : AmsiGuardEngine) (code : Bytes)
      (size : code.length=engine.originalPrologue.length) :
      Step engine (.write code) { engine with prologue := code }
  | monitor (engine : AmsiGuardEngine) :
      Step engine (.monitor (iterate engine).2) (iterate engine).1

/-- A recorded step. -/
abbrev GuardEvent := Event AmsiGuardEngine Action

/-- An iteration of the monitor loop. -/
def isIteration (e : GuardEvent) : Bool :=
  match e.label with
  | .monitor _ => true
  | .write _ => false

/-- After an iteration the bytes are the original ones, and a threat of
category EVASION_AMSI was emitted if they were not before. -/
def Repaired (e : GuardEvent) : Prop :=
  ∀ emitted,e.label=.monitor emitted → e.after.prologue=e.after.originalPrologue ∧
    (e.before.prologue≠e.before.originalPrologue →
      ∃ threat,emitted=some threat ∧ threat.2.1=.evasionAmsi)

/-- Whether the integrity check of the latest iteration failed. -/
def lastFailed (events : List GuardEvent) : Bool :=
  match (events.filter isIteration).getLast? with
  | some e => !checkAmsiIntegrity e.before
  | none => false

/-- An engine that guards something. -/
structure Guarding (events : List GuardEvent) (engine : AmsiGuardEngine) : Prop where
  /-- The function was found. -/
  busy : ¬engine.Idle
  /-- The latch of the loop remembers the latest check. -/
  latch : engine.wasBypassed=lastFailed events

/-- The check fails on modified bytes. -/
theorem check_modified {engine : AmsiGuardEngine} (busy : ¬engine.Idle)
    (h : engine.prologue≠engine.originalPrologue) : checkAmsiIntegrity engine=false := by
  unfold checkAmsiIntegrity
  rw [if_neg busy]
  split_ifs
  · rfl
  · rfl

/-- A successful check has seen the original bytes. -/
theorem check_intact {engine : AmsiGuardEngine} (busy : ¬engine.Idle)
    (h : checkAmsiIntegrity engine=true) : engine.prologue=engine.originalPrologue := by
  by_contra hne
  rw [check_modified busy hne] at h
  exact absurd h Bool.false_ne_true

/-- What an iteration does, by the outcome of the check and the latch. -/
inductive Outcome (engine : AmsiGuardEngine) : Prop where
  /-- The bytes are intact and the latch is cleared. -/
  | intact (checked : checkAmsiIntegrity engine=true)
      (prologue : (iterate engine).1.prologue=engine.prologue)
      (latch : (iterate engine).1.wasBypassed=false) (silent : (iterate engine).2=none)
  /-- The check failed with a clear latch: alert and repair. -/
  | repaired (failed : checkAmsiIntegrity engine=false) (clear : engine.wasBypassed=false)
      (prologue : (iterate engine).1.prologue=engine.originalPrologue)
      (latch : (iterate engine).1.wasBypassed=true)
      (alert : ∃ threat,(iterate engine).2=some threat ∧ threat.2.1=.evasionAmsi)
  /-- The check failed with the latch set: nothing is done. -/
  | ignored (failed : checkAmsiIntegrity engine=false) (set : engine.wasBypassed=true)
      (prologue : (iterate engine).1.prologue=engine.prologue)
      (latch : (iterate engine).1.wasBypassed=true) (silent : (iterate engine).2=none)

/-- Repairing a guarded function. -/
theorem restore_busy {engine : AmsiGuardEngine} (busy : ¬engine.Idle) :
    restoreAmsiPrologue engine true=
      ({ engine with prologue := engine.originalPrologue },true) := by
  unfold restoreAmsiPrologue
  rw [if_neg busy,if_neg Bool.noConfusion]

/-- Every iteration of a guarding engine has one of the three outcomes. -/
theorem iterate_outcome {engine : AmsiGuardEngine} (busy : ¬engine.Idle) : Outcome engine := by
  cases hcheck : checkAmsiIntegrity engine with
  | true =>
    have hrun : iterate engine=
        ({ engine with eventsProcessed := engine.eventsProcessed+1,wasBypassed := false },none) := by
      rw [iterate,if_neg (by rw [hcheck]; exact nofun)]
    exact .intact hcheck (by rw [hrun]) (by rw [hrun]) (by rw [hrun])
  | false =>
    cases hlatch : engine.wasBypassed with
    | false =>
      have hrun : iterate engine=
          ((restoreAmsiPrologue { engine with
            eventsProcessed := engine.eventsProcessed+1
            wasBypassed := true
            threatsDetected := engine.threatsDetected+1 } true).1,some (.high,.evasionAmsi,
            "AMSI AmsiScanBuffer memory patch bypass detected; repairing prologue".toList)) := by
        rw [iterate,if_pos hcheck,if_pos hlatch]
      have hrestore := @restore_busy { engine with
        eventsProcessed := engine.eventsProcessed+1
        wasBypassed := true
        threatsDetected := engine.threatsDetected+1 } busy
      rw [hrestore] at hrun
      exact .repaired hcheck hlatch (by rw [hrun]) (by rw [hrun]) ⟨_,by rw [hrun],rfl⟩
    | true =>
      have hrun : iterate engine=
          ({ engine with eventsProcessed := engine.eventsProcessed+1 },none) := by
        rw [iterate,if_pos hcheck,if_neg (by rw [hlatch]; exact nofun)]
      exact .ignored hcheck hlatch (by rw [hrun]) (by rw [hrun]; exact hlatch) (by rw [hrun])

/-- An iteration never touches the saved bytes or the availability. -/
theorem iterate_fixed (engine : AmsiGuardEngine) :
    (iterate engine).1.originalPrologue=engine.originalPrologue ∧
    ((iterate engine).1.Idle ↔ engine.Idle) := by
  unfold iterate restoreAmsiPrologue
  dsimp only
  split_ifs <;> exact ⟨rfl,Iff.rfl⟩

/-- The latch follows the latest check. -/
theorem Guarding.snoc {events : List GuardEvent} {s t : AmsiGuardEngine} {action : Action}
    (inv : Guarding events s) (step : Step s action t) :
    Guarding (events++[⟨s,action,t⟩]) t := by
  cases step with
  | write code size =>
    refine ⟨inv.busy,?_⟩
    rw [lastFailed,List.filter_append,List.filter_cons_of_neg (by exact Bool.false_ne_true),
      List.filter_nil,List.append_nil]
    exact inv.latch
  | monitor =>
    refine ⟨(iterate_fixed s).2.not.mpr inv.busy,?_⟩
    rw [lastFailed,List.filter_append,List.filter_cons_of_pos (by rfl),List.filter_nil,
      List.getLast?_append,List.getLast?_singleton,Option.some_or]
    dsimp only
    cases iterate_outcome inv.busy with
    | intact checked prologue latch silent => rw [latch,checked,Bool.not_true]
    | repaired failed clear prologue latch alert => rw [latch,failed,Bool.not_false]
    | ignored failed set prologue latch silent => rw [latch,failed,Bool.not_false]

/-- The latch is exact in every reachable state. -/
theorem run_guarding {addr : ℕ} {code : Bytes} (haddr : addr≠0) (hcode : code≠[])
    {events : List GuardEvent} {engine : AmsiGuardEngine}
    (run : Run Step (create addr code) events engine) : Guarding events engine := by
  have hbusy : ¬(create addr code).Idle := by
    rintro (h | h | h)
    · exact absurd h nofun
    · exact haddr h
    · exact hcode ((List.take_eq_nil_iff.mp h).resolve_left nofun)
  exact run.invariant Guarding ⟨hbusy,rfl⟩ fun _ _ _ _ inv step => inv.snoc step

/-- An iteration repairs and reports exactly when the bytes were intact or the
latch was clear. -/
theorem repaired_iff {engine : AmsiGuardEngine} (busy : ¬engine.Idle) :
    Repaired ⟨engine,.monitor (iterate engine).2,(iterate engine).1⟩ ↔
      (engine.prologue≠engine.originalPrologue → engine.wasBypassed=false) := by
  have hfixed := (iterate_fixed engine).1
  constructor
  · intro h hmodified
    obtain ⟨-,hemit⟩ := h _ rfl
    obtain ⟨threat,hthreat,-⟩ := hemit hmodified
    cases iterate_outcome busy with
    | intact checked prologue latch silent => exact absurd (check_intact busy checked) hmodified
    | repaired failed clear prologue latch alert => exact clear
    | ignored failed set prologue latch silent =>
      rw [silent] at hthreat
      exact absurd hthreat nofun
  · rintro h emitted hlabel
    obtain rfl := Action.monitor.inj hlabel
    dsimp only
    rw [hfixed]
    cases iterate_outcome busy with
    | intact checked prologue latch silent =>
      have hintact := check_intact busy checked
      exact ⟨prologue.trans hintact,fun hne => absurd hintact hne⟩
    | repaired failed clear prologue latch alert => exact ⟨prologue,fun _ => alert⟩
    | ignored failed set prologue latch silent =>
      have hintact : engine.prologue=engine.originalPrologue := by
        by_contra hne
        rw [h hne] at set
        exact absurd set Bool.false_ne_true
      exact ⟨prologue.trans hintact,fun hne => absurd hintact hne⟩

/-- For every sequence of attacker writes and iterations: every iteration
leaves the original bytes and reports modified ones, if and only if every
iteration that finds modified bytes is the first one or follows an iteration
whose check succeeded. -/
theorem repaired_after_every_iteration_iff {addr : ℕ} {code : Bytes} (haddr : addr≠0)
    (hcode : code≠[]) {events : List GuardEvent} {engine : AmsiGuardEngine}
    (run : Run Step (create addr code) events engine) :
    (∀ e ∈ events,Repaired e) ↔
      ∀ first e rest,events=first++e::rest → isIteration e=true →
        e.before.prologue≠e.before.originalPrologue → lastFailed first=false := by
  constructor
  · rintro h first ⟨s,action,t⟩ rest rfl iteration hmodified
    obtain ⟨hfirst,step,-⟩ := run.event_step
    have inv := run_guarding haddr hcode hfirst
    have hrepaired := h ⟨s,action,t⟩ (List.mem_append_right _ List.mem_cons_self)
    dsimp only at step
    cases step with
    | write code size => exact absurd iteration Bool.false_ne_true
    | monitor =>
      rw [←inv.latch]
      exact (repaired_iff inv.busy).mp hrepaired hmodified
  · rintro h ⟨s,action,t⟩ member
    obtain ⟨first,rest,rfl⟩ := List.append_of_mem member
    obtain ⟨hfirst,step,-⟩ := run.event_step
    have inv := run_guarding haddr hcode hfirst
    have hclear := h first ⟨s,action,t⟩ rest rfl
    dsimp only at step
    cases step with
    | write code size => exact fun _ hlabel => absurd hlabel nofun
    | monitor =>
      refine (repaired_iff inv.busy).mpr fun hmodified => ?_
      have hlatch := inv.latch
      dsimp only at hlatch
      rw [hlatch]
      exact hclear rfl hmodified

section Patch

/-- The first bytes of an `AmsiScanBuffer`. -/
def genuine : Bytes :=
  [0x4C,0x8B,0xDC,0x49,0x89,0x5B,0x08,0x49,0x89,0x6B,0x10,0x49,0x89,0x73,0x18,0x57]

/-- The same bytes with a return instruction in front. -/
def patched : Bytes := 0xC3::genuine.drop 1

/-- The engine after a first patch. -/
def attacked : AmsiGuardEngine := { create 4096 genuine with prologue := patched }

/-- The engine after a second patch. -/
def attackedAgain : AmsiGuardEngine := { (iterate attacked).1 with prologue := patched }

/-- One patch is repaired by the next iteration. -/
theorem first_patch_repaired :
    ∃ events engine,Run Step (create 4096 genuine) events engine ∧
      events.length=2 ∧ ∀ e ∈ events,Repaired e := by
  have hwrite : Run Step (create 4096 genuine) [⟨create 4096 genuine,.write patched,attacked⟩]
      attacked := Run.nil.snoc (.write _ patched rfl)
  have hrun := hwrite.snoc (.monitor attacked)
  refine ⟨_,_,hrun,rfl,
    (repaired_after_every_iteration_iff (by decide) (by decide) hrun).mpr ?_⟩
  intro first e rest heq iteration hmodified
  rcases first with _ | ⟨first,_ | ⟨second,more⟩⟩
  · rfl
  · obtain ⟨rfl,-⟩ := List.cons.inj heq
    rfl
  · have hlength := congrArg List.length heq
    simp only [List.length_append,List.length_cons,List.length_nil] at hlength
    omega

/-- A second patch before the next iteration stays in place and is not
reported. -/
theorem second_patch_stays :
    ∃ events engine,Run Step (create 4096 genuine) events engine ∧
      engine.prologue≠engine.originalPrologue ∧
      ∃ e ∈ events,isIteration e=true ∧ ¬Repaired e := by
  have hwrite : Run Step (create 4096 genuine) [⟨create 4096 genuine,.write patched,attacked⟩]
      attacked := Run.nil.snoc (.write _ patched rfl)
  have hfirst := hwrite.snoc (.monitor attacked)
  have hagain := hfirst.snoc (.write _ patched rfl)
  have hrun := hagain.snoc (.monitor attackedAgain)
  have hstays : (iterate attackedAgain).1.prologue≠(iterate attackedAgain).1.originalPrologue := by
    decide
  refine ⟨_,_,hrun,hstays,_,List.mem_append_right _ List.mem_cons_self,rfl,fun h => ?_⟩
  exact hstays (h _ rfl).1

end Patch

end Gcad.AmsiGuard
