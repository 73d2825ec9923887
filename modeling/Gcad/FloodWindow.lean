import Gcad.Common
import Gcad.KeyedMap
import Gcad.SlidingWindow
import Gcad.StepSystem

/-!
# Flood detection and the block list

The flood test and the block list of etg_ri_engine.cpp. A call of `is_flood`
reads the steady clock under the lock, so the time of the call is part of its
action. Every call is one step; calls for different sources interleave in any
order.
-/

namespace Gcad.FloodWindow

open Common KeyedMap SlidingWindow StepSystem

/-- `FLOOD_THRESH`. -/
def floodThresh : ℕ := 500

/-- `FLOOD_WINDOW`. -/
def floodWindow : ℤ := seconds 1

/-- The two containers of the engine. -/
structure ETGRIEngine where
  /-- The packets of each source inside the window. -/
  connTracker : Table UInt32 (List TimePoint)
  /-- The sources whose packets are dropped. -/
  blockedIps : List UInt32

/-- The constructor. -/
def create : ETGRIEngine := ⟨∅,[]⟩

/-- `(now - time) > FLOOD_WINDOW`. -/
def outdated (now time : TimePoint) : Bool := decide (floodWindow < now-time)

/-- The pruning loop over all sources. -/
def prune (now : TimePoint) (tracker : Table UInt32 (List TimePoint)) :
    Table UInt32 (List TimePoint) :=
  retain (fun times => !times.isEmpty) (mapValues (trim outdated now) tracker)

/-- `is_flood`, at the time the clock shows. -/
def isFlood (engine : ETGRIEngine) (srcIp : UInt32) (now : TimePoint) : ETGRIEngine×Bool :=
  let tracker := if 512 < count engine.connTracker then prune now engine.connTracker
    else engine.connTracker
  let times := trim outdated now ((tracker.lookup srcIp).getD []++[now])
  ({ engine with connTracker := tracker.insert srcIp times },decide (floodThresh < times.length))

/-- `is_blocked`. -/
def isBlocked (engine : ETGRIEngine) (ip : UInt32) : Bool := decide (ip ∈ engine.blockedIps)

/-- `block_ip`. -/
def blockIp (engine : ETGRIEngine) (ip : UInt32) : ETGRIEngine :=
  if ip ∈ engine.blockedIps then engine
  else { engine with blockedIps := engine.blockedIps++[ip] }

/-- `unblock_ip`. -/
def unblockIp (engine : ETGRIEngine) (ip : UInt32) : ETGRIEngine :=
  { engine with blockedIps := engine.blockedIps.filter fun blocked => blocked≠ip }

/-- The calls of the engine. -/
inductive Call where
  /-- `is_flood` at a time. -/
  | isFlood (srcIp : UInt32) (now : TimePoint)
  /-- A source is looked up. -/
  | isBlocked (ip : UInt32)
  /-- A source is blocked. -/
  | blockIp (ip : UInt32)
  /-- A source is let in again. -/
  | unblockIp (ip : UInt32)

/-- One call with the answer of the two queries. -/
def step (engine : ETGRIEngine) : Call → ETGRIEngine×Option Bool
  | .isFlood srcIp now => ((isFlood engine srcIp now).1,some (isFlood engine srcIp now).2)
  | .isBlocked ip => (engine,some (isBlocked engine ip))
  | .blockIp ip => (blockIp engine ip,none)
  | .unblockIp ip => (unblockIp engine ip,none)

/-- A recorded call. -/
abbrev CallEvent := Event ETGRIEngine (Call×Option Bool)

/-- The time of a call of `is_flood`. -/
def floodTime (e : CallEvent) : Option TimePoint :=
  match e.label.1 with
  | .isFlood _ now => some now
  | _ => none

/-- The time of a call of `is_flood` for one source. -/
def sourceTime (srcIp : UInt32) (e : CallEvent) : Option TimePoint :=
  match e.label.1 with
  | .isFlood source now => if source=srcIp then some now else none
  | _ => none

/-- The times of all calls of `is_flood` for one source, oldest first. -/
def calls (events : List CallEvent) (srcIp : UInt32) : List TimePoint :=
  events.filterMap (sourceTime srcIp)

/-- The clock never goes back. -/
def Steady (events : List CallEvent) : Prop :=
  (events.filterMap floodTime).Pairwise (· ≤ ·)

/-- What a call does to the block of one address. -/
def verdict (ip : UInt32) (e : CallEvent) : Option Bool :=
  match e.label.1 with
  | .blockIp target => if target=ip then some true else none
  | .unblockIp target => if target=ip then some false else none
  | _ => none

/-- Whether the last call of `block_ip` or `unblock_ip` on an address was
`block_ip`. -/
def lastBlocked (events : List CallEvent) (ip : UInt32) : Prop :=
  (events.filterMap (verdict ip)).getLast?=some true

/-- A call of `is_flood` answers whether more than the allowed number of
calls for its source, itself included, lie in the window. -/
def Exact (earlier : List CallEvent) (e : CallEvent) : Prop :=
  ∀ srcIp now,e.label.1=.isFlood srcIp now → e.label.2=some (decide (floodThresh <
    (calls (earlier++[e]) srcIp).countP fun time => decide (now-time ≤ floodWindow)))

/-- The stamps kept for a source; an absent source has none. -/
def held (tracker : Table UInt32 (List TimePoint)) (srcIp : UInt32) : List TimePoint :=
  (tracker.lookup srcIp).getD []

/-- What left the window never comes back. -/
theorem lasting_outdated : Lasting outdated := by
  intro now later s earlier hnow hs h
  have h := of_decide_eq_true h
  exact decide_eq_true (by linarith)

/-- Pruning trims every source; erasing an empty one changes nothing. -/
theorem held_prune (now : TimePoint) (tracker : Table UInt32 (List TimePoint)) (srcIp : UInt32) :
    held (prune now tracker) srcIp=trim outdated now (held tracker srcIp) := by
  rw [held,prune,lookup_retain,lookup_mapValues,held]
  cases tracker.lookup srcIp with
  | none => rfl
  | some times =>
    rw [Option.map_some,Option.filter_some,Option.getD_some]
    split_ifs with hempty
    · rfl
    · rw [Bool.not_eq_true,Bool.not_eq_false',List.isEmpty_iff] at hempty
      rw [hempty]
      rfl

/-- The tracker after the optional pruning of a call. -/
def settled (engine : ETGRIEngine) (now : TimePoint) : Table UInt32 (List TimePoint) :=
  if 512 < count engine.connTracker then prune now engine.connTracker else engine.connTracker

/-- Pruning keeps all stamps inside the window. -/
theorem covers_settled {engine : ETGRIEngine} {now : TimePoint} {history : List TimePoint}
    {srcIp : UInt32} (h : Covers outdated now history (held engine.connTracker srcIp)) :
    Covers outdated now history (held (settled engine now) srcIp) := by
  unfold settled
  split_ifs
  · rw [held_prune]
    exact h.trim
  · exact h

/-- What a call of `is_flood` keeps for its own source. -/
theorem held_isFlood (engine : ETGRIEngine) (srcIp : UInt32) (now : TimePoint) :
    held (isFlood engine srcIp now).1.connTracker srcIp=
      trim outdated now (held (settled engine now) srcIp++[now]) := by
  rw [held,isFlood,AList.lookup_insert]
  rfl

/-- What a call of `is_flood` keeps for another source. -/
theorem held_isFlood_ne (engine : ETGRIEngine) {srcIp other : UInt32} (now : TimePoint)
    (hne : other≠srcIp) :
    held (isFlood engine srcIp now).1.connTracker other=held (settled engine now) other := by
  rw [held,isFlood,AList.lookup_insert_ne hne]
  rfl

/-- One more call of the history. -/
theorem calls_snoc (events : List CallEvent) (e : CallEvent) (srcIp : UInt32) :
    calls (events++[e]) srcIp=calls events srcIp++(sourceTime srcIp e).toList := by
  rw [calls,List.filterMap_append]
  cases h : sourceTime srcIp e with
  | none =>
    rw [List.filterMap_cons_none h]
    rfl
  | some time =>
    rw [List.filterMap_cons_some h]
    rfl

/-- The calls for one source are among all calls. -/
theorem calls_sublist (events : List CallEvent) (srcIp : UInt32) :
    (calls events srcIp).Sublist (events.filterMap floodTime) := by
  induction events with
  | nil => exact .slnil
  | cons e events ih =>
    obtain ⟨before,⟨call,answer⟩,after⟩ := e
    cases call with
    | isFlood source now =>
      by_cases heq : source=srcIp
      · have hsource : sourceTime srcIp ⟨before,(.isFlood source now,answer),after⟩=some now :=
          if_pos heq
        rw [calls,List.filterMap_cons_some hsource]
        exact ih.cons_cons now
      · have hsource : sourceTime srcIp ⟨before,(.isFlood source now,answer),after⟩=none :=
          if_neg heq
        rw [calls,List.filterMap_cons_none hsource]
        exact ih.cons now
    | isBlocked ip => exact ih
    | blockIp ip => exact ih
    | unblockIp ip => exact ih

/-- What is kept for every source covers its calls at any time from the last
call on. -/
def Tracked (events : List CallEvent) (engine : ETGRIEngine) : Prop :=
  ∀ now,(∀ time ∈ events.filterMap floodTime,time ≤ now) → ∀ srcIp,
    Covers outdated now (calls events srcIp) (held engine.connTracker srcIp)

/-- A call of `is_flood` comes after all earlier ones. -/
theorem Steady.latest {events : List CallEvent} {e : CallEvent} (steady : Steady (events++[e]))
    {now : TimePoint} (h : floodTime e=some now) :
    ∀ time ∈ events.filterMap floodTime,time ≤ now := by
  rw [Steady,List.filterMap_append,List.pairwise_append] at steady
  intro time member
  refine steady.2.2 time member now ?_
  rw [List.filterMap_cons_some h]
  exact List.mem_cons_self

/-- A history without its last call. -/
theorem Steady.init {events : List CallEvent} {e : CallEvent} (steady : Steady (events++[e])) :
    Steady events := by
  rw [Steady,List.filterMap_append,List.pairwise_append] at steady
  exact steady.1

/-- What a call of `is_flood` at the latest time leaves for its own source,
before and after trimming. -/
theorem covers_isFlood {events : List CallEvent} {engine : ETGRIEngine}
    (tracked : Tracked events engine) {now : TimePoint}
    (latest : ∀ time ∈ events.filterMap floodTime,time ≤ now) (srcIp : UInt32) :
    Covers outdated now (calls events srcIp++[now]) (held (settled engine now) srcIp++[now]) :=
  (covers_settled (tracked now latest srcIp)).push now

/-- Only `is_flood` touches the tracker. -/
theorem step_quiet (engine : ETGRIEngine) {call : Call}
    (quiet : ∀ srcIp now,call≠.isFlood srcIp now) :
    (step engine call).1.connTracker=engine.connTracker := by
  cases call with
  | isFlood srcIp now => exact absurd rfl (quiet srcIp now)
  | isBlocked ip => rfl
  | blockIp ip =>
    rw [step,blockIp]
    split_ifs
    · rfl
    · rfl
  | unblockIp ip => rfl

/-- A call that is not `is_flood` has no time. -/
theorem sourceTime_quiet {e : CallEvent} (quiet : ∀ srcIp now,e.label.1≠.isFlood srcIp now)
    (srcIp : UInt32) : sourceTime srcIp e=none := by
  unfold sourceTime
  split
  · next source now hlabel => exact absurd hlabel (quiet source now)
  · rfl

/-- A call keeps what is needed of the calls so far. -/
theorem step_tracked {events : List CallEvent} {e : CallEvent}
    (tracked : Tracked events e.before) (hstep : Deterministic step e.before e.label e.after)
    (steady : Steady (events++[e])) : Tracked (events++[e]) e.after := by
  have hafter : e.after=(step e.before e.label.1).1 := (congrArg Prod.fst hstep).symm
  intro now hnow srcIp
  rw [List.filterMap_append] at hnow
  rw [hafter,calls_snoc]
  by_cases hflood : ∃ source time,e.label.1=.isFlood source time
  · obtain ⟨source,time,hlabel⟩ := hflood
    have hmoment : floodTime e=some time := by rw [floodTime,hlabel]
    have hlatest := steady.latest hmoment
    have htime : time ≤ now := by
      refine hnow time (List.mem_append_right _ ?_)
      rw [List.filterMap_cons_some hmoment]
      exact List.mem_cons_self
    refine Covers.later lasting_outdated ?_ htime
    rw [hlabel,step]
    by_cases heq : source=srcIp
    · have hsource : sourceTime srcIp e=some time := by
        rw [sourceTime,hlabel]
        exact if_pos heq
      rw [hsource,heq,held_isFlood]
      exact (covers_isFlood tracked hlatest srcIp).trim
    · have hsource : sourceTime srcIp e=none := by
        rw [sourceTime,hlabel]
        exact if_neg heq
      rw [hsource,Option.toList_none,List.append_nil,held_isFlood_ne e.before time (Ne.symm heq)]
      exact covers_settled (tracked time hlatest srcIp)
  · have hquiet : ∀ source time,e.label.1≠.isFlood source time := fun source time h =>
      hflood ⟨source,time,h⟩
    rw [sourceTime_quiet hquiet srcIp,Option.toList_none,List.append_nil,held,
      step_quiet e.before hquiet]
    exact tracked now (fun t member => hnow t (List.mem_append_left _ member)) srcIp

/-- A call of `is_flood` counts exactly the calls in the window. -/
theorem step_exact {events : List CallEvent} {e : CallEvent} (tracked : Tracked events e.before)
    (hstep : Deterministic step e.before e.label e.after) (steady : Steady (events++[e])) :
    Exact events e := by
  intro srcIp now hlabel
  have hanswer : e.label.2=some (isFlood e.before srcIp now).2 := by
    rw [Deterministic,hlabel] at hstep
    exact (congrArg Prod.snd hstep).symm
  have hmoment : floodTime e=some now := by rw [floodTime,hlabel]
  have hsource : sourceTime srcIp e=some now := by
    rw [sourceTime,hlabel]
    exact if_pos rfl
  have hcovers := covers_isFlood tracked (steady.latest hmoment) srcIp
  have hordered : (calls events srcIp++[now]).Pairwise (· ≤ ·) := by
    have hcalls := calls_snoc events e srcIp
    rw [hsource] at hcalls
    rw [←Option.toList_some now,←hcalls]
    exact List.Pairwise.sublist (calls_sublist _ srcIp) steady
  have hlength := hcovers.length_trim lasting_outdated hordered
  have hcount : (calls (events++[e]) srcIp).countP (fun time => decide (now-time ≤ floodWindow))=
      (trim outdated now (held (settled e.before now) srcIp++[now])).length := by
    rw [hlength,calls_snoc,hsource]
    refine List.countP_congr fun time _ => ?_
    rw [outdated,decide_eq_true_eq,Bool.not_eq_true',decide_eq_false_iff_not,not_lt]
  rw [hanswer,hcount]
  rfl

/-- In every run the kept stamps cover the calls. -/
theorem run_tracked {events : List CallEvent} {engine : ETGRIEngine}
    (run : Run (Deterministic step) create events engine) (steady : Steady events) :
    Tracked events engine := by
  induction run with
  | nil => exact fun now _ srcIp => Covers.refl now []
  | snoc run hstep ih => exact step_tracked (ih steady.init) hstep steady

/-- An address is on the list exactly if its last verdict was a block, and
no address is on the list twice. -/
structure Listed (events : List CallEvent) (engine : ETGRIEngine) : Prop where
  /-- The list has no duplicates. -/
  nodup : engine.blockedIps.Nodup
  /-- Membership is the last verdict. -/
  mem : ∀ ip,ip ∈ engine.blockedIps ↔ lastBlocked events ip

/-- One more call of the history, seen by an address. -/
theorem lastBlocked_snoc (events : List CallEvent) (e : CallEvent) (ip : UInt32) :
    lastBlocked (events++[e]) ip ↔
      verdict ip e=some true ∨ (verdict ip e=none ∧ lastBlocked events ip) := by
  rw [lastBlocked,List.filterMap_append]
  cases h : verdict ip e with
  | none =>
    rw [List.filterMap_cons_none h,List.filterMap_nil,List.append_nil]
    exact ⟨fun h => .inr ⟨rfl,h⟩,fun h => h.elim (absurd · nofun) And.right⟩
  | some blocked =>
    rw [List.filterMap_cons_some h,List.filterMap_nil,List.getLast?_concat]
    exact ⟨.inl,fun h => h.elim id fun h => absurd h.1 nofun⟩

/-- A call without a verdict leaves the list alone. -/
theorem listed_quiet {events : List CallEvent} {e : CallEvent} (listed : Listed events e.before)
    (hlist : e.after.blockedIps=e.before.blockedIps) (quiet : ∀ ip,verdict ip e=none) :
    Listed (events++[e]) e.after := by
  refine ⟨hlist ▸ listed.nodup,fun ip => ?_⟩
  rw [hlist,lastBlocked_snoc,quiet ip,listed.mem ip]
  exact ⟨fun h => .inr ⟨rfl,h⟩,fun h => h.elim (absurd · nofun) And.right⟩

/-- A call of `block_ip` appends its address if it is not there. -/
theorem listed_blockIp {events : List CallEvent} {engine : ETGRIEngine}
    (listed : Listed events engine) (target : UInt32) (answer : Option Bool) :
    Listed (events++[⟨engine,(.blockIp target,answer),blockIp engine target⟩])
      (blockIp engine target) := by
  have hmem : ∀ ip,ip ∈ (blockIp engine target).blockedIps ↔
      ip=target ∨ ip ∈ engine.blockedIps := by
    intro ip
    unfold blockIp
    split_ifs with hthere
    · exact ⟨.inr,fun h => h.elim (fun heq => heq ▸ hthere) id⟩
    · rw [List.mem_append,List.mem_singleton]
      exact or_comm
  refine ⟨?_,fun ip => ?_⟩
  · unfold blockIp
    split_ifs with hthere
    · exact listed.nodup
    · refine List.nodup_append.mpr ⟨listed.nodup,List.nodup_singleton _,?_⟩
      intro ip member other hother heq
      rw [List.mem_singleton.mp hother] at heq
      exact hthere (heq ▸ member)
  · rw [hmem,lastBlocked_snoc,verdict,listed.mem ip]
    dsimp only
    split_ifs with heq
    · exact ⟨fun _ => .inl rfl,fun _ => .inl heq.symm⟩
    · exact ⟨fun h => h.elim (fun h => absurd h.symm heq) fun h => .inr ⟨rfl,h⟩,
        fun h => h.elim (absurd · nofun) fun h => .inr h.2⟩

/-- A call of `unblock_ip` removes its address. -/
theorem listed_unblockIp {events : List CallEvent} {engine : ETGRIEngine}
    (listed : Listed events engine) (target : UInt32) (answer : Option Bool) :
    Listed (events++[⟨engine,(.unblockIp target,answer),unblockIp engine target⟩])
      (unblockIp engine target) := by
  refine ⟨listed.nodup.filter _,fun ip => ?_⟩
  rw [unblockIp,List.mem_filter,decide_eq_true_eq,lastBlocked_snoc,verdict,listed.mem ip]
  dsimp only
  split_ifs with heq
  · exact ⟨fun h => absurd heq.symm h.2,fun h => h.elim (absurd · nofun) (absurd ·.1 nofun)⟩
  · exact ⟨fun h => .inr ⟨rfl,h.1⟩,
      fun h => h.elim (absurd · nofun) fun h => ⟨h.2,fun h => heq h.symm⟩⟩

/-- In every run the block list says what the last verdicts were. -/
theorem run_listed {events : List CallEvent} {engine : ETGRIEngine}
    (run : Run (Deterministic step) create events engine) : Listed events engine := by
  induction run with
  | nil => exact ⟨List.nodup_nil,fun ip => ⟨nofun,nofun⟩⟩
  | @snoc events s t label run hstep ih =>
    obtain ⟨call,answer⟩ := label
    have hafter : t=(step s call).1 := (congrArg Prod.fst hstep).symm
    subst hafter
    cases call with
    | isFlood srcIp now => exact listed_quiet ih rfl fun ip => rfl
    | isBlocked ip => exact listed_quiet ih rfl fun ip => rfl
    | blockIp target => exact listed_blockIp ih target answer
    | unblockIp target => exact listed_unblockIp ih target answer

/-- Over every sequence of calls at non-decreasing times: every call of
`is_flood` answers whether its window holds more than FLOOD_THRESH calls for
its source, the block list has no duplicates, and an address is blocked
exactly if the last verdict on it was a block. -/
theorem flood_window_exact {events : List CallEvent} {engine : ETGRIEngine}
    (run : Run (Deterministic step) create events engine) (steady : Steady events) :
    (∀ first e rest,events=first++e::rest → Exact first e) ∧
      engine.blockedIps.Nodup ∧ ∀ ip,isBlocked engine ip=true ↔ lastBlocked events ip := by
  have hlisted := run_listed run
  refine ⟨?_,hlisted.nodup,fun ip => ?_⟩
  · rintro first e rest rfl
    obtain ⟨hbefore,hstep,-⟩ := run.event_step
    have hsteady : Steady (first++[e]) := by
      rw [List.append_cons,Steady,List.filterMap_append,List.pairwise_append] at steady
      exact steady.1
    exact step_exact (run_tracked hbefore hsteady.init) hstep hsteady
  · rw [isBlocked,decide_eq_true_eq]
    exact hlisted.mem ip

/-- The time of a call of `is_flood`, read off the call. -/
def testTime : Call → Option TimePoint
  | .isFlood _ now => some now
  | _ => none

/-- The same for one source. -/
def testTimeOf (srcIp : UInt32) : Call → Option TimePoint
  | .isFlood source now => if source=srcIp then some now else none
  | _ => none

/-- The times of the flood tests of an executed call list. -/
theorem floodTimes_execute (engine : ETGRIEngine) (calls : List Call) :
    (execute step engine calls).1.filterMap floodTime=calls.filterMap testTime := by
  conv_rhs => rw [← map_execute step engine calls,List.filterMap_map]
  rfl

/-- The times of those for one source. -/
theorem calls_execute (engine : ETGRIEngine) (actions : List Call) (srcIp : UInt32) :
    calls (execute step engine actions).1 srcIp=actions.filterMap (testTimeOf srcIp) := by
  conv_rhs => rw [← map_execute step engine actions,List.filterMap_map]
  rfl

/-- Tests for 513 sources, one more than the tracker holds without pruning. -/
def crowd : List Call := (List.range 513).map fun i => .isFlood (UInt32.ofNat i) 0

/-- As many tests for one of them as the limit allows, two seconds later. -/
def burst : List Call := List.replicate floodThresh (.isFlood 7 (seconds 2))

/-- One test more, after which the source is blocked. -/
def floodingCalls : List Call := crowd++burst++[.isFlood 7 (seconds 2),.blockIp 7]

/-- The clock of the calls only goes forward. -/
theorem floodingCalls_steady : Steady (execute step create floodingCalls).1 := by
  have hcrowd : crowd.filterMap testTime=List.replicate 513 0 := by
    have hsome : (testTime ∘ fun i : ℕ => Call.isFlood (UInt32.ofNat i) 0)=some ∘ fun _ => 0 := rfl
    rw [crowd,List.filterMap_map,hsome,List.filterMap_eq_map,List.map_const',List.length_range]
  have hburst : burst.filterMap testTime=List.replicate floodThresh (seconds 2) := by
    have hsome : testTime (.isFlood 7 (seconds 2))=some (seconds 2) := rfl
    rw [burst,List.filterMap_replicate_of_some hsome]
  have hlast : [Call.isFlood 7 (seconds 2),.blockIp 7].filterMap testTime=[seconds 2] := rfl
  rw [Steady,floodTimes_execute,floodingCalls,List.filterMap_append,List.filterMap_append,hcrowd,
    hburst,hlast,List.append_assoc,← List.replicate_succ']
  refine List.pairwise_append.mpr ⟨?_,?_,fun first hfirst last hlast => ?_⟩
  · exact List.pairwise_replicate.mpr (.inr le_rfl)
  · exact List.pairwise_replicate.mpr (.inr le_rfl)
  · rw [List.eq_of_mem_replicate hfirst,List.eq_of_mem_replicate hlast]
    decide

/-- One test too many of the source lies in the window. -/
theorem floodingCalls_count : floodThresh <
    (calls (execute step create (crowd++burst++[.isFlood 7 (seconds 2)])).1 7).countP
      fun time => decide (seconds 2-time ≤ floodWindow) := by
  have hburst : burst.filterMap (testTimeOf 7)=List.replicate floodThresh (seconds 2) := by
    have hsome : testTimeOf 7 (.isFlood 7 (seconds 2))=some (seconds 2) := rfl
    rw [burst,List.filterMap_replicate_of_some hsome]
  have hlast : [Call.isFlood 7 (seconds 2)].filterMap (testTimeOf 7)=[seconds 2] := rfl
  rw [calls_execute,List.filterMap_append,List.filterMap_append,hburst,hlast,List.append_assoc,
    ← List.replicate_succ',List.countP_append,List.countP_replicate,if_pos (by decide)]
  omega

/-- The test over the limit answers that the source floods, and the source is
blocked afterwards. -/
theorem flooding_calls_counted : ∃ first e rest,
    (execute step create floodingCalls).1=first++e::rest ∧
      e.label=(.isFlood 7 (seconds 2),some true) ∧
      isBlocked (execute step create floodingCalls).2 7=true := by
  obtain ⟨hexact,-,hblocked⟩ :=
    flood_window_exact (execute_run step create floodingCalls) floodingCalls_steady
  have hsplit := congrArg Prod.fst
    (execute_append step create (crowd++burst) [.isFlood 7 (seconds 2),.blockIp 7])
  refine ⟨_,_,_,hsplit,Prod.ext rfl ?_,?_⟩
  · have hone := congrArg Prod.fst
      (execute_append step create (crowd++burst) [.isFlood 7 (seconds 2)])
    have hcount := floodingCalls_count
    rw [hone] at hcount
    exact (hexact _ _ _ hsplit 7 (seconds 2) rfl).trans (congrArg some (decide_eq_true hcount))
  · rw [hblocked,lastBlocked,floodingCalls,hsplit,List.filterMap_append]
    exact List.getLast?_concat

end Gcad.FloodWindow
