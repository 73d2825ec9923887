import Gcad.ForensicTimeline

/-!
# Causal links and the history of a process

`link_causal` walks back over the retained events of all processes. It should
link an event to the latest retained event of its own process if that is at
most 300 seconds older. The walk tests the age of the events of other
processes only, so whether an older event of the same process is linked
depends on what other processes did in between.
-/

namespace Gcad.CausalLinks

open Common Threat Observation StepSystem BoundedLog ForensicTimeline

/-- The latest event of a process. -/
def latest (events : List TimelineEvent) (processId : ℕ) : Option TimelineEvent :=
  events.reverse.find? fun it => it.processId=processId

/-- The events after the latest one of a process. -/
def since (events : List TimelineEvent) (processId : ℕ) : List TimelineEvent :=
  events.reverse.takeWhile fun it => it.processId≠processId

/-- An event is at most 300 seconds older than another. -/
def Recent (ev it : TimelineEvent) : Prop := ev.timestamp-it.timestamp ≤ seconds 300

instance (ev it : TimelineEvent) : Decidable (Recent ev it) :=
  inferInstanceAs (Decidable (_ ≤ _))

/-- The parent an event should have: the latest event of its process if that
is recent. -/
def ownParent (events : List TimelineEvent) (ev : TimelineEvent) : Option TimelineEvent :=
  (latest events ev.processId).filter fun it => Recent ev it

/-- The number of a parent, zero when there is none. -/
def parentNumber (parent : Option TimelineEvent) : UInt64 := parent.elim 0 TimelineEvent.id

/-- The event of a call has the parent it should have. -/
def Linked (e : CallEvent) : Prop :=
  ∀ te,ingested e=some te → te.processId≠0 →
    te.causalParent=parentNumber (ownParent e.before.events te)

/-- The walk stops in time: the latest retained event of the process is
recent, or an event of another process after it is more than 300 whole
seconds old. (An event that got the number zero cannot be named as a
parent.) -/
def Stops (e : CallEvent) : Prop :=
  ∀ entry,offered e.before e.label.1=some entry → entry.processId≠0 →
    ∀ it,latest e.before.events entry.processId=some it → it.id≠0 →
      Recent entry it ∨ ∃ other ∈ since e.before.events entry.processId,300 < ageSeconds entry other

/-- The timestamps of the ingested events do not fall. -/
def Ordered (events : List CallEvent) : Prop :=
  (history events).Pairwise fun earlier later => earlier.timestamp ≤ later.timestamp

/-- The walk meets an old event of another process before an event of the
process. -/
def crossed (ev : TimelineEvent) (newestFirst : List TimelineEvent) : Bool :=
  (newestFirst.takeWhile fun it => it.processId≠ev.processId).any fun it => 300 < ageSeconds ev it

/-- The walk finds the latest event of the process unless it meets an old
event before. -/
theorem scanCausal_eq {ev : TimelineEvent} {newestFirst : List TimelineEvent}
    (others : ∀ it ∈ newestFirst,it.id≠ev.id) :
    scanCausal ev newestFirst=if crossed ev newestFirst then none
      else newestFirst.find? fun it => it.processId=ev.processId := by
  induction newestFirst with
  | nil => rfl
  | cons it rest ih =>
    have hrest := ih fun other hother => others other (List.mem_cons_of_mem it hother)
    have hit := others it List.mem_cons_self
    unfold scanCausal crossed
    by_cases hown : it.processId=ev.processId
    · rw [if_pos ⟨hown,hit⟩,List.takeWhile_cons_of_neg (by simpa using hown),List.any_nil,
        if_neg Bool.false_ne_true,List.find?_cons_of_pos (by simpa using hown)]
    · rw [if_neg (fun h => hown h.1),List.takeWhile_cons_of_pos (by simpa using hown),
        List.any_cons,List.find?_cons_of_neg (by simpa using hown)]
      by_cases hold : 300 < ageSeconds ev it
      · rw [if_pos hold,decide_eq_true hold,Bool.true_or,if_pos rfl]
      · rw [if_neg hold,decide_eq_false hold,Bool.false_or,hrest]
        rfl

/-- The retained events do not have the next number. -/
theorem retained_number {events : List CallEvent} {engine : ForensicTimelineEngine}
    (inv : Logged events engine) {it : TimelineEvent} (member : it ∈ engine.events) :
    it.id≠engine.nextId := by
  rw [inv.retained,retain] at member
  obtain ⟨k,hk⟩ := List.mem_iff_getElem?.mp member
  rw [List.getElem?_drop] at hk
  have hlt := (List.getElem?_eq_some_iff.mp hk).1
  have hbound : MAX_EVENTS=5000 := rfl
  rw [inv.numbers _ it hk,inv.next]
  intro heq
  have hnat := congrArg UInt64.toNat heq
  rw [UInt64.toNat_ofNat',UInt64.toNat_ofNat'] at hnat
  omega

/-- Whole seconds within a limit. -/
theorem ageSeconds_le {ev it : TimelineEvent} (h : Recent ev it) : ageSeconds ev it ≤ 300 := by
  have hlimit : (seconds 300).tdiv (10^9)=300 := by decide
  rw [←hlimit]
  exact Int.tdiv_le_tdiv (by decide) h

/-- What the walk returns in a logged engine. -/
theorem causalSource_eq {events : List CallEvent} {engine : ForensicTimelineEngine}
    (inv : Logged events engine) {entry : TimelineEvent} (number : entry.id=engine.nextId)
    (known : entry.processId≠0) :
    causalSource engine.events entry=if crossed entry engine.events.reverse then none
      else latest engine.events entry.processId := by
  rw [causalSource,if_neg known]
  refine scanCausal_eq fun it member => ?_
  rw [number]
  exact retained_number inv (List.mem_reverse.mp member)

/-- No event after a recent one is old. -/
theorem not_crossed {events : List TimelineEvent} {entry it : TimelineEvent}
    (ordered : events.Pairwise fun earlier later => earlier.timestamp ≤ later.timestamp)
    (found : latest events entry.processId=some it) (recent : Recent entry it) :
    crossed entry events.reverse=false := by
  obtain ⟨hown,newer,older,hsplit,hnewer⟩ := List.find?_eq_some_iff_append.mp found
  have hreverse := List.pairwise_reverse.mpr ordered
  rw [hsplit,List.pairwise_append] at hreverse
  rw [crossed,List.any_eq_false]
  intro other member
  have hother : other ∈ newer := by
    rw [hsplit,List.takeWhile_append_of_pos (by simpa using hnewer),
      List.takeWhile_cons_of_neg (by simpa using hown),List.append_nil] at member
    exact member
  have hlater := hreverse.2.2 other hother it List.mem_cons_self
  rw [decide_eq_true_eq,not_lt]
  exact ageSeconds_le ((sub_le_sub_left hlater _).trans recent)

/-- An old event after the latest one of the process stops the walk. -/
theorem crossed_iff (events : List TimelineEvent) (entry : TimelineEvent) :
    crossed entry events.reverse=true ↔
      ∃ other ∈ since events entry.processId,300 < ageSeconds entry other := by
  rw [crossed,List.any_eq_true]
  simp only [decide_eq_true_eq,since]

/-- The parent of a walk that finds an event is right exactly when the event
is recent or the walk was stopped. -/
theorem parentNumber_iff {stopped : Bool} {recent : Prop} [Decidable recent] {it : TimelineEvent}
    (sound : recent → stopped=false) :
    parentNumber (if stopped=true then none else some it)=
        parentNumber (if recent then some it else none) ↔ it.id≠0 → recent ∨ stopped=true := by
  by_cases hrecent : recent
  · rw [sound hrecent,if_neg Bool.false_ne_true,if_pos hrecent]
    exact ⟨fun _ _ => .inl hrecent,fun _ => rfl⟩
  · rw [if_neg hrecent]
    cases stopped with
    | true =>
      rw [if_pos rfl]
      exact ⟨fun _ _ => .inr rfl,fun _ => rfl⟩
    | false =>
      rw [if_neg Bool.false_ne_true]
      constructor
      · exact fun hzero hne => absurd hzero hne
      · intro hstops
        by_contra hne
        exact (hstops hne).elim hrecent Bool.false_ne_true

/-- One call gives its event the right parent exactly when the walk stops in
time. -/
theorem linked_iff {events : List CallEvent} {e : CallEvent} (inv : Logged events e.before)
    (hstep : Deterministic step e.before e.label e.after)
    (ordered : e.before.events.Pairwise fun earlier later => earlier.timestamp ≤ later.timestamp) :
    Linked e ↔ Stops e := by
  unfold Linked Stops
  rcases step_cases hstep with ⟨entry,te,hoffer,hreply,hrec⟩ | ⟨clock,hlabel,-⟩
  · have hingested : ingested e=some te := by rw [ingested,hreply]
    have hte : te={ entry with
        causalParent := parentNumber (causalSource e.before.events entry) } := by
      rw [hrec.linked,linkCausal_eq,hrec.unlinked]
      rfl
    have hprocess : te.processId=entry.processId := by rw [hte]
    have hparent : te.causalParent=parentNumber (causalSource e.before.events entry) := by rw [hte]
    have hown : ownParent e.before.events te=ownParent e.before.events entry := by rw [hte]; rfl
    simp only [hingested,hoffer,Option.some.injEq,forall_eq',hprocess,hparent,hown]
    refine imp_congr_right fun known => ?_
    rw [causalSource_eq inv hrec.number known,ownParent]
    cases hlatest : latest e.before.events entry.processId with
    | none => simp
    | some it =>
      rw [←crossed_iff,Option.filter_some]
      simp only [Option.some.injEq,forall_eq',decide_eq_true_eq]
      exact parentNumber_iff (not_crossed ordered hlatest)
  · have hingested : ingested e=none := by rw [ingested,hlabel]
    have hoffer : offered e.before e.label.1=none := by rw [hlabel]; rfl
    simp only [hingested,hoffer]
    exact ⟨fun _ _ h => absurd h.symm (Option.some_ne_none _),
      fun _ _ h => absurd h.symm (Option.some_ne_none _)⟩

/-- Histories of consecutive calls. -/
theorem history_append (first second : List CallEvent) :
    history (first++second)=history first++history second := List.filterMap_append

/-- The timestamps of the first calls do not fall either. -/
theorem Ordered.left {first second : List CallEvent} (ordered : Ordered (first++second)) :
    Ordered first := by
  rw [Ordered,history_append,List.pairwise_append] at ordered
  exact ordered.1

/-- What a run has recorded before one of its calls. -/
theorem run_before {events : List CallEvent} {engine : ForensicTimelineEngine} {callback : Bool}
    (run : Run (Deterministic step) (create callback) events engine) (ordered : Ordered events)
    {first rest : List CallEvent} {e : CallEvent} (split : events=first++e::rest) :
    Logged first e.before ∧ Deterministic step e.before e.label e.after ∧
      e.before.events.Pairwise fun earlier later => earlier.timestamp ≤ later.timestamp := by
  subst split
  obtain ⟨hbefore,hstep,-⟩ := run.event_step
  have hlogged := run_logged hbefore
  refine ⟨hlogged,hstep,?_⟩
  rw [hlogged.retained]
  exact ordered.left.sublist (retain_suffix _ _).sublist

/-- The time of a call that ingests an event of a process. -/
def callTime (processId : ℕ) : Call → Option TimePoint
  | .ingestThreat ev => if ev.processId.toNat=processId then some ev.timestamp else none
  | .ingestObservation obs timestamp => if obs.processId=processId then some timestamp else none
  | .detectMultiStage _ => none

/-- The events of a process, oldest first. -/
def ownHistory (events : List CallEvent) (processId : ℕ) : List TimelineEvent :=
  (history events).filter fun te => te.processId=processId

/-- The event an own event should be linked to is not lost from the bounded
log before it is needed. -/
def Kept (first : List CallEvent) (e : CallEvent) : Prop :=
  ∀ entry,offered e.before e.label.1=some entry →
    ∀ it,latest (history first) entry.processId=some it → Recent entry it → it ∈ e.before.events

/-- In every call the walk stops in time and the parent is still retained. -/
def Settled (events : List CallEvent) : Prop :=
  ∀ first e rest,events=first++e::rest → Stops e ∧ Kept first e

/-- Two histories of a process link the same events: the events at one place
both have no parent, or their parents are at one place. -/
def SameParents (first second : List TimelineEvent) : Prop :=
  ∀ k (a b : TimelineEvent),first[k]?=some a → second[k]?=some b →
    a.causalParent=0 ∧ b.causalParent=0 ∨ ∃ (j : ℕ) (x y : TimelineEvent),j < k ∧
      first[j]?=some x ∧ second[j]?=some y ∧
      a.causalParent=x.id ∧ b.causalParent=y.id

/-- The parent of an event of a process, from the history of the process. -/
def predecessor (own : List TimelineEvent) (k : ℕ) (te : TimelineEvent) : Option TimelineEvent :=
  (own.take k).getLast?.filter fun it => Recent te it

/-- The event a call offers is of the process and the time of the call. -/
theorem offered_time {s : ForensicTimelineEngine} {call : Call} {entry : TimelineEvent}
    (h : offered s call=some entry) (processId : ℕ) : callTime processId call=
      if entry.processId=processId then some entry.timestamp else none := by
  cases call with
  | ingestThreat ev =>
    rw [←Option.some.inj h]
    rfl
  | ingestObservation obs timestamp =>
    rw [←Option.some.inj h]
    rfl
  | detectMultiStage clock => exact absurd h.symm (Option.some_ne_none _)

/-- The latest event of a process in a history. -/
theorem latest_history (events : List CallEvent) (processId : ℕ) :
    latest (history events) processId=(ownHistory events processId).getLast? := by
  rw [latest,←List.head?_filter,List.filter_reverse,List.head?_reverse,ownHistory]

/-- While a recent parent is retained, the retained events give the parent
that the whole history gives. -/
theorem ownParent_history {first : List CallEvent} {e : CallEvent} (inv : Logged first e.before)
    {te : TimelineEvent} (kept : ∀ it,latest (history first) te.processId=some it →
      Recent te it → it ∈ e.before.events) :
    ownParent e.before.events te=(ownHistory first te.processId).getLast?.filter fun it =>
      Recent te it := by
  rw [ownParent,←latest_history]
  have hnewest : e.before.events.reverse=(history first).reverse.take MAX_EVENTS := by
    rw [inv.retained,retain_reverse]
  have hsplit : latest (history first) te.processId=
      (latest e.before.events te.processId).or
        (((history first).reverse.drop MAX_EVENTS).find? fun it => it.processId=te.processId) := by
    rw [latest,latest,hnewest,←List.find?_append,List.take_append_drop]
  cases hretained : latest e.before.events te.processId with
  | some it => rw [hsplit,hretained,Option.some_or]
  | none =>
    cases hlatest : latest (history first) te.processId with
    | none => rfl
    | some it =>
      rw [Option.filter_some]
      split_ifs with hrecent
      · have hmem := kept it hlatest (of_decide_eq_true hrecent)
        rw [latest] at hlatest hretained
        exact absurd (List.find?_some hlatest)
          (List.find?_eq_none.mp hretained it (List.mem_reverse.mpr hmem))
      · rfl

/-- A call in which the walk stops in time and the parent is retained links
its event to the event of the process before it, if that is recent. -/
theorem last_parent {first : List CallEvent} {e : CallEvent} (inv : Logged first e.before)
    (hstep : Deterministic step e.before e.label e.after)
    (ordered : e.before.events.Pairwise fun earlier later => earlier.timestamp ≤ later.timestamp)
    (stops : Stops e) (kept : Kept first e) {new : TimelineEvent} (hingested : ingested e=some new)
    (known : new.processId≠0) : new.causalParent=parentNumber
      ((ownHistory first new.processId).getLast?.filter fun it => Recent new it) := by
  rw [(linked_iff inv hstep ordered).mpr stops new hingested known,ownParent_history inv]
  rcases step_cases hstep with ⟨entry,te,hoffer,hreply,hrec⟩ | ⟨clock,hlabel,-⟩
  · rw [ingested,hreply] at hingested
    have hentry := hrec.linked
    rw [linkCausal_eq,Option.some.inj hingested] at hentry
    rw [hentry]
    exact kept entry hoffer
  · rw [ingested,hlabel] at hingested
    exact absurd hingested.symm (Option.some_ne_none _)

/-- In a settled run every event of a process is linked to the event of the
process before it, if that is recent. -/
theorem settled_parent {events : List CallEvent} {engine : ForensicTimelineEngine}
    {callback : Bool} (run : Run (Deterministic step) (create callback) events engine)
    (ordered : Ordered events) (settled : Settled events) {processId : ℕ} (known : processId≠0)
    (k : ℕ) {te : TimelineEvent} (h : (ownHistory events processId)[k]?=some te) :
    te.causalParent=parentNumber (predecessor (ownHistory events processId) k te) := by
  induction run generalizing k te with
  | nil => exact absurd h.symm (Option.some_ne_none _)
  | @snoc events s t label run hstep ih =>
    have hbefore := run_before (run.snoc hstep) ordered rfl
    obtain ⟨hstops,hkept⟩ := settled _ _ _ rfl
    have hsettled : Settled events := by
      rintro first e rest rfl
      exact settled first e (rest++[⟨s,label,t⟩]) (by rw [List.append_assoc,List.cons_append])
    have hown : ownHistory (events++[⟨s,label,t⟩]) processId=ownHistory events processId++
        (ingested ⟨s,label,t⟩).toList.filter fun te => te.processId=processId := by
      rw [ownHistory,history_snoc,List.filter_append,ownHistory]
    rw [hown] at h ⊢
    rcases Nat.lt_or_ge k (ownHistory events processId).length with hlt | hge
    · rw [List.getElem?_append_left hlt] at h
      rw [ih ordered.left hsettled k h,predecessor,predecessor,List.take_append_of_le_length hlt.le]
    · rw [List.getElem?_append_right hge] at h
      cases hingested : ingested ⟨s,label,t⟩ with
      | none =>
        rw [hingested] at h
        exact absurd h.symm (Option.some_ne_none _)
      | some new =>
        rw [hingested,Option.toList_some,List.filter_singleton] at h
        cases hprocess : decide (new.processId=processId) with
        | false =>
          rw [hprocess] at h
          exact absurd h.symm (Option.some_ne_none _)
        | true =>
          have hpid : new.processId=processId := of_decide_eq_true hprocess
          rw [hprocess,cond_true] at h
          have hk : k=(ownHistory events processId).length := by
            have hlen := (List.getElem?_eq_some_iff.mp h).1
            rw [List.length_singleton] at hlen
            omega
          rw [hk,Nat.sub_self] at h
          obtain rfl : new=te := Option.some.inj h
          rw [last_parent hbefore.1 hstep hbefore.2.2 hstops hkept hingested (hpid ▸ known),hpid,
            predecessor,hk,List.take_left]

/-- The times of the events of a process are the times of its calls. -/
theorem ownHistory_times {events : List CallEvent} {engine : ForensicTimelineEngine}
    {callback : Bool} (run : Run (Deterministic step) (create callback) events engine)
    (processId : ℕ) : (ownHistory events processId).map TimelineEvent.timestamp=
      events.filterMap fun e => callTime processId e.label.1 := by
  induction run with
  | nil => rfl
  | @snoc events s t label run hstep ih =>
    rw [List.filterMap_append,←ih,ownHistory,history_snoc,List.filter_append,List.map_append,
      ←ownHistory]
    congr 1
    rcases step_cases hstep with ⟨entry,te,hoffer,hreply,hrec⟩ | ⟨clock,rfl,-⟩
    · have hingested : ingested ⟨s,label,t⟩=some te := by rw [ingested,hreply]
      have htime : callTime processId label.1=
          if te.processId=processId then some te.timestamp else none := by
        rw [offered_time hoffer,hrec.linked,linkCausal_eq]
      rw [hingested,Option.toList_some,List.filter_singleton,List.filterMap_cons,htime]
      by_cases hprocess : te.processId=processId
      · rw [decide_eq_true hprocess,if_pos hprocess,cond_true,List.filterMap_nil,List.map_singleton]
      · rw [decide_eq_false hprocess,if_neg hprocess,cond_false,List.filterMap_nil,List.map_nil]
    · rfl

/-- Two histories with the same times and the parents their own histories
give have the same parents. -/
theorem sameParents_of_predecessor {first second : List TimelineEvent}
    (times : first.map TimelineEvent.timestamp=second.map TimelineEvent.timestamp)
    (hfirst : ∀ (k : ℕ) (te : TimelineEvent),first[k]?=some te →
      te.causalParent=parentNumber (predecessor first k te))
    (hsecond : ∀ (k : ℕ) (te : TimelineEvent),second[k]?=some te →
      te.causalParent=parentNumber (predecessor second k te)) : SameParents first second := by
  intro k a b ha hb
  have hparents := hfirst k a ha
  have hparents' := hsecond k b hb
  have htime : ∀ (i : ℕ) (x y : TimelineEvent),first[i]?=some x → second[i]?=some y →
      x.timestamp=y.timestamp := by
    intro i x y hx hy
    have hi := congrArg (fun xs => xs[i]?) times
    simp only [List.getElem?_map,hx,hy,Option.map_some] at hi
    exact Option.some.inj hi
  cases k with
  | zero => exact .inl ⟨hparents,hparents'⟩
  | succ j =>
    have hja := (List.getElem?_eq_some_iff.mp ha).1
    have hjb := (List.getElem?_eq_some_iff.mp hb).1
    have hx : first[j]?=some first[j] := List.getElem?_eq_getElem (by omega)
    have hy : second[j]?=some second[j] := List.getElem?_eq_getElem (by omega)
    rw [predecessor,List.getLast?_take,if_neg (by omega),Nat.add_sub_cancel,hx,Option.some_or,
      Option.filter_some] at hparents
    rw [predecessor,List.getLast?_take,if_neg (by omega),Nat.add_sub_cancel,hy,Option.some_or,
      Option.filter_some] at hparents'
    have hsame : Recent a first[j] ↔ Recent b second[j] := by
      rw [Recent,Recent,htime _ a b ha hb,htime _ _ _ hx hy]
    by_cases hrecent : Recent a first[j]
    · rw [if_pos (decide_eq_true hrecent)] at hparents
      rw [if_pos (decide_eq_true (hsame.mp hrecent))] at hparents'
      exact .inr ⟨j,_,_,by omega,hx,hy,hparents,hparents'⟩
    · rw [if_neg (by simpa using hrecent)] at hparents
      rw [if_neg (by simpa using fun h => hrecent (hsame.mpr h))] at hparents'
      exact .inl ⟨hparents,hparents'⟩

/-- A run without calls is settled. -/
theorem settled_nil : Settled [] := fun _ _ _ h =>
  absurd h.symm (List.append_ne_nil_of_right_ne_nil _ (List.cons_ne_nil _ _))

/-- A settled run stays settled with a call in which the walk stops in time
and the parent is retained. -/
theorem Settled.snoc {events : List CallEvent} {last : CallEvent} (settled : Settled events)
    (stops : Stops last) (kept : Kept events last) : Settled (events++[last]) := by
  intro first e rest hsplit
  rcases List.eq_nil_or_concat rest with rfl | ⟨init,final,rfl⟩
  · obtain ⟨rfl,hlast⟩ := List.append_inj' hsplit rfl
    obtain rfl := List.singleton_inj.mp hlast
    exact ⟨stops,kept⟩
  · rw [List.concat_eq_append,←List.cons_append,←List.append_assoc] at hsplit
    exact settled first e init (List.append_inj' hsplit rfl).1

/-- In every run with timestamps that do not fall, every event has the parent
it should have exactly when the walk stops in time in every call. Two such
runs with the same events of a process, and any events of other processes in
between, give these events the same parents, provided that the walk stops in
time and no parent was lost from the bounded log. -/
theorem causal_parent_iff {events : List CallEvent} {engine : ForensicTimelineEngine}
    {callback : Bool} (run : Run (Deterministic step) (create callback) events engine)
    (ordered : Ordered events) :
    ((∀ e ∈ events,Linked e) ↔ ∀ e ∈ events,Stops e) ∧
    ∀ {events' : List CallEvent} {engine' : ForensicTimelineEngine} {callback' : Bool},
      Run (Deterministic step) (create callback') events' engine' → Ordered events' →
      ∀ processId≠0,
      (events.filterMap fun e => callTime processId e.label.1)=
        (events'.filterMap fun e => callTime processId e.label.1) →
      Settled events → Settled events' →
        SameParents (ownHistory events processId) (ownHistory events' processId) := by
  constructor
  · have heach : ∀ e ∈ events,Linked e ↔ Stops e := by
      intro e member
      obtain ⟨first,rest,hsplit⟩ := List.append_of_mem member
      obtain ⟨hlogged,hstep,hbefore⟩ := run_before run ordered hsplit
      exact linked_iff hlogged hstep hbefore
    exact forall₂_congr heach
  · intro events' engine' callback' run' ordered' processId known times settled settled'
    refine sameParents_of_predecessor ?_ (settled_parent run ordered settled known)
      (settled_parent run' ordered' settled' known)
    rw [ownHistory_times run,ownHistory_times run',times]

/-- A threat event of a process at a time. -/
def threatAt (processId : UInt32) (time : TimePoint) : Call :=
  .ingestThreat { ThreatEvent.default with processId := processId,timestamp := time }

/-- Two events of one process, a thousand seconds apart. -/
def quietGap : List CallEvent :=
  (execute step (create true) [threatAt 7 0,threatAt 7 (seconds 1000)]).1

/-- The same with an event of another process in between. -/
def busyGap : List CallEvent :=
  (execute step (create true) [threatAt 7 0,threatAt 8 (seconds 100),threatAt 7 (seconds 1000)]).1

/-- After a quiet gap the event of the process is linked to one that is a
thousand seconds older, and an event of another process in the gap cuts the
link. -/
theorem stale_parent_linked :
    (¬∀ {events : List CallEvent} {engine : ForensicTimelineEngine} {callback : Bool},
      Run (Deterministic step) (create callback) events engine → Ordered events →
        ∀ e ∈ events,Linked e) ∧
    ¬SameParents (ownHistory quietGap 7) (ownHistory busyGap 7) := by
  constructor
  · intro hclaim
    have hordered : Ordered quietGap := by
      have htimes : (history quietGap).map TimelineEvent.timestamp=[0,seconds 1000] := rfl
      rw [Ordered,←List.pairwise_map (f := TimelineEvent.timestamp),htimes]
      decide
    have hlinked := hclaim (execute_run step (create true) _) hordered
    have hlast := hlinked _ (List.mem_cons_of_mem _ List.mem_cons_self) _ rfl (by decide)
    exact absurd hlast (by decide)
  · intro hsame
    rcases hsame 1 _ _ rfl rfl with ⟨hzero,-⟩ | ⟨j,x,y,-,-,hy,-,hparent⟩
    · exact absurd hzero (by decide)
    · have hnumbers : ∀ te ∈ ownHistory busyGap 7,te.id≠0 := by
        have hids : (ownHistory busyGap 7).map TimelineEvent.id=[1,3] := rfl
        intro te member hid
        have hmem := List.mem_map_of_mem (f := TimelineEvent.id) member
        rw [hids,hid] at hmem
        exact absurd hmem (by decide)
      exact hnumbers y (List.mem_of_getElem? hy) hparent.symm

/-- Two events of one process, ten seconds apart. -/
def closePair : List CallEvent :=
  (execute step (create true) [threatAt 7 0,threatAt 7 (seconds 10)]).1

/-- The same with an event of another process in between. -/
def interleavedPair : List CallEvent :=
  (execute step (create true) [threatAt 7 0,threatAt 8 (seconds 5),threatAt 7 (seconds 10)]).1

/-- The close pair is settled. -/
theorem closePair_settled : Settled closePair := by
  refine (settled_nil.snoc ?_ ?_).snoc ?_ ?_
  · exact fun _ _ _ it h => absurd h.symm (Option.some_ne_none _)
  · exact fun _ _ it h => absurd h.symm (Option.some_ne_none _)
  · intro entry hoffer _ it hlatest _
    obtain rfl := Option.some.inj hoffer
    obtain rfl := Option.some.inj hlatest
    exact .inl (by decide)
  · intro entry hoffer it hlatest _
    obtain rfl := Option.some.inj hoffer
    obtain rfl := Option.some.inj hlatest
    exact List.mem_cons_self

/-- The interleaved pair is settled. -/
theorem interleavedPair_settled : Settled interleavedPair := by
  refine ((settled_nil.snoc ?_ ?_).snoc ?_ ?_).snoc ?_ ?_
  · exact fun _ _ _ it h => absurd h.symm (Option.some_ne_none _)
  · exact fun _ _ it h => absurd h.symm (Option.some_ne_none _)
  · intro entry hoffer _ it hlatest _
    obtain rfl := Option.some.inj hoffer
    exact absurd hlatest.symm (Option.some_ne_none _)
  · intro entry hoffer it hlatest _
    obtain rfl := Option.some.inj hoffer
    exact absurd hlatest.symm (Option.some_ne_none _)
  · intro entry hoffer _ it hlatest _
    obtain rfl := Option.some.inj hoffer
    obtain rfl := Option.some.inj hlatest
    exact .inl (by decide)
  · intro entry hoffer it hlatest _
    obtain rfl := Option.some.inj hoffer
    obtain rfl := Option.some.inj hlatest
    exact List.mem_cons_self

/-- The pair has the same parents with and without the other process. -/
theorem causal_parent_pair :
    SameParents (ownHistory closePair 7) (ownHistory interleavedPair 7) := by
  have hclose : Ordered closePair := by
    have htimes : (history closePair).map TimelineEvent.timestamp=[0,seconds 10] := rfl
    rw [Ordered,←List.pairwise_map (f := TimelineEvent.timestamp),htimes]
    decide
  have hinterleaved : Ordered interleavedPair := by
    have htimes : (history interleavedPair).map TimelineEvent.timestamp=
        [0,seconds 5,seconds 10] := rfl
    rw [Ordered,←List.pairwise_map (f := TimelineEvent.timestamp),htimes]
    decide
  exact (causal_parent_iff (execute_run step (create true) _) hclose).2
    (execute_run step (create true) _) hinterleaved 7 (by decide) rfl closePair_settled
    interleavedPair_settled

end Gcad.CausalLinks
