import Gcad.CausalChains

/-!
# Multi-stage alerts

`detect_multi_stage` counts the known stages among the retained events of
every chain. That a chain was reported is remembered by a mark in its summary,
which also holds the description of the event that opened the chain. A chain
that covers three stages is reported once, at the first call that sees it,
unless that description brings the mark along.
-/

namespace Gcad.MultiStage

open Common Threat Observation StepSystem BoundedLog ForensicTimeline CausalChains

/-- The stages with a name of their own. -/
def knownStages : List KillChainStage :=
  [.reconnaissance,.weaponization,.delivery,.exploitation,.installation,.commandControl,
    .actionsOnObj]

/-- A retained event of the chain is of a stage. -/
def present (events : List TimelineEvent) (chain : CausalChain) (stage : KillChainStage) : Bool :=
  events.any fun ev => decide (ev.id ∈ chain.eventIds ∧ ev.stage=stage)

/-- The retained events of a chain cover at least three known stages. -/
def Covers (events : List TimelineEvent) (chain : CausalChain) : Prop :=
  3 ≤ knownStages.countP (present events chain)

instance (events : List TimelineEvent) (chain : CausalChain) : Decidable (Covers events chain) :=
  inferInstanceAs (Decidable (_ ≤ _))

/-- The alerts a call raised for a chain. -/
def alertsFor (chainId : ℕ) (e : CallEvent) : List (ℕ×ThreatEvent) :=
  match e.label.2 with
  | .ingested _ => []
  | .detected alerts => alerts.filter fun alert => alert.1=chainId

/-- A call of `detect_multi_stage` that finds the chain covering three
stages. -/
def CoversAt (chainId : ℕ) (e : CallEvent) : Prop :=
  (∃ clock,e.label.1=.detectMultiStage clock) ∧
    ∃ chain ∈ e.before.chains,chain.chainId=chainId ∧ Covers e.before.events chain

/-- Every chain is reported by one alert at the first call that finds it
covering three stages, and by no alert at any other call. -/
def ReportedOnce (events : List CallEvent) : Prop :=
  ∀ first e rest,events=first++e::rest → ∀ chainId,
    ((CoversAt chainId e ∧ ∀ earlier ∈ first,¬CoversAt chainId earlier) →
      (alertsFor chainId e).length=1) ∧
    (¬(CoversAt chainId e ∧ ∀ earlier ∈ first,¬CoversAt chainId earlier) →
      alertsFor chainId e=[])

/-- The number of the chain a call opened, with the description of its
event. -/
def opening (e : CallEvent) : Option (ℕ×Str) :=
  match ingested e with
  | some te =>
    if e.after.nextChainId≠e.before.nextChainId then some (e.before.nextChainId,te.description)
    else none
  | none => none

/-- All chains that were opened. -/
def openings (events : List CallEvent) : List (ℕ×Str) := events.filterMap opening

/-- No event with the mark in its description opened a chain that comes to
cover three stages. -/
def Unmarked (events : List CallEvent) : Prop :=
  ∀ chainId description,(chainId,description) ∈ openings events →
    (∃ e ∈ events,CoversAt chainId e) → ¬marker.IsInfix description

section Stages

/-- All stages, in the order of their values. -/
def allStages : List KillChainStage := .unknown::knownStages

/-- Setting the flag of a stage. -/
theorem set_stage (f : KillChainStage → Bool) (stage : KillChainStage) :
    (allStages.map f).set stage.value true=
      allStages.map fun other => f other || decide (stage=other) := by
  cases stage <;> simp [allStages,knownStages,KillChainStage.value]

/-- The loop over the events of a chain sets the flags of their stages. -/
theorem foldl_markStage (events : List TimelineEvent) (ids : List UInt64)
    (f : KillChainStage → Bool) :
    ids.foldl (markStage events) (allStages.map f)=allStages.map fun stage => f stage ||
      ids.any fun eid => (events.find? fun ev => ev.id=eid).any fun ev => ev.stage=stage := by
  induction ids generalizing f with
  | nil => simp
  | cons eid ids ih =>
    rw [List.foldl_cons,markStage]
    cases hfind : events.find? fun ev => ev.id=eid with
    | none =>
      dsimp only
      rw [ih]
      refine List.map_congr_left fun stage _ => ?_
      rw [List.any_cons,hfind,Option.any_none,Bool.false_or]
    | some ev =>
      dsimp only
      rw [set_stage,ih]
      refine List.map_congr_left fun stage _ => ?_
      rw [List.any_cons,hfind,Option.any_some,Bool.or_assoc]

/-- Events with different numbers are found by their numbers. -/
theorem any_find {events : List TimelineEvent} (distinct : (events.map TimelineEvent.id).Nodup)
    (chain : CausalChain) (stage : KillChainStage) :
    (chain.eventIds.any fun eid => (events.find? fun ev => ev.id=eid).any fun ev =>
      ev.stage=stage)=present events chain stage := by
  rw [Bool.eq_iff_iff,present,List.any_eq_true,List.any_eq_true]
  constructor
  · rintro ⟨eid,hid,hfound⟩
    cases hfind : events.find? fun ev => ev.id=eid with
    | none =>
      rw [hfind] at hfound
      exact absurd hfound nofun
    | some ev =>
      rw [hfind,Option.any_some] at hfound
      have heid : ev.id=eid := by simpa using List.find?_some hfind
      exact ⟨ev,List.mem_of_find?_eq_some hfind,
        decide_eq_true ⟨heid ▸ hid,of_decide_eq_true hfound⟩⟩
  · rintro ⟨ev,hmem,hev⟩
    obtain ⟨hid,hstage⟩ := of_decide_eq_true hev
    refine ⟨ev.id,hid,?_⟩
    cases hfind : events.find? fun other => other.id=ev.id with
    | none =>
      have hnot := List.find?_eq_none.mp hfind ev hmem
      exact absurd (decide_eq_true rfl) hnot
    | some other =>
      have hother : other.id=ev.id := by simpa using List.find?_some hfind
      have hsame : other=ev :=
        List.inj_on_of_nodup_map distinct (List.mem_of_find?_eq_some hfind) hmem hother
      rw [Option.any_some,hsame]
      exact decide_eq_true hstage

/-- `detect_multi_stage` counts the known stages of the retained events. -/
theorem distinctStages_eq {events : List TimelineEvent}
    (distinct : (events.map TimelineEvent.id).Nodup) (chain : CausalChain) :
    distinctStages events chain=knownStages.countP (present events chain) := by
  have hstart : List.replicate 8 false=allStages.map fun _ => false := rfl
  have hstages : chainStages events chain=allStages.map (present events chain) := by
    rw [chainStages,hstart,foldl_markStage]
    refine List.map_congr_left fun stage _ => ?_
    rw [Bool.false_or,any_find distinct]
  rw [distinctStages,hstages,allStages,List.map_cons,List.drop_one,List.tail_cons,List.countP_map]
  rfl

/-- The retained events have different numbers. -/
theorem retained_nodup {events : List CallEvent} {engine : ForensicTimelineEngine}
    (inv : Logged events engine) : (engine.events.map TimelineEvent.id).Nodup := by
  have hbound : engine.events.length ≤ 5000 := by
    rw [inv.retained]
    exact retain_length _ _
  rw [List.nodup_iff_getElem?_ne_getElem?]
  intro i j hij hj heq
  rw [List.length_map] at hj
  have hnumber : ∀ k (te : TimelineEvent),engine.events[k]?=some te →
      te.id=UInt64.ofNat ((history events).length-MAX_EVENTS+k+1) := by
    intro k te hte
    rw [inv.retained,retain,List.getElem?_drop] at hte
    exact inv.numbers _ te hte
  rw [List.getElem?_map,List.getElem?_map,List.getElem?_eq_getElem hj,
    List.getElem?_eq_getElem (by omega : i < engine.events.length),Option.map_some,Option.map_some,
    Option.some.injEq,hnumber i _ (List.getElem?_eq_getElem _),
    hnumber j _ (List.getElem?_eq_getElem hj)] at heq
  have hnat := congrArg UInt64.toNat heq
  rw [UInt64.toNat_ofNat',UInt64.toNat_ofNat'] at hnat
  omega

end Stages

section Marks

/-- A text that begins with a character that the front does not hold is not
found across the front. -/
theorem infix_behind {c : Char} {text front back : Str} (h : c ∉ front) :
    (c::text).IsInfix (front++back) ↔ (c::text).IsInfix back := by
  induction front with
  | nil => rfl
  | cons d front ih =>
    obtain ⟨hne,hrest⟩ := List.ne_and_not_mem_of_not_mem_cons h
    rw [List.cons_append,List.infix_cons_iff,ih hrest]
    refine or_iff_right fun hprefix => hne ?_
    exact (List.cons_prefix_cons.mp hprefix).1

/-- The text of a new chain holds the mark when the description does. -/
theorem marker_openingSummary (te : TimelineEvent) :
    marker.IsInfix (openingSummary te) ↔ marker.IsInfix te.description := by
  have hmarker : marker= '['::"MULTI-STAGE]".toList := rfl
  have hfront : ∀ stage,'[' ∉ stageName stage++": ".toList := by
    intro stage
    cases stage <;> decide
  rw [openingSummary,hmarker]
  exact infix_behind (hfront te.stage)

/-- The text of a reported chain holds the mark. -/
theorem marker_reported (summary : Str) : marker.IsInfix ("[MULTI-STAGE] ".toList++summary) :=
  ⟨[],' '::summary,rfl⟩

end Marks

section Alerts

variable {events : List CallEvent} {s : ForensicTimelineEngine} {clock : ℕ → TimePoint}

/-- What `detect_multi_stage` does to one chain: a chain that covers three
stages and is not marked gets an alert and the mark. -/
theorem detectChain_cases (distinct : (s.events.map TimelineEvent.id).Nodup)
    (clock : ℕ → TimePoint) (chain : CausalChain) :
    (Covers s.events chain ∧ ¬marker.IsInfix chain.summary ∧
      marker.IsInfix (detectChain s.events clock chain).1.summary ∧
      ∃ alert,(detectChain s.events clock chain).2=some (chain.chainId,alert)) ∨
    (¬(Covers s.events chain ∧ ¬marker.IsInfix chain.summary) ∧
      (detectChain s.events clock chain).1.summary=chain.summary ∧
      (detectChain s.events clock chain).2=none) := by
  unfold detectChain
  dsimp only
  rw [distinctStages_eq distinct]
  split_ifs with hreport
  · exact .inl ⟨hreport.1,hreport.2,marker_reported chain.summary,_,rfl⟩
  · exact .inr ⟨hreport,rfl,rfl⟩

/-- The alerts of a list of chains that carry one number. -/
theorem filter_alerts {chains : List CausalChain}
    {report : CausalChain → Option (ℕ×ThreatEvent)}
    (own : ∀ chain alert,report chain=some alert → alert.1=chain.chainId)
    (numbered : (chains.map CausalChain.chainId).Nodup) {chain : CausalChain}
    (member : chain ∈ chains) :
    (chains.filterMap report).filter (fun alert => alert.1=chain.chainId)=
      (report chain).toList := by
  have hnone : ∀ others : List CausalChain,(∀ other ∈ others,other.chainId≠chain.chainId) →
      (others.filterMap report).filter (fun alert => alert.1=chain.chainId)=[] := by
    intro others hothers
    rw [List.filter_eq_nil_iff]
    intro alert hmem
    obtain ⟨other,hother,hreport⟩ := List.mem_filterMap.mp hmem
    rw [own other alert hreport]
    simpa using hothers other hother
  obtain ⟨before,after,rfl⟩ := List.append_of_mem member
  rw [List.map_append,List.map_cons,List.nodup_middle,List.nodup_cons] at numbered
  have hothers : ∀ other,other ∈ before ∨ other ∈ after → other.chainId≠chain.chainId := by
    intro other hother heq
    refine numbered.1 ?_
    rw [←heq,List.mem_append]
    exact hother.imp List.mem_map_of_mem List.mem_map_of_mem
  rw [List.filterMap_append,List.filter_append,hnone before fun other h => hothers other (.inl h),
    List.nil_append,List.filterMap_cons]
  cases hreport : report chain with
  | none => exact hnone after fun other h => hothers other (.inr h)
  | some alert =>
    dsimp only
    rw [List.filter_cons_of_pos (by simpa using own chain alert hreport),
      hnone after fun other h => hothers other (.inr h),Option.toList_some]

/-- A report carries the number of its chain. -/
theorem detectChain_own (events : List TimelineEvent) (clock : ℕ → TimePoint)
    (chain : CausalChain) (alert : ℕ×ThreatEvent)
    (h : (detectChain events clock chain).2=some alert) : alert.1=chain.chainId := by
  unfold detectChain at h
  dsimp only at h
  split_ifs at h
  rw [←Option.some.inj h]

/-- A recorded call of `detect_multi_stage`. -/
def detection (s : ForensicTimelineEngine) (clock : ℕ → TimePoint) : CallEvent :=
  ⟨s,(.detectMultiStage clock,.detected (detectMultiStage s clock).2),(detectMultiStage s clock).1⟩

/-- The alerts for a chain of the engine. -/
theorem alertsFor_chain (installed : s.callback=true) (chained : Chained events s)
    {chain : CausalChain} (member : chain ∈ s.chains) :
    alertsFor chain.chainId (detection s clock)=
      (detectChain s.events clock chain).2.toList := by
  rw [alertsFor,detection]
  dsimp only
  rw [detectMultiStage,if_pos installed]
  exact filter_alerts (detectChain_own s.events clock) (chained.numbered.imp Nat.ne_of_lt) member

/-- No alert carries a number that no chain has. -/
theorem alertsFor_stranger {chainId : ℕ} (h : ∀ chain ∈ s.chains,chain.chainId≠chainId) :
    alertsFor chainId (detection s clock)=[] := by
  rw [alertsFor,detection]
  dsimp only
  rw [detectMultiStage]
  split_ifs
  · rw [List.filter_eq_nil_iff]
    intro alert hmem
    obtain ⟨chain,hchain,hreport⟩ := List.mem_filterMap.mp hmem
    rw [detectChain_own s.events clock chain alert hreport]
    simpa using h chain hchain
  · rfl

/-- A chain of the engine covers three stages at a call. -/
theorem coversAt_chain (chained : Chained events s) {chain : CausalChain}
    (member : chain ∈ s.chains) :
    CoversAt chain.chainId (detection s clock) ↔ Covers s.events chain := by
  constructor
  · rintro ⟨-,other,hother,hid,hcovers⟩
    have hnodup := chained.numbered.imp Nat.ne_of_lt
    rwa [List.inj_on_of_nodup_map hnodup hother member hid] at hcovers
  · exact fun hcovers => ⟨⟨clock,rfl⟩,chain,member,rfl,hcovers⟩

end Alerts

/-- What the summaries say about the calls so far. -/
structure Summaries (events : List CallEvent) (engine : ForensicTimelineEngine) : Prop where
  /-- The callback is installed. -/
  installed : engine.callback=true
  /-- Chains were opened in the order of their numbers. -/
  ordered : (openings events).Pairwise fun a b => a.1 < b.1
  /-- Only numbers below the next one were used. -/
  below : ∀ opened ∈ openings events,opened.1 < engine.nextChainId
  /-- Only chains that existed were reported. -/
  alerted : ∀ chainId,∀ e ∈ events,alertsFor chainId e≠[] → chainId < engine.nextChainId
  /-- A summary has the mark when the description had it or the chain was
  reported. -/
  marked : ∀ chain ∈ engine.chains,∃ description,(chain.chainId,description) ∈ openings events ∧
    (marker.IsInfix chain.summary ↔ marker.IsInfix description ∨
      ∃ e ∈ events,alertsFor chain.chainId e≠[])

/-- One more call and the openings. -/
theorem openings_snoc (events : List CallEvent) (e : CallEvent) :
    openings (events++[e])=openings events++(opening e).toList := by
  rw [openings,List.filterMap_append,openings,List.filterMap_cons]
  cases opening e with
  | none => rfl
  | some opened => rfl

/-- The openings of the calls before a point are openings of the run. -/
theorem openings_left {first : List CallEvent} {opened : ℕ×Str} (h : opened ∈ openings first)
    (rest : List CallEvent) : opened ∈ openings (first++rest) := by
  rw [openings,List.filterMap_append]
  exact List.mem_append_left _ h

/-- A call that reports nothing for a chain leaves its reports. -/
theorem reported_snoc {events : List CallEvent} {e : CallEvent} {chainId : ℕ}
    (quiet : alertsFor chainId e=[]) : (∃ x ∈ events++[e],alertsFor chainId x≠[]) ↔
      ∃ x ∈ events,alertsFor chainId x≠[] := by
  constructor
  · rintro ⟨x,member,halert⟩
    rcases List.mem_append.mp member with hold | hnew
    · exact ⟨x,hold,halert⟩
    · rw [List.mem_singleton.mp hnew] at halert
      exact absurd quiet halert
  · exact fun ⟨x,member,halert⟩ => ⟨x,List.mem_append_left _ member,halert⟩

/-- A call that reports nothing keeps the bound on the reported chains. -/
theorem Summaries.alerted_snoc {events : List CallEvent} {engine : ForensicTimelineEngine}
    (inv : Summaries events engine) {e : CallEvent} (quiet : ∀ chainId,alertsFor chainId e=[])
    {next : ℕ} (hle : engine.nextChainId ≤ next) (chainId : ℕ) (x : CallEvent)
    (member : x ∈ events++[e]) (halert : alertsFor chainId x≠[]) : chainId < next := by
  rcases List.mem_append.mp member with hmem | hnew
  · exact (inv.alerted chainId x hmem halert).trans_le hle
  · rw [List.mem_singleton.mp hnew] at halert
    exact absurd (quiet chainId) halert

/-- A call that opens no chain and changes no summary. -/
theorem Summaries.kept {events : List CallEvent} {e : CallEvent} {t : ForensicTimelineEngine}
    (inv : Summaries events e.before) (hcallback : t.callback=e.before.callback)
    (hopening : opening e=none) (quiet : ∀ chainId,alertsFor chainId e=[])
    (hnext : t.nextChainId=e.before.nextChainId)
    (hchains : ∀ chain ∈ t.chains,∃ other ∈ e.before.chains,
      chain.chainId=other.chainId ∧ chain.summary=other.summary) :
    Summaries (events++[e]) t := by
  have hopenings : openings (events++[e])=openings events := by
    rw [openings_snoc,hopening]
    exact List.append_nil _
  refine ⟨hcallback.trans inv.installed,hopenings ▸ inv.ordered,?_,
    inv.alerted_snoc quiet hnext.ge,?_⟩
  · rw [hopenings,hnext]
    exact inv.below
  · intro chain member
    obtain ⟨other,hother,hid,hsummary⟩ := hchains chain member
    obtain ⟨description,hmem,hmark⟩ := inv.marked other hother
    refine ⟨description,by rwa [hopenings,hid],?_⟩
    rw [reported_snoc (quiet _),hid,hsummary]
    exact hmark

/-- A call that opens a chain. -/
theorem Summaries.opened {events : List CallEvent} {e : CallEvent} {t : ForensicTimelineEngine}
    (inv : Summaries events e.before) (hcallback : t.callback=e.before.callback)
    {te : TimelineEvent} (hopening : opening e=some (e.before.nextChainId,te.description))
    (quiet : ∀ chainId,alertsFor chainId e=[]) (hnext : t.nextChainId=e.before.nextChainId+1)
    (hchains : t.chains=push MAX_CHAINS e.before.chains (openChain e.before.nextChainId te)) :
    Summaries (events++[e]) t := by
  have hopenings : openings (events++[e])=
      openings events++[(e.before.nextChainId,te.description)] := by
    rw [openings_snoc,hopening]
    rfl
  refine ⟨hcallback.trans inv.installed,?_,?_,inv.alerted_snoc quiet (by omega),?_⟩
  · rw [hopenings,List.pairwise_append]
    refine ⟨inv.ordered,List.pairwise_singleton _ _,fun opened hmem other hother => ?_⟩
    rw [List.mem_singleton.mp hother]
    exact inv.below opened hmem
  · intro opened member
    rw [hopenings] at member
    rw [hnext]
    rcases List.mem_append.mp member with hmem | hnew
    · exact (inv.below opened hmem).trans (Nat.lt_succ_self _)
    · rw [List.mem_singleton.mp hnew]
      exact Nat.lt_succ_self _
  · intro chain member
    rw [hchains] at member
    rcases List.mem_append.mp ((retain_suffix _ _).subset member) with hmem | hnew
    · obtain ⟨description,hopened,hmark⟩ := inv.marked chain hmem
      refine ⟨description,hopenings ▸ List.mem_append_left _ hopened,?_⟩
      rw [reported_snoc (quiet _)]
      exact hmark
    · rw [List.mem_singleton.mp hnew]
      refine ⟨te.description,hopenings ▸ List.mem_append_right _ List.mem_cons_self,?_⟩
      rw [reported_snoc (quiet _)]
      refine (marker_openingSummary te).trans (or_iff_left ?_).symm
      rintro ⟨x,hmem,halert⟩
      exact absurd (inv.alerted e.before.nextChainId x hmem halert) (Nat.lt_irrefl _)

/-- Ingesting an event keeps the summaries. -/
theorem ingest_summaries {events : List CallEvent} {s t : ForensicTimelineEngine}
    {label : Call×Reply} {entry te : TimelineEvent} (inv : Summaries events s)
    (hreply : label.2=.ingested te) (hrec : Recorded s t entry te) :
    Summaries (events++[⟨s,label,t⟩]) t := by
  have hquiet : ∀ chainId,alertsFor chainId ⟨s,label,t⟩=[] := by
    intro chainId
    rw [alertsFor,hreply]
  have hopening : opening ⟨s,label,t⟩=
      if t.nextChainId≠s.nextChainId then some (s.nextChainId,te.description) else none := by
    rw [opening,ingested,hreply]
  have hcallback := hrec.callback
  have hnumber := hrec.nextChainId
  have hlist := hrec.chains
  rcases updateChains_cases s te with ⟨before,chain,after,hsplit,-,-,hnext,hchains⟩ |
    ⟨-,hnext,hchains⟩ | ⟨-,hnext,hchains⟩
  · have hsame := hnumber.trans hnext
    rw [if_neg (not_not.mpr hsame)] at hopening
    refine Summaries.kept (e := ⟨s,label,t⟩) inv hcallback hopening hquiet hsame fun x member => ?_
    rw [hlist,hchains] at member
    change ∃ other ∈ s.chains,_
    rw [hsplit]
    rcases List.mem_append.mp member with hfront | hback
    · exact ⟨x,List.mem_append_left _ hfront,rfl,rfl⟩
    · rcases List.mem_cons.mp hback with rfl | hback
      · exact ⟨chain,List.mem_append_right _ List.mem_cons_self,rfl,rfl⟩
      · exact ⟨x,List.mem_append_right _ (List.mem_cons_of_mem _ hback),rfl,rfl⟩
  · have hcount : t.nextChainId=s.nextChainId+1 := hnumber.trans hnext
    rw [if_pos (by omega)] at hopening
    exact Summaries.opened (e := ⟨s,label,t⟩) inv hcallback hopening hquiet hcount
      (hlist.trans hchains)
  · have hsame := hnumber.trans hnext
    rw [if_neg (not_not.mpr hsame)] at hopening
    refine Summaries.kept (e := ⟨s,label,t⟩) inv hcallback hopening hquiet hsame fun x member => ?_
    exact ⟨x,hchains ▸ hlist ▸ member,rfl,rfl⟩

/-- Examining the chains keeps the summaries. -/
theorem detect_summaries {events : List CallEvent} {s : ForensicTimelineEngine}
    (inv : Summaries events s) (logged : Logged events s) (chained : Chained events s)
    (clock : ℕ → TimePoint) :
    Summaries (events++[detection s clock]) (detectMultiStage s clock).1 := by
  obtain ⟨-,hnext,-,hcallback⟩ := detectMultiStage_same s clock
  have hopenings : openings (events++[detection s clock])=openings events := by
    rw [openings_snoc]
    exact List.append_nil _
  have hchains : (detectMultiStage s clock).1.chains=
      s.chains.map fun chain => (detectChain s.events clock chain).1 := by
    rw [detectMultiStage,if_pos inv.installed]
  refine ⟨hcallback.trans inv.installed,hopenings ▸ inv.ordered,?_,?_,?_⟩
  · rw [hopenings,hnext]
    exact inv.below
  · intro chainId e member halert
    rw [hnext]
    rcases List.mem_append.mp member with hmem | hnew
    · exact inv.alerted chainId e hmem halert
    · rw [List.mem_singleton.mp hnew] at halert
      by_contra hge
      refine halert (alertsFor_stranger fun chain hchain heq => hge ?_)
      rw [←heq]
      exact chained.below chain hchain
  · intro chain member
    rw [hchains] at member
    obtain ⟨old,hold,rfl⟩ := List.mem_map.mp member
    obtain ⟨description,hopened,hmark⟩ := inv.marked old hold
    rw [(detectChain_same s.events clock old).1]
    refine ⟨description,hopenings ▸ hopened,?_⟩
    have halerts := @alertsFor_chain events s clock inv.installed chained old hold
    rcases detectChain_cases (retained_nodup logged) clock old with
      ⟨-,-,hmarked,alert,halert⟩ | ⟨-,hsummary,hnone⟩
    · rw [halert,Option.toList_some] at halerts
      refine ⟨fun _ => .inr ⟨_,List.mem_append_right _ List.mem_cons_self,?_⟩,fun _ => hmarked⟩
      rw [halerts]
      exact List.cons_ne_nil _ _
    · rw [hnone,Option.toList_none] at halerts
      rw [hsummary,reported_snoc halerts]
      exact hmark

/-- In every run with an installed callback the summaries say which chains
were reported. -/
theorem run_summaries {events : List CallEvent} {engine : ForensicTimelineEngine}
    (run : Run (Deterministic step) (create true) events engine) : Summaries events engine := by
  induction run with
  | nil => exact ⟨rfl,List.Pairwise.nil,fun _ h => absurd h List.not_mem_nil,
      fun _ _ h => absurd h List.not_mem_nil,fun _ h => absurd h List.not_mem_nil⟩
  | snoc run hstep ih =>
    rcases step_cases hstep with ⟨entry,te,-,hreply,hrec⟩ | ⟨clock,rfl,rfl⟩
    · exact ingest_summaries ih hreply hrec
    · exact detect_summaries ih (run_logged run) (run_chained run) clock

/-- A chain was opened by one call. -/
theorem opening_unique {events : List CallEvent} {engine : ForensicTimelineEngine}
    (inv : Summaries events engine) {chainId : ℕ} {description other : Str}
    (h : (chainId,description) ∈ openings events) (h' : (chainId,other) ∈ openings events) :
    description=other := by
  have hnodup : ((openings events).map Prod.fst).Nodup :=
    List.pairwise_map.mpr (inv.ordered.imp Nat.ne_of_lt)
  exact congrArg Prod.snd (List.inj_on_of_nodup_map hnodup h h' rfl)

/-- What a call of `detect_multi_stage` reports for a chain of the engine: one
alert when the chain covers three stages, the description of its first event
does not have the mark and no earlier call reported it. -/
theorem detection_cases {first : List CallEvent} {s : ForensicTimelineEngine}
    (run : Run (Deterministic step) (create true) first s) (clock : ℕ → TimePoint)
    {chain : CausalChain} (member : chain ∈ s.chains) :
    ∃ description,(chain.chainId,description) ∈ openings first ∧
      (((alertsFor chain.chainId (detection s clock)).length=1 ∧ Covers s.events chain ∧
        ¬marker.IsInfix description ∧ ∀ earlier ∈ first,alertsFor chain.chainId earlier=[]) ∨
      alertsFor chain.chainId (detection s clock)=[] ∧ ¬(Covers s.events chain ∧
        ¬marker.IsInfix description ∧ ∀ earlier ∈ first,alertsFor chain.chainId earlier=[])) := by
  have hinv := run_summaries run
  have halerts := @alertsFor_chain first s clock hinv.installed (run_chained run) chain member
  obtain ⟨description,hopened,hmark⟩ := hinv.marked chain member
  refine ⟨description,hopened,?_⟩
  have hnever : (¬∃ e ∈ first,alertsFor chain.chainId e≠[]) ↔
      ∀ earlier ∈ first,alertsFor chain.chainId earlier=[] := by
    simp only [not_exists,not_and,not_not]
  rcases detectChain_cases (retained_nodup (run_logged run)) clock chain with
    ⟨hcovers,hplain,-,alert,halert⟩ | ⟨hnot,-,hnone⟩
  · rw [hmark,not_or,hnever] at hplain
    refine .inl ⟨?_,hcovers,hplain⟩
    rw [halerts,halert]
    rfl
  · rw [hmark,not_or,hnever] at hnot
    refine .inr ⟨?_,hnot⟩
    rw [halerts,hnone]
    rfl

/-- A call ingests an event or examines the chains. -/
theorem event_cases {e : CallEvent} (hstep : Deterministic step e.before e.label e.after) :
    (∃ te,e.label.2=.ingested te ∧ ∀ clock,e.label.1≠.detectMultiStage clock) ∨
      ∃ clock,e=detection e.before clock := by
  rcases step_cases hstep with ⟨entry,te,hoffer,hreply,-⟩ | ⟨clock,hlabel,hafter⟩
  · refine .inl ⟨te,hreply,fun clock hlabel => ?_⟩
    rw [hlabel] at hoffer
    exact absurd hoffer nofun
  · refine .inr ⟨clock,?_⟩
    obtain ⟨s,label,t⟩ := e
    exact congrArg₂ (Event.mk s) hlabel hafter

/-- A call that finds a chain covering three stages, with what it saw. -/
theorem CoversAt.elim {e : CallEvent} {chainId : ℕ}
    (hstep : Deterministic step e.before e.label e.after) (covers : CoversAt chainId e) :
    ∃ clock,e=detection e.before clock ∧ ∃ chain ∈ e.before.chains,chain.chainId=chainId ∧
      Covers e.before.events chain := by
  obtain ⟨⟨clock,hlabel⟩,hchain⟩ := covers
  rcases event_cases hstep with ⟨te,-,hother⟩ | ⟨clock,he⟩
  · exact absurd hlabel (hother clock)
  · exact ⟨clock,he,hchain⟩

/-- A call that reports a chain finds it covering three stages. -/
theorem coversAt_of_alert {first : List CallEvent} {e : CallEvent} {chainId : ℕ}
    (run : Run (Deterministic step) (create true) first e.before)
    (hstep : Deterministic step e.before e.label e.after) (halert : alertsFor chainId e≠[]) :
    CoversAt chainId e := by
  rcases event_cases hstep with ⟨te,hreply,-⟩ | ⟨clock,he⟩
  · exact absurd (by rw [alertsFor,hreply]) halert
  · rw [he] at halert ⊢
    by_cases hknown : ∃ chain ∈ e.before.chains,chain.chainId=chainId
    · obtain ⟨chain,hchain,rfl⟩ := hknown
      obtain ⟨description,-,⟨-,hcovers,-⟩ | ⟨hnone,-⟩⟩ := detection_cases run clock hchain
      · exact (coversAt_chain (run_chained run) hchain).mpr hcovers
      · exact absurd hnone halert
    · refine absurd (alertsFor_stranger fun chain hchain heq => ?_) halert
      exact hknown ⟨chain,hchain,heq⟩

/-- In a run without marks from descriptions a chain that was found covering
three stages was reported. -/
theorem alert_of_coversAt {events : List CallEvent} {engine : ForensicTimelineEngine}
    (run : Run (Deterministic step) (create true) events engine) {chainId : ℕ}
    (plain : ∀ description,(chainId,description) ∈ openings events → ¬marker.IsInfix description)
    (covers : ∃ e ∈ events,CoversAt chainId e) : ∃ e ∈ events,alertsFor chainId e≠[] := by
  obtain ⟨e,member,hcovers⟩ := covers
  by_contra hnever
  simp only [not_exists,not_and,not_not] at hnever
  obtain ⟨first,rest,rfl⟩ := List.append_of_mem member
  obtain ⟨hbefore,hstep,-⟩ := run.event_step
  obtain ⟨clock,he,chain,hchain,rfl,hcovered⟩ := CoversAt.elim hstep hcovers
  obtain ⟨description,hopened,⟨hlength,-⟩ | ⟨-,hnot⟩⟩ := detection_cases hbefore clock hchain
  · have hnone := hnever e member
    rw [he] at hnone
    rw [hnone] at hlength
    exact absurd hlength nofun
  · exact hnot ⟨hcovered,plain description (openings_left hopened _),
      fun earlier hearlier => hnever earlier (List.mem_append_left _ hearlier)⟩

/-- The first element of a list that satisfies a condition. -/
theorem exists_first {α : Type*} {p : α → Prop} {xs : List α} (h : ∃ x ∈ xs,p x) :
    ∃ before x after,xs=before++x::after ∧ p x ∧ ∀ y ∈ before,¬p y := by
  classical
  obtain ⟨x,member,hx⟩ := h
  cases hfind : xs.find? fun x => decide (p x) with
  | none => exact absurd (decide_eq_true hx) (List.find?_eq_none.mp hfind x member)
  | some y =>
    obtain ⟨hy,before,after,hsplit,hbefore⟩ := List.find?_eq_some_iff_append.mp hfind
    refine ⟨before,y,after,hsplit,of_decide_eq_true hy,fun z hz => ?_⟩
    simpa using hbefore z hz

/-- In every run with an installed callback every chain is reported exactly
once, at the first call of `detect_multi_stage` that finds three known stages
among its retained events, exactly when no chain that comes to cover three
stages was opened by an event with the mark in its description. -/
theorem reported_once_iff {events : List CallEvent} {engine : ForensicTimelineEngine}
    (run : Run (Deterministic step) (create true) events engine) :
    ReportedOnce events ↔ Unmarked events := by
  have hinv := run_summaries run
  constructor
  · intro honce chainId description hopened hcovers hmark
    obtain ⟨first,e,rest,rfl,hcover,hfirst⟩ := exists_first hcovers
    obtain ⟨hbefore,hstep,-⟩ := run.event_step
    have hlength := (honce first e rest rfl chainId).1 ⟨hcover,hfirst⟩
    obtain ⟨clock,he,chain,hchain,rfl,hcovered⟩ := CoversAt.elim hstep hcover
    obtain ⟨other,hother,⟨-,-,hplain,-⟩ | ⟨hnone,-⟩⟩ := detection_cases hbefore clock hchain
    · rw [opening_unique hinv hopened (openings_left hother _)] at hmark
      exact hplain hmark
    · rw [he,hnone] at hlength
      exact absurd hlength nofun
  · rintro hunmarked first e rest rfl chainId
    obtain ⟨hbefore,hstep,-⟩ := run.event_step
    constructor
    · rintro ⟨hcovers,hfirst⟩
      obtain ⟨clock,he,chain,hchain,rfl,hcovered⟩ := CoversAt.elim hstep hcovers
      obtain ⟨description,hopened,⟨hlength,-⟩ | ⟨-,hnot⟩⟩ := detection_cases hbefore clock hchain
      · rwa [he]
      · refine absurd ⟨hcovered,?_,fun earlier hearlier => ?_⟩ hnot
        · exact hunmarked _ description (openings_left hopened _)
            ⟨e,List.mem_append_right _ List.mem_cons_self,hcovers⟩
        · by_contra halert
          obtain ⟨before,after,hsplit⟩ := List.append_of_mem hearlier
          rw [hsplit] at hbefore
          obtain ⟨hearly,hearlyStep,-⟩ := hbefore.event_step
          exact hfirst earlier hearlier (coversAt_of_alert hearly hearlyStep halert)
    · intro hnot
      by_contra halert
      have hcovers := coversAt_of_alert hbefore hstep halert
      obtain ⟨clock,he,chain,hchain,rfl,hcovered⟩ := CoversAt.elim hstep hcovers
      obtain ⟨description,hopened,⟨-,-,-,hnever⟩ | ⟨hnone,-⟩⟩ :=
        detection_cases hbefore clock hchain
      · refine hnot ⟨hcovers,fun earlier hearlier hearly => ?_⟩
        have hplain : ∀ other,(chain.chainId,other) ∈ openings first →
            ¬marker.IsInfix other := fun other hmem => hunmarked _ other (openings_left hmem _)
          ⟨e,List.mem_append_right _ List.mem_cons_self,hcovers⟩
        obtain ⟨x,hx,hxalert⟩ := alert_of_coversAt hbefore hplain ⟨earlier,hearlier,hearly⟩
        exact hxalert (hnever x hx)
      · rw [he] at halert
        exact halert hnone

/-- A high threat of one process. -/
def attack (category : ThreatCategory) (description : Str) : Call :=
  .ingestThreat { ThreatEvent.default with
    processId := 7
    level := levelValue .high
    category := category.value
    description := description }

/-- An attack in three stages and one call of `detect_multi_stage`. -/
def staged (description : Str) : List Call :=
  [attack .networkScan description,attack .synFlood [],attack .ransomware [],
    .detectMultiStage fun _ => 0]

/-- The attack whose first description holds the mark is never reported. -/
theorem marked_attack_unreported :
    ¬∀ {events : List CallEvent} {engine : ForensicTimelineEngine},
      Run (Deterministic step) (create true) events engine → ReportedOnce events := by
  intro hclaim
  have honce := hclaim (execute_run step (create true) (staged marker))
  have hlast := (honce ((execute step (create true) (staged marker)).1.take 3) _ [] rfl 1).1
    ⟨⟨⟨fun _ => 0,rfl⟩,_,List.mem_cons_self,rfl,by decide⟩,?_⟩
  · exact absurd hlast (by decide)
  · have hcalls : ∀ earlier ∈ (execute step (create true) (staged marker)).1.take 3,
        ∃ ev,earlier.label.1=.ingestThreat ev := by
      intro earlier member
      rcases List.mem_cons.mp member with rfl | member
      · exact ⟨_,rfl⟩
      · rcases List.mem_cons.mp member with rfl | member
        · exact ⟨_,rfl⟩
        · rw [List.mem_singleton.mp member]
          exact ⟨_,rfl⟩
    rintro earlier member ⟨⟨clock,hlabel⟩,-⟩
    obtain ⟨ev,hingest⟩ := hcalls earlier member
    rw [hingest] at hlabel
    exact absurd hlabel nofun

/-- The same attack with an empty description. -/
theorem plain_attack_reported :
    ReportedOnce (execute step (create true) (staged [])).1 ↔
      Unmarked (execute step (create true) (staged [])).1 :=
  reported_once_iff (execute_run step (create true) (staged []))

end Gcad.MultiStage
