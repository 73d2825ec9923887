import Gcad.ForensicTimeline

/-!
# Causal chains

An event joins the first chain that contains its parent, or opens a chain of
its own. Events and chains are evicted independently, but a chain never loses
the number of an event. In every run a chain is the list of the events added
to it, each after its parent, and its stage and level are their maxima. As
long as the event counter has not wrapped, no number is in two places.
-/

namespace Gcad.CausalChains

open Common Threat Observation StepSystem BoundedLog ForensicTimeline

/-- The chain that an event joins. -/
def joinTarget (engine : ForensicTimelineEngine) (te : TimelineEvent) : Option ℕ :=
  if te.causalParent≠0 then
    (engine.chains.find? fun chain => te.causalParent ∈ chain.eventIds).map CausalChain.chainId
  else none

/-- An event opens a chain when it joins none. -/
def Opens (te : TimelineEvent) : Prop := levelValue .medium ≤ te.level ∨ te.stage≠.unknown

instance (te : TimelineEvent) : Decidable (Opens te) := inferInstanceAs (Decidable (_ ∨ _))

/-- The number of the chain an event is added to, if any. -/
def chainOf (engine : ForensicTimelineEngine) (te : TimelineEvent) : Option ℕ :=
  (joinTarget engine te).or (if Opens te then some engine.nextChainId else none)

/-- The events ever added to a chain, in their order. -/
def added (events : List CallEvent) (chainId : ℕ) : List TimelineEvent :=
  events.filterMap fun e => (ingested e).filter fun te => chainOf e.before te=some chainId

/-- A chain is made of the events added to it. -/
structure Built (members : List TimelineEvent) (chain : CausalChain) : Prop where
  /-- The chain has their numbers. -/
  ids : chain.eventIds=members.map TimelineEvent.id
  /-- Every event after the first comes after its parent. -/
  parents : ∀ i (te : TimelineEvent),members[i+1]?=some te →
    ∃ j ≤ i,∃ parent : TimelineEvent,members[j]?=some parent ∧ te.causalParent=parent.id
  /-- Some event has the highest stage. -/
  stageReached : ∃ te ∈ members,te.stage=chain.maxStage
  /-- No event has a higher stage. -/
  stageBound : ∀ te ∈ members,te.stage.value ≤ chain.maxStage.value
  /-- Some event has the highest level. -/
  levelReached : ∃ te ∈ members,te.level=chain.maxLevel
  /-- No event has a higher level. -/
  levelBound : ∀ te ∈ members,te.level ≤ chain.maxLevel

/-- What holds of the chains in every state. -/
structure Chained (events : List CallEvent) (engine : ForensicTimelineEngine) : Prop where
  /-- The chains are numbered in the order they were opened. -/
  numbered : (engine.chains.map CausalChain.chainId).Pairwise (· < ·)
  /-- All numbers are below the next one. -/
  below : ∀ chain ∈ engine.chains,chain.chainId < engine.nextChainId
  /-- Nothing was added to chains that do not exist yet. -/
  unused : ∀ chainId,engine.nextChainId ≤ chainId → added events chainId=[]
  /-- Every chain is made of the events added to it. -/
  built : ∀ chain ∈ engine.chains,Built (added events chain.chainId) chain

/-- The first chain with the parent is extended, and no other changes. -/
theorem joinChain_eq (te : TimelineEvent) (chains : List CausalChain) :
    (joinChain te chains=none ∧
      (chains.find? fun chain => te.causalParent ∈ chain.eventIds)=none) ∨
    ∃ before chain after,chains=before++chain::after ∧ te.causalParent ∈ chain.eventIds ∧
      (chains.find? fun chain => te.causalParent ∈ chain.eventIds)=some chain ∧
      joinChain te chains=some (before++extend chain te::after) := by
  induction chains with
  | nil => exact .inl ⟨rfl,rfl⟩
  | cons head rest ih =>
    unfold joinChain
    by_cases hparent : te.causalParent ∈ head.eventIds
    · refine .inr ⟨[],head,rest,rfl,hparent,?_,?_⟩
      · rw [List.find?_cons_of_pos (by simpa using hparent)]
      · rw [if_pos hparent]
        rfl
    · rw [if_neg hparent,List.find?_cons_of_neg (by simpa using hparent)]
      rcases ih with ⟨hjoin,hfind⟩ | ⟨before,chain,after,rfl,hmem,hfind,hjoin⟩
      · exact .inl ⟨by rw [hjoin]; rfl,hfind⟩
      · refine .inr ⟨head::before,chain,after,rfl,hmem,hfind,?_⟩
        rw [hjoin]
        rfl

/-- What `update_chains` does. -/
theorem updateChains_cases (s : ForensicTimelineEngine) (te : TimelineEvent) :
    (∃ before chain after,s.chains=before++chain::after ∧ te.causalParent ∈ chain.eventIds ∧
      chainOf s te=some chain.chainId ∧ (updateChains s te).nextChainId=s.nextChainId ∧
      (updateChains s te).chains=before++extend chain te::after) ∨
    (chainOf s te=some s.nextChainId ∧ (updateChains s te).nextChainId=s.nextChainId+1 ∧
      (updateChains s te).chains=push MAX_CHAINS s.chains (openChain s.nextChainId te)) ∨
    (chainOf s te=none ∧ (updateChains s te).nextChainId=s.nextChainId ∧
      (updateChains s te).chains=s.chains) := by
  have hfresh : joinTarget s te=none →
      (if te.causalParent≠0 then joinChain te s.chains else none)=none →
      (chainOf s te=some s.nextChainId ∧ (updateChains s te).nextChainId=s.nextChainId+1 ∧
        (updateChains s te).chains=push MAX_CHAINS s.chains (openChain s.nextChainId te)) ∨
      (chainOf s te=none ∧ (updateChains s te).nextChainId=s.nextChainId ∧
        (updateChains s te).chains=s.chains) := by
    intro htarget hjoin
    unfold chainOf updateChains
    rw [htarget,hjoin,Option.none_or]
    dsimp only
    by_cases hopens : levelValue .medium ≤ te.level ∨ te.stage≠.unknown
    · exact .inl ⟨if_pos hopens,by rw [if_pos hopens],by rw [if_pos hopens]⟩
    · exact .inr ⟨if_neg hopens,by rw [if_neg hopens],by rw [if_neg hopens]⟩
  by_cases hlinked : te.causalParent≠0
  · rcases joinChain_eq te s.chains with ⟨hjoin,hfind⟩ | ⟨before,chain,after,hsplit,hmem,hfind,hjoin⟩
    · refine .inr (hfresh ?_ ?_)
      · rw [joinTarget,if_pos hlinked,hfind]
        rfl
      · rw [if_pos hlinked,hjoin]
    · refine .inl ⟨before,chain,after,hsplit,hmem,?_,?_,?_⟩
      · rw [chainOf,joinTarget,if_pos hlinked,hfind]
        rfl
      · rw [updateChains,if_pos hlinked,hjoin]
      · rw [updateChains,if_pos hlinked,hjoin]
  · exact .inr (hfresh (by rw [joinTarget,if_neg hlinked]) (if_neg hlinked))

/-- One more call and the events of a chain. -/
theorem added_snoc (events : List CallEvent) (e : CallEvent) (chainId : ℕ) :
    added (events++[e]) chainId=added events chainId++
      ((ingested e).filter fun te => chainOf e.before te=some chainId).toList := by
  rw [added,List.filterMap_append,added]
  rw [List.filterMap_cons]
  cases (ingested e).filter fun te => chainOf e.before te=some chainId with
  | none => rfl
  | some te => rfl

/-- The higher of two stages. -/
theorem maxStage_cases (a b : KillChainStage) :
    (maxStage a b=a ∧ b.value ≤ a.value) ∨ (maxStage a b=b ∧ a.value ≤ b.value) := by
  unfold maxStage
  split_ifs with hlt
  · exact .inr ⟨rfl,hlt.le⟩
  · exact .inl ⟨rfl,not_lt.mp hlt⟩

/-- The higher of two levels. -/
theorem maxLevel_cases (a b : UInt8) :
    (maxLevel a b=a ∧ b ≤ a) ∨ (maxLevel a b=b ∧ a ≤ b) := by
  unfold maxLevel
  split_ifs with hlt
  · exact .inr ⟨rfl,UInt8.le_of_lt hlt⟩
  · exact .inl ⟨rfl,UInt8.not_lt.mp hlt⟩

/-- A maximum over the members stays one when an event is added and the
higher of both values is taken. -/
theorem highest_extend {α : Type} (value : TimelineEvent → α) (le : α → α → Prop)
    (hrefl : ∀ a,le a a) (htrans : ∀ a b c,le a b → le b c → le a c)
    {members : List TimelineEvent} {te : TimelineEvent} {highest new : α}
    (reached : ∃ x ∈ members,value x=highest) (bound : ∀ x ∈ members,le (value x) highest)
    (hnew : (new=highest ∧ le (value te) highest) ∨ (new=value te ∧ le highest (value te))) :
    (∃ x ∈ members++[te],value x=new) ∧ ∀ x ∈ members++[te],le (value x) new := by
  rcases hnew with ⟨rfl,hle⟩ | ⟨rfl,hle⟩
  · obtain ⟨x,hx,hmax⟩ := reached
    refine ⟨⟨x,List.mem_append_left _ hx,hmax⟩,fun y member => ?_⟩
    rcases List.mem_append.mp member with hold | hlast
    · exact bound y hold
    · rw [List.mem_singleton.mp hlast]
      exact hle
  · refine ⟨⟨te,List.mem_append_right _ List.mem_cons_self,rfl⟩,fun y member => ?_⟩
    rcases List.mem_append.mp member with hold | hlast
    · exact htrans _ _ _ (bound y hold) hle
    · rw [List.mem_singleton.mp hlast]
      exact hrefl _

/-- An event whose parent is in the chain comes after it. -/
theorem Built.parents_extend {members : List TimelineEvent} {chain : CausalChain}
    (built : Built members chain) {te : TimelineEvent} (parent : te.causalParent ∈ chain.eventIds)
    (i : ℕ) (x : TimelineEvent) (hx : (members++[te])[i+1]?=some x) :
    ∃ j ≤ i,∃ p : TimelineEvent,(members++[te])[j]?=some p ∧ x.causalParent=p.id := by
  rcases Nat.lt_trichotomy (i+1) members.length with hlt | heq | hgt
  · rw [List.getElem?_append_left hlt] at hx
    obtain ⟨j,hj,p,hp,hparent⟩ := built.parents i x hx
    exact ⟨j,hj,p,by rw [List.getElem?_append_left (by omega),hp],hparent⟩
  · rw [heq,List.getElem?_concat_length] at hx
    rw [built.ids,List.mem_map] at parent
    obtain ⟨p,hmem,hid⟩ := parent
    obtain ⟨j,hj⟩ := List.mem_iff_getElem?.mp hmem
    have hlt := (List.getElem?_eq_some_iff.mp hj).1
    refine ⟨j,by omega,p,by rw [List.getElem?_append_left hlt,hj],?_⟩
    rw [←Option.some.inj hx,hid]
  · rw [List.getElem?_eq_none (by rw [List.length_append,List.length_singleton]; omega)] at hx
    exact absurd hx.symm (Option.some_ne_none _)

/-- Extending a chain by an event whose parent is in it. -/
theorem Built.extend {members : List TimelineEvent} {chain : CausalChain}
    (built : Built members chain) {te : TimelineEvent} (parent : te.causalParent ∈ chain.eventIds) :
    Built (members++[te]) (extend chain te) := by
  have hids : (ForensicTimeline.extend chain te).eventIds=
      (members++[te]).map TimelineEvent.id := by
    rw [List.map_append,←built.ids]
    rfl
  have hstage := highest_extend TimelineEvent.stage (fun a b => a.value ≤ b.value)
    (fun _ => le_rfl) (fun _ _ _ => Nat.le_trans) built.stageReached built.stageBound
    (maxStage_cases chain.maxStage te.stage)
  have hlevel := highest_extend TimelineEvent.level (· ≤ ·) UInt8.le_refl
    (fun _ _ _ => UInt8.le_trans) built.levelReached built.levelBound
    (maxLevel_cases chain.maxLevel te.level)
  exact ⟨hids,built.parents_extend parent,hstage.1,hstage.2,hlevel.1,hlevel.2⟩

/-- A chain of one event. -/
theorem built_openChain (chainId : ℕ) (te : TimelineEvent) :
    Built [te] (openChain chainId te) := by
  refine ⟨rfl,fun i x hx => absurd hx.symm (Option.some_ne_none _),⟨te,List.mem_cons_self,rfl⟩,?_,
    ⟨te,List.mem_cons_self,rfl⟩,?_⟩
  · intro x member
    rw [List.mem_singleton.mp member]
    exact le_rfl
  · intro x member
    rw [List.mem_singleton.mp member]
    exact UInt8.le_refl _

/-- The event of a call is added to its chain. -/
theorem added_same {events : List CallEvent} {e : CallEvent} {te : TimelineEvent} {chainId : ℕ}
    (h : ingested e=some te) (hchain : chainOf e.before te=some chainId) :
    added (events++[e]) chainId=added events chainId++[te] := by
  rw [added_snoc,h,Option.filter_some,if_pos (decide_eq_true hchain),Option.toList_some]

/-- The event of a call is not added to another chain. -/
theorem added_other {events : List CallEvent} {e : CallEvent} {chainId : ℕ}
    (h : ∀ te,ingested e=some te → chainOf e.before te≠some chainId) :
    added (events++[e]) chainId=added events chainId := by
  rw [added_snoc]
  cases hingested : ingested e with
  | none => exact List.append_nil _
  | some te =>
    rw [Option.filter_some,if_neg (by simpa using h te hingested)]
    exact List.append_nil _

/-- A chain is made of events whatever its summary says. -/
theorem Built.congr {members : List TimelineEvent} {chain other : CausalChain}
    (built : Built members chain) (hids : other.eventIds=chain.eventIds)
    (hstage : other.maxStage=chain.maxStage) (hlevel : other.maxLevel=chain.maxLevel) :
    Built members other := by
  refine ⟨hids.trans built.ids,built.parents,?_,?_,?_,?_⟩
  · rw [hstage]
    exact built.stageReached
  · rw [hstage]
    exact built.stageBound
  · rw [hlevel]
    exact built.levelReached
  · rw [hlevel]
    exact built.levelBound

/-- Reporting a chain changes its summary only. -/
theorem detectChain_same (events : List TimelineEvent) (clock : ℕ → TimePoint)
    (chain : CausalChain) :
    (detectChain events clock chain).1.chainId=chain.chainId ∧
      (detectChain events clock chain).1.eventIds=chain.eventIds ∧
      (detectChain events clock chain).1.maxStage=chain.maxStage ∧
      (detectChain events clock chain).1.maxLevel=chain.maxLevel := by
  unfold detectChain
  dsimp only
  split_ifs
  · exact ⟨rfl,rfl,rfl,rfl⟩
  · exact ⟨rfl,rfl,rfl,rfl⟩

/-- Every chain after `detect_multi_stage` was there before, up to its
summary. -/
theorem detectMultiStage_chains (s : ForensicTimelineEngine) (clock : ℕ → TimePoint) :
    (detectMultiStage s clock).1.chains=s.chains ∨
      (detectMultiStage s clock).1.chains=
        s.chains.map fun chain => (detectChain s.events clock chain).1 := by
  unfold detectMultiStage
  split_ifs
  · exact .inr rfl
  · exact .inl rfl

/-- What does not depend on the summaries is the same after
`detect_multi_stage`. -/
theorem detectMultiStage_map {α : Type} (s : ForensicTimelineEngine) (clock : ℕ → TimePoint)
    {f : CausalChain → α} (same : ∀ chain,f (detectChain s.events clock chain).1=f chain) :
    (detectMultiStage s clock).1.chains.map f=s.chains.map f := by
  rcases detectMultiStage_chains s clock with heq | heq
  · rw [heq]
  · rw [heq,List.map_map]
    exact List.map_congr_left fun chain _ => same chain

/-- The event of a call is added to no chain but its own. -/
theorem added_elsewhere {events : List CallEvent} {e : CallEvent} {te : TimelineEvent}
    {target : Option ℕ} {chainId : ℕ} (h : ingested e=some te) (htarget : chainOf e.before te=target)
    (hne : target≠some chainId) : added (events++[e]) chainId=added events chainId := by
  refine added_other fun other hsome => ?_
  rwa [←Option.some.inj (h.symm.trans hsome),htarget]

/-- A call that extends the chain with the parent. -/
theorem Chained.joined {events : List CallEvent} {e : CallEvent} {t : ForensicTimelineEngine}
    (inv : Chained events e.before) {te : TimelineEvent} (hingested : ingested e=some te)
    {before after : List CausalChain} {chain : CausalChain}
    (hsplit : e.before.chains=before++chain::after) (hmem : te.causalParent ∈ chain.eventIds)
    (htarget : chainOf e.before te=some chain.chainId)
    (hnext : t.nextChainId=e.before.nextChainId)
    (hchains : t.chains=before++extend chain te::after) : Chained (events++[e]) t := by
  have hmap : t.chains.map CausalChain.chainId=e.before.chains.map CausalChain.chainId := by
    rw [hchains,hsplit,List.map_append,List.map_append,List.map_cons,List.map_cons]
    rfl
  have hchain : chain ∈ e.before.chains := by
    rw [hsplit]
    exact List.mem_append_right _ List.mem_cons_self
  have hother : ∀ chainId≠chain.chainId,added (events++[e]) chainId=added events chainId :=
    fun chainId hne => added_elsewhere hingested htarget fun h => hne (Option.some.inj h).symm
  refine ⟨hmap ▸ inv.numbered,fun x member => ?_,fun chainId hge => ?_,fun x member => ?_⟩
  · have hx : x.chainId ∈ e.before.chains.map CausalChain.chainId :=
      hmap ▸ List.mem_map_of_mem (f := CausalChain.chainId) member
    obtain ⟨y,hy,hid⟩ := List.mem_map.mp hx
    rw [hnext,←hid]
    exact inv.below y hy
  · rw [hnext] at hge
    have hbelow := inv.below chain hchain
    rw [hother chainId (by omega)]
    exact inv.unused chainId hge
  · have hnumbered := inv.numbered
    rw [hsplit,List.map_append,List.map_cons,List.pairwise_append,List.pairwise_cons] at hnumbered
    obtain ⟨-,⟨hafter,-⟩,hbefore⟩ := hnumbered
    have hold : x ∈ e.before.chains → x.chainId≠chain.chainId →
        Built (added (events++[e]) x.chainId) x := by
      intro hmember hne
      rw [hother x.chainId hne]
      exact inv.built x hmember
    rw [hchains] at member
    rcases List.mem_append.mp member with hfront | hback
    · refine hold (by rw [hsplit]; exact List.mem_append_left _ hfront) ?_
      exact (hbefore _ (List.mem_map_of_mem hfront) _ List.mem_cons_self).ne
    · rcases List.mem_cons.mp hback with rfl | hback
      · change Built (added (events++[e]) chain.chainId) (extend chain te)
        rw [added_same hingested htarget]
        exact (inv.built chain hchain).extend hmem
      · refine hold ?_ (hafter _ (List.mem_map_of_mem hback)).ne'
        rw [hsplit]
        exact List.mem_append_right _ (List.mem_cons_of_mem _ hback)

/-- A call that opens a chain. -/
theorem Chained.opened {events : List CallEvent} {e : CallEvent} {t : ForensicTimelineEngine}
    (inv : Chained events e.before) {te : TimelineEvent} (hingested : ingested e=some te)
    (htarget : chainOf e.before te=some e.before.nextChainId)
    (hnext : t.nextChainId=e.before.nextChainId+1)
    (hchains : t.chains=push MAX_CHAINS e.before.chains (openChain e.before.nextChainId te)) :
    Chained (events++[e]) t := by
  have hsuffix : t.chains.IsSuffix (e.before.chains++[openChain e.before.nextChainId te]) := by
    rw [hchains]
    exact retain_suffix _ _
  have hcases : ∀ x ∈ t.chains,x ∈ e.before.chains ∨ x=openChain e.before.nextChainId te :=
    fun x member => (List.mem_append.mp (hsuffix.subset member)).imp_right List.mem_singleton.mp
  have hother : ∀ chainId≠e.before.nextChainId,
      added (events++[e]) chainId=added events chainId :=
    fun chainId hne => added_elsewhere hingested htarget fun h => hne (Option.some.inj h).symm
  refine ⟨?_,fun x member => ?_,fun chainId hge => ?_,fun x member => ?_⟩
  · refine List.Pairwise.sublist (hsuffix.sublist.map CausalChain.chainId) ?_
    rw [List.map_append,List.pairwise_append]
    refine ⟨inv.numbered,List.pairwise_singleton _ _,fun a ha b hb => ?_⟩
    obtain ⟨x,hx,rfl⟩ := List.mem_map.mp ha
    rw [List.mem_singleton.mp hb]
    exact inv.below x hx
  · rw [hnext]
    rcases hcases x member with hold | rfl
    · exact (inv.below x hold).trans (Nat.lt_succ_self _)
    · exact Nat.lt_succ_self _
  · rw [hnext] at hge
    rw [hother chainId (by omega)]
    exact inv.unused chainId (by omega)
  · rcases hcases x member with hold | rfl
    · rw [hother x.chainId (inv.below x hold).ne]
      exact inv.built x hold
    · change Built (added (events++[e]) e.before.nextChainId) (openChain e.before.nextChainId te)
      rw [added_same hingested htarget,inv.unused e.before.nextChainId le_rfl]
      exact built_openChain e.before.nextChainId te

/-- A call that changes no more than summaries. -/
theorem Chained.unchanged {events : List CallEvent} {e : CallEvent} {t : ForensicTimelineEngine}
    (inv : Chained events e.before) (hnone : ∀ te,ingested e=some te → chainOf e.before te=none)
    (hnext : t.nextChainId=e.before.nextChainId)
    (hmap : t.chains.map CausalChain.chainId=e.before.chains.map CausalChain.chainId)
    (hchain : ∀ x ∈ t.chains,∃ chain ∈ e.before.chains,x.chainId=chain.chainId ∧
      x.eventIds=chain.eventIds ∧ x.maxStage=chain.maxStage ∧ x.maxLevel=chain.maxLevel) :
    Chained (events++[e]) t := by
  have hsame : ∀ chainId,added (events++[e]) chainId=added events chainId := by
    intro chainId
    refine added_other fun te h => ?_
    rw [hnone te h]
    exact (Option.some_ne_none _).symm
  refine ⟨hmap ▸ inv.numbered,fun x member => ?_,fun chainId hge => ?_,fun x member => ?_⟩
  · obtain ⟨chain,hmember,hid,-⟩ := hchain x member
    rw [hnext,hid]
    exact inv.below chain hmember
  · rw [hsame]
    exact inv.unused chainId (hnext ▸ hge)
  · obtain ⟨chain,hmember,hid,hids,hstage,hlevel⟩ := hchain x member
    rw [hsame,hid]
    exact (inv.built chain hmember).congr hids hstage hlevel

/-- Every call keeps what holds of the chains. -/
theorem step_chained {events : List CallEvent} {s t : ForensicTimelineEngine}
    {label : Call×Reply} (inv : Chained events s) (h : Deterministic step s label t) :
    Chained (events++[⟨s,label,t⟩]) t := by
  rcases step_cases h with ⟨entry,te,-,hreply,hrec⟩ | ⟨clock,rfl,rfl⟩
  · have hingested : ingested ⟨s,label,t⟩=some te := by rw [ingested,hreply]
    have hnumber := hrec.nextChainId
    have hlist := hrec.chains
    rcases updateChains_cases s te with ⟨before,chain,after,hsplit,hmem,htarget,hnext,hchains⟩ |
      ⟨htarget,hnext,hchains⟩ | ⟨htarget,hnext,hchains⟩
    · exact Chained.joined (e := ⟨s,label,t⟩) inv hingested hsplit hmem htarget
        (hnumber.trans hnext) (hlist.trans hchains)
    · exact Chained.opened (e := ⟨s,label,t⟩) inv hingested htarget (hnumber.trans hnext)
        (hlist.trans hchains)
    · have hkept := hlist.trans hchains
      refine Chained.unchanged (e := ⟨s,label,t⟩) inv ?_ (hnumber.trans hnext) (by rw [hkept]) ?_
      · intro other hother
        rwa [←Option.some.inj (hingested.symm.trans hother)]
      · exact fun x member => ⟨x,hkept ▸ member,rfl,rfl,rfl,rfl⟩
  · obtain ⟨-,hnext,-,-⟩ := detectMultiStage_same s clock
    refine Chained.unchanged inv (fun _ h => absurd h.symm (Option.some_ne_none _)) hnext
      (detectMultiStage_map s clock fun chain => (detectChain_same s.events clock chain).1) ?_
    intro x member
    rcases detectMultiStage_chains s clock with heq | heq
    · exact ⟨x,heq ▸ member,rfl,rfl,rfl,rfl⟩
    · rw [heq] at member
      obtain ⟨chain,hchain,rfl⟩ := List.mem_map.mp member
      exact ⟨chain,hchain,detectChain_same s.events clock chain⟩

/-- In every run every chain is made of the events added to it. -/
theorem run_chained {events : List CallEvent} {engine : ForensicTimelineEngine} {callback : Bool}
    (run : Run (Deterministic step) (create callback) events engine) : Chained events engine :=
  run.invariant Chained ⟨List.Pairwise.nil,fun _ h => absurd h List.not_mem_nil,fun _ _ => rfl,
    fun _ h => absurd h List.not_mem_nil⟩ fun _ _ _ _ inv h => step_chained inv h

/-- No number up to a bound is in two places, and every list of numbers
grows. -/
structure Distinct (count : ℕ) (numbers : List (List UInt64)) : Prop where
  /-- No number is in two places. -/
  nodup : numbers.flatten.Nodup
  /-- The numbers of every list grow. -/
  sorted : ∀ ids ∈ numbers,ids.Pairwise (· < ·)
  /-- All numbers are within the bound. -/
  bound : ∀ ids ∈ numbers,∀ id ∈ ids,id.toNat ≤ count

/-- A new number at the end of one list. -/
theorem Distinct.grow {count : ℕ} {before after : List (List UInt64)} {ids : List UInt64}
    (distinct : Distinct count (before++ids::after)) {id : UInt64} (new : id.toNat=count+1) :
    Distinct (count+1) (before++(ids++[id])::after) := by
  have hfresh : ∀ list ∈ before++ids::after,∀ old ∈ list,old < id := by
    intro list member old hold
    have hle := distinct.bound list member old hold
    rw [UInt64.lt_iff_toNat_lt]
    omega
  have hmiddle : ids ∈ before++ids::after := List.mem_append_right _ List.mem_cons_self
  have hlist : ∀ list ∈ before++(ids++[id])::after,
      list ∈ before++ids::after ∨ list=ids++[id] := by
    intro list member
    rcases List.mem_append.mp member with hleft | hright
    · exact .inl (List.mem_append_left _ hleft)
    · rcases List.mem_cons.mp hright with rfl | hright
      · exact .inr rfl
      · exact .inl (List.mem_append_right _ (List.mem_cons_of_mem _ hright))
  refine ⟨?_,fun list member => ?_,fun list member old hold => ?_⟩
  · have hflat : (before++(ids++[id])::after).flatten=
        (before.flatten++ids)++id::after.flatten := by
      rw [List.flatten_append,List.flatten_cons,List.append_assoc,List.append_assoc,
        List.singleton_append]
    have hold : (before.flatten++ids)++after.flatten=(before++ids::after).flatten := by
      rw [List.flatten_append,List.flatten_cons,List.append_assoc]
    rw [hflat,List.nodup_middle,hold,List.nodup_cons]
    refine ⟨fun member => ?_,distinct.nodup⟩
    obtain ⟨list,hlists,hmem⟩ := List.mem_flatten.mp member
    exact absurd (hfresh list hlists id hmem) (UInt64.lt_irrefl id)
  · rcases hlist list member with hold | rfl
    · exact distinct.sorted list hold
    · refine List.pairwise_append.mpr
        ⟨distinct.sorted ids hmiddle,List.pairwise_singleton _ _,fun old hold other hother => ?_⟩
      rw [List.mem_singleton.mp hother]
      exact hfresh ids hmiddle old hold
  · rcases hlist list member with hlists | rfl
    · exact (distinct.bound list hlists old hold).trans (Nat.le_succ _)
    · rcases List.mem_append.mp hold with hmem | hlast
      · exact (distinct.bound ids hmiddle old hmem).trans (Nat.le_succ _)
      · rw [List.mem_singleton.mp hlast,new]

/-- Fewer lists and a higher bound. -/
theorem Distinct.mono {count larger : ℕ} {numbers fewer : List (List UInt64)}
    (distinct : Distinct count numbers) (hle : count ≤ larger) (sub : fewer.Sublist numbers) :
    Distinct larger fewer :=
  ⟨distinct.nodup.sublist sub.flatten,fun ids member => distinct.sorted ids (sub.subset member),
    fun ids member id hid => (distinct.bound ids (sub.subset member) id hid).trans hle⟩

/-- A list of its own for a new number. -/
theorem Distinct.opened {count : ℕ} {numbers : List (List UInt64)}
    (distinct : Distinct count numbers) {id : UInt64} (new : id.toNat=count+1) :
    Distinct (count+1) (numbers++[[id]]) := by
  have hempty : Distinct count (numbers++[[]]) := by
    refine ⟨?_,fun ids member => ?_,fun ids member old hold => ?_⟩
    · rw [List.flatten_append]
      simpa using distinct.nodup
    · rcases List.mem_append.mp member with hmem | hlast
      · exact distinct.sorted ids hmem
      · rw [List.mem_singleton.mp hlast]
        exact List.Pairwise.nil
    · rcases List.mem_append.mp member with hmem | hlast
      · exact distinct.bound ids hmem old hold
      · rw [List.mem_singleton.mp hlast] at hold
        exact absurd hold List.not_mem_nil
  exact hempty.grow new

/-- The numbers in the chains of an engine. -/
def numbers (engine : ForensicTimelineEngine) : List (List UInt64) :=
  engine.chains.map CausalChain.eventIds

/-- While the counter has not wrapped, no number is in two places. -/
theorem run_distinct {events : List CallEvent} {engine : ForensicTimelineEngine}
    {callback : Bool} (run : Run (Deterministic step) (create callback) events engine)
    (short : (history events).length < 2^64) :
    Distinct (history events).length (numbers engine) := by
  induction run with
  | nil => exact ⟨List.nodup_nil,fun _ h => absurd h List.not_mem_nil,
      fun _ h => absurd h List.not_mem_nil⟩
  | @snoc events s t label run hstep ih =>
    have hlogged := run_logged run
    rcases step_cases hstep with ⟨entry,te,-,hreply,hrec⟩ | ⟨clock,rfl,rfl⟩
    · have hingested : ingested ⟨s,label,t⟩=some te := by rw [ingested,hreply]
      have hlength : (history (events++[⟨s,label,t⟩])).length=(history events).length+1 := by
        rw [history_snoc,hingested,Option.toList_some,List.length_append,List.length_singleton]
      rw [hlength] at short ⊢
      have hid : te.id.toNat=(history events).length+1 := by
        rw [hrec.linked,linkCausal_eq,hrec.number,hlogged.next]
        exact UInt64.toNat_ofNat_of_lt' short
      have hbefore := ih (by omega)
      rcases updateChains_cases s te with ⟨before,chain,after,hsplit,-,-,-,hchains⟩ |
        ⟨-,-,hchains⟩ | ⟨-,-,hchains⟩
      · rw [numbers,hsplit,List.map_append,List.map_cons] at hbefore
        rw [numbers,hrec.chains,hchains,List.map_append,List.map_cons]
        exact hbefore.grow hid
      · rw [numbers,hrec.chains,hchains]
        refine (hbefore.opened hid).mono le_rfl ?_
        have hsub := (retain_suffix MAX_CHAINS
          (s.chains++[openChain s.nextChainId te])).sublist.map CausalChain.eventIds
        rwa [List.map_append] at hsub
      · rw [numbers,hrec.chains,hchains]
        exact hbefore.mono (Nat.le_succ _) (List.Sublist.refl _)
    · have hsame : history (events++[⟨s,(.detectMultiStage clock,
          .detected (detectMultiStage s clock).2),(detectMultiStage s clock).1⟩])=
          history events := by
        rw [history_snoc]
        exact List.append_nil _
      rw [hsame] at short ⊢
      have hnumbers : numbers (detectMultiStage s clock).1=numbers s :=
        detectMultiStage_map s clock fun chain => (detectChain_same s.events clock chain).2.1
      rw [hnumbers]
      exact ih short

/-- In every state there are at most MAX_CHAINS chains. -/
theorem run_chains_length {events : List CallEvent} {engine : ForensicTimelineEngine}
    {callback : Bool} (run : Run (Deterministic step) (create callback) events engine) :
    engine.chains.length ≤ MAX_CHAINS := by
  induction run with
  | nil => exact Nat.zero_le _
  | @snoc events s t label run hstep ih =>
    rcases step_cases hstep with ⟨entry,te,-,hreply,hrec⟩ | ⟨clock,rfl,rfl⟩
    · rw [hrec.chains]
      rcases updateChains_cases s te with ⟨before,chain,after,hsplit,-,-,-,hchains⟩ |
        ⟨-,-,hchains⟩ | ⟨-,-,hchains⟩
      · rw [hsplit] at ih
        rw [hchains]
        simpa only [List.length_append,List.length_cons] using ih
      · rw [hchains]
        exact retain_length _ _
      · rw [hchains]
        exact ih
    · rcases detectMultiStage_chains s clock with heq | heq
      · rw [heq]
        exact ih
      · rw [heq,List.length_map]
        exact ih

/-- In every run the bounds hold and every chain is made of the events ever
added to it, each after its parent, with their highest stage and level. While
fewer than `2^64` events were ingested no number is in two places, and the
numbers of every chain grow. -/
theorem chains_invariant {events : List CallEvent} {engine : ForensicTimelineEngine}
    {callback : Bool} (run : Run (Deterministic step) (create callback) events engine) :
    engine.events.length ≤ MAX_EVENTS ∧ engine.chains.length ≤ MAX_CHAINS ∧
      (∀ chain ∈ engine.chains,Built (added events chain.chainId) chain) ∧
      ((history events).length < 2^64 → (engine.chains.flatMap CausalChain.eventIds).Nodup ∧
        ∀ chain ∈ engine.chains,chain.eventIds.Pairwise (· < ·)) := by
  refine ⟨?_,run_chains_length run,(run_chained run).built,fun short => ?_⟩
  · rw [(run_logged run).retained]
    exact retain_length _ _
  · have hdistinct := run_distinct run short
    refine ⟨?_,fun chain member => hdistinct.sorted _ (List.mem_map_of_mem member)⟩
    rw [List.flatMap_def]
    exact hdistinct.nodup

/-- A threat event of no process. -/
def quietCall : Call := .ingestThreat ThreatEvent.default

/-- A high threat of a process. -/
def loudThreat : ThreatEvent :=
  { ThreatEvent.default with processId := 7,level := levelValue .high }

/-- The call that ingests it. -/
def loudCall : Call := .ingestThreat loudThreat

/-- What an ingested threat leaves. -/
theorem ingest_recorded (s : ForensicTimelineEngine) (ev : ThreatEvent) :
    ∃ te,Recorded s (step s (.ingestThreat ev)).1 (threatEntry s.nextId ev) te := by
  rcases step_cases (rfl : Deterministic step s
    (.ingestThreat ev,(step s (.ingestThreat ev)).2) _) with ⟨entry,te,hoffer,-,hrec⟩ |
      ⟨clock,hlabel,-⟩
  · rw [←Option.some.inj hoffer] at hrec
    exact ⟨te,hrec⟩
  · exact absurd (congrArg Prod.fst hlabel) nofun

/-- An event whose process has no retained event is not linked. -/
theorem linkCausal_stranger {events : List TimelineEvent} {ev : TimelineEvent}
    (stranger : ∀ it ∈ events,it.processId≠ev.processId) : linkCausal events ev=ev := by
  have hscan : ∀ newestFirst : List TimelineEvent,
      (∀ it ∈ newestFirst,it.processId≠ev.processId) → scanCausal ev newestFirst=none := by
    intro newestFirst others
    induction newestFirst with
    | nil => rfl
    | cons it rest ih =>
      unfold scanCausal
      rw [if_neg fun h => others it List.mem_cons_self h.1]
      split_ifs
      · rfl
      · exact ih fun other hother => others other (List.mem_cons_of_mem it hother)
  have hnone : causalSource events ev=none := by
    unfold causalSource
    split_ifs
    · rfl
    · exact hscan _ fun it member => stranger it (List.mem_reverse.mp member)
  rw [linkCausal,hnone]
  rfl

/-- An unlinked event opens a chain or joins none. -/
theorem updateChains_unlinked {te : TimelineEvent} (h : te.causalParent=0)
    (s : ForensicTimelineEngine) : updateChains s te=
      if Opens te then { s with
        nextChainId := s.nextChainId+1
        chains := push MAX_CHAINS s.chains (openChain s.nextChainId te) }
      else s := by
  rw [updateChains,if_neg (not_not.mpr h)]
  rfl

/-- Any number of quiet calls leaves no chain, but uses up numbers. -/
theorem quiet_run (n : ℕ) : ∃ events engine,Run (Deterministic step) (create true) events engine ∧
    engine.nextId=UInt64.ofNat (n+1) ∧ engine.chains=[] ∧ engine.nextChainId=1 ∧
    ∀ it ∈ engine.events,it.processId=0 := by
  induction n with
  | zero => exact ⟨[],create true,.nil,rfl,rfl,rfl,fun _ h => absurd h List.not_mem_nil⟩
  | succ n ih =>
    obtain ⟨events,s,run,hnext,hchains,hnumber,hpids⟩ := ih
    obtain ⟨te,hrec⟩ := ingest_recorded s ThreatEvent.default
    have hte : te=threatEntry s.nextId ThreatEvent.default := by
      have hpid : (threatEntry s.nextId ThreatEvent.default).processId=0 := rfl
      rw [hrec.linked,linkCausal,causalSource,if_pos hpid]
      rfl
    have hchain : updateChains s te=s := by
      have hcloses : ¬Opens te := by
        rw [hte]
        have hlevel : ¬levelValue .medium ≤ ThreatEvent.default.level := by decide
        have hstage : mapCategoryToStage ThreatEvent.default.category=.unknown := by decide
        exact not_or.mpr ⟨hlevel,not_not.mpr hstage⟩
      rw [updateChains_unlinked (by rw [hte]; rfl),if_neg hcloses]
    have hstep : Deterministic step s (quietCall,(step s quietCall).2) (step s quietCall).1 := rfl
    refine ⟨_,_,run.snoc hstep,?_,?_,?_,?_⟩
    · rw [quietCall,hrec.nextId,hnext,UInt64.ofNat_add (n+1)]
      rfl
    · rw [quietCall,hrec.chains,hchain,hchains]
    · rw [quietCall,hrec.nextChainId,hchain,hnumber]
    · intro it member
      rw [quietCall,hrec.events] at member
      rcases List.mem_append.mp ((retain_suffix _ _).subset member) with hold | hnew
      · exact hpids it hold
      · rw [List.mem_singleton.mp hnew,hte]
        rfl

/-- The first event of a process opens the first chain. -/
theorem loud_opens {s : ForensicTimelineEngine} {te : TimelineEvent}
    (hrec : Recorded s (step s loudCall).1 (threatEntry s.nextId loudThreat) te)
    (hpids : ∀ it ∈ s.events,it.processId=0) (hchains : s.chains=[]) (hnumber : s.nextChainId=1) :
    te=threatEntry s.nextId loudThreat ∧ (step s loudCall).1.chains=[openChain 1 te] := by
  have hte : te=threatEntry s.nextId loudThreat := by
    rw [hrec.linked]
    refine linkCausal_stranger fun it member => ?_
    rw [hpids it member]
    exact (by decide : 0≠loudThreat.processId.toNat)
  have hopens : Opens te := by
    rw [hte]
    exact .inl (by decide : levelValue .medium ≤ loudThreat.level)
  refine ⟨hte,?_⟩
  rw [hrec.chains,updateChains_unlinked (by rw [hte]; rfl),if_pos hopens]
  dsimp only
  rw [hchains,hnumber,push_nil (by decide)]

/-- After `2^64-2` quiet calls the last number and the number zero follow
each other in one chain. -/
theorem wrapped_numbers_unsorted :
    ∃ (events : List CallEvent) (engine : ForensicTimelineEngine),
      Run (Deterministic step) (create true) events engine ∧
        ¬∀ chain ∈ engine.chains,chain.eventIds.Pairwise (· < ·) := by
  obtain ⟨events,s,run,hnext,hchains,hnumber,hpids⟩ := quiet_run (2^64-2)
  obtain ⟨te,hrec⟩ := ingest_recorded s loudThreat
  obtain ⟨hte,hfirst⟩ := loud_opens hrec hpids hchains hnumber
  have hloud : Deterministic step s (loudCall,(step s loudCall).2) (step s loudCall).1 := rfl
  obtain ⟨te',hrec'⟩ := ingest_recorded (step s loudCall).1 loudThreat
  have hidLast : te.id=UInt64.ofNat (2^64-1) := by
    rw [hte]
    exact hnext
  have hnextZero : (step s loudCall).1.nextId=0 := by
    rw [loudCall,hrec.nextId,hnext]
    decide
  have hparent : te'.causalParent=te.id ∧ te'.id=0 := by
    have hknown : (threatEntry (step s loudCall).1.nextId loudThreat).processId≠0 :=
      (by decide : loudThreat.processId.toNat≠0)
    have hsource : causalSource (step s loudCall).1.events
        (threatEntry (step s loudCall).1.nextId loudThreat)=some te := by
      rw [causalSource,if_neg hknown,loudCall,hrec.events,push_reverse (by decide),scanCausal,
        if_pos ?_]
      refine ⟨by rw [hte]; rfl,?_⟩
      rw [hidLast,hrec.nextId,hnext]
      decide
    rw [hrec'.linked,linkCausal,hsource]
    exact ⟨rfl,hnextZero⟩
  have hsecond : (step (step s loudCall).1 loudCall).1.chains=
      [extend (openChain 1 te) te'] := by
    have hlinked : te'.causalParent≠0 := by
      rw [hparent.1,hidLast]
      decide
    have hmember : te'.causalParent ∈ (openChain 1 te).eventIds := by
      rw [hparent.1]
      exact List.mem_cons_self
    have hchains' : (step (step s loudCall).1 loudCall).1.chains=_ := hrec'.chains
    rw [hchains',updateChains,if_pos hlinked,hfirst,joinChain,if_pos hmember]
  have hlast : Deterministic step (step s loudCall).1
      (loudCall,(step (step s loudCall).1 loudCall).2) (step (step s loudCall).1 loudCall).1 := rfl
  refine ⟨_,_,(run.snoc hloud).snoc hlast,fun hsorted => ?_⟩
  have hpair := hsorted (extend (openChain 1 te) te') (by rw [hsecond]; exact List.mem_cons_self)
  have hids : (extend (openChain 1 te) te').eventIds=[te.id,te'.id] := rfl
  rw [hids,hidLast,hparent.2] at hpair
  exact absurd hpair (by decide)

/-- Two threats of one process make one chain. -/
theorem chains_invariant_pair :
    (execute step (create true) [loudCall,loudCall]).2.chains.length ≤ MAX_CHAINS ∧
      ∀ chain ∈ (execute step (create true) [loudCall,loudCall]).2.chains,
        chain.eventIds.Pairwise (· < ·) := by
  obtain ⟨-,hlength,-,hdistinct⟩ :=
    chains_invariant (execute_run step (create true) [loudCall,loudCall])
  exact ⟨hlength,(hdistinct (by decide)).2⟩

end Gcad.CausalChains
