import Gcad.Firewall

/-!
# Handles, default rules and ports of the firewall

`add_rule` returns the number of the rule that the sort leaves at the end of
the table. What callers do with that number is compared with what they mean:
to remove or switch the rule they added. The default rules are decided on an
empty table, and outbound packets are compared over their source ports.
-/

namespace Gcad.FirewallRules

open Common StableSort StepSystem Firewall

/-- The rules of a table, in order, without their insertions. -/
def table (engine : FirewallEngine) : List FirewallRule := engine.rules.map Entry.rule

/-- The rules that `add_rule` leaves in front of a new rule. -/
def ahead (engine : FirewallEngine) (rule : FirewallRule) : List FirewallRule :=
  (table engine).filter fun old => old.priority ≤ rule.priority

/-- The rules that `add_rule` leaves behind a new rule. -/
def behind (engine : FirewallEngine) (rule : FirewallRule) : List FirewallRule :=
  (table engine).filter fun old => ¬old.priority ≤ rule.priority

/-- A rule under the next number. -/
def numbered (engine : FirewallEngine) (rule : FirewallRule) : FirewallRule :=
  { rule with id := engine.nextRuleId }

/-- The number returned by `add_rule` is a handle: the table gained one rule,
the given one under that number, removing the number restores the table and
switching it changes that rule only. -/
def Handle (engine : FirewallEngine) (rule : FirewallRule) : Prop :=
  ∃ before after,
    table (addRule engine rule).1=before++{ rule with id := (addRule engine rule).2 }::after ∧
    table engine=before++after ∧
    table (removeRule (addRule engine rule).1 (addRule engine rule).2).1=table engine ∧
    ∀ enabled,table (enableRule (addRule engine rule).1 (addRule engine rule).2 enabled).1=
      before++{ rule with id := (addRule engine rule).2,enabled := enabled }::after

/-- The number returned is that of the new rule: no rule sorts behind it, or
the last one carries the same number. -/
def LastNumber (engine : FirewallEngine) (rule : FirewallRule) : Prop :=
  ∀ last,(table engine).getLast?=some last →
    last.priority ≤ rule.priority ∨ last.id=engine.nextRuleId

/-- The rules up to the first one under the next number. -/
def front (engine : FirewallEngine) (rule : FirewallRule) : List FirewallRule :=
  (ahead engine rule).takeWhile fun old => old.id≠engine.nextRuleId

/-- The rules in front of a new one, from the first under its number on. -/
def copies (engine : FirewallEngine) (rule : FirewallRule) : List FirewallRule :=
  (ahead engine rule).dropWhile fun old => old.id≠engine.nextRuleId

/-- A rule in front of the new one carries its number only as a copy of it,
with nothing else in between. -/
def OwnNumber (engine : FirewallEngine) (rule : FirewallRule) : Prop :=
  ∀ old ∈ copies engine rule,old=numbered engine rule

/-- A reachable table is divided at the new rule. -/
theorem table_split {engine : FirewallEngine} (h : Sorted engine) (rule : FirewallRule) :
    table engine=ahead engine rule++behind engine rule ∧
    table (addRule engine rule).1=
      ahead engine rule++numbered engine rule::behind engine rule := by
  obtain ⟨hsame,hsorted⟩ := stableSort_late
    (x := (⟨numbered engine rule,engine.inserted⟩ : Entry)) h.ordered h.past
  have hahead : ahead engine rule=(engine.rules.filter fun entry =>
      entry.priority ≤ rule.priority).map Entry.rule := List.filter_map
  have hbehind : behind engine rule=(engine.rules.filter fun entry =>
      ¬entry.priority ≤ rule.priority).map Entry.rule := List.filter_map
  rw [hahead,hbehind]
  constructor
  · rw [←List.map_append]
    exact (congrArg (List.map Entry.rule) hsame).symm
  · have hmap := congrArg (List.map Entry.rule) hsorted
    rw [List.map_append,List.map_cons] at hmap
    exact hmap

/-- The number returned by `add_rule`, on the table of rules. -/
theorem addRule_number (engine : FirewallEngine) (rule : FirewallRule) :
    (addRule engine rule).2=
      ((table (addRule engine rule).1).getLast?.map FirewallRule.id).getD 0 := by
  rw [table,List.getLast?_map,Option.map_map]
  rfl

/-- Removing a number, on the table of rules. -/
theorem table_removeRule (engine : FirewallEngine) (ruleId : UInt32) :
    table (removeRule engine ruleId).1=(table engine).eraseP fun old => old.id=ruleId := by
  rw [table,table,List.eraseP_map]
  rfl

/-- The flag is set at the first entry with the number. -/
theorem setEnabled_append {ruleId : UInt32} {before after : List Entry} {entry : Entry}
    (first : ∀ old ∈ before,old.id≠ruleId) (hid : entry.id=ruleId) (enabled : Bool) :
    setEnabled ruleId enabled (before++entry::after)=
      before++{ entry with rule := { entry.rule with enabled := enabled } }::after := by
  induction before with
  | nil =>
    rw [List.nil_append,setEnabled,if_pos hid]
    rfl
  | cons old rest ih =>
    have hrest := ih fun other hother => first other (List.mem_cons_of_mem _ hother)
    rw [List.cons_append,setEnabled,if_neg (first old List.mem_cons_self),hrest]
    rfl

/-- Switching a number whose first rule is known. -/
theorem table_enableRule {engine : FirewallEngine} {ruleId : UInt32} {before after}
    {rule : FirewallRule} (htable : table engine=before++rule::after) (hid : rule.id=ruleId)
    (first : ∀ old ∈ before,old.id≠ruleId) (enabled : Bool) :
    table (enableRule engine ruleId enabled).1=before++{ rule with enabled := enabled }::after := by
  obtain ⟨entries,rest,hrules,hbefore,hrest⟩ := List.map_eq_append_iff.mp htable
  obtain ⟨entry,later,hlater,hrule,hafter⟩ := List.map_eq_cons_iff.mp hrest
  have hentry : entry.id=ruleId := by
    rw [Entry.id,hrule]
    exact hid
  have hentries : ∀ old ∈ entries,old.id≠ruleId := by
    intro old hold
    refine first old.rule ?_
    rw [←hbefore]
    exact List.mem_map_of_mem hold
  rw [table,enableRule,hrules,hlater]
  dsimp only
  rw [setEnabled_append hentries hentry,List.map_append,List.map_cons,hbefore,hafter,hrule]

/-- The returned number is the next one exactly under `LastNumber`. -/
theorem addRule_number_iff {engine : FirewallEngine} (h : Sorted engine) (rule : FirewallRule) :
    (addRule engine rule).2=engine.nextRuleId ↔ LastNumber engine rule := by
  obtain ⟨hold,hnew⟩ := table_split h rule
  rw [addRule_number,hnew,LastNumber,hold]
  rcases List.eq_nil_or_concat (behind engine rule) with hempty | ⟨rest,last,hlast⟩
  · rw [hempty,List.getLast?_concat,List.append_nil]
    refine ⟨fun _ last hlast => .inl ?_,fun _ => rfl⟩
    have hmember := List.mem_filter.mp (List.mem_of_getLast? hlast)
    exact of_decide_eq_true hmember.2
  · have hhigh : ¬last.priority ≤ rule.priority := by
      have hmember : last ∈ behind engine rule := by
        rw [hlast,List.concat_eq_append]
        exact List.mem_concat_self
      exact of_decide_eq_true (List.mem_filter.mp hmember).2
    rw [hlast,List.concat_eq_append,←List.cons_append,←List.append_assoc,←List.append_assoc,
      List.getLast?_concat,List.getLast?_concat]
    constructor
    · rintro heq other hother
      rw [←Option.some.inj hother]
      exact .inr heq
    · intro hall
      exact (hall last rfl).resolve_left hhigh

/-- A list that moves by one place when an element is appended in place of its
head repeats that element. -/
theorem eq_of_shift {α : Type*} {a b : α} {rest : List α} (h : rest++[b]=a::rest) :
    ∀ c ∈ a::rest,c=b := by
  induction rest generalizing a with
  | nil =>
    intro c hc
    rw [List.mem_singleton.mp hc]
    exact (List.cons.inj h).1.symm
  | cons first rest ih =>
    obtain ⟨hfirst,hrest⟩ := List.cons.inj h
    intro c hc
    have htail := ih hrest
    rcases List.mem_cons.mp hc with rfl | hc
    · rw [←hfirst]
      exact htail first List.mem_cons_self
    · exact htail c hc

/-- A list of copies of one element can be entered at either end. -/
theorem shift_of_eq {α : Type*} {b : α} {copies : List α} (h : ∀ c ∈ copies,c=b) :
    copies++[b]=b::copies := by
  rw [List.eq_replicate_of_mem h,←List.replicate_succ',List.replicate_succ]

/-- The two parts of the rules in front. -/
theorem front_copies (engine : FirewallEngine) (rule : FirewallRule) :
    front engine rule++copies engine rule=ahead engine rule := List.takeWhile_append_dropWhile

/-- The first part does not use the next number. -/
theorem front_number {engine : FirewallEngine} {rule : FirewallRule} :
    ∀ old ∈ front engine rule,old.id≠engine.nextRuleId := by
  intro old hold
  have h := @List.mem_takeWhile_imp _ (fun old : FirewallRule => decide (old.id≠engine.nextRuleId))
    _ _ hold
  exact of_decide_eq_true h

/-- The second part begins with the next number. -/
theorem copies_number {engine : FirewallEngine} {rule copy : FirewallRule} {rest}
    (h : copies engine rule=copy::rest) : copy.id=engine.nextRuleId := by
  have hnot := List.head?_dropWhile_not (fun old : FirewallRule => decide (old.id≠engine.nextRuleId))
    (ahead engine rule)
  rw [copies] at h
  rw [h] at hnot
  exact not_not.mp (of_decide_eq_false hnot)

/-- Removing the next number restores the table exactly under `OwnNumber`. -/
theorem eraseP_number_iff (engine : FirewallEngine) (rule : FirewallRule) :
    ((ahead engine rule++numbered engine rule::behind engine rule).eraseP
        fun old => old.id=engine.nextRuleId)=ahead engine rule++behind engine rule ↔
      OwnNumber engine rule := by
  have hskip : ∀ old ∈ front engine rule,¬decide (old.id=engine.nextRuleId)=true := by
    intro old hold
    rw [decide_eq_true_iff]
    exact front_number old hold
  rw [OwnNumber,←front_copies,List.append_assoc,List.append_assoc,List.eraseP_append_right _ hskip,
    List.append_cancel_left_eq]
  cases hcopies : copies engine rule with
  | nil =>
    have hnew : decide ((numbered engine rule).id=engine.nextRuleId)=true := decide_eq_true rfl
    rw [List.nil_append,List.nil_append,List.eraseP_cons,hnew,cond_true]
    exact ⟨fun _ old hold => absurd hold List.not_mem_nil,fun _ => rfl⟩
  | cons copy rest =>
    have hcopy := decide_eq_true (copies_number hcopies)
    rw [List.cons_append,List.eraseP_cons,hcopy,cond_true,List.append_cons rest,
      List.append_cancel_right_eq]
    constructor
    · exact fun heq => eq_of_shift heq
    · intro hall
      have hhead := hall copy List.mem_cons_self
      rw [hhead]
      exact shift_of_eq fun old hold => hall old (List.mem_cons_of_mem _ hold)

/-- A handle carries the number of the new rule. -/
theorem Handle.number {engine : FirewallEngine} (h : Sorted engine) {rule : FirewallRule}
    (handle : Handle engine rule) : (addRule engine rule).2=engine.nextRuleId := by
  obtain ⟨before,after,hadded,hold,-,-⟩ := handle
  obtain ⟨hsplit,hnew⟩ := table_split h rule
  have hbag : ({ rule with id := (addRule engine rule).2 } : FirewallRule)::ₘ
      (table engine : Multiset FirewallRule)=numbered engine rule::ₘ (table engine : Multiset _) := by
    rw [Multiset.cons_coe,Multiset.cons_coe,Multiset.coe_eq_coe]
    have hleft : (table (addRule engine rule).1).Perm
        ({ rule with id := (addRule engine rule).2 }::table engine) := by
      rw [hadded,hold]
      exact List.perm_middle
    have hright : (table (addRule engine rule).1).Perm (numbered engine rule::table engine) := by
      rw [hnew,hsplit]
      exact List.perm_middle
    exact hleft.symm.trans hright
  exact congrArg FirewallRule.id ((Multiset.cons_inj_left _).mp hbag)

/-- In every reachable state the number returned by `add_rule` is a handle to
the added rule exactly when no rule with a greater priority value and another
number is last, and the next number is not in use by a different rule in front
of the new one. -/
theorem handle_iff {events : List CallEvent} {engine : FirewallEngine}
    (run : Run (Deterministic step) create events engine) (rule : FirewallRule) :
    Handle engine rule ↔ LastNumber engine rule ∧ OwnNumber engine rule := by
  have hsorted := run_sorted run
  obtain ⟨hold,hnew⟩ := table_split hsorted rule
  constructor
  · intro handle
    have hnumber := handle.number hsorted
    refine ⟨(addRule_number_iff hsorted rule).mp hnumber,?_⟩
    obtain ⟨before,after,-,-,hremoved,-⟩ := handle
    rw [table_removeRule,hnumber,hnew,hold] at hremoved
    exact (eraseP_number_iff engine rule).mp hremoved
  · rintro ⟨hlast,hown⟩
    have hnumber := (addRule_number_iff hsorted rule).mpr hlast
    have htable : table (addRule engine rule).1=
        front engine rule++numbered engine rule::(copies engine rule++behind engine rule) := by
      rw [←List.cons_append,←shift_of_eq hown,List.append_assoc,List.singleton_append,
        ←List.append_assoc,front_copies]
      exact hnew
    rw [Handle,hnumber]
    refine ⟨front engine rule,copies engine rule++behind engine rule,htable,?_,?_,?_⟩
    · rw [←List.append_assoc,front_copies]
      exact hold
    · rw [table_removeRule,hnew,hold]
      exact (eraseP_number_iff engine rule).mpr hown
    · exact table_enableRule htable rfl front_number

/-- A rule added behind a default rule is returned as a handle. -/
theorem handle_of_last :
    (∃ events,Run (Deterministic step) create events (recycled 0)) ∧
      Handle (recycled 0) { priority := 200 } := by
  obtain ⟨events,hrun⟩ := recycled_run (Nat.zero_le _)
  refine ⟨⟨events,hrun⟩,(handle_iff hrun _).mpr ⟨?_,?_⟩⟩
  · intro last hlast
    rw [←Option.some.inj hlast]
    exact .inl (by decide)
  · intro old hold
    exact absurd hold List.not_mem_nil

/-- A rule of priority 5 added after a default rule of priority 100 is
returned under the number of the older rule. -/
theorem handle_of_other_rule :
    (∃ events,Run (Deterministic step) create events (recycled 0)) ∧
      ¬Handle (recycled 0) { priority := 5 } := by
  obtain ⟨events,hrun⟩ := recycled_run (Nat.zero_le _)
  refine ⟨⟨events,hrun⟩,fun handle => ?_⟩
  have hsorted := run_sorted hrun
  have hlast := (addRule_number_iff hsorted _).mp (handle.number hsorted)
  rcases hlast { id := 1 } rfl with hlow | hsame
  · exact absurd hlow (by decide)
  · exact absurd hsame (by decide)

/-- The `k`-th default rule. -/
def defaultRule (k : ℕ) : FirewallRule := defaultRules.getD k {}

/-- Where the default rules stand in the sorted table. -/
def defaultOrder : List ℕ := [4,0,1,2,3,5,6,7]

/-- A rule is the one that decides a packet. -/
def DecidedBy (engine : FirewallEngine) (packet : Packet) (entry : Entry) : Prop :=
  engine.rules.find? (fun entry => accepts packet entry.rule)=some entry

/-- An address of the loopback network, 127.0.0.0/8. -/
def Loopback (ip : UInt32) : Prop := ip>>>24=127

/-- Loopback addresses are decidable. -/
instance (ip : UInt32) : Decidable (Loopback ip) := inferInstanceAs (Decidable (ip>>>24=127))

/-- What the default rules are for: from outside the loopback network nothing
reaches ports 23, 3389 and 4444 over TCP, and every rule decides a packet. -/
structure Effective (engine : FirewallEngine) : Prop where
  /-- The three ports are closed. -/
  denies : ∀ packet,packet.dir=.inbound → packet.proto=.tcp → ¬Loopback packet.srcIp →
    packet.dstPort=23 ∨ packet.dstPort=3389 ∨ packet.dstPort=4444 →
      (evaluate (installDefaultRules engine) packet).2=.deny
  /-- No rule is shadowed. -/
  decides : ∀ entry ∈ (installDefaultRules engine).rules,
    ∃ packet,DecidedBy (installDefaultRules engine) packet entry

/-- The table of default rules: the loopback rule first, the others in the
order they are written. -/
theorem installed_rules {engine : FirewallEngine} (empty : engine.rules=[]) :
    (installDefaultRules engine).rules=
      defaultOrder.map fun k => pushedEntry engine k (defaultRule k) := by
  have hpushed : (defaultRules.foldl pushRule engine).rules=
      (List.range 8).map fun k => pushedEntry engine k (defaultRule k) := by
    rw [pushAll_rules,empty,List.nil_append]
    rfl
  have hsorted : (installDefaultRules engine).rules=
      stableSort Entry.priority (defaultRules.foldl pushRule engine).rules := by
    rw [installDefaultRules,if_neg (not_not.mpr empty)]
    rfl
  rw [hsorted,hpushed]
  refine eq_of_precedes (stableSort_precedes Entry.priority Entry.insertion ?_) ?_
    ((stableSort_perm _ _).trans ?_)
  · rw [List.pairwise_map]
    exact List.pairwise_lt_range.imp fun hlt _ => Nat.add_lt_add_left hlt _
  · have hpairs : defaultOrder.Pairwise fun a b =>
        (defaultRule a).priority < (defaultRule b).priority ∨
          (defaultRule a).priority=(defaultRule b).priority ∧ a < b := by decide
    rw [List.pairwise_map]
    refine hpairs.imp fun hab => hab.imp_right fun hlow => ⟨hlow.1,?_⟩
    exact Nat.add_lt_add_left hlow.2 _
  · have hperm : (List.range 8).Perm defaultOrder := by decide
    exact hperm.map _

/-- The default rule that decides a packet. -/
theorem decidedBy_iff {engine : FirewallEngine} (empty : engine.rules=[]) (packet : Packet)
    (entry : Entry) : DecidedBy (installDefaultRules engine) packet entry ↔
      ∃ k,defaultOrder.find? (fun k => accepts packet (defaultRule k))=some k ∧
        pushedEntry engine k (defaultRule k)=entry := by
  rw [DecidedBy,installed_rules empty,List.find?_map,Option.map_eq_some_iff]
  rfl

/-- The loopback rule is found first for every inbound packet. -/
theorem find_inbound {packet : Packet} (inbound : packet.dir=.inbound) :
    defaultOrder.find? (fun k => accepts packet (defaultRule k))=some 4 := by
  have haccepts : accepts packet (defaultRule 4)=true := by
    refine (accepts_iff packet (defaultRule 4)).mpr
      ⟨rfl,inbound.symm,.inl rfl,.inl rfl,.inl rfl,UInt16.zero_le,?_⟩
    exact UInt16.le_iff_toNat_le.mpr (Nat.le_of_lt_succ packet.checkPort.toNat_lt)
  exact List.find?_cons_of_pos haccepts

/-- The default rule found for a packet allows it. -/
theorem find_allows {packet : Packet} {k : ℕ}
    (found : defaultOrder.find? (fun k => accepts packet (defaultRule k))=some k) :
    (defaultRule k).action=.allow := by
  cases hdir : packet.dir with
  | inbound =>
    rw [find_inbound hdir] at found
    rw [←Option.some.inj found]
    rfl
  | outbound =>
    have haccepts := @List.find?_some _ (fun k => accepts packet (defaultRule k)) _ _ found
    have hmatches := (accepts_iff packet (defaultRule k)).mp haccepts
    have hout : ∀ k ∈ defaultOrder,(defaultRule k).direction=.outbound →
        (defaultRule k).action=.allow := by decide
    exact hout k (List.mem_of_find?_eq_some found) (hmatches.direction.trans hdir)

/-- Every allowing default rule is found for a packet with its own direction,
protocol and port. -/
theorem find_own : ∀ k ∈ defaultOrder,(defaultRule k).action=.allow →
    defaultOrder.find? (fun j => accepts ⟨(defaultRule k).direction,(defaultRule k).protocol,0,0,
      (defaultRule k).portMin,(defaultRule k).portMin⟩ (defaultRule j))=some k := by decide

/-- The default rules allow every inbound packet. -/
theorem inbound_allowed {engine : FirewallEngine} (empty : engine.rules=[]) {packet : Packet}
    (inbound : packet.dir=.inbound) :
    (evaluate (installDefaultRules engine) packet).2=.allow := by
  have hdecided := (decidedBy_iff empty packet _).mpr ⟨4,find_inbound inbound,rfl⟩
  have haction := firstAction_eq packet (installDefaultRules engine).rules
  rw [hdecided] at haction
  exact haction

/-- On an empty table, with whatever counters, the default rules allow every
inbound packet: exactly the allowing rules decide packets, the denying ones
never do, so the set is not effective. -/
theorem default_denies_shadowed {engine : FirewallEngine} (empty : engine.rules=[]) :
    (∀ packet,packet.dir=.inbound → (evaluate (installDefaultRules engine) packet).2=.allow) ∧
    (∀ entry ∈ (installDefaultRules engine).rules,
      (∃ packet,DecidedBy (installDefaultRules engine) packet entry) ↔
        entry.rule.action=.allow) ∧
    ¬Effective engine := by
  refine ⟨fun packet => inbound_allowed empty,fun entry member => ⟨?_,?_⟩,fun effective => ?_⟩
  · rintro ⟨packet,hdecided⟩
    obtain ⟨k,hfound,rfl⟩ := (decidedBy_iff empty packet entry).mp hdecided
    exact find_allows hfound
  · intro haction
    rw [installed_rules empty] at member
    obtain ⟨k,hk,rfl⟩ := List.mem_map.mp member
    exact ⟨_,(decidedBy_iff empty _ _).mpr ⟨k,find_own k hk haction,rfl⟩⟩
  · have hdeny := effective.denies ⟨.inbound,.tcp,0,0,0,23⟩ rfl rfl (by decide) (.inl rfl)
    rw [inbound_allowed empty rfl] at hdeny
    exact absurd hdeny nofun

/-- A new engine. -/
theorem default_denies_of_create :
    create.rules=[] ∧ ∀ packet,packet.dir=.inbound →
      (evaluate (installDefaultRules create) packet).2=.allow :=
  ⟨rfl,(default_denies_shadowed rfl).1⟩

/-- A connection from 8.8.8.8 to port 3389 is allowed by the default rules. -/
theorem default_rules_not_effective : ¬Effective create := by
  intro effective
  have hdeny := effective.denies ⟨.inbound,.tcp,0x08080808,0,50000,3389⟩ rfl rfl (by decide)
    (.inr (.inl rfl))
  rw [@inbound_allowed create rfl _ rfl] at hdeny
  exact absurd hdeny nofun

/-- An outbound packet with a given source port. -/
def outbound (packet : Packet) (port : UInt16) : Packet :=
  { packet with dir := .outbound,srcPort := port }

/-- A rule that an outbound packet meets up to the port. -/
structure Candidate (packet : Packet) (r : FirewallRule) : Prop where
  /-- The rule is switched on. -/
  enabled : r.enabled=true
  /-- The rule is for outbound packets. -/
  direction : r.direction=.outbound
  /-- The protocols agree. -/
  protocol : r.protocol=.any ∨ r.protocol=packet.proto
  /-- The source address matches. -/
  source : r.srcIp=0 ∨ packet.srcIp &&& r.srcMask=r.srcIp &&& r.srcMask
  /-- The destination address matches. -/
  destination : r.dstIp=0 ∨ packet.dstIp &&& r.dstMask=r.dstIp &&& r.dstMask

/-- A port in the range of a rule. -/
def InRange (r : FirewallRule) (port : UInt16) : Prop := r.portMin ≤ port ∧ port ≤ r.portMax

/-- A candidate with a port in its range that no earlier candidate has. -/
def Exposed (rules : List Entry) (packet : Packet) (entry : Entry) : Prop :=
  Candidate packet entry.rule ∧ ∃ before after port,rules=before++entry::after ∧
    InRange entry.rule port ∧ ∀ other ∈ before,Candidate packet other.rule → ¬InRange other.rule port

/-- The source port of an outbound packet does not change its action. -/
def PortBlind (engine : FirewallEngine) (packet : Packet) : Prop :=
  ∀ p q,(evaluate engine (outbound packet p)).2=(evaluate engine (outbound packet q)).2

/-- The loop of `evaluate` compares the source port of an outbound packet. -/
theorem accepts_outbound (packet : Packet) (port : UInt16) (r : FirewallRule) :
    accepts (outbound packet port) r=true ↔ Candidate packet r ∧ InRange r port := by
  rw [accepts_iff]
  constructor
  · rintro ⟨h1,h2,h3,h4,h5,h6⟩
    exact ⟨⟨h1,h2,h3,h4,h5⟩,h6⟩
  · rintro ⟨⟨h1,h2,h3,h4,h5⟩,h6⟩
    exact ⟨h1,h2,h3,h4,h5,h6⟩

/-- The exposed rules are those that decide the packet on some source port. -/
theorem exposed_iff (rules : List Entry) (packet : Packet) (entry : Entry) :
    Exposed rules packet entry ↔
      ∃ port,rules.find? (fun entry => accepts (outbound packet port) entry.rule)=some entry := by
  constructor
  · rintro ⟨hcandidate,before,after,port,hrules,hrange,hfirst⟩
    refine ⟨port,List.find?_eq_some_iff_append.mpr
      ⟨(accepts_outbound packet port _).mpr ⟨hcandidate,hrange⟩,before,after,hrules,?_⟩⟩
    intro other member
    rw [Bool.not_eq_true',Bool.eq_false_iff]
    intro haccepts
    obtain ⟨hother,hport⟩ := (accepts_outbound packet port _).mp haccepts
    exact hfirst other member hother hport
  · rintro ⟨port,hfound⟩
    obtain ⟨haccepts,before,after,hrules,hfirst⟩ := List.find?_eq_some_iff_append.mp hfound
    obtain ⟨hcandidate,hrange⟩ := (accepts_outbound packet port _).mp haccepts
    refine ⟨hcandidate,before,after,port,hrules,hrange,fun other member hother hport => ?_⟩
    have hnot := hfirst other member
    rw [(accepts_outbound packet port _).mpr ⟨hother,hport⟩] at hnot
    exact absurd hnot Bool.false_ne_true

/-- The action on a source port: that of an exposed rule whose range has the
port, or ALLOW where no candidate has it. -/
theorem outbound_action (engine : FirewallEngine) (packet : Packet) (port : UInt16) :
    (∃ entry ∈ engine.rules,(Candidate packet entry.rule ∧ InRange entry.rule port) ∧
      Exposed engine.rules packet entry ∧
      (evaluate engine (outbound packet port)).2=entry.rule.action) ∨
    (¬∃ entry ∈ engine.rules,Candidate packet entry.rule ∧ InRange entry.rule port) ∧
      (evaluate engine (outbound packet port)).2=.allow := by
  have haction := firstAction_eq (outbound packet port) engine.rules
  cases hfound : engine.rules.find? fun entry => accepts (outbound packet port) entry.rule with
  | none =>
    rw [hfound] at haction
    refine .inr ⟨?_,haction⟩
    rintro ⟨entry,member,hmatches⟩
    exact List.find?_eq_none.mp hfound entry member ((accepts_outbound _ _ _).mpr hmatches)
  | some entry =>
    rw [hfound] at haction
    have haccepts := @List.find?_some _
      (fun entry : Entry => accepts (outbound packet port) entry.rule) _ _ hfound
    exact .inl ⟨entry,List.mem_of_find?_eq_some hfound,(accepts_outbound _ _ _).mp haccepts,
      (exposed_iff _ _ _).mpr ⟨port,hfound⟩,haction⟩

/-- The action of an exposed rule is that of some source port. -/
theorem Exposed.action {engine : FirewallEngine} {packet : Packet} {entry : Entry}
    (h : Exposed engine.rules packet entry) :
    ∃ port,(evaluate engine (outbound packet port)).2=entry.rule.action := by
  obtain ⟨port,hfound⟩ := (exposed_iff _ _ _).mp h
  have haction := firstAction_eq (outbound packet port) engine.rules
  rw [hfound] at haction
  exact ⟨port,haction⟩

/-- For every table and every outbound packet: the action is the same for all
source ports exactly when every exposed rule allows the packet, or every
exposed rule denies it and the candidates' ranges leave no port out. -/
theorem port_blind_iff (engine : FirewallEngine) (packet : Packet) :
    PortBlind engine packet ↔
      (∀ entry,Exposed engine.rules packet entry → entry.rule.action=.allow) ∨
      (∀ entry,Exposed engine.rules packet entry → entry.rule.action=.deny) ∧
        ∀ port,∃ entry ∈ engine.rules,Candidate packet entry.rule ∧ InRange entry.rule port := by
  constructor
  · intro blind
    have hexposed : ∀ entry,Exposed engine.rules packet entry →
        entry.rule.action=(evaluate engine (outbound packet 0)).2 := by
      intro entry h
      obtain ⟨port,haction⟩ := h.action
      rw [←haction]
      exact blind port 0
    cases hzero : (evaluate engine (outbound packet 0)).2 with
    | allow =>
      rw [hzero] at hexposed
      exact .inl hexposed
    | deny =>
      rw [hzero] at hexposed
      refine .inr ⟨hexposed,fun port => ?_⟩
      rcases outbound_action engine packet port with
        ⟨entry,member,hmatches,-,-⟩ | ⟨-,haction⟩
      · exact ⟨entry,member,hmatches⟩
      · rw [blind port 0,hzero] at haction
        exact absurd haction nofun
  · rintro (hallow | ⟨hdeny,hcover⟩) p q
    · have hall : ∀ port,(evaluate engine (outbound packet port)).2=.allow := by
        intro port
        rcases outbound_action engine packet port with ⟨entry,-,-,hentry,haction⟩ | ⟨-,haction⟩
        · rw [haction]
          exact hallow entry hentry
        · exact haction
      rw [hall p,hall q]
    · have hall : ∀ port,(evaluate engine (outbound packet port)).2=.deny := by
        intro port
        rcases outbound_action engine packet port with ⟨entry,-,-,hentry,haction⟩ | ⟨hnone,-⟩
        · rw [haction]
          exact hdeny entry hentry
        · exact absurd (hcover port) hnone
      rw [hall p,hall q]

/-- A rule against outbound HTTPS denies the packet whose source port is 443
and allows the one whose source port is 50000, both to port 443. -/
theorem port_not_blind :
    ¬PortBlind (addRule create
      { direction := .outbound,protocol := .tcp,portMin := 443,portMax := 443 }).1
      ⟨.outbound,.tcp,0,0,0,443⟩ := by
  intro blind
  have hrules : (addRule create
      { direction := .outbound,protocol := .tcp,portMin := 443,portMax := 443 }).1.rules=
      [⟨{ id := 1,direction := .outbound,protocol := .tcp,portMin := 443,portMax := 443 },0⟩] :=
    List.mergeSort_singleton _
  have hsame := blind 443 50000
  rw [evaluate,evaluate,hrules] at hsame
  exact absurd hsame (by decide)

end Gcad.FirewallRules
