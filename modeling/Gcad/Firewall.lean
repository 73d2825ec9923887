import Gcad.Common
import Gcad.StableSort
import Gcad.StepSystem

/-!
# The firewall engine

Rule table and packet decision of firewall_engine.cpp. Every public call runs
under one mutex and is one step. Each rule in the table carries the number of
its insertion, which the source does not store: it is what "in insertion
order" refers to. Rule numbers are 32-bit words and `next_rule_id_` wraps.
-/

namespace Gcad.Firewall

open Common StableSort StepSystem

/-- `FirewallDirection`. -/
inductive FirewallDirection where
  | inbound
  | outbound
  deriving DecidableEq

/-- `FirewallAction`. -/
inductive FirewallAction where
  | allow
  | deny
  deriving DecidableEq

/-- `FirewallProto`. -/
inductive FirewallProto where
  | any
  | tcp
  | udp
  | icmp
  deriving DecidableEq

/-- `FirewallRule` with its default values. -/
structure FirewallRule where
  /-- Its number, assigned by the engine. -/
  id : UInt32 := 0
  /-- Its name. -/
  label : Str := []
  /-- The direction of the packets it is about. -/
  direction : FirewallDirection := .inbound
  /-- What happens to them. -/
  action : FirewallAction := .deny
  /-- Their protocol, or any. -/
  protocol : FirewallProto := .any
  /-- The source address; zero matches every address. -/
  srcIp : UInt32 := 0
  /-- The bits of the source address that count, none for every source. -/
  srcMask : UInt32 := 0
  /-- The destination address; zero matches every address. -/
  dstIp : UInt32 := 0
  /-- The bits of the destination address that count, none for every destination. -/
  dstMask : UInt32 := 0
  /-- The lowest port. -/
  portMin : UInt16 := 0
  /-- The highest port. -/
  portMax : UInt16 := 65535
  /-- Switched on. -/
  enabled : Bool := true
  /-- Rules of lower values come first. -/
  priority : ℤ := 100

/-- A rule in the table. -/
structure Entry where
  /-- What the caller asked for. -/
  rule : FirewallRule
  /-- The number of its insertion. -/
  insertion : ℕ

/-- The priority of an entry. -/
def Entry.priority (entry : Entry) : ℤ := entry.rule.priority

/-- The number of the rule of an entry. -/
def Entry.id (entry : Entry) : UInt32 := entry.rule.id

/-- The arguments of `evaluate`. -/
structure Packet where
  /-- In or out. -/
  dir : FirewallDirection
  /-- Its protocol. -/
  proto : FirewallProto
  /-- Where it comes from. -/
  srcIp : UInt32
  /-- Where it goes. -/
  dstIp : UInt32
  /-- The port it comes from. -/
  srcPort : UInt16
  /-- The port it goes to. -/
  dstPort : UInt16

/-- The state of a `FirewallEngine`, as far as the calls below use it. -/
structure FirewallEngine where
  /-- The rules in the order they are tried. -/
  rules : List Entry
  /-- The number of the next rule, which wraps. -/
  nextRuleId : UInt32
  /-- Packets let through. -/
  totalAllowed : UInt64
  /-- Packets dropped. -/
  totalDenied : UInt64
  /-- Packets seen. -/
  eventsProcessed : UInt64
  /-- Insertions so far. -/
  inserted : ℕ

/-- A new engine. -/
def create : FirewallEngine := ⟨[],1,0,0,0,0⟩

/-- `std::stable_sort` by priority. -/
def sortRules (rules : List Entry) : List Entry := stableSort Entry.priority rules

/-- Give a rule the next number and append it. -/
def pushRule (engine : FirewallEngine) (rule : FirewallRule) : FirewallEngine :=
  { engine with
    rules := engine.rules++[⟨{ rule with id := engine.nextRuleId },engine.inserted⟩]
    nextRuleId := engine.nextRuleId+1
    inserted := engine.inserted+1 }

/-- `add_rule`. It returns the number of the last rule of the sorted table. -/
def addRule (engine : FirewallEngine) (rule : FirewallRule) : FirewallEngine×UInt32 :=
  let pushed := pushRule engine rule
  let sorted := sortRules pushed.rules
  ({ pushed with rules := sorted },(sorted.getLast?.map Entry.id).getD 0)

/-- `remove_rule`. -/
def removeRule (engine : FirewallEngine) (ruleId : UInt32) : FirewallEngine×Bool :=
  ({ engine with rules := engine.rules.eraseP fun entry => entry.id=ruleId },
    engine.rules.any fun entry => entry.id=ruleId)

/-- Set the flag of the first rule with a number. -/
def setEnabled (ruleId : UInt32) (enabled : Bool) : List Entry → List Entry
  | [] => []
  | entry::rest =>
    if entry.id=ruleId then { entry with rule := { entry.rule with enabled := enabled } }::rest
    else entry::setEnabled ruleId enabled rest

/-- `enable_rule`. -/
def enableRule (engine : FirewallEngine) (ruleId : UInt32) (enabled : Bool) :
    FirewallEngine×Bool :=
  ({ engine with rules := setEnabled ruleId enabled engine.rules },
    engine.rules.any fun entry => entry.id=ruleId)

/-- The rules `install_default_rules` adds, in order. -/
def defaultRules : List FirewallRule :=
  [{ label := "Allow DNS out".toList,direction := .outbound,action := .allow,protocol := .udp,
     portMin := 53,portMax := 53,priority := 10 },
   { label := "Allow HTTP out".toList,direction := .outbound,action := .allow,protocol := .tcp,
     portMin := 80,portMax := 80,priority := 10 },
   { label := "Allow HTTPS out".toList,direction := .outbound,action := .allow,protocol := .tcp,
     portMin := 443,portMax := 443,priority := 10 },
   { label := "Allow DHCP out".toList,direction := .outbound,action := .allow,protocol := .udp,
     portMin := 67,portMax := 68,priority := 10 },
   { label := "Allow loopback in".toList,direction := .inbound,action := .allow,protocol := .any,
     portMin := 0,portMax := 65535,priority := 5 },
   { label := "Deny known bad ports in".toList,direction := .inbound,action := .deny,
     protocol := .tcp,portMin := 4444,portMax := 4444,priority := 20 },
   { label := "Deny Telnet in".toList,direction := .inbound,action := .deny,protocol := .tcp,
     portMin := 23,portMax := 23,priority := 20 },
   { label := "Deny RDP brute in".toList,direction := .inbound,action := .deny,protocol := .tcp,
     portMin := 3389,portMax := 3389,priority := 30 }]

/-- `install_default_rules`. -/
def installDefaultRules (engine : FirewallEngine) : FirewallEngine :=
  if engine.rules≠[] then engine
  else
    let pushed := defaultRules.foldl pushRule engine
    { pushed with rules := sortRules pushed.rules }

/-- `check_port`. -/
def Packet.checkPort (packet : Packet) : UInt16 :=
  if packet.dir=.inbound then packet.dstPort else packet.srcPort

/-- One pass through the body of the loop of `evaluate`: false where it
continues with the next rule. -/
def accepts (packet : Packet) (r : FirewallRule) : Bool :=
  if r.enabled=false then false
  else if r.direction≠packet.dir then false
  else if r.protocol≠.any ∧ r.protocol≠packet.proto then false
  else if r.srcIp≠0 ∧ packet.srcIp &&& r.srcMask≠r.srcIp &&& r.srcMask then false
  else if r.dstIp≠0 ∧ packet.dstIp &&& r.dstMask≠r.dstIp &&& r.dstMask then false
  else if r.portMin≠0 ∨ r.portMax≠65535 then
    if packet.checkPort < r.portMin ∨ r.portMax < packet.checkPort then false else true
  else true

/-- The action of the first accepting rule. -/
def firstAction (packet : Packet) : List Entry → FirewallAction
  | [] => .allow
  | entry::rest => if accepts packet entry.rule then entry.rule.action else firstAction packet rest

/-- `evaluate`. -/
def evaluate (engine : FirewallEngine) (packet : Packet) : FirewallEngine×FirewallAction :=
  let action := firstAction packet engine.rules
  let counted := { engine with eventsProcessed := engine.eventsProcessed+1 }
  (if action=.allow then { counted with totalAllowed := counted.totalAllowed+1 }
   else { counted with totalDenied := counted.totalDenied+1 },action)

/-- One public call. -/
inductive Call where
  | addRule (rule : FirewallRule)
  | removeRule (ruleId : UInt32)
  | enableRule (ruleId : UInt32) (enabled : Bool)
  | installDefaultRules
  | evaluate (packet : Packet)

/-- What a call returns. -/
inductive Reply where
  | ruleId (value : UInt32)
  | found (value : Bool)
  | done
  | action (value : FirewallAction)

/-- The effect and the result of a call. -/
def step (engine : FirewallEngine) : Call → FirewallEngine×Reply
  | .addRule rule => ((addRule engine rule).1,.ruleId (addRule engine rule).2)
  | .removeRule ruleId => ((removeRule engine ruleId).1,.found (removeRule engine ruleId).2)
  | .enableRule ruleId enabled =>
    ((enableRule engine ruleId enabled).1,.found (enableRule engine ruleId enabled).2)
  | .installDefaultRules => (installDefaultRules engine,.done)
  | .evaluate packet => ((evaluate engine packet).1,.action (evaluate engine packet).2)

/-- A recorded call. -/
abbrev CallEvent := Event FirewallEngine (Call×Reply)

/-- A rule that matches a packet: enabled, of the packet's direction and
protocol, with both addresses equal under the rule's masks and the checked
port in the rule's range. -/
structure Matches (packet : Packet) (r : FirewallRule) : Prop where
  /-- The rule is switched on. -/
  enabled : r.enabled=true
  /-- The directions agree. -/
  direction : r.direction=packet.dir
  /-- The protocols agree. -/
  protocol : r.protocol=.any ∨ r.protocol=packet.proto
  /-- The source address matches. -/
  source : r.srcIp=0 ∨ packet.srcIp &&& r.srcMask=r.srcIp &&& r.srcMask
  /-- The destination address matches. -/
  destination : r.dstIp=0 ∨ packet.dstIp &&& r.dstMask=r.dstIp &&& r.dstMask
  /-- The port is in range. -/
  port : r.portMin ≤ packet.checkPort ∧ packet.checkPort ≤ r.portMax

/-- An action is the right decision: it is that of the matching rule that is
least by priority and insertion, or ALLOW when no rule matches. -/
def Decides (rules : List Entry) (packet : Packet) (action : FirewallAction) : Prop :=
  (∃ entry ∈ rules,Matches packet entry.rule ∧ action=entry.rule.action ∧
    ∀ other ∈ rules,Matches packet other.rule → other=entry ∨
      Precedes Entry.priority Entry.insertion entry other) ∨
  (∀ entry ∈ rules,¬Matches packet entry.rule) ∧ action=.allow

/-- The table is sorted by priority, with insertion order among equals. -/
def Ordered (rules : List Entry) : Prop := rules.Pairwise (Precedes Entry.priority Entry.insertion)

/-- The rule numbers are pairwise distinct. -/
def DistinctIds (rules : List Entry) : Prop := (rules.map Entry.id).Nodup

/-- The loop body accepts exactly the matching rules. -/
theorem accepts_iff (packet : Packet) (r : FirewallRule) :
    accepts packet r=true ↔ Matches packet r := by
  constructor
  · intro h
    unfold accepts at h
    split_ifs at h with h1 h2 h3 h4 h5 h6 h7
    · exact ⟨Bool.eq_true_of_not_eq_false h1,not_not.mp h2,or_iff_not_and_not.mpr h3,
        or_iff_not_and_not.mpr h4,or_iff_not_and_not.mpr h5,
        UInt16.not_lt.mp fun hlt => h7 (.inl hlt),UInt16.not_lt.mp fun hlt => h7 (.inr hlt)⟩
    · obtain ⟨hmin,hmax⟩ := not_or.mp h6
      refine ⟨Bool.eq_true_of_not_eq_false h1,not_not.mp h2,or_iff_not_and_not.mpr h3,
        or_iff_not_and_not.mpr h4,or_iff_not_and_not.mpr h5,?_,?_⟩
      · rw [not_not.mp hmin]
        exact UInt16.zero_le
      · rw [not_not.mp hmax]
        exact UInt16.le_iff_toNat_le.mpr (Nat.le_of_lt_succ packet.checkPort.toNat_lt)
  · rintro ⟨h1,h2,h3,h4,h5,h6,h7⟩
    unfold accepts
    rw [if_neg (by rw [h1]; exact nofun),if_neg (not_not.mpr h2),
      if_neg (or_iff_not_and_not.mp h3),if_neg (or_iff_not_and_not.mp h4),
      if_neg (or_iff_not_and_not.mp h5)]
    split_ifs with h8 h9
    · rcases h9 with h | h
      · exact absurd h (UInt16.not_lt.mpr h6)
      · exact absurd h (UInt16.not_lt.mpr h7)
    · rfl
    · rfl

/-- The loop of `evaluate` stops at the first accepting rule. -/
theorem firstAction_eq (packet : Packet) (rules : List Entry) :
    firstAction packet rules=
      ((rules.find? fun entry => accepts packet entry.rule).map fun entry =>
        entry.rule.action).getD .allow := by
  induction rules with
  | nil => rfl
  | cons entry rest ih =>
    rw [firstAction,List.find?_cons]
    cases h : accepts packet entry.rule with
    | true => simp only [if_true,Option.map_some,Option.getD_some]
    | false =>
      rw [if_neg Bool.false_ne_true]
      exact ih

/-- In an ordered table `evaluate` takes the right decision. -/
theorem evaluate_decides {engine : FirewallEngine} (h : Ordered engine.rules) (packet : Packet) :
    Decides engine.rules packet (evaluate engine packet).2 := by
  have haction : (evaluate engine packet).2=firstAction packet engine.rules := rfl
  rw [haction,firstAction_eq]
  cases hfind : engine.rules.find? fun entry => accepts packet entry.rule with
  | none =>
    refine .inr ⟨fun entry member matched => ?_,rfl⟩
    have hnot := List.find?_eq_none.mp hfind entry member
    exact hnot ((accepts_iff packet entry.rule).mpr matched)
  | some entry =>
    obtain ⟨member,accepted,least⟩ := find_precedes h hfind
    refine .inl ⟨entry,member,(accepts_iff _ _).mp accepted,rfl,fun other hother matched => ?_⟩
    exact least other hother ((accepts_iff _ _).mpr matched)

/-- Every evaluation is counted once, as allowed or as denied. -/
theorem evaluate_counts (engine : FirewallEngine) (packet : Packet) :
    (evaluate engine packet).1.totalAllowed+(evaluate engine packet).1.totalDenied=
      engine.totalAllowed+engine.totalDenied+1 := by
  unfold evaluate
  dsimp only
  split_ifs
  · dsimp only
    rw [UInt64.add_assoc,UInt64.add_comm 1,UInt64.add_assoc]
  · exact (UInt64.add_assoc _ _ _).symm

/-- Evaluating a packet leaves the table alone. -/
theorem evaluate_rules (engine : FirewallEngine) (packet : Packet) :
    (evaluate engine packet).1.rules=engine.rules ∧
    (evaluate engine packet).1.inserted=engine.inserted ∧
    (evaluate engine packet).1.nextRuleId=engine.nextRuleId := by
  unfold evaluate
  dsimp only
  split_ifs
  · exact ⟨rfl,rfl,rfl⟩
  · exact ⟨rfl,rfl,rfl⟩

/-- Switching a rule changes no number, no priority and no insertion. -/
theorem setEnabled_map {β : Type*} (f : Entry → β)
    (same : ∀ (entry : Entry) (enabled : Bool),
      f { entry with rule := { entry.rule with enabled := enabled } }=f entry)
    (ruleId : UInt32) (enabled : Bool) (rules : List Entry) :
    (setEnabled ruleId enabled rules).map f=rules.map f := by
  induction rules with
  | nil => rfl
  | cons entry rest ih =>
    rw [setEnabled]
    split_ifs
    · rw [List.map_cons,List.map_cons,same]
    · rw [List.map_cons,List.map_cons,ih]

/-- An entry of the new table agrees with an old one in such a value. -/
theorem setEnabled_mem {β : Type*} (f : Entry → β)
    (same : ∀ (entry : Entry) (enabled : Bool),
      f { entry with rule := { entry.rule with enabled := enabled } }=f entry)
    {ruleId : UInt32} {enabled : Bool} {rules : List Entry} {entry : Entry}
    (member : entry ∈ setEnabled ruleId enabled rules) : ∃ old ∈ rules,f old=f entry := by
  have hmem : f entry ∈ (setEnabled ruleId enabled rules).map f := List.mem_map_of_mem member
  rw [setEnabled_map f same] at hmem
  exact List.mem_map.mp hmem

/-- The table is ordered and its insertions lie in the past. -/
structure Sorted (engine : FirewallEngine) : Prop where
  /-- Sorted by priority and insertion. -/
  ordered : Ordered engine.rules
  /-- Insertions are numbered from zero on. -/
  past : ∀ entry ∈ engine.rules,entry.insertion < engine.inserted

/-- A table whose equal priorities stand in order of insertion. -/
structure Arrived (engine : FirewallEngine) : Prop where
  /-- Equal priorities are in order. -/
  ordered : engine.rules.Pairwise fun a b => a.priority=b.priority → a.insertion < b.insertion
  /-- Insertions are numbered from zero on. -/
  past : ∀ entry ∈ engine.rules,entry.insertion < engine.inserted

/-- A pushed rule is the latest. -/
theorem Arrived.pushRule {engine : FirewallEngine} (h : Arrived engine) (rule : FirewallRule) :
    Arrived (pushRule engine rule) := by
  constructor
  · refine List.pairwise_append.mpr ⟨h.ordered,List.pairwise_singleton _ _,fun a ha b hb _ => ?_⟩
    rw [List.mem_singleton.mp hb]
    exact h.past a ha
  · intro entry member
    rcases List.mem_append.mp member with hold | hnew
    · exact Nat.lt_succ_of_lt (h.past entry hold)
    · rw [List.mem_singleton.mp hnew]
      exact Nat.lt_succ_self _

/-- Sorting a table whose equal priorities are in order. -/
theorem Arrived.sort {engine : FirewallEngine} (h : Arrived engine) :
    Sorted { engine with rules := sortRules engine.rules } :=
  ⟨stableSort_precedes Entry.priority Entry.insertion h.ordered,
    fun entry member => h.past entry ((stableSort_perm _ _).mem_iff.mp member)⟩

/-- In an ordered table equal priorities are in order. -/
theorem Sorted.arrived {engine : FirewallEngine} (h : Sorted engine) : Arrived engine :=
  ⟨h.ordered.imp Precedes.arrival_lt,h.past⟩

/-- Every call keeps the table sorted. -/
theorem step_sorted {engine : FirewallEngine} (h : Sorted engine) (call : Call) :
    Sorted (step engine call).1 := by
  cases call with
  | addRule rule => exact (h.arrived.pushRule rule).sort
  | removeRule ruleId =>
    have hsub : (engine.rules.eraseP fun entry => entry.id=ruleId).Sublist engine.rules :=
      List.eraseP_sublist
    exact ⟨h.ordered.sublist hsub,fun entry member => h.past entry (hsub.mem member)⟩
  | enableRule ruleId enabled =>
    have hmap := setEnabled_map (fun entry => (entry.priority,entry.insertion))
      (fun _ _ => rfl) ruleId enabled engine.rules
    unfold step enableRule
    dsimp only
    constructor
    · have hpairs : (engine.rules.map fun entry => (entry.priority,entry.insertion)).Pairwise
          (Precedes Prod.fst Prod.snd) := List.pairwise_map.mpr h.ordered
      rw [←hmap,List.pairwise_map] at hpairs
      exact hpairs
    · intro entry member
      obtain ⟨old,hold,heq⟩ := setEnabled_mem Entry.insertion (fun _ _ => rfl) member
      rw [←heq]
      exact h.past old hold
  | installDefaultRules =>
    unfold step installDefaultRules
    dsimp only
    split_ifs
    · exact h
    · have hpushed : Arrived (defaultRules.foldl Firewall.pushRule engine) :=
        List.foldlRecOn defaultRules _ h.arrived fun pushed hp rule _ => hp.pushRule rule
      exact hpushed.sort
  | evaluate packet =>
    obtain ⟨hrules,hinserted,-⟩ := evaluate_rules engine packet
    unfold step
    dsimp only
    constructor
    · rw [hrules]
      exact h.ordered
    · rw [hrules,hinserted]
      exact h.past

/-- The numbers of the table after `add_rule`. -/
theorem addRule_ids (engine : FirewallEngine) (rule : FirewallRule) :
    ((addRule engine rule).1.rules.map Entry.id).Perm
      (engine.rules.map Entry.id++[engine.nextRuleId]) := by
  have h := (stableSort_perm Entry.priority (pushRule engine rule).rules).map Entry.id
  rw [pushRule,List.map_append] at h
  exact h

/-- The entry of the `k`-th of several rules pushed in one go. -/
def pushedEntry (engine : FirewallEngine) (k : ℕ) (rule : FirewallRule) : Entry :=
  ⟨{ rule with id := engine.nextRuleId+UInt32.ofNat k },engine.inserted+k⟩

/-- The table after several rules were pushed. -/
theorem pushAll_rules (rules : List FirewallRule) (engine : FirewallEngine) :
    (rules.foldl pushRule engine).rules=engine.rules++rules.mapIdx (pushedEntry engine) := by
  induction rules generalizing engine with
  | nil => rw [List.foldl_nil,List.mapIdx_nil,List.append_nil]
  | cons rule rest ih =>
    have hfirst : (pushRule engine rule).rules=engine.rules++[pushedEntry engine 0 rule] := by
      have hzero : engine.nextRuleId+UInt32.ofNat 0=engine.nextRuleId := UInt32.add_zero _
      rw [pushedEntry,hzero]
      rfl
    have hnext : pushedEntry (pushRule engine rule)=fun k => pushedEntry engine (k+1) := by
      funext k later
      have hid : engine.nextRuleId+1+UInt32.ofNat k=engine.nextRuleId+UInt32.ofNat (k+1) := by
        rw [UInt32.ofNat_add,UInt32.add_assoc,UInt32.add_comm 1]
        rfl
      have hinsertion : engine.inserted+1+k=engine.inserted+(k+1) := by omega
      rw [pushedEntry,pushedEntry,pushRule,hid,hinsertion]
    rw [List.foldl_cons,ih,hfirst,hnext,List.mapIdx_cons,List.append_assoc,List.singleton_append]

/-- Added rules get consecutive numbers. -/
theorem pushAll_ids (rules : List FirewallRule) (engine : FirewallEngine) :
    (rules.foldl pushRule engine).rules.map Entry.id=engine.rules.map Entry.id++
      (List.range rules.length).map fun i => engine.nextRuleId+UInt32.ofNat i := by
  rw [pushAll_rules,List.map_append]
  congr 1
  refine List.ext_getElem? fun i => ?_
  rw [List.getElem?_map,List.getElem?_map,List.getElem?_mapIdx]
  rcases Nat.lt_or_ge i rules.length with hin | hout
  · rw [List.getElem?_eq_getElem hin,List.getElem?_range hin]
    rfl
  · rw [List.getElem?_eq_none hout,List.getElem?_eq_none (by rw [List.length_range]; exact hout)]
    rfl

/-- Fewer than `2^32` consecutive numbers are distinct. -/
theorem consecutive_nodup (start : UInt32) {count : ℕ} (h : count ≤ 2^32) :
    ((List.range count).map fun i => start+UInt32.ofNat i).Nodup := by
  refine List.Nodup.map_on (fun i hi j hj heq => ?_) List.nodup_range
  have hi' := (List.mem_range.mp hi).trans_le h
  have hj' := (List.mem_range.mp hj).trans_le h
  have hof := congrArg UInt32.toNat ((UInt32.add_right_inj start).mp heq)
  rw [UInt32.toNat_ofNat_of_lt' hi',UInt32.toNat_ofNat_of_lt' hj'] at hof
  exact hof

/-- `add_rule` keeps distinct numbers distinct exactly when the next number
is not in use. -/
theorem addRule_distinct (engine : FirewallEngine) (rule : FirewallRule) :
    DistinctIds (addRule engine rule).1.rules ↔
      engine.nextRuleId ∉ engine.rules.map Entry.id ∧ DistinctIds engine.rules := by
  rw [DistinctIds,(addRule_ids engine rule).nodup_iff,List.nodup_append_comm,
    List.singleton_append,List.nodup_cons,DistinctIds]

/-- A call keeps the numbers distinct unless it adds a rule under a number in
use. -/
theorem step_distinct {engine : FirewallEngine} (h : DistinctIds engine.rules) (call : Call)
    (fresh : ∀ rule,call=.addRule rule → engine.nextRuleId ∉ engine.rules.map Entry.id) :
    DistinctIds (step engine call).1.rules := by
  cases call with
  | addRule rule => exact (addRule_distinct engine rule).mpr ⟨fresh rule rfl,h⟩
  | removeRule ruleId =>
    have hsub : (engine.rules.eraseP fun entry => entry.id=ruleId).Sublist engine.rules :=
      List.eraseP_sublist
    exact h.sublist (hsub.map _)
  | enableRule ruleId enabled =>
    have hmap := setEnabled_map Entry.id (fun _ _ => rfl) ruleId enabled engine.rules
    rw [DistinctIds,step,enableRule,hmap]
    exact h
  | installDefaultRules =>
    unfold step installDefaultRules
    dsimp only
    split_ifs with hrules
    · exact h
    · have hperm := (stableSort_perm Entry.priority
        (defaultRules.foldl pushRule engine).rules).map Entry.id
      rw [pushAll_ids,not_not.mp hrules,List.map_nil,List.nil_append] at hperm
      exact hperm.nodup_iff.mpr (consecutive_nodup _ (by decide))
  | evaluate packet =>
    rw [step]
    dsimp only
    rw [(evaluate_rules engine packet).1]
    exact h

/-- What the rule table and the decisions should satisfy: the table is sorted
by priority and insertion, its numbers are distinct, every packet gets the
action of the least matching rule and every evaluation is counted once. -/
structure Sound (engine : FirewallEngine) : Prop where
  /-- Sorted by priority and insertion. -/
  ordered : Ordered engine.rules
  /-- Distinct numbers. -/
  distinct : DistinctIds engine.rules
  /-- Right decisions. -/
  decides : ∀ packet,Decides engine.rules packet (evaluate engine packet).2
  /-- Exact counters. -/
  counts : ∀ packet,(evaluate engine packet).1.totalAllowed+
    (evaluate engine packet).1.totalDenied=engine.totalAllowed+engine.totalDenied+1

/-- A call that does not add a rule under a number in use. -/
def Fresh (e : CallEvent) : Prop :=
  ∀ rule,e.label.1=.addRule rule → e.before.nextRuleId ∉ e.before.rules.map Entry.id

/-- The table is sorted in every reachable state. -/
theorem run_sorted {events : List CallEvent} {engine : FirewallEngine}
    (run : Run (Deterministic step) create events engine) : Sorted engine := by
  have hcreate : Sorted create :=
    ⟨List.Pairwise.nil,fun _ member => absurd member List.not_mem_nil⟩
  refine run.invariant (fun _ engine => Sorted engine) hcreate ?_
  intro events s label t inv hstep
  have h := step_sorted inv label.1
  rw [hstep] at h
  exact h

/-- While no rule was added under a number in use, the numbers are distinct. -/
theorem run_distinct {events : List CallEvent} {engine : FirewallEngine}
    (run : Run (Deterministic step) create events engine) (fresh : ∀ e ∈ events,Fresh e) :
    DistinctIds engine.rules := by
  induction run with
  | nil => exact List.nodup_nil
  | @snoc events s t label run hstep ih =>
    have hold := ih fun e member => fresh e (List.mem_append_left _ member)
    have h := step_distinct hold label.1
      (fresh ⟨s,label,t⟩ (List.mem_append_right _ List.mem_cons_self))
    rw [hstep] at h
    exact h

/-- Over every sequence of calls: the table is sorted, its numbers are
distinct, every packet is decided by the least matching rule and counted once
after every call, if and only if no call adds a rule under a number in use. -/
theorem table_sound_iff {events : List CallEvent} {engine : FirewallEngine}
    (run : Run (Deterministic step) create events engine) :
    (∀ e ∈ events,Sound e.after) ↔ ∀ e ∈ events,Fresh e := by
  constructor
  · rintro sound e member rule hlabel
    obtain ⟨first,rest,rfl⟩ := List.append_of_mem member
    obtain ⟨-,hstep,-⟩ := run.event_step
    have hdistinct := (sound e member).distinct
    have hafter : e.after=(addRule e.before rule).1 := by
      rw [Deterministic,hlabel] at hstep
      exact (congrArg Prod.fst hstep).symm
    rw [hafter] at hdistinct
    exact ((addRule_distinct e.before rule).mp hdistinct).1
  · intro fresh e member
    obtain ⟨first,rest,rfl⟩ := List.append_of_mem member
    obtain ⟨hbefore,hstep,-⟩ := run.event_step
    have hafter := hbefore.snoc hstep
    have hordered := (run_sorted hafter).ordered
    have hfresh : ∀ e' ∈ first++[e],Fresh e' := by
      intro e' h
      refine fresh e' ?_
      rw [List.append_cons]
      exact List.mem_append_left _ h
    exact ⟨hordered,run_distinct hafter hfresh,evaluate_decides hordered,evaluate_counts e.after⟩

/-- Numbers follow the insertions, counted from one and modulo `2^32`. -/
structure Numbered (engine : FirewallEngine) : Prop where
  /-- The next number. -/
  next : engine.nextRuleId=1+UInt32.ofNat engine.inserted
  /-- The numbers in the table. -/
  ids : ∀ entry ∈ engine.rules,entry.id=1+UInt32.ofNat entry.insertion

/-- A pushed rule gets the number of its insertion. -/
theorem Numbered.pushRule {engine : FirewallEngine} (h : Numbered engine) (rule : FirewallRule) :
    Numbered (pushRule engine rule) := by
  constructor
  · rw [Firewall.pushRule]
    dsimp only
    rw [h.next,UInt32.ofNat_add,UInt32.add_assoc]
    rfl
  · intro entry member
    rcases List.mem_append.mp member with hold | hnew
    · exact h.ids entry hold
    · rw [List.mem_singleton.mp hnew]
      exact h.next

/-- Sorting keeps the numbers. -/
theorem Numbered.sort {engine : FirewallEngine} (h : Numbered engine) :
    Numbered { engine with rules := sortRules engine.rules } :=
  ⟨h.next,fun entry member => h.ids entry ((stableSort_perm _ _).mem_iff.mp member)⟩

/-- Every call keeps the numbers. -/
theorem step_numbered {engine : FirewallEngine} (h : Numbered engine) (call : Call) :
    Numbered (step engine call).1 := by
  cases call with
  | addRule rule => exact (h.pushRule rule).sort
  | removeRule ruleId =>
    exact ⟨h.next,fun entry member => h.ids entry (List.mem_of_mem_eraseP member)⟩
  | enableRule ruleId enabled =>
    refine ⟨h.next,fun entry member => ?_⟩
    obtain ⟨old,hold,heq⟩ := setEnabled_mem (fun entry => (entry.id,entry.insertion))
      (fun _ _ => rfl) member
    rw [←(Prod.mk.inj heq).1,←(Prod.mk.inj heq).2]
    exact h.ids old hold
  | installDefaultRules =>
    unfold step installDefaultRules
    dsimp only
    split_ifs
    · exact h
    · have hpushed : Numbered (defaultRules.foldl Firewall.pushRule engine) :=
        List.foldlRecOn defaultRules _ h fun pushed hp rule _ => hp.pushRule rule
      exact hpushed.sort
  | evaluate packet =>
    obtain ⟨hrules,hinserted,hnext⟩ := evaluate_rules engine packet
    unfold step
    dsimp only
    constructor
    · rw [hnext,hinserted]
      exact h.next
    · rw [hrules]
      exact h.ids

/-- The next number is not in use before `2^32` rules have been inserted. -/
theorem fresh_before_wrap {events : List CallEvent} {engine : FirewallEngine}
    (run : Run (Deterministic step) create events engine) (few : engine.inserted < 2^32) :
    engine.nextRuleId ∉ engine.rules.map Entry.id := by
  have hcreate : Numbered create := ⟨rfl,fun _ member => absurd member List.not_mem_nil⟩
  have hnumbered : Numbered engine := by
    refine run.invariant (fun _ engine => Numbered engine) hcreate ?_
    intro events s label t inv hstep
    have h := step_numbered inv label.1
    rw [hstep] at h
    exact h
  intro member
  obtain ⟨entry,hentry,hid⟩ := List.mem_map.mp member
  have hpast := (run_sorted run).past entry hentry
  rw [hnumbered.ids entry hentry,hnumbered.next] at hid
  have hnat := congrArg UInt32.toNat ((UInt32.add_right_inj 1).mp hid)
  rw [UInt32.toNat_ofNat_of_lt' (hpast.trans few),UInt32.toNat_ofNat_of_lt' few] at hnat
  exact absurd hnat hpast.ne

/-- A default rule and a packet that it denies. -/
theorem table_sound_of_one_rule :
    (execute step create [.addRule {},.evaluate ⟨.inbound,.tcp,1,2,3,4⟩]).1.length=2 ∧
      ∀ e ∈ (execute step create [.addRule {},.evaluate ⟨.inbound,.tcp,1,2,3,4⟩]).1,
        Sound e.after := by
  refine ⟨rfl,(table_sound_iff (execute_run step create _)).mpr ?_⟩
  intro e member rule hlabel
  rcases List.mem_cons.mp member with rfl | member
  · exact List.not_mem_nil
  · rw [List.mem_singleton.mp member] at hlabel
    exact absurd hlabel nofun

/-- A table with one default rule after `count` further rules were added and
removed again. -/
def recycled (count : ℕ) : FirewallEngine :=
  ⟨[⟨{ id := 1 },0⟩],2+UInt32.ofNat count,0,0,0,count+1⟩

/-- Sorting a table of two default rules. -/
theorem sortRules_pair (first second : UInt32) (i j : ℕ) :
    sortRules [⟨{ id := first },i⟩,⟨{ id := second },j⟩]=
      [⟨{ id := first },i⟩,⟨{ id := second },j⟩] := by
  refine List.mergeSort_of_pairwise (List.pairwise_pair.mpr ?_)
  exact decide_eq_true (le_refl _)

/-- Adding a default rule to the recycled table. -/
theorem recycled_add (count : ℕ) :
    (step (recycled count) (.addRule {})).1=
      ⟨[⟨{ id := 1 },0⟩,⟨{ id := 2+UInt32.ofNat count },count+1⟩],
        2+UInt32.ofNat count+1,0,0,0,count+2⟩ := by
  rw [step,addRule,pushRule,recycled]
  dsimp only
  rw [List.singleton_append,sortRules_pair]

/-- The number of the added rule differs from that of the first one, so
removing it leaves the first. -/
theorem recycled_remove {count : ℕ} (h : count < 2^32-1) :
    (step ⟨[⟨{ id := 1 },0⟩,⟨{ id := 2+UInt32.ofNat count },count+1⟩],
      2+UInt32.ofNat count+1,0,0,0,count+2⟩ (.removeRule (2+UInt32.ofNat count))).1=
      recycled (count+1) := by
  have hne : (1 : UInt32)≠2+UInt32.ofNat count := by
    intro heq
    have hnat := congrArg UInt32.toNat heq
    rw [UInt32.toNat_add,UInt32.toNat_ofNat_of_lt' (by omega : count < 2^32)] at hnat
    have hone : UInt32.toNat 1=1 := rfl
    have htwo : UInt32.toNat 2=2 := rfl
    omega
  have hnext : 2+UInt32.ofNat count+1=2+UInt32.ofNat (count+1) := by
    rw [UInt32.ofNat_add,UInt32.add_assoc]
    rfl
  rw [step,removeRule,recycled,hnext]
  dsimp only
  rw [List.eraseP_cons_of_neg (by rw [decide_eq_true_iff]; exact hne),
    List.eraseP_cons_of_pos (by rw [decide_eq_true_iff]; rfl)]

/-- The recycled table is reachable while its counter has not wrapped. -/
theorem recycled_run {count : ℕ} (h : count ≤ 2^32-1) :
    ∃ events,Run (Deterministic step) create events (recycled count) := by
  induction count with
  | zero =>
    have hadd : (step create (.addRule {})).1=recycled 0 := by
      rw [step,addRule,pushRule,create]
      dsimp only
      rw [List.nil_append,sortRules,stableSort,List.mergeSort_singleton]
      rfl
    have hstep : Deterministic step create (.addRule {},(step create (.addRule {})).2)
        (recycled 0) := by
      rw [Deterministic,←hadd]
    exact ⟨_,Run.nil.snoc hstep⟩
  | succ count ih =>
    obtain ⟨events,hrun⟩ := ih (by omega)
    have hadd : Deterministic step (recycled count)
        (.addRule {},(step (recycled count) (.addRule {})).2) _ :=
      Prod.ext (recycled_add count) rfl
    have hremove : Deterministic step _ (.removeRule (2+UInt32.ofNat count),
        (step _ (.removeRule (2+UInt32.ofNat count))).2) (recycled (count+1)) :=
      Prod.ext (@recycled_remove count (by omega)) rfl
    exact ⟨_,(hrun.snoc hadd).snoc hremove⟩

/-- After `2^32-1` rules have come and gone next to one that stays, the next
rule gets the number of the one that stayed. -/
theorem wrapped_number_collides :
    ∃ (events : List CallEvent) (engine : FirewallEngine),
      Run (Deterministic step) create events engine ∧ ¬DistinctIds engine.rules := by
  obtain ⟨events,hrun⟩ := recycled_run (le_refl (2^32-1))
  have hadd : Deterministic step (recycled (2^32-1))
      (.addRule {},(step (recycled (2^32-1)) (.addRule {})).2) _ :=
    Prod.ext (recycled_add _) rfl
  refine ⟨_,_,hrun.snoc hadd,?_⟩
  have hwrap : 2+UInt32.ofNat (2^32-1)=1 := by decide
  rw [DistinctIds,hwrap]
  decide

end Gcad.Firewall
