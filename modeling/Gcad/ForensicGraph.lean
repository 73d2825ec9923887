import Gcad.KeyedMap
import Gcad.Threat

/-!
# The graph of processes in an event list

`build_forensic_graph` makes one pass that collects a node for each process
and a second pass that joins the nodes of neighbouring events. The node of a
process is found through an index by process number; events without a process
break the neighbourhood. An edge is kept at both of its ends.
-/

namespace Gcad.ForensicGraph

open Common Threat KeyedMap

/-- `ForensicGraphNode`. -/
structure ForensicGraphNode where
  /-- The process. -/
  pid : UInt32
  /-- Its name in the drawing. -/
  label : Str
  /-- The highest level of its events. -/
  level : UInt8
  /-- How many events it has. -/
  eventCount : ℕ
  /-- The nodes it leads to. -/
  children : List ℕ
  /-- The nodes that lead to it. -/
  parents : List ℕ
  /-- The time of its first event. -/
  firstSeen : TimePoint
  deriving DecidableEq

/-- The nodes and the index while they are collected. -/
structure Collected where
  /-- The nodes in the order of first appearance. -/
  nodes : List ForensicGraphNode
  /-- The node of each process. -/
  indexByPid : Table UInt32 ℕ

/-- The node of the first event of a process. -/
def newNode (event : ThreatEvent) : ForensicGraphNode where
  pid := event.processId
  label :=
    if event.processName.isEmpty then "PID ".toList++toDecimal event.processId.toNat
    else event.processName
  level := event.level
  eventCount := 1
  children := []
  parents := []
  firstSeen := event.timestamp

/-- The node after another event of its process. -/
def mergeNode (event : ThreatEvent) (node : ForensicGraphNode) : ForensicGraphNode :=
  { node with
    eventCount := node.eventCount+1
    level := if node.level < event.level then event.level else node.level
    label :=
      if "PID ".toList.isPrefixOf node.label && !event.processName.isEmpty then event.processName
      else node.label }

/-- One round of the first loop. -/
def addEvent (s : Collected) (event : ThreatEvent) : Collected :=
  if event.processId=0 then s
  else
    match s.indexByPid.lookup event.processId with
    | none =>
      ⟨s.nodes++[newNode event],s.indexByPid.insert event.processId s.nodes.length⟩
    | some i => { s with nodes := s.nodes.modify i (mergeNode event) }

/-- The first loop. -/
def collectNodes (events : List ThreatEvent) : Collected := events.foldl addEvent ⟨[],∅⟩

/-- A list of a node, found by the index of the node. -/
def linksAt (field : ForensicGraphNode → List ℕ) (nodes : List ForensicGraphNode) (i : ℕ) :
    List ℕ :=
  (nodes[i]?.map field).getD []

/-- `children.push_back`. -/
def pushChild (j : ℕ) (node : ForensicGraphNode) : ForensicGraphNode :=
  { node with children := node.children++[j] }

/-- `parents.push_back`. -/
def pushParent (i : ℕ) (node : ForensicGraphNode) : ForensicGraphNode :=
  { node with parents := node.parents++[i] }

/-- The nodes of two neighbouring events, where both have one and they differ. -/
def endpoints (index : Table UInt32 ℕ) (pair : ThreatEvent×ThreatEvent) : Option (ℕ×ℕ) :=
  match index.lookup pair.1.processId,index.lookup pair.2.processId with
  | some source,some target => if source=target then none else some (source,target)
  | _,_ => none

/-- One round of the second loop. -/
def addEdge (index : Table UInt32 ℕ) (nodes : List ForensicGraphNode)
    (pair : ThreatEvent×ThreatEvent) : List ForensicGraphNode :=
  match endpoints index pair with
  | none => nodes
  | some (source,target) =>
    if target ∈ linksAt (·.children) nodes source then nodes
    else (nodes.modify source (pushChild target)).modify target (pushParent source)

/-- `build_forensic_graph`. -/
def buildForensicGraph (events : List ThreatEvent) : List ForensicGraphNode :=
  (events.zip events.tail).foldl (addEdge (collectNodes events).indexByPid)
    (collectNodes events).nodes

/-- The distinct processes of the events, in order of first occurrence. -/
def processes (events : List ThreatEvent) : List UInt32 :=
  ((events.map (·.processId)).filter fun pid => pid≠0).eraseDups

/-- A node counts the events of its process and has their highest level. -/
structure Summarises (events : List ThreatEvent) (node : ForensicGraphNode) : Prop where
  /-- Number of the events. -/
  counted : node.eventCount=events.countP fun event => event.processId=node.pid
  /-- Some event has the level. -/
  attained : ∃ event ∈ events,event.processId=node.pid ∧ event.level=node.level
  /-- None has a higher one. -/
  greatest : ∀ event ∈ events,event.processId=node.pid → event.level ≤ node.level

/-- Somewhere two consecutive events carry two process numbers. -/
def Consecutive (events : List ThreatEvent) (a b : UInt32) : Prop :=
  [a,b] <:+: events.map (·.processId)

section Summary

variable {events : List ThreatEvent} {event : ThreatEvent} {node : ForensicGraphNode}

/-- An event of another process changes nothing. -/
theorem Summarises.other (h : Summarises events node) (hne : event.processId≠node.pid) :
    Summarises (events++[event]) node where
  counted := by
    rw [List.countP_append,List.countP_singleton,if_neg,Nat.add_zero,h.counted]
    exact fun heq => hne (of_decide_eq_true heq)
  attained := by
    obtain ⟨e,he,hpid,hlevel⟩ := h.attained
    exact ⟨e,List.mem_append_left _ he,hpid,hlevel⟩
  greatest e he hpid := by
    rcases List.mem_append.mp he with hold | hnew
    · exact h.greatest e hold hpid
    · rw [List.mem_singleton.mp hnew] at hpid
      exact absurd hpid hne

/-- The first event of a process is summarised by its new node. -/
theorem summarises_newNode (h : ∀ e ∈ events,e.processId≠event.processId) :
    Summarises (events++[event]) (newNode event) where
  counted := by
    have hnone : events.countP (fun e => e.processId=event.processId)=0 :=
      List.countP_eq_zero.mpr fun e he heq => h e he (of_decide_eq_true heq)
    change 1=(events++[event]).countP fun e => e.processId=event.processId
    rw [List.countP_append,List.countP_singleton,hnone,if_pos (decide_eq_true rfl)]
  attained := ⟨event,List.mem_append_right _ (List.mem_singleton_self _),rfl,rfl⟩
  greatest e he hpid := by
    rcases List.mem_append.mp he with hold | hnew
    · exact absurd hpid (h e hold)
    · rw [List.mem_singleton.mp hnew]
      exact UInt8.le_refl _

/-- Another event of a process is merged into the summary. -/
theorem Summarises.merge (h : Summarises events node) (heq : event.processId=node.pid) :
    Summarises (events++[event]) (mergeNode event node) where
  counted := by
    rw [List.countP_append,List.countP_singleton,mergeNode,if_pos (decide_eq_true heq),h.counted]
  attained := by
    rw [mergeNode]
    by_cases hlt : node.level < event.level
    · exact ⟨event,List.mem_append_right _ (List.mem_singleton_self _),heq,(if_pos hlt).symm⟩
    · obtain ⟨e,he,hpid,hlevel⟩ := h.attained
      exact ⟨e,List.mem_append_left _ he,hpid,hlevel.trans (if_neg hlt).symm⟩
  greatest e he hpid := by
    rw [mergeNode]
    change e.level ≤ if node.level < event.level then event.level else node.level
    rcases List.mem_append.mp he with hold | hnew
    · have hle := h.greatest e hold hpid
      split_ifs with hlt
      · exact UInt8.le_trans hle (UInt8.le_of_lt hlt)
      · exact hle
    · rw [List.mem_singleton.mp hnew]
      split_ifs with hlt
      · exact UInt8.le_refl _
      · exact UInt8.not_lt.mp hlt

end Summary

section Collecting

/-- A change that keeps a field keeps the fields of a list. -/
theorem map_modify {β : Type*} (field : ForensicGraphNode → β)
    (change : ForensicGraphNode → ForensicGraphNode)
    (h : ∀ node,field (change node)=field node) (nodes : List ForensicGraphNode) (i : ℕ) :
    (nodes.modify i change).map field=nodes.map field := by
  apply List.ext_getElem?
  intro k
  rw [List.getElem?_map,List.getElem?_map,List.getElem?_modify]
  cases nodes[k]? with
  | none => rfl
  | some node =>
    change some (field (if i=k then change node else node))=some (field node)
    split_ifs
    · rw [h]
    · rfl

/-- One more event adds its process where it is new. -/
theorem processes_append (events : List ThreatEvent) (event : ThreatEvent) :
    processes (events++[event])=processes events++
      if event.processId=0 ∨ event.processId ∈ processes events then [] else [event.processId] := by
  have hmem : event.processId ∈ processes events ↔
      event.processId ∈ (events.map (·.processId)).filter fun pid => pid≠0 := List.mem_eraseDups
  rw [processes,List.map_append,List.filter_append,List.eraseDups_append,List.map_singleton]
  refine congrArg (processes events++·) ?_
  by_cases hzero : event.processId=0
  · rw [if_pos (Or.inl hzero),List.filter_cons,List.filter_nil,
      if_neg fun h : decide (event.processId≠0)=true => of_decide_eq_true h hzero]
    rfl
  · have hkeep : decide (event.processId≠0)=true := decide_eq_true hzero
    rw [List.filter_cons,List.filter_nil,if_pos hkeep,List.removeAll,List.filter_cons,
      List.filter_nil]
    by_cases hknown : event.processId ∈ processes events
    · rw [if_pos (Or.inr hknown),List.elem_eq_true_of_mem (hmem.mp hknown)]
      rfl
    · rw [if_neg (not_or.mpr ⟨hzero,hknown⟩),List.elem_eq_mem,
        decide_eq_false fun h => hknown (hmem.mpr h)]
      rfl

/-- No process is listed twice. -/
theorem processes_nodup (events : List ThreatEvent) : (processes events).Nodup := by
  induction events using List.reverseRecOn with
  | nil => exact List.nodup_nil
  | append_singleton events event ih =>
    rw [processes_append]
    split_ifs with hknown
    · rwa [List.append_nil]
    · rw [← List.concat_eq_append]
      exact List.Nodup.concat (fun hmem => hknown (Or.inr hmem)) ih

/-- What the first loop has established. -/
structure CollectedFrom (events : List ThreatEvent) (s : Collected) : Prop where
  /-- One node for each process, in order. -/
  pids : s.nodes.map (·.pid)=processes events
  /-- The index finds the node of each process. -/
  index : ∀ pid i,s.indexByPid.lookup pid=some i ↔ (processes events)[i]?=some pid
  /-- Each node summarises the events of its process. -/
  summary : ∀ node ∈ s.nodes,Summarises events node
  /-- No node has edges. -/
  bare : ∀ node ∈ s.nodes,node.children=[] ∧ node.parents=[]

/-- The processes are the numbers of the events other than zero. -/
theorem mem_processes {events : List ThreatEvent} {pid : UInt32} :
    pid ∈ processes events ↔ (∃ event ∈ events,event.processId=pid) ∧ pid≠0 := by
  rw [processes,List.mem_eraseDups,List.mem_filter,List.mem_map,decide_eq_true_eq]

/-- What stands in a list with one more element. -/
theorem getElem?_concat_iff {α : Type*} {l : List α} {a b : α} {i : ℕ} :
    (l++[a])[i]?=some b ↔ l[i]?=some b ∨ i=l.length ∧ a=b := by
  rcases Nat.lt_trichotomy i l.length with hlt | rfl | hgt
  · rw [List.getElem?_append_left hlt]
    exact (or_iff_left fun h => absurd h.1 hlt.ne).symm
  · rw [List.getElem?_concat_length,List.getElem?_eq_none le_rfl,Option.some.injEq]
    exact ⟨fun h => Or.inr ⟨rfl,h⟩,fun h => h.elim (fun hnone => absurd hnone.symm
      (Option.some_ne_none b)) And.right⟩
  · rw [List.getElem?_eq_none (by rw [List.length_append,List.length_singleton]; omega),
      List.getElem?_eq_none hgt.le]
    exact iff_of_false (Option.some_ne_none b).symm fun h => h.elim (Option.some_ne_none b).symm
      fun hend => absurd hend.1 hgt.ne'

/-- An element after a change is a changed one or another one. -/
theorem mem_modify {nodes : List ForensicGraphNode} {i : ℕ}
    {change : ForensicGraphNode → ForensicGraphNode} {node : ForensicGraphNode}
    (h : node ∈ nodes.modify i change) :
    ∃ k old,nodes[k]?=some old ∧ node=if i=k then change old else old := by
  obtain ⟨k,hk⟩ := List.mem_iff_getElem?.mp h
  rw [List.getElem?_modify] at hk
  obtain ⟨old,hold,heq⟩ := Option.map_eq_some_iff.mp hk
  exact ⟨k,old,hold,heq.symm⟩

section Step

variable {events : List ThreatEvent} {s : Collected}

/-- The process of a node is one of the events. -/
theorem CollectedFrom.pid_mem (h : CollectedFrom events s) {node : ForensicGraphNode}
    (hnode : node ∈ s.nodes) : node.pid ∈ processes events := by
  rw [← h.pids]
  exact List.mem_map_of_mem hnode

/-- A process without an entry in the index is new. -/
theorem CollectedFrom.new_of_lookup (h : CollectedFrom events s) {pid : UInt32}
    (hlookup : s.indexByPid.lookup pid=none) : pid ∉ processes events := by
  intro hmem
  obtain ⟨i,hi⟩ := List.mem_iff_getElem?.mp hmem
  rw [(h.index pid i).mpr hi] at hlookup
  exact Option.some_ne_none i hlookup

/-- An event without a process is ignored. -/
theorem CollectedFrom.ignore (h : CollectedFrom events s) {event : ThreatEvent}
    (hzero : event.processId=0) : CollectedFrom (events++[event]) s := by
  have hsame : processes (events++[event])=processes events := by
    rw [processes_append,if_pos (Or.inl hzero),List.append_nil]
  refine ⟨hsame ▸ h.pids,hsame ▸ h.index,fun node hnode => ?_,h.bare⟩
  refine (h.summary node hnode).other fun heq => ?_
  exact (mem_processes.mp (h.pid_mem hnode)).2 (heq.symm.trans hzero)

/-- The first event of a process adds a node. -/
theorem CollectedFrom.add (h : CollectedFrom events s) {event : ThreatEvent}
    (hzero : event.processId≠0) (hlookup : s.indexByPid.lookup event.processId=none) :
    CollectedFrom (events++[event])
      ⟨s.nodes++[newNode event],s.indexByPid.insert event.processId s.nodes.length⟩ := by
  have hnew := h.new_of_lookup hlookup
  have hmore : processes (events++[event])=processes events++[event.processId] := by
    rw [processes_append,if_neg (not_or.mpr ⟨hzero,hnew⟩)]
  have hlength : s.nodes.length=(processes events).length := by rw [← h.pids,List.length_map]
  refine ⟨?_,fun pid i => ?_,fun node hnode => ?_,fun node hnode => ?_⟩
  · rw [hmore,List.map_append,h.pids]
    rfl
  · rw [hmore,getElem?_concat_iff,← hlength]
    rcases eq_or_ne pid event.processId with rfl | hne
    · rw [AList.lookup_insert,Option.some.injEq]
      have hnot : (processes events)[i]?≠some event.processId := fun hi =>
        hnew (List.mem_of_getElem? hi)
      exact ⟨fun heq => Or.inr ⟨heq.symm,rfl⟩,fun hor => ((or_iff_right hnot).mp hor).1.symm⟩
    · rw [AList.lookup_insert_ne hne,h.index]
      exact (or_iff_left fun hend => hne hend.2.symm).symm
  · rcases List.mem_append.mp hnode with hold | hlast
    · exact (h.summary node hold).other fun heq => hnew (heq ▸ h.pid_mem hold)
    · rw [List.mem_singleton.mp hlast]
      exact summarises_newNode fun e he heq => hnew (mem_processes.mpr ⟨⟨e,he,heq⟩,hzero⟩)
  · rcases List.mem_append.mp hnode with hold | hlast
    · exact h.bare node hold
    · rw [List.mem_singleton.mp hlast]
      exact ⟨rfl,rfl⟩

/-- Another event of a process changes its node. -/
theorem CollectedFrom.update (h : CollectedFrom events s) {event : ThreatEvent} {i : ℕ}
    (hlookup : s.indexByPid.lookup event.processId=some i) :
    CollectedFrom (events++[event]) { s with nodes := s.nodes.modify i (mergeNode event) } := by
  have hi := (h.index event.processId i).mp hlookup
  have hsame : processes (events++[event])=processes events := by
    rw [processes_append,if_pos (Or.inr (List.mem_of_getElem? hi)),List.append_nil]
  refine ⟨?_,hsame ▸ h.index,fun node hnode => ?_,fun node hnode => ?_⟩
  · rw [hsame,← h.pids]
    exact map_modify (·.pid) (mergeNode event) (fun _ => rfl) s.nodes i
  · obtain ⟨k,old,hold,rfl⟩ := mem_modify hnode
    have hk : (processes events)[k]?=some old.pid := by
      rw [← h.pids,List.getElem?_map,hold]
      rfl
    have hsummary := h.summary old (List.mem_of_getElem? hold)
    split_ifs with hik
    · rw [← hik,hi] at hk
      exact hsummary.merge (Option.some.inj hk)
    · refine hsummary.other fun heq => hik ?_
      have hfound := (h.index old.pid k).mpr hk
      rw [← heq,hlookup] at hfound
      exact Option.some.inj hfound
  · obtain ⟨k,old,hold,rfl⟩ := mem_modify hnode
    have hbare := h.bare old (List.mem_of_getElem? hold)
    split_ifs
    · exact hbare
    · exact hbare

end Step

/-- The first loop establishes all of it. -/
theorem collectNodes_collected (events : List ThreatEvent) :
    CollectedFrom events (collectNodes events) := by
  induction events using List.reverseRecOn with
  | nil =>
    refine ⟨rfl,fun pid i => ?_,fun node hnode => absurd hnode List.not_mem_nil,
      fun node hnode => absurd hnode List.not_mem_nil⟩
    exact iff_of_false (Option.some_ne_none i).symm (Option.some_ne_none pid).symm
  | append_singleton events event ih =>
    rw [collectNodes,List.foldl_append,List.foldl_cons,List.foldl_nil]
    change CollectedFrom _ (addEvent (collectNodes events) event)
    rw [addEvent]
    split_ifs with hzero
    · exact ih.ignore hzero
    · split
      · rename_i hlookup
        exact ih.add hzero hlookup
      · rename_i i hlookup
        exact ih.update hlookup

end Collecting

section Joining

/-- A change that keeps a list of links keeps it at every node. -/
theorem linksAt_modify_same (field : ForensicGraphNode → List ℕ)
    (change : ForensicGraphNode → ForensicGraphNode) (h : ∀ node,field (change node)=field node)
    (nodes : List ForensicGraphNode) (k i : ℕ) :
    linksAt field (nodes.modify k change) i=linksAt field nodes i := by
  rw [linksAt,linksAt,← List.getElem?_map,← List.getElem?_map,map_modify field change h]

/-- A change that adds a link adds it at one node. -/
theorem linksAt_modify_push (field : ForensicGraphNode → List ℕ)
    (change : ForensicGraphNode → ForensicGraphNode) {link : ℕ}
    (h : ∀ node,field (change node)=field node++[link]) {nodes : List ForensicGraphNode} {k : ℕ}
    (hk : k < nodes.length) (i : ℕ) :
    linksAt field (nodes.modify k change) i=
      linksAt field nodes i++if i=k then [link] else [] := by
  rw [linksAt,linksAt]
  rcases eq_or_ne i k with rfl | hne
  · rw [List.getElem?_modify_eq,List.getElem?_eq_getElem hk,if_pos rfl]
    exact h nodes[i]
  · rw [List.getElem?_modify_ne _ _ hne.symm,if_neg hne,List.append_nil]

/-- Neighbouring events join two nodes that differ. -/
theorem endpoints_eq_some {index : Table UInt32 ℕ} {pair : ThreatEvent×ThreatEvent} {i j : ℕ} :
    endpoints index pair=some (i,j) ↔ i≠j ∧ index.lookup pair.1.processId=some i ∧
      index.lookup pair.2.processId=some j := by
  rw [endpoints]
  cases hsource : index.lookup pair.1.processId with
  | none =>
    exact iff_of_false (Option.some_ne_none _).symm fun h => Option.some_ne_none i h.2.1.symm
  | some source =>
    cases htarget : index.lookup pair.2.processId with
    | none =>
      exact iff_of_false (Option.some_ne_none _).symm fun h => Option.some_ne_none j h.2.2.symm
    | some target =>
      change (if source=target then none else some (source,target))=some (i,j) ↔ _
      rw [Option.some.injEq,Option.some.injEq]
      by_cases heq : source=target
      · rw [if_pos heq]
        refine iff_of_false (Option.some_ne_none _).symm ?_
        rintro ⟨hne,rfl,rfl⟩
        exact hne heq
      · rw [if_neg heq,Option.some.injEq,Prod.mk.injEq]
        refine ⟨?_,And.right⟩
        rintro ⟨rfl,rfl⟩
        exact ⟨heq,rfl,rfl⟩

/-- A node without its links. -/
def unlinked (node : ForensicGraphNode) : ForensicGraphNode :=
  { node with children := [],parents := [] }

/-- A node that has no links loses none. -/
theorem unlinked_eq {node : ForensicGraphNode} (hchildren : node.children=[])
    (hparents : node.parents=[]) : unlinked node=node := by
  cases node
  cases hchildren
  cases hparents
  rfl

/-- What the second loop has established, after some pairs of neighbours. -/
structure JoinedFrom (s : Collected) (pairs : List (ThreatEvent×ThreatEvent))
    (nodes : List ForensicGraphNode) : Prop where
  /-- Apart from the links the nodes are those of the first loop. -/
  bare : nodes.map unlinked=s.nodes
  /-- The children are the neighbours that follow. -/
  children : ∀ i j,j ∈ linksAt (·.children) nodes i ↔
    ∃ pair ∈ pairs,endpoints s.indexByPid pair=some (i,j)
  /-- The parents mirror the children. -/
  parents : ∀ i j,i ∈ linksAt (·.parents) nodes j ↔ j ∈ linksAt (·.children) nodes i
  /-- No child is kept twice. -/
  childrenNodup : ∀ i,(linksAt (·.children) nodes i).Nodup
  /-- No parent is kept twice. -/
  parentsNodup : ∀ j,(linksAt (·.parents) nodes j).Nodup

/-- A list with a link that may be added. -/
theorem mem_append_ite {links : List ℕ} {p : Prop} [Decidable p] {link j : ℕ} :
    j ∈ links++(if p then [link] else []) ↔ j ∈ links ∨ p ∧ j=link := by
  rw [List.mem_append]
  split_ifs with hp
  · rw [List.mem_singleton,and_iff_right hp]
  · exact or_congr_right (iff_of_false List.not_mem_nil fun h => hp h.1)

/-- A link that was not there may be added without repetition. -/
theorem nodup_append_ite {links : List ℕ} {p : Prop} [Decidable p] {link : ℕ}
    (h : links.Nodup) (hnew : p → link ∉ links) : (links++if p then [link] else []).Nodup := by
  split_ifs with hp
  · rw [← List.concat_eq_append]
    exact List.Nodup.concat (hnew hp) h
  · rwa [List.append_nil]

/-- A pair that joins nothing, or what is joined already, changes nothing. -/
theorem JoinedFrom.keep {s : Collected} {pairs : List (ThreatEvent×ThreatEvent)}
    {nodes : List ForensicGraphNode} (h : JoinedFrom s pairs nodes)
    {pair : ThreatEvent×ThreatEvent}
    (hold : ∀ i j,endpoints s.indexByPid pair=some (i,j) → j ∈ linksAt (·.children) nodes i) :
    JoinedFrom s (pairs++[pair]) nodes := by
  refine ⟨h.bare,fun i j => ?_,h.parents,h.childrenNodup,h.parentsNodup⟩
  constructor
  · intro hmem
    obtain ⟨p,hp,hends⟩ := (h.children i j).mp hmem
    exact ⟨p,List.mem_append_left _ hp,hends⟩
  · rintro ⟨p,hp,hends⟩
    rcases List.mem_append.mp hp with hbefore | hlast
    · exact (h.children i j).mpr ⟨p,hbefore,hends⟩
    · rw [List.mem_singleton.mp hlast] at hends
      exact hold i j hends

/-- A pair that joins two nodes anew adds the link at both of them. -/
theorem JoinedFrom.link {s : Collected} {pairs : List (ThreatEvent×ThreatEvent)}
    {nodes : List ForensicGraphNode} (h : JoinedFrom s pairs nodes)
    {pair : ThreatEvent×ThreatEvent} {source target : ℕ}
    (hends : endpoints s.indexByPid pair=some (source,target)) (hsource : source < nodes.length)
    (htarget : target < nodes.length) (hnew : target ∉ linksAt (·.children) nodes source) :
    JoinedFrom s (pairs++[pair])
      ((nodes.modify source (pushChild target)).modify target (pushParent source)) := by
  have hchildren : ∀ i,linksAt (·.children)
      ((nodes.modify source (pushChild target)).modify target (pushParent source)) i=
        linksAt (·.children) nodes i++if i=source then [target] else [] := fun i =>
    (linksAt_modify_same (·.children) (pushParent source) (fun _ => rfl) _ target i).trans
      (linksAt_modify_push (·.children) (pushChild target) (fun _ => rfl) hsource i)
  have hparents : ∀ j,linksAt (·.parents)
      ((nodes.modify source (pushChild target)).modify target (pushParent source)) j=
        linksAt (·.parents) nodes j++if j=target then [source] else [] := by
    intro j
    have hlength : target < (nodes.modify source (pushChild target)).length := by
      rwa [List.length_modify]
    rw [linksAt_modify_push (·.parents) (pushParent source) (fun _ => rfl) hlength j,
      linksAt_modify_same (·.parents) (pushChild target) fun _ => rfl]
  refine ⟨?_,fun i j => ?_,fun i j => ?_,fun i => ?_,fun j => ?_⟩
  · rw [map_modify unlinked (pushParent source) fun _ => rfl,
      map_modify unlinked (pushChild target) fun _ => rfl]
    exact h.bare
  · rw [hchildren,mem_append_ite,h.children]
    constructor
    · rintro (⟨p,hp,hbefore⟩ | ⟨rfl,rfl⟩)
      · exact ⟨p,List.mem_append_left _ hp,hbefore⟩
      · exact ⟨pair,List.mem_append_right _ (List.mem_singleton_self _),hends⟩
    · rintro ⟨p,hp,hjoins⟩
      rcases List.mem_append.mp hp with hbefore | hlast
      · exact Or.inl ⟨p,hbefore,hjoins⟩
      · rw [List.mem_singleton.mp hlast,hends,Option.some.injEq,Prod.mk.injEq] at hjoins
        exact Or.inr ⟨hjoins.1.symm,hjoins.2.symm⟩
  · rw [hchildren,hparents,mem_append_ite,mem_append_ite,h.parents,and_comm]
  · rw [hchildren]
    exact nodup_append_ite (h.childrenNodup i) fun hi => hi ▸ hnew
  · rw [hparents]
    exact nodup_append_ite (h.parentsNodup j) fun hj hmem =>
      hnew ((h.parents source target).mp (hj ▸ hmem))

/-- Every index that is found belongs to a node. -/
theorem CollectedFrom.lookup_lt {events : List ThreatEvent} {s : Collected}
    (h : CollectedFrom events s) {pid : UInt32} {i : ℕ} (hi : s.indexByPid.lookup pid=some i) :
    i < s.nodes.length := by
  have hpid := (h.index pid i).mp hi
  rw [← h.pids] at hpid
  have hlt := (List.getElem?_eq_some_iff.mp hpid).1
  rwa [List.length_map] at hlt

/-- Joining keeps the number of nodes. -/
theorem JoinedFrom.length {s : Collected} {pairs : List (ThreatEvent×ThreatEvent)}
    {nodes : List ForensicGraphNode} (h : JoinedFrom s pairs nodes) :
    nodes.length=s.nodes.length := by
  rw [← h.bare,List.length_map]

/-- Before the second loop there are no links. -/
theorem CollectedFrom.joined_nil {events : List ThreatEvent} {s : Collected}
    (h : CollectedFrom events s) : JoinedFrom s [] s.nodes := by
  have hbare : ∀ i,linksAt (·.children) s.nodes i=[] ∧ linksAt (·.parents) s.nodes i=[] := by
    intro i
    rw [linksAt,linksAt]
    cases hnode : s.nodes[i]? with
    | none => exact ⟨rfl,rfl⟩
    | some node => exact h.bare node (List.mem_of_getElem? hnode)
  refine ⟨?_,fun i j => ?_,fun i j => ?_,fun i => ?_,fun j => ?_⟩
  · rw [List.map_congr_left (g:=id),List.map_id]
    intro node hnode
    exact unlinked_eq (h.bare node hnode).1 (h.bare node hnode).2
  · rw [(hbare i).1]
    exact iff_of_false List.not_mem_nil fun ⟨pair,hpair,_⟩ => List.not_mem_nil hpair
  · rw [(hbare i).1,(hbare j).2]
    exact iff_of_false List.not_mem_nil List.not_mem_nil
  · rw [(hbare i).1]
    exact List.nodup_nil
  · rw [(hbare j).2]
    exact List.nodup_nil

/-- The second loop establishes all of it. -/
theorem joined {events : List ThreatEvent} {s : Collected} (h : CollectedFrom events s)
    (pairs : List (ThreatEvent×ThreatEvent)) :
    JoinedFrom s pairs (pairs.foldl (addEdge s.indexByPid) s.nodes) := by
  induction pairs using List.reverseRecOn with
  | nil => exact h.joined_nil
  | append_singleton pairs pair ih =>
    rw [List.foldl_append,List.foldl_cons,List.foldl_nil,addEdge]
    cases hends : endpoints s.indexByPid pair with
    | none =>
      exact ih.keep fun i j hsome => absurd (hends.symm.trans hsome) (Option.some_ne_none _).symm
    | some ends =>
      obtain ⟨source,target⟩ := ends
      obtain ⟨-,hsource,htarget⟩ := endpoints_eq_some.mp hends
      change JoinedFrom s _ (if target ∈ linksAt (·.children) _ source then _ else _)
      split_ifs with hold
      · refine ih.keep fun i j hjoins => ?_
        rw [hends,Option.some.injEq,Prod.mk.injEq] at hjoins
        rwa [← hjoins.1,← hjoins.2]
      · exact ih.link hends (ih.length ▸ h.lookup_lt hsource) (ih.length ▸ h.lookup_lt htarget) hold

/-- A list of links of a node that exists. -/
theorem linksAt_eq (field : ForensicGraphNode → List ℕ) {nodes : List ForensicGraphNode} {i : ℕ}
    (hi : i < nodes.length) : linksAt field nodes i=field nodes[i] := by
  rw [linksAt,List.getElem?_eq_getElem hi]
  rfl

/-- Neighbours in a list carry two values exactly when the values stand next
to each other. -/
theorem neighbours_iff {α β : Type*} (f : α → β) (l : List α) (a b : β) :
    (∃ pair ∈ l.zip l.tail,f pair.1=a ∧ f pair.2=b) ↔ [a,b] <:+: l.map f := by
  induction l with
  | nil =>
    exact iff_of_false (fun ⟨pair,hpair,_⟩ => List.not_mem_nil hpair) fun h =>
      absurd (List.infix_nil.mp h) (List.cons_ne_nil a [b])
  | cons x rest ih =>
    rw [List.map_cons,List.infix_cons_iff,List.cons_prefix_cons,← ih]
    cases rest with
    | nil =>
      refine iff_of_false (fun ⟨pair,hpair,_⟩ => List.not_mem_nil hpair) ?_
      rintro (⟨-,hb⟩ | ⟨pair,hpair,-⟩)
      · exact absurd (List.prefix_nil.mp hb) (List.cons_ne_nil b [])
      · exact List.not_mem_nil hpair
    | cons y rest =>
      rw [List.map_cons,List.singleton_prefix_cons_iff,List.tail_cons,List.zip_cons_cons]
      constructor
      · rintro ⟨pair,hpair,ha,hb⟩
        rcases List.mem_cons.mp hpair with rfl | hlater
        · exact Or.inl ⟨ha.symm,hb.symm⟩
        · exact Or.inr ⟨pair,hlater,ha,hb⟩
      · rintro (⟨ha,hb⟩ | ⟨pair,hlater,hends⟩)
        · exact ⟨(x,y),List.mem_cons_self,ha.symm,hb.symm⟩
        · exact ⟨pair,List.mem_cons_of_mem _ hlater,hends⟩

end Joining

/-- A graph describes the events it was built from. -/
structure Describes (events : List ThreatEvent) (nodes : List ForensicGraphNode) : Prop where
  /-- One node for each process, in order of first occurrence. -/
  pids : nodes.map (·.pid)=processes events
  /-- No two nodes are of one process. -/
  distinct : (nodes.map (·.pid)).Nodup
  /-- Counts and levels. -/
  summary : ∀ node ∈ nodes,Summarises events node
  /-- Children are nodes. -/
  childrenInRange : ∀ node ∈ nodes,∀ j ∈ node.children,j < nodes.length
  /-- Parents are nodes. -/
  parentsInRange : ∀ node ∈ nodes,∀ i ∈ node.parents,i < nodes.length
  /-- Children and parents mirror each other. -/
  mirrored : ∀ i j (hi : i < nodes.length) (hj : j < nodes.length),
    j ∈ nodes[i].children ↔ i ∈ nodes[j].parents
  /-- Children are the processes of events that follow immediately. -/
  consecutive : ∀ i j (hi : i < nodes.length) (hj : j < nodes.length),
    j ∈ nodes[i].children ↔ i≠j ∧ Consecutive events nodes[i].pid nodes[j].pid
  /-- No child is listed twice. -/
  childrenNodup : ∀ node ∈ nodes,node.children.Nodup
  /-- No parent is listed twice. -/
  parentsNodup : ∀ node ∈ nodes,node.parents.Nodup

section Built

variable {events : List ThreatEvent} {s : Collected} {pairs : List (ThreatEvent×ThreatEvent)}
  {nodes : List ForensicGraphNode}

/-- The second loop keeps the processes. -/
theorem JoinedFrom.pids (h : JoinedFrom s pairs nodes) (hs : CollectedFrom events s) :
    nodes.map (·.pid)=processes events := by
  rw [← hs.pids,← h.bare,List.map_map]
  rfl

/-- The index finds a node by its process. -/
theorem JoinedFrom.lookup_iff (h : JoinedFrom s pairs nodes) (hs : CollectedFrom events s) {i : ℕ}
    (hi : i < nodes.length) (pid : UInt32) :
    s.indexByPid.lookup pid=some i ↔ pid=nodes[i].pid := by
  rw [hs.index,← h.pids hs,List.getElem?_map,List.getElem?_eq_getElem hi,Option.map_some,
    Option.some.injEq,eq_comm]

/-- The second loop keeps the summaries. -/
theorem JoinedFrom.summary (h : JoinedFrom s pairs nodes) (hs : CollectedFrom events s)
    {node : ForensicGraphNode} (hnode : node ∈ nodes) : Summarises events node := by
  have hmem : unlinked node ∈ s.nodes := by
    rw [← h.bare]
    exact List.mem_map_of_mem hnode
  have hsummary := hs.summary (unlinked node) hmem
  exact ⟨hsummary.counted,hsummary.attained,hsummary.greatest⟩

/-- Both ends of a link are nodes. -/
theorem JoinedFrom.inRange (h : JoinedFrom s pairs nodes) (hs : CollectedFrom events s) {i j : ℕ}
    (hlink : j ∈ linksAt (·.children) nodes i) : i < nodes.length ∧ j < nodes.length := by
  obtain ⟨pair,-,hends⟩ := (h.children i j).mp hlink
  obtain ⟨-,hi,hj⟩ := endpoints_eq_some.mp hends
  rw [h.length]
  exact ⟨hs.lookup_lt hi,hs.lookup_lt hj⟩

/-- A child is the process of an event that immediately follows one of its
parent. -/
theorem JoinedFrom.child_iff (h : JoinedFrom s (events.zip events.tail) nodes)
    (hs : CollectedFrom events s) {i j : ℕ} (hi : i < nodes.length) (hj : j < nodes.length) :
    j ∈ nodes[i].children ↔ i≠j ∧ Consecutive events nodes[i].pid nodes[j].pid := by
  rw [← linksAt_eq (·.children) hi,h.children,Consecutive,← neighbours_iff]
  constructor
  · rintro ⟨pair,hpair,hends⟩
    obtain ⟨hne,hsource,htarget⟩ := endpoints_eq_some.mp hends
    exact ⟨hne,pair,hpair,(h.lookup_iff hs hi _).mp hsource,(h.lookup_iff hs hj _).mp htarget⟩
  · rintro ⟨hne,pair,hpair,hsource,htarget⟩
    exact ⟨pair,hpair,endpoints_eq_some.mpr
      ⟨hne,(h.lookup_iff hs hi _).mpr hsource,(h.lookup_iff hs hj _).mpr htarget⟩⟩

end Built

/-- The graph of every event list describes it. -/
theorem buildForensicGraph_describes (events : List ThreatEvent) :
    Describes events (buildForensicGraph events) := by
  have hs := collectNodes_collected events
  have h := joined hs (events.zip events.tail)
  change JoinedFrom _ _ (buildForensicGraph events) at h
  constructor
  case pids => exact h.pids hs
  case distinct =>
    rw [h.pids hs]
    exact processes_nodup events
  case summary => exact fun node hnode => h.summary hs hnode
  case childrenInRange =>
    intro node hnode j hj
    obtain ⟨i,hi,rfl⟩ := List.getElem_of_mem hnode
    rw [← linksAt_eq (·.children) hi] at hj
    exact (h.inRange hs hj).2
  case parentsInRange =>
    intro node hnode i hi
    obtain ⟨j,hj,rfl⟩ := List.getElem_of_mem hnode
    rw [← linksAt_eq (·.parents) hj,h.parents] at hi
    exact (h.inRange hs hi).1
  case mirrored =>
    intro i j hi hj
    rw [← linksAt_eq (·.children) hi,← linksAt_eq (·.parents) hj,h.parents]
  case consecutive => exact fun i j hi hj => h.child_iff hs hi hj
  case childrenNodup =>
    intro node hnode
    obtain ⟨i,hi,rfl⟩ := List.getElem_of_mem hnode
    rw [← linksAt_eq (·.children) hi]
    exact h.childrenNodup i
  case parentsNodup =>
    intro node hnode
    obtain ⟨j,hj,rfl⟩ := List.getElem_of_mem hnode
    rw [← linksAt_eq (·.parents) hj]
    exact h.parentsNodup j

end Gcad.ForensicGraph
