import Gcad.StableSort
import Gcad.Threat

/-!
# The totals of the event log

`EngineManager` answers every question about past threats from one bounded
log. The log drops its older half whenever it outgrows its bound, so the
totals are those of the events that are still held. Both histograms are
counted over the same log and agree with its length.
-/

namespace Gcad.ThreatTotals

open Common Threat

/-- The members of `EngineManager` that the totals depend on. -/
structure EngineManager where
  /-- The events kept, oldest first. -/
  eventLog : List ThreatEvent
  /-- The number of the next event. -/
  nextId : UInt64

/-- A new manager. -/
def EngineManager.initial : EngineManager := ⟨[],1⟩

/-- The event with the number and the time that `push_event` gives it. -/
def stamp (id : UInt64) (now : TimePoint) (ev : ThreatEvent) : ThreatEvent :=
  { ev with id := id,timestamp := now }

/-- The log after `push_back` and the bounded `erase`. -/
def trim (log : List ThreatEvent) : List ThreatEvent :=
  if 10000 < log.length then log.drop 5000 else log

/-- `push_event`, at a reading of the clock. -/
def pushEvent (m : EngineManager) (ev : ThreatEvent) (now : TimePoint) : EngineManager where
  eventLog := trim (m.eventLog++[stamp m.nextId now ev])
  nextId := m.nextId+1

/-- `total_threats`. -/
def totalThreats (m : EngineManager) : ℕ := m.eventLog.length

/-- One round of the loop of `severity_histogram`. -/
def countLevel (h : List ℕ) (ev : ThreatEvent) : List ℕ :=
  if ev.level.toNat < h.length then h.modify ev.level.toNat (·+1) else h

/-- `severity_histogram`. -/
def severityHistogram (m : EngineManager) : List ℕ :=
  m.eventLog.foldl countLevel (List.replicate 5 0)

/-- `++counts[category]` on an ordered map. -/
def bump (category : UInt16) : List (UInt16×ℕ) → List (UInt16×ℕ)
  | [] => [(category,1)]
  | (key,n)::rest =>
    if category < key then (category,1)::(key,n)::rest
    else if category=key then (key,n+1)::rest
    else (key,n)::bump category rest

/-- `std::sort` by count: some rearrangement with the counts descending. -/
structure CountSort where
  /-- The sorted counts. -/
  sort : List (UInt16×ℕ) → List (UInt16×ℕ)
  /-- Nothing is added or lost. -/
  perm : ∀ counts,(sort counts).Perm counts
  /-- Counts descend. -/
  sorted : ∀ counts,(sort counts).Pairwise fun a b => b.2 ≤ a.2

/-- The stable sort is one such rearrangement. -/
def CountSort.stable : CountSort where
  sort counts := counts.mergeSort fun a b => decide (b.2 ≤ a.2)
  perm counts := List.mergeSort_perm counts _
  sorted counts := StableSort.pairwise_mergeSort_rel (fun _ _ _ hab hbc => hbc.trans hab)
    (fun a b => le_total b.2 a.2) counts

/-- The loop of `category_histogram`. -/
def countCategories (log : List ThreatEvent) : List (UInt16×ℕ) :=
  log.foldl (fun counts ev => bump ev.category counts) []

/-- `category_histogram`. -/
def categoryHistogram (sort : CountSort) (m : EngineManager) : List (UInt16×ℕ) :=
  sort.sort (countCategories m.eventLog)

/-- The manager after a sequence of calls. -/
def run (calls : List (ThreatEvent×TimePoint)) : EngineManager :=
  calls.foldl (fun m call => pushEvent m call.1 call.2) .initial

/-- The last call of a sequence. -/
theorem run_append (calls : List (ThreatEvent×TimePoint)) (call : ThreatEvent×TimePoint) :
    run (calls++[call])=pushEvent (run calls) call.1 call.2 := by
  rw [run,List.foldl_append,List.foldl_cons,List.foldl_nil,run]

section Log

/-- Events that the log holds after a number of calls. -/
def heldCount (n : ℕ) : ℕ := if n ≤ 10000 then n else 5001+(n-10001)%5000

/-- One more call. -/
theorem heldCount_succ (n : ℕ) :
    (if 10000 < heldCount n+1 then heldCount n+1-5000 else heldCount n+1)=heldCount (n+1) := by
  rw [heldCount,heldCount]
  split_ifs <;> omega

/-- The bound keeps the newest events. -/
theorem trim_suffix (log : List ThreatEvent) : trim log <:+ log := by
  rw [trim]
  split
  · exact List.drop_suffix 5000 log
  · exact List.suffix_rfl

/-- The number of events that the bound keeps. -/
theorem length_trim (log : List ThreatEvent) :
    (trim log).length=if 10000 < log.length then log.length-5000 else log.length := by
  rw [trim]
  split
  · exact List.length_drop
  · rfl

/-- The total moves with the number of calls as long as the log has room,
and between half and all of the bound from then on. -/
theorem totalThreats_run (calls : List (ThreatEvent×TimePoint)) :
    totalThreats (run calls)=heldCount calls.length := by
  induction calls using List.reverseRecOn with
  | nil => rfl
  | append_singleton calls call ih =>
    rw [totalThreats] at ih
    rw [run_append,totalThreats,pushEvent,length_trim,List.length_append,List.length_append,ih,
      List.length_singleton,List.length_singleton,heldCount_succ]

/-- All events of a sequence of calls, as they were stamped. -/
def pushed (calls : List (ThreatEvent×TimePoint)) : List ThreatEvent :=
  calls.mapIdx fun i call => stamp (UInt64.ofNat (i+1)) call.2 call.1

/-- Numbers are given in the order of the calls. -/
theorem nextId_run (calls : List (ThreatEvent×TimePoint)) :
    (run calls).nextId=UInt64.ofNat (calls.length+1) := by
  induction calls using List.reverseRecOn with
  | nil => rfl
  | append_singleton calls call ih =>
    have hnext : (run (calls++[call])).nextId=(run calls).nextId+1 := by rw [run_append,pushEvent]
    rw [hnext,ih,List.length_append,List.length_singleton,UInt64.ofNat_add (calls.length+1) 1]
    rfl

/-- The log holds the newest events that were pushed. -/
theorem eventLog_suffix (calls : List (ThreatEvent×TimePoint)) :
    (run calls).eventLog <:+ pushed calls := by
  induction calls using List.reverseRecOn with
  | nil => exact List.suffix_rfl
  | append_singleton calls call ih =>
    obtain ⟨dropped,hdropped⟩ := ih
    have hpushed : pushed (calls++[call])=
        pushed calls++[stamp (run calls).nextId call.2 call.1] := by
      rw [pushed,List.mapIdx_concat,nextId_run,pushed]
    rw [run_append,pushEvent,hpushed,← hdropped,List.append_assoc]
    exact (trim_suffix _).trans (List.suffix_append _ _)

/-- Whatever holds of the level of every event holds of those in the log. -/
theorem eventLog_level {calls : List (ThreatEvent×TimePoint)} {p : UInt8 → Prop}
    (h : ∀ call ∈ calls,p call.1.level) : ∀ ev ∈ (run calls).eventLog,p ev.level := by
  intro ev hev
  have hpushed : ev ∈ pushed calls := (eventLog_suffix calls).mem hev
  rw [pushed,List.mem_mapIdx] at hpushed
  obtain ⟨i,hi,rfl⟩ := hpushed
  exact h _ (List.getElem_mem hi)

end Log

section Severity

/-- Incrementing an element adds one to the sum. -/
theorem sum_modify {h : List ℕ} {i : ℕ} (hi : i < h.length) :
    (h.modify i (·+1)).sum=h.sum+1 := by
  induction h generalizing i with
  | nil => exact absurd hi (Nat.not_lt_zero i)
  | cons n rest ih =>
    cases i with
    | zero =>
      rw [List.modify_zero_cons,List.sum_cons,List.sum_cons]
      omega
    | succ i =>
      rw [List.modify_succ_cons,List.sum_cons,List.sum_cons,ih (Nat.lt_of_succ_lt_succ hi)]
      omega

/-- The histogram keeps its size. -/
theorem length_countLevel (h : List ℕ) (ev : ThreatEvent) :
    (countLevel h ev).length=h.length := by
  rw [countLevel]
  split
  · exact List.length_modify _ _ _
  · rfl

/-- Every event whose level has a place is counted once. -/
theorem sum_countLevel (log : List ThreatEvent) (h : List ℕ) :
    (log.foldl countLevel h).sum=
      h.sum+log.countP fun ev => decide (ev.level.toNat < h.length) := by
  induction log generalizing h with
  | nil => rfl
  | cons ev rest ih =>
    rw [List.foldl_cons,ih,length_countLevel,List.countP_cons]
    by_cases hlevel : ev.level.toNat < h.length
    · rw [countLevel,if_pos hlevel,sum_modify hlevel,if_pos (decide_eq_true hlevel)]
      omega
    · rw [countLevel,if_neg hlevel,if_neg fun hdecide => hlevel (of_decide_eq_true hdecide)]
      rfl

/-- The histogram sums to the number of held events with an enumerated
level. -/
theorem severityHistogram_sum (m : EngineManager) :
    (severityHistogram m).sum=m.eventLog.countP fun ev => decide (ev.level.toNat < 5) := by
  rw [severityHistogram,sum_countLevel,List.length_replicate,List.sum_replicate,smul_zero,
    Nat.zero_add]

end Severity

section Category

/-- What the counts of the categories of a kind sum to. -/
def weight (p : UInt16 → Bool) (counts : List (UInt16×ℕ)) : ℕ :=
  ((counts.filter fun entry => p entry.1).map Prod.snd).sum

/-- The weight of a first entry. -/
theorem weight_cons (p : UInt16 → Bool) (entry : UInt16×ℕ) (counts : List (UInt16×ℕ)) :
    weight p (entry::counts)=(if p entry.1 then entry.2 else 0)+weight p counts := by
  rw [weight,List.filter_cons]
  split
  · rw [List.map_cons,List.sum_cons,weight]
  · rw [weight,Nat.zero_add]

/-- A bump adds one to the weight of every kind that its category is of. -/
theorem weight_bump (p : UInt16 → Bool) (category : UInt16) (counts : List (UInt16×ℕ)) :
    weight p (bump category counts)=weight p counts+if p category then 1 else 0 := by
  induction counts with
  | nil => rw [bump,weight_cons,Nat.add_comm]
  | cons entry rest ih =>
    obtain ⟨key,n⟩ := entry
    rw [bump]
    split
    · rw [weight_cons,Nat.add_comm]
    · split
      · rename_i hkey
        rw [weight_cons,weight_cons,hkey]
        split
        · omega
        · rfl
      · rw [weight_cons,weight_cons,ih,Nat.add_assoc]

/-- The counts of a kind of category sum to the number of its events. -/
theorem weight_countCategories (p : UInt16 → Bool) (log : List ThreatEvent) :
    weight p (countCategories log)=log.countP fun ev => p ev.category := by
  induction log using List.reverseRecOn with
  | nil => rfl
  | append_singleton log ev ih =>
    rw [countCategories] at ih
    rw [countCategories,List.foldl_append,List.foldl_cons,List.foldl_nil,weight_bump,ih,
      List.countP_append,List.countP_singleton]

/-- Sorting keeps every weight. -/
theorem weight_categoryHistogram (sort : CountSort) (p : UInt16 → Bool) (m : EngineManager) :
    weight p (categoryHistogram sort m)=m.eventLog.countP fun ev => p ev.category := by
  rw [← weight_countCategories]
  exact (((sort.perm _).filter _).map _).sum_eq

/-- The histogram sums to the number of held events. -/
theorem categoryHistogram_sum (sort : CountSort) (m : EngineManager) :
    ((categoryHistogram sort m).map Prod.snd).sum=totalThreats m := by
  have h := weight_categoryHistogram sort (fun _ => true) m
  rwa [weight,List.filter_eq_self.mpr fun _ _ => rfl,List.countP_true] at h

end Category

/-- After every sequence of calls with enumerated levels the total is the
number of held events, and both histograms sum to it. -/
theorem totals_agree (sort : CountSort) (calls : List (ThreatEvent×TimePoint))
    (h : ∀ call ∈ calls,call.1.level.toNat < 5) :
    totalThreats (run calls)=heldCount calls.length ∧
      (severityHistogram (run calls)).sum=totalThreats (run calls) ∧
      ((categoryHistogram sort (run calls)).map Prod.snd).sum=totalThreats (run calls) := by
  refine ⟨totalThreats_run calls,?_,categoryHistogram_sum sort _⟩
  rw [severityHistogram_sum,totalThreats,List.countP_eq_length]
  intro ev hev
  exact decide_eq_true (eventLog_level (p:=fun level => level.toNat < 5) h ev hev)

/-- Two calls are both counted. -/
theorem two_calls_agree :
    totalThreats (run [(.default,1000),({ ThreatEvent.default with level := 4 },1001)])=
        heldCount 2 ∧
      (severityHistogram (run [(.default,1000),
        ({ ThreatEvent.default with level := 4 },1001)])).sum=
        totalThreats (run [(.default,1000),({ ThreatEvent.default with level := 4 },1001)]) ∧
      ((categoryHistogram .stable (run [(.default,1000),
        ({ ThreatEvent.default with level := 4 },1001)])).map Prod.snd).sum=
        totalThreats (run [(.default,1000),({ ThreatEvent.default with level := 4 },1001)]) :=
  totals_agree .stable [(.default,1000),({ ThreatEvent.default with level := 4 },1001)] (by decide)

/-- The call after ten thousand leaves fewer than before. -/
theorem totals_shrink :
    totalThreats (run (List.replicate 10000 (.default,1000)))=10000 ∧
      totalThreats (run (List.replicate 10001 (.default,1000)))=5001 := by
  rw [totalThreats_run,totalThreats_run,List.length_replicate,List.length_replicate]
  exact ⟨rfl,rfl⟩

end Gcad.ThreatTotals
