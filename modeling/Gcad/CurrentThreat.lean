import Gcad.ThreatTotals

/-!
# The current threat level

`current_threat_level` of engine_manager.cpp scans the bounded log from the
newest event back and stops at the first one whose age in whole minutes is
above ten. On a clock that never goes back this is the highest level among the
fresh events that are still held, and it is the highest level among all fresh
events as long as the log has not dropped one of them.
-/

namespace Gcad.CurrentThreat

open Common Threat ThreatTotals

/-- The age of an event in whole minutes, as `duration_cast` rounds it. -/
def ageMinutes (now : TimePoint) (ev : ThreatEvent) : ℤ := (now-ev.timestamp).tdiv (minutes 1)

/-- The scan goes on: the event is at most ten whole minutes old. -/
def fresh (now : TimePoint) (ev : ThreatEvent) : Bool := decide (ageMinutes now ev ≤ 10)

/-- The loop of `current_threat_level` over the events that remain, newest
first. -/
def scan (now : TimePoint) : UInt8 → List ThreatEvent → UInt8
  | maxLevel,[] => maxLevel
  | maxLevel,ev::rest =>
    if 10 < ageMinutes now ev then maxLevel
    else scan now (if maxLevel < ev.level then ev.level else maxLevel) rest

/-- `current_threat_level`, at a reading of the clock. -/
def currentThreatLevel (m : EngineManager) (now : TimePoint) : UInt8 :=
  if m.eventLog.isEmpty then levelValue .safe
  else scan now (levelValue .safe) m.eventLog.reverse

/-- The newest events of a sequence of calls that the log still holds, newest
first. -/
def held (calls : List (ThreatEvent×TimePoint)) : List ThreatEvent :=
  (pushed calls).reverse.take (heldCount calls.length)

/-- The clock never goes back between the calls. -/
def Steady (calls : List (ThreatEvent×TimePoint)) : Prop :=
  (calls.map Prod.snd).Pairwise (· ≤ ·)

/-- A level is the highest one of some events, or safe where there are none
above it. -/
def Highest (answer : UInt8) (events : List ThreatEvent) : Prop :=
  ∀ level : UInt8,0 < level → (level ≤ answer ↔ ∃ ev ∈ events,level ≤ ev.level)

/-- Rounding towards zero, ten whole minutes last up to the eleventh. -/
theorem tdiv_le_ten (age : ℤ) : age.tdiv 60000000000 ≤ 10 ↔ age < 660000000000 := by
  rcases le_total 0 age with hpast | hfuture
  · rw [Int.tdiv_eq_ediv_of_nonneg hpast]
    omega
  · have hneg := Int.tdiv_nonneg (b:=60000000000) (neg_nonneg.mpr hfuture) (by omega)
    rw [Int.neg_tdiv] at hneg
    omega

/-- An event is fresh until eleven minutes have passed. -/
theorem fresh_iff (now : TimePoint) (ev : ThreatEvent) :
    fresh now ev=true ↔ now-ev.timestamp < minutes 11 := by
  have hone : minutes 1=60000000000 := by norm_num [minutes,seconds]
  have heleven : minutes 11=660000000000 := by norm_num [minutes,seconds]
  rw [fresh,decide_eq_true_eq,ageMinutes,hone,heleven]
  exact tdiv_le_ten (now-ev.timestamp)

/-- The scan reaches a level exactly if it had it before or an event does
before which all are fresh. -/
theorem le_scan_iff (now : TimePoint) (level maxLevel : UInt8) (events : List ThreatEvent) :
    level ≤ scan now maxLevel events ↔
      level ≤ maxLevel ∨ ∃ ev ∈ events.takeWhile (fresh now),level ≤ ev.level := by
  induction events generalizing maxLevel with
  | nil => simp [scan]
  | cons ev rest ih =>
    by_cases hage : 10 < ageMinutes now ev
    · have hstale : fresh now ev=false := by simpa [fresh] using hage
      rw [scan,if_pos hage,List.takeWhile_cons_of_neg (by simp [hstale])]
      simp
    · have hfresh : fresh now ev=true := by simpa [fresh] using hage
      rw [scan,if_neg hage,List.takeWhile_cons_of_pos hfresh,ih]
      have hmax : level ≤ (if maxLevel < ev.level then ev.level else maxLevel) ↔
          level ≤ maxLevel ∨ level ≤ ev.level := by
        simp only [UInt8.le_iff_toNat_le,UInt8.lt_iff_toNat_lt]
        split <;> omega
      rw [hmax]
      simp [or_assoc]

/-- The answer is the highest level of the events before the first stale
one. -/
theorem currentThreatLevel_highest (m : EngineManager) (now : TimePoint) :
    Highest (currentThreatLevel m now) (m.eventLog.reverse.takeWhile (fresh now)) := by
  intro level h
  have hsafe : ¬level ≤ levelValue .safe := UInt8.not_le.mpr h
  unfold currentThreatLevel
  split_ifs with hempty
  · rw [List.isEmpty_iff] at hempty
    simp [hempty,hsafe]
  · rw [le_scan_iff]
    simp [hsafe]

/-- Only the events matter, not how often or in which order they come. -/
theorem Highest.congr {answer : UInt8} {events others : List ThreatEvent}
    (highest : Highest answer events) (h : ∀ ev,ev ∈ events ↔ ev ∈ others) :
    Highest answer others := by
  intro level hlevel
  rw [highest level hlevel]
  simp only [h]

/-- The log holds the newest events. -/
theorem eventLog_eq_held (calls : List (ThreatEvent×TimePoint)) :
    (run calls).eventLog.reverse=held calls := by
  obtain ⟨dropped,hdropped⟩ := eventLog_suffix calls
  have hlength : (run calls).eventLog.length=heldCount calls.length := totalThreats_run calls
  rw [held,← hdropped,List.reverse_append,List.take_append_of_le_length (by simp [hlength]),
    List.take_of_length_le (by simp [hlength])]

/-- The times of the pushed events are the times of the calls. -/
theorem timestamp_pushed (calls : List (ThreatEvent×TimePoint)) :
    (pushed calls).map ThreatEvent.timestamp=calls.map Prod.snd := by
  refine List.ext_getElem (by simp [pushed]) fun i hi hi' => ?_
  simp [pushed,stamp]

/-- On a clock that never goes back the held events get older one by one. -/
theorem held_sorted {calls : List (ThreatEvent×TimePoint)} (steady : Steady calls) :
    (held calls).Pairwise fun newer older => older.timestamp ≤ newer.timestamp := by
  rw [Steady,← timestamp_pushed,List.pairwise_map] at steady
  exact (List.pairwise_reverse.mpr steady).sublist (List.take_sublist _ _)

/-- Where events get older one by one, the fresh ones are a front. -/
theorem takeWhile_fresh {now : TimePoint} {events : List ThreatEvent}
    (sorted : events.Pairwise fun newer older => older.timestamp ≤ newer.timestamp) :
    events.takeWhile (fresh now)=events.filter (fresh now) := by
  induction events with
  | nil => rfl
  | cons ev rest ih =>
    rw [List.pairwise_cons] at sorted
    by_cases hfresh : fresh now ev=true
    · rw [List.takeWhile_cons_of_pos hfresh,List.filter_cons_of_pos hfresh,ih sorted.2]
    · have hnone : ∀ older ∈ rest,¬fresh now older=true := by
        intro older hold hfresh'
        rw [fresh_iff] at hfresh hfresh'
        have htime := sorted.1 older hold
        exact hfresh (by linarith)
      rw [List.takeWhile_cons_of_neg hfresh,List.filter_cons_of_neg hfresh,
        List.filter_eq_nil_iff.mpr hnone]

/-- Where at most 5001 pushed events are fresh on a clock that never goes
back, the log still holds all of them. -/
theorem fresh_held {calls : List (ThreatEvent×TimePoint)} (steady : Steady calls)
    {now : TimePoint} (hfew : (pushed calls).countP (fresh now) ≤ 5001) {ev : ThreatEvent}
    (hev : ev ∈ pushed calls) (hfresh : fresh now ev=true) : ev ∈ held calls := by
  have hlength : (pushed calls).length=calls.length := by simp [pushed]
  by_cases hall : calls.length ≤ 10000
  · have hcount : heldCount calls.length=calls.length := if_pos hall
    rw [held,hcount,List.take_of_length_le (by simp [hlength])]
    exact List.mem_reverse.mpr hev
  · have hcount : 5001 ≤ heldCount calls.length := by
      rw [heldCount,if_neg hall]
      omega
    have hsorted : (pushed calls).reverse.Pairwise
        fun newer older => older.timestamp ≤ newer.timestamp := by
      rw [Steady,← timestamp_pushed,List.pairwise_map] at steady
      exact List.pairwise_reverse.mpr steady
    have hfront : ev ∈ (pushed calls).reverse.takeWhile (fresh now) := by
      rw [takeWhile_fresh hsorted,List.mem_filter]
      exact ⟨List.mem_reverse.mpr hev,hfresh⟩
    have hshort : ((pushed calls).reverse.takeWhile (fresh now)).length ≤
        heldCount calls.length := by
      rw [takeWhile_fresh hsorted,← List.countP_eq_length_filter,List.countP_reverse]
      omega
    have htaken := List.takeWhile_prefix (fresh now) (l:=(pushed calls).reverse)
    exact (List.prefix_take_iff.mpr ⟨htaken,hshort⟩).mem hfront

/-- After every sequence of calls and at every reading of the clock the level
is the highest one of the held events newer than the first stale one. On a
clock that never goes back these are all the fresh events that are held, and
all fresh events at all where at most 5001 are fresh. -/
theorem current_level_exact (calls : List (ThreatEvent×TimePoint)) (now : TimePoint) :
    Highest (currentThreatLevel (run calls) now) ((held calls).takeWhile (fresh now)) ∧
      (Steady calls →
        Highest (currentThreatLevel (run calls) now) ((held calls).filter (fresh now)) ∧
          ((pushed calls).countP (fresh now) ≤ 5001 →
            Highest (currentThreatLevel (run calls) now) ((pushed calls).filter (fresh now)))) := by
  have hfront := currentThreatLevel_highest (run calls) now
  rw [eventLog_eq_held] at hfront
  refine ⟨hfront,fun steady => ?_⟩
  rw [takeWhile_fresh (held_sorted steady)] at hfront
  refine ⟨hfront,fun hfew => hfront.congr fun ev => ?_⟩
  rw [List.mem_filter,List.mem_filter]
  refine and_congr_left fun hfresh => ⟨fun hev => ?_,fun hev => ?_⟩
  · exact List.mem_reverse.mp (List.mem_of_mem_take hev)
  · exact fresh_held steady hfew hev hfresh

/-- A critical event and a low one. -/
def criticalCalls : List (ThreatEvent×TimePoint) :=
  [({ ThreatEvent.default with level := 4 },0),({ ThreatEvent.default with level := 1 },5)]

/-- Until it is eleven minutes old the critical event decides, after that the
low one is the only fresh one. -/
theorem criticalCalls_level :
    Highest 4 ((pushed criticalCalls).filter (fresh (minutes 11-1))) ∧
      Highest 1 ((pushed criticalCalls).filter (fresh (minutes 11))) := by
  have steady : Steady criticalCalls := by simp [Steady,criticalCalls]
  have hbefore : currentThreatLevel (run criticalCalls) (minutes 11-1)=4 := by decide
  have hafter : currentThreatLevel (run criticalCalls) (minutes 11)=1 := by decide
  have hfew : ∀ now,(pushed criticalCalls).countP (fresh now) ≤ 5001 := fun now =>
    List.countP_le_length.trans (by decide)
  refine ⟨?_,?_⟩
  · rw [← hbefore]
    exact ((current_level_exact criticalCalls (minutes 11-1)).2 steady).2 (hfew _)
  · rw [← hafter]
    exact ((current_level_exact criticalCalls (minutes 11)).2 steady).2 (hfew _)

end Gcad.CurrentThreat
