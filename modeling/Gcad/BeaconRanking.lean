import Gcad.DnsMonitor
import Gcad.NetworkDpi
import Gcad.StableSort
import Gcad.TopSelection

/-!
# The ranking of beacons

`detected_beacons` collects patterns in the order in which the map happens to
enumerate the timelines, stops as soon as enough are there and sorts what it
has. The test for enough follows the append, so one pattern is collected even
where none is asked for.
-/

namespace Gcad.BeaconRanking

open Common Threat KeyedMap NetworkDpi TopSelection
open PeStaticAnalysis (ge)
open DnsMonitor (gt)

/-- `BeaconPattern`. -/
structure BeaconPattern where
  /-- The address of the destination. -/
  dstIp : Str
  /-- Its port. -/
  dstPort : UInt16
  /-- How many connections were measured. -/
  connectionCount : ℕ
  /-- Their mean distance in milliseconds. -/
  intervalMeanMs : Double
  /-- How far the distances spread. -/
  intervalStddevMs : Double
  /-- The spread in relation to the mean. -/
  jitterRatio : Double
  /-- How regular they are; the ranking goes by it. -/
  beaconScore : Double
  deriving DecidableEq

/-- One pattern scores higher than another. -/
def Higher (a b : BeaconPattern) : Prop := gt a.beaconScore b.beaconScore=true

instance (a b : BeaconPattern) : Decidable (Higher a b) := inferInstanceAs (Decidable (_=true))

/-- `std::sort` by score: some rearrangement that leaves no pattern behind a
lower one, wherever the scores are numbers. -/
structure ScoreSort where
  /-- The sorted patterns. -/
  sort : List BeaconPattern → List BeaconPattern
  /-- Nothing is added or lost. -/
  perm : ∀ patterns,(sort patterns).Perm patterns
  /-- Scores descend. -/
  sorted : ∀ patterns,(∀ p ∈ patterns,p.beaconScore≠.nan) →
    (sort patterns).Pairwise fun a b => ¬Higher b a

/-- Where a score stands: below the finite ones, among them or above. -/
def scoreKey : Double → ℤ×ₗℤ
  | .nan => toLex (0,0)
  | .infinite negative => toLex (if negative then -1 else 1,0)
  | .finite negative m e _ _ =>
    toLex (0,(if negative then -1 else 1)*((m*2^(e+1074).toNat : ℕ) : ℤ))

/-- Numbers compare as their keys do. -/
theorem ge_of_scoreKey {a b : Double} (ha : a≠.nan) (hb : b≠.nan)
    (h : scoreKey b ≤ scoreKey a) : ge a b=true := by
  match a,b with
  | .nan,_ => exact absurd rfl ha
  | _,.nan => exact absurd rfl hb
  | .infinite false,.infinite _ => rfl
  | .infinite false,.finite _ _ _ _ _ => rfl
  | .infinite true,.infinite true => rfl
  | .infinite true,.infinite false => exact absurd h (by decide)
  | .infinite true,.finite _ _ _ _ _ =>
    rcases Prod.Lex.toLex_le_toLex.mp h with hlt | ⟨heq,-⟩
    · exact absurd hlt (show ¬(0 : ℤ) < -1 by decide)
    · exact absurd heq (show (0 : ℤ)≠-1 by decide)
  | .finite _ _ _ _ _,.infinite true => rfl
  | .finite _ _ _ _ _,.infinite false =>
    rcases Prod.Lex.toLex_le_toLex.mp h with hlt | ⟨heq,-⟩
    · exact absurd hlt (show ¬(1 : ℤ) < 0 by decide)
    · exact absurd heq (show (1 : ℤ)≠0 by decide)
  | .finite _ _ _ _ _,.finite _ _ _ _ _ =>
    rcases Prod.Lex.toLex_le_toLex.mp h with hlt | ⟨-,hle⟩
    · exact absurd hlt (lt_irrefl _)
    · exact decide_eq_true hle

/-- The stable sort is one such rearrangement. -/
def ScoreSort.stable : ScoreSort where
  sort patterns := patterns.mergeSort fun a b =>
    decide (scoreKey b.beaconScore ≤ scoreKey a.beaconScore)
  perm patterns := List.mergeSort_perm patterns _
  sorted patterns hnumbers := by
    have h : (patterns.mergeSort fun a b =>
        decide (scoreKey b.beaconScore ≤ scoreKey a.beaconScore)).Pairwise
        fun a b => scoreKey b.beaconScore ≤ scoreKey a.beaconScore :=
      StableSort.pairwise_mergeSort_rel (fun _ _ _ hab hbc => hbc.trans hab)
        (fun a b => le_total (scoreKey b.beaconScore) (scoreKey a.beaconScore)) patterns
    refine h.imp_of_mem fun {a b} ha hb hab hhigher => ?_
    have hge := ge_of_scoreKey (hnumbers a (List.mem_mergeSort.mp ha))
      (hnumbers b (List.mem_mergeSort.mp hb)) hab
    rw [Higher,gt,hge] at hhigher
    exact absurd hhigher (by rw [Bool.not_true,Bool.and_false]; exact Bool.false_ne_true)

section Collection

variable (measure : List TimePoint → BeaconMeasure)

/-- The pattern of a timeline. -/
def pattern (tl : ConnectionTimeline) : BeaconPattern where
  dstIp := tl.dstIp
  dstPort := tl.dstPort
  connectionCount := tl.timestamps.length
  intervalMeanMs := (measure tl.timestamps).mean
  intervalStddevMs := (measure tl.timestamps).stddev
  jitterRatio := (measure tl.timestamps).jitterRatio
  beaconScore := (measure tl.timestamps).score

/-- The loop of `detected_beacons`. -/
def collect (n : ℕ) : List ((_ : Str)×ConnectionTimeline) → List BeaconPattern → List BeaconPattern
  | [],result => result
  | entry::rest,result =>
    if entry.2.timestamps.length < BEACON_MIN_CONNECTIONS then collect n rest result
    else if (intervals entry.2.timestamps).isEmpty then collect n rest result
    else if hot measure entry.2 then
      let result := result++[pattern measure entry.2]
      if n ≤ result.length then result else collect n rest result
    else collect n rest result

/-- `detected_beacons`. -/
def detectedBeacons (sort : ScoreSort) (order : IterationOrder Str ConnectionTimeline)
    (engine : NetworkDpiEngine) (n : ℕ) : List BeaconPattern :=
  sort.sort (collect measure n (order.order engine.connTimelines.entries) [])

/-- The patterns of the timelines that qualify. -/
def qualifying (entries : List ((_ : Str)×ConnectionTimeline)) : List BeaconPattern :=
  (entries.filter fun entry => Beacon measure entry.2).map fun entry => pattern measure entry.2

/-- A timeline that does not qualify is passed over. -/
theorem collect_quiet (n : ℕ) {entry : (_ : Str)×ConnectionTimeline}
    (rest : List ((_ : Str)×ConnectionTimeline)) (result : List BeaconPattern)
    (h : ¬Beacon measure entry.2) :
    collect measure n (entry::rest) result=collect measure n rest result := by
  rw [collect]
  by_cases hshort : entry.2.timestamps.length < BEACON_MIN_CONNECTIONS
  · rw [if_pos hshort]
  · have hcold : ¬hot measure entry.2=true := fun hhot => h ⟨not_lt.mp hshort,hhot⟩
    rw [if_neg hshort,if_neg hcold,ite_self]

/-- A timeline that qualifies is collected. -/
theorem collect_beacon (n : ℕ) {entry : (_ : Str)×ConnectionTimeline}
    (rest : List ((_ : Str)×ConnectionTimeline)) (result : List BeaconPattern)
    (h : Beacon measure entry.2) :
    collect measure n (entry::rest) result=
      if n ≤ result.length+1 then result++[pattern measure entry.2]
      else collect measure n rest (result++[pattern measure entry.2]) := by
  rw [collect,if_neg (not_lt.mpr h.1),intervals_ne_nil h.1,if_neg Bool.false_ne_true,if_pos h.2]
  dsimp only
  rw [List.length_append,List.length_singleton]

/-- The loop collects the first patterns, and at least one if there is one. -/
theorem collect_eq (n : ℕ) (entries : List ((_ : Str)×ConnectionTimeline))
    (result : List BeaconPattern) :
    collect measure n entries result=
      result++(qualifying measure entries).take (max 1 (n-result.length)) := by
  induction entries generalizing result with
  | nil => rw [collect,qualifying,List.filter_nil,List.map_nil,List.take_nil,List.append_nil]
  | cons entry entries ih =>
    by_cases hbeacon : Beacon measure entry.2
    · have hhead : qualifying measure (entry::entries)=
          pattern measure entry.2::qualifying measure entries := by
        rw [qualifying,List.filter_cons_of_pos (by rwa [decide_eq_true_iff]),List.map_cons]
        rfl
      rw [collect_beacon measure n entries result hbeacon,hhead]
      split_ifs with henough
      · have hone : max 1 (n-result.length)=1 := by omega
        rw [hone,List.take_succ_cons,List.take_zero]
      · have hmore : max 1 (n-result.length)=
            max 1 (n-(result++[pattern measure entry.2]).length)+1 := by
          rw [List.length_append,List.length_singleton]
          omega
        rw [ih,hmore,List.take_succ_cons,List.append_assoc,List.singleton_append]
    · have htail : qualifying measure (entry::entries)=qualifying measure entries := by
        rw [qualifying,List.filter_cons_of_neg (by rwa [decide_eq_true_iff])]
        rfl
      rw [collect_quiet measure n entries result hbeacon,htail,ih]

/-- A pattern that qualifies has a number for its score. -/
theorem qualifying_score {entries : List ((_ : Str)×ConnectionTimeline)} {p : BeaconPattern}
    (h : p ∈ qualifying measure entries) : p.beaconScore≠.nan := by
  obtain ⟨entry,hmem,rfl⟩ := List.mem_map.mp h
  have hhot := (of_decide_eq_true (List.mem_filter.mp hmem).2).2
  intro hnan
  change (measure entry.2.timestamps).score=.nan at hnan
  rw [hot,hnan] at hhot
  exact Bool.false_ne_true hhot

/-- What is returned are the best patterns exactly when as many as asked for
were collected and none enumerated later scores higher. -/
theorem detectedBeacons_best_iff (sort : ScoreSort) (order : IterationOrder Str ConnectionTimeline)
    (engine : NetworkDpiEngine) (n : ℕ) {pool : List BeaconPattern}
    (hpool : qualifying measure (order.order engine.connTimelines.entries)=pool) :
    Best Higher n pool (detectedBeacons measure sort order engine n) ↔
      min (max 1 n) pool.length=min n pool.length ∧
        ∀ l ∈ pool.drop (max 1 n),∀ r ∈ pool.take (max 1 n),¬Higher l r := by
  have hcollect := collect_eq measure n (order.order engine.connTimelines.entries) []
  rw [List.nil_append,List.length_nil,Nat.sub_zero,hpool] at hcollect
  rw [detectedBeacons,hcollect]
  have hnumbers : ∀ p ∈ pool.take (max 1 n),p.beaconScore≠.nan :=
    fun p hp => qualifying_score measure (hpool ▸ List.mem_of_mem_take hp)
  exact best_take_iff Higher (sort.perm _) (sort.sorted _ hnumbers)

/-- `detected_beacons` selects the best patterns exactly when one is asked
for or none qualifies, and none of the timelines enumerated too late scores
higher than one that was collected. -/
theorem detectedBeacons_iff (sort : ScoreSort) (order : IterationOrder Str ConnectionTimeline)
    (engine : NetworkDpiEngine) (n : ℕ) :
    Best Higher n (qualifying measure engine.connTimelines.entries)
      (detectedBeacons measure sort order engine n) ↔
    (n=0 → qualifying measure engine.connTimelines.entries=[]) ∧
      ∀ l ∈ (qualifying measure (order.order engine.connTimelines.entries)).drop n,
        ∀ r ∈ (qualifying measure (order.order engine.connTimelines.entries)).take n,
          ¬Higher l r := by
  have hpool : (qualifying measure engine.connTimelines.entries).Perm
      (qualifying measure (order.order engine.connTimelines.entries)) :=
    (((order.perm engine.connTimelines.entries).filter _).map _).symm
  have hnone : qualifying measure engine.connTimelines.entries=[] ↔
      qualifying measure (order.order engine.connTimelines.entries)=[] := by
    rw [←List.length_eq_zero_iff,hpool.length_eq,List.length_eq_zero_iff]
  rw [best_congr Higher hpool,hnone,detectedBeacons_best_iff measure sort order engine n rfl]
  cases n with
  | zero =>
    rw [List.take_zero,Nat.zero_min,max_eq_left zero_le_one]
    constructor
    · rintro ⟨hcount,-⟩
      exact ⟨fun _ => List.length_eq_zero_iff.mp (by omega),
        fun _ _ _ h => absurd h List.not_mem_nil⟩
    · rintro ⟨hempty,-⟩
      rw [hempty rfl]
      exact ⟨rfl,fun _ h => absurd h List.not_mem_nil⟩
  | succ n =>
    rw [max_eq_right (by omega : 1 ≤ n+1)]
    exact and_congr_left fun _ => iff_of_true rfl (fun h => absurd h (Nat.succ_ne_zero n))

end Collection

/-- Six connections to one destination, then five to another, a second apart. -/
def unevenPackets : List PacketMeta :=
  [⟨0,"b".toList,443⟩,⟨10^9,"b".toList,443⟩,⟨2*10^9,"b".toList,443⟩,⟨3*10^9,"b".toList,443⟩,
    ⟨4*10^9,"b".toList,443⟩,⟨5*10^9,"b".toList,443⟩,⟨6*10^9,"a".toList,443⟩,
    ⟨7*10^9,"a".toList,443⟩,⟨8*10^9,"a".toList,443⟩,⟨9*10^9,"a".toList,443⟩,
    ⟨10*10^9,"a".toList,443⟩]

/-- The engine after these packets. -/
def unevenEngine : NetworkDpiEngine := unevenPackets.foldl inspectPacket (create true)

/-- The timeline of the lower score is the one returned when the map
enumerates it first, and one is returned where none is asked for. -/
theorem uneven_beacons_misranked :
    ¬Best Higher 1 (qualifying steadyMeasure unevenEngine.connTimelines.entries)
      (detectedBeacons steadyMeasure .stable (IterationOrder.storage _ _) unevenEngine 1) ∧
    ¬Best Higher 0 (qualifying steadyMeasure unevenEngine.connTimelines.entries)
      (detectedBeacons steadyMeasure .stable (IterationOrder.storage _ _) unevenEngine 0) := by
  have hcount : (qualifying steadyMeasure unevenEngine.connTimelines.entries).length=2 := by
    decide +kernel
  have hlate : ∃ l ∈ (qualifying steadyMeasure unevenEngine.connTimelines.entries).drop 1,
      ∃ r ∈ (qualifying steadyMeasure unevenEngine.connTimelines.entries).take 1,
        Higher l r := by
    decide +kernel
  have hpool : qualifying steadyMeasure ((IterationOrder.storage _ _).order
      unevenEngine.connTimelines.entries)=
      qualifying steadyMeasure unevenEngine.connTimelines.entries := rfl
  have hbest := fun n => detectedBeacons_best_iff steadyMeasure .stable
    (IterationOrder.storage _ _) unevenEngine n hpool
  constructor
  · intro h
    obtain ⟨l,hl,r,hr,hhigher⟩ := hlate
    exact ((hbest 1).mp h).2 l hl r hr hhigher
  · intro h
    have hmin := ((hbest 0).mp h).1
    rw [hcount] at hmin
    exact absurd hmin (by decide)

end Gcad.BeaconRanking
