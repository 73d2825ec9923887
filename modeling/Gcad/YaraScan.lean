import Gcad.KeyedMap
import Gcad.YaraSearch

/-!
# Rule evaluation of the YARA engine

`YaraEngine::scan_buffer` and `evaluate_condition`. The offsets of a rule's
strings are collected in a map keyed by identifier, the condition is
evaluated over that map, and the reported length is that of the first string
with the identifier. Strings that share an identifier are therefore counted
together and overwrite each other.
-/

namespace Gcad.YaraScan

open Common ByteView KeyedMap YaraSearch

/-- `YaraRule::ConditionOp`. -/
inductive ConditionOp where
  | allOfThem
  | anyOfThem
  | countGe
  deriving DecidableEq, Repr

/-- `YaraRule`; scanning reads neither the description nor the tags nor the
level. -/
structure YaraRule where
  /-- Name of the rule. -/
  name : Str
  /-- Its strings, in file order. -/
  strings : List YaraString
  /-- How many of them have to occur. -/
  condition : ConditionOp
  /-- Least number of strings for `countGe`. -/
  conditionCount : ℕ

/-- `YaraMatch`. -/
structure YaraMatch where
  /-- The rule whose condition is met. -/
  ruleName : Str
  /-- Identifier of the string. -/
  matchedStringId : Str
  /-- Offset of the occurrence. -/
  offset : ℕ
  /-- Length of the occurrence. -/
  length : ℕ
  deriving DecidableEq

/-- Whether a rule's condition is met when the given strings are present. -/
def YaraRule.metBy (rule : YaraRule) (present : YaraString → Bool) : Bool :=
  match rule.condition with
  | .allOfThem => rule.strings.all present
  | .anyOfThem => rule.strings.any present
  | .countGe => rule.conditionCount ≤ rule.strings.countP present

/-- The map holds offsets for an identifier. -/
def found (matched : Table Str (List ℕ)) (id : Str) : Bool :=
  match matched.lookup id with
  | none => false
  | some offsets => !offsets.isEmpty

/-- `evaluate_condition`. -/
def evaluateCondition (rule : YaraRule) (matched : Table Str (List ℕ)) : Bool :=
  rule.metBy fun s => found matched s.identifier

/-- One iteration of the loop that fills `string_matches`. -/
def recordString (data : Bytes) (matched : Table Str (List ℕ)) (s : YaraString) :
    Table Str (List ℕ) :=
  if findPattern data s≠[] then matched.insert s.identifier (findPattern data s) else matched

/-- The map `string_matches`. -/
def stringMatches (data : Bytes) (rule : YaraRule) : Table Str (List ℕ) :=
  rule.strings.foldl (recordString data) ∅

/-- Pattern length of the first string with an identifier. -/
def firstLength (rule : YaraRule) (id : Str) : ℕ :=
  ((rule.strings.find? fun s => s.identifier=id).map fun s => s.pattern.length).getD 0

/-- Entries that one rule adds to the results, in the order in which the map
is iterated. -/
def scanRule (order : IterationOrder Str (List ℕ)) (data : Bytes) (rule : YaraRule) :
    List YaraMatch :=
  if evaluateCondition rule (stringMatches data rule) then
    (order.order (stringMatches data rule).entries).flatMap fun entry =>
      entry.2.map fun offset => ⟨rule.name,entry.1,offset,firstLength rule entry.1⟩
  else []

/-- `scan_buffer`. -/
def scanBuffer (order : IterationOrder Str (List ℕ)) (rules : List YaraRule) (data : Bytes) :
    List YaraMatch :=
  rules.foldl (fun results rule => results++scanRule order data rule) []

section Semantics

variable (data : Bytes) (rule : YaraRule)

/-- The string occurs in the buffer. -/
def occurs (s : YaraString) : Bool := !(findPattern data s).isEmpty

/-- Some string of the rule with the same identifier occurs. -/
def shares (s : YaraString) : Bool :=
  rule.strings.any fun t => t.identifier=s.identifier && occurs data t

/-- The last string with an identifier that occurs. -/
def lastOccurring (id : Str) : Option YaraString :=
  (rule.strings.filter fun s => s.identifier=id && occurs data s).getLast?

/-- The rule is reported exactly when its strings, counted one by one, meet
the condition, and then every occurrence is listed with its own length. -/
structure ScansRight (order : IterationOrder Str (List ℕ)) : Prop where
  /-- There is an entry exactly when the condition holds. -/
  reported : scanRule order data rule≠[] ↔ rule.metBy (occurs data)=true
  /-- The entries of a reported rule are the occurrences of its strings. -/
  listed : scanRule order data rule≠[] → ∀ id offset length,
    ⟨rule.name,id,offset,length⟩ ∈ scanRule order data rule ↔
      ∃ s ∈ rule.strings,s.identifier=id ∧ offset ∈ findPattern data s ∧ length=s.pattern.length

/-- When sharing identifiers does no harm: the condition is not met by no
string at all, counting a string through its namesakes does not change the
condition, and namesakes that occur have the length of the first one and
occur only where the last one of them occurs. -/
structure Separable : Prop where
  /-- A condition that is met is met by some string. -/
  inhabited : rule.metBy (occurs data)=true → rule.strings.any (occurs data)=true
  /-- Namesakes do not help to meet the condition. -/
  counted : rule.strings.any (occurs data)=true → rule.metBy (shares data rule)=true →
    rule.metBy (occurs data)=true
  /-- Namesakes have one length and the last one covers the others. -/
  alike : rule.metBy (occurs data)=true → ∀ s ∈ rule.strings,occurs data s=true →
    s.pattern.length=firstLength rule s.identifier ∧
    ∀ t,lastOccurring data rule s.identifier=some t → findPattern data s ⊆ findPattern data t

end Semantics

section Lookup

variable {data : Bytes} {rule : YaraRule}

/-- A string occurs when it has an offset. -/
theorem occurs_iff {s : YaraString} : occurs data s=true ↔ findPattern data s≠[] := by
  rw [occurs,Bool.not_eq_true',List.isEmpty_eq_false_iff]

/-- The map holds the offsets of the last string that occurs. -/
theorem lookup_stringMatches (id : Str) :
    (stringMatches data rule).lookup id=(lastOccurring data rule id).map (findPattern data) := by
  have hfold := foldl_last (recordString data) (fun matched => matched.lookup id)
    (fun s => if s.identifier=id && occurs data s then some (some (findPattern data s)) else none)
    (fun matched s => by
      unfold recordString
      by_cases hs : findPattern data s=[]
      · have hocc : occurs data s=false := by rw [occurs,hs]; rfl
        simp [hs,hocc]
      · have hocc : occurs data s=true := occurs_iff.2 hs
        by_cases hid : s.identifier=id
        · simp [hs,hocc,hid]
        · simp [hs,hocc,hid,AList.lookup_insert_ne (Ne.symm hid)])
    rule.strings ∅
  have hvalues : rule.strings.filterMap (fun s => if s.identifier=id && occurs data s then
        some (some (findPattern data s)) else none)=
      (rule.strings.filter fun s => s.identifier=id && occurs data s).map
        (fun s => some (findPattern data s)) := by
    rw [←List.filterMap_eq_map,List.filterMap_filter]
    rfl
  rw [hvalues,List.getLast?_map] at hfold
  rw [stringMatches,lastOccurring,hfold]
  cases (rule.strings.filter fun s => s.identifier=id && occurs data s).getLast? with
  | none => exact AList.lookup_empty id
  | some s => rfl

/-- The last string that occurs is one of the strings. -/
theorem lastOccurring_mem {id : Str} {s : YaraString} (h : lastOccurring data rule id=some s) :
    s ∈ rule.strings ∧ s.identifier=id ∧ occurs data s=true := by
  have hmem := List.mem_filter.1 (List.mem_of_getLast? h)
  exact ⟨hmem.1,by simpa using hmem.2⟩

/-- Some last string exists when a string with the identifier occurs. -/
theorem exists_lastOccurring {s : YaraString} (hs : s ∈ rule.strings)
    (hocc : occurs data s=true) : ∃ t,lastOccurring data rule s.identifier=some t := by
  have hmem : s ∈ rule.strings.filter fun t => t.identifier=s.identifier && occurs data t := by
    rw [List.mem_filter]
    exact ⟨hs,by simp [hocc]⟩
  exact ⟨_,List.getLast?_eq_some_getLast (List.ne_nil_of_mem hmem)⟩

/-- The map answers for a string when a namesake occurs. -/
theorem found_eq_shares (s : YaraString) :
    found (stringMatches data rule) s.identifier=shares data rule s := by
  apply Bool.eq_iff_iff.2
  unfold found shares
  rw [lookup_stringMatches,List.any_eq_true]
  constructor
  · intro h
    cases hlast : lastOccurring data rule s.identifier with
    | none =>
      rw [hlast] at h
      cases h
    | some t =>
      obtain ⟨hin,hid,hocc⟩ := lastOccurring_mem hlast
      exact ⟨t,hin,by simp [hid,hocc]⟩
  · rintro ⟨t,hin,ht⟩
    simp only [Bool.and_eq_true,decide_eq_true_eq] at ht
    obtain ⟨u,hu⟩ := exists_lastOccurring hin ht.2
    rw [ht.1] at hu
    rw [hu]
    exact (lastOccurring_mem hu).2.2

/-- The condition is evaluated with namesakes counted together. -/
theorem evaluateCondition_eq :
    evaluateCondition rule (stringMatches data rule)=rule.metBy (shares data rule) := by
  rw [evaluateCondition,funext found_eq_shares]

/-- Membership in the entries of a rule whose condition is met. -/
theorem mem_scanRule (order : IterationOrder Str (List ℕ)) (m : YaraMatch) :
    m ∈ scanRule order data rule ↔ rule.metBy (shares data rule)=true ∧
      ∃ t,lastOccurring data rule m.matchedStringId=some t ∧ m.ruleName=rule.name ∧
        m.offset ∈ findPattern data t ∧ m.length=firstLength rule m.matchedStringId := by
  unfold scanRule
  rw [evaluateCondition_eq]
  by_cases hmet : rule.metBy (shares data rule)=true
  · rw [if_pos hmet,List.mem_flatMap]
    constructor
    · rintro ⟨entry,hentry,hm⟩
      obtain ⟨offset,hoffset,rfl⟩ := List.mem_map.1 hm
      have hlookup : (stringMatches data rule).lookup entry.1=some entry.2 :=
        AList.mem_lookup_iff.2 ((order.perm _).mem_iff.1 hentry)
      rw [lookup_stringMatches] at hlookup
      obtain ⟨t,ht,hoffs⟩ := Option.map_eq_some_iff.1 hlookup
      exact ⟨hmet,t,ht,rfl,hoffs ▸ hoffset,rfl⟩
    · rintro ⟨-,t,ht,hname,hoffset,hlength⟩
      have hlookup : (stringMatches data rule).lookup m.matchedStringId=
          some (findPattern data t) := by
        rw [lookup_stringMatches,ht]
        rfl
      refine ⟨⟨m.matchedStringId,findPattern data t⟩,
        (order.perm _).mem_iff.2 (AList.mem_lookup_iff.1 hlookup),List.mem_map.2 ⟨m.offset,hoffset,?_⟩⟩
      rw [←hname,←hlength]
  · rw [if_neg hmet]
    exact iff_of_false List.not_mem_nil fun h => hmet h.1

end Lookup

section Reports

variable {data : Bytes} {rule : YaraRule}

/-- More strings never make a condition fail. -/
theorem metBy_mono {p q : YaraString → Bool} (h : ∀ s ∈ rule.strings,p s=true → q s=true)
    (hmet : rule.metBy p=true) : rule.metBy q=true := by
  unfold YaraRule.metBy at hmet ⊢
  cases hc : rule.condition with
  | allOfThem =>
    rw [hc] at hmet
    exact List.all_eq_true.2 fun s hs => h s hs (List.all_eq_true.1 hmet s hs)
  | anyOfThem =>
    rw [hc] at hmet
    obtain ⟨s,hs,hp⟩ := List.any_eq_true.1 hmet
    exact List.any_eq_true.2 ⟨s,hs,h s hs hp⟩
  | countGe =>
    rw [hc] at hmet
    exact decide_eq_true ((of_decide_eq_true hmet).trans (List.countP_mono_left h))

/-- A string that occurs counts for its namesakes too. -/
theorem shares_of_occurs {s : YaraString} (hs : s ∈ rule.strings) (h : occurs data s=true) :
    shares data rule s=true :=
  List.any_eq_true.2 ⟨s,hs,by simp [h]⟩

/-- A rule has an entry when its condition is met through namesakes and some
string occurs. -/
theorem scanRule_ne_nil (order : IterationOrder Str (List ℕ)) :
    scanRule order data rule≠[] ↔
      rule.metBy (shares data rule)=true ∧ rule.strings.any (occurs data)=true := by
  constructor
  · intro hne
    obtain ⟨m,hm⟩ := List.exists_mem_of_ne_nil _ hne
    obtain ⟨hmet,t,ht,-⟩ := (mem_scanRule order m).1 hm
    obtain ⟨hin,-,hocc⟩ := lastOccurring_mem ht
    exact ⟨hmet,List.any_eq_true.2 ⟨t,hin,hocc⟩⟩
  · rintro ⟨hmet,hany⟩
    obtain ⟨s,hs,hocc⟩ := List.any_eq_true.1 hany
    obtain ⟨t,ht⟩ := exists_lastOccurring hs hocc
    obtain ⟨offset,hoffset⟩ := List.exists_mem_of_ne_nil _ (occurs_iff.1 (lastOccurring_mem ht).2.2)
    exact List.ne_nil_of_mem ((mem_scanRule order
      ⟨rule.name,s.identifier,offset,firstLength rule s.identifier⟩).2
      ⟨hmet,t,ht,rfl,hoffset,rfl⟩)

/-- A rule that is reported rightly is separable. -/
theorem ScansRight.separable {order : IterationOrder Str (List ℕ)}
    (h : ScansRight data rule order) : Separable data rule := by
  refine ⟨fun hmet => ?_,fun hany hmet => ?_,fun hmet s hs hocc => ?_⟩
  · exact ((scanRule_ne_nil order).1 (h.reported.2 hmet)).2
  · exact h.reported.1 ((scanRule_ne_nil order).2 ⟨hmet,hany⟩)
  · have hentry : ∀ offset ∈ findPattern data s,
        ∃ t,lastOccurring data rule s.identifier=some t ∧ offset ∈ findPattern data t ∧
          s.pattern.length=firstLength rule s.identifier := by
      intro offset hoffset
      have hin := (h.listed (h.reported.2 hmet) s.identifier offset s.pattern.length).2
        ⟨s,hs,rfl,hoffset,rfl⟩
      obtain ⟨-,t,ht,-,hoff,hlen⟩ := (mem_scanRule order _).1 hin
      exact ⟨t,ht,hoff,hlen⟩
    obtain ⟨offset,hoffset⟩ := List.exists_mem_of_ne_nil _ (occurs_iff.1 hocc)
    obtain ⟨t,ht,-,hlen⟩ := hentry offset hoffset
    refine ⟨hlen,fun t ht offset hoffset => ?_⟩
    obtain ⟨u,hu,hoff,-⟩ := hentry offset hoffset
    rw [ht] at hu
    cases hu
    exact hoff

/-- A separable rule is reported rightly, whatever the iteration order. -/
theorem Separable.scansRight (h : Separable data rule) (order : IterationOrder Str (List ℕ)) :
    ScansRight data rule order := by
  have hreported : scanRule order data rule≠[] ↔ rule.metBy (occurs data)=true := by
    rw [scanRule_ne_nil]
    constructor
    · exact fun hboth => h.counted hboth.2 hboth.1
    · exact fun hmet => ⟨metBy_mono (fun s hs => shares_of_occurs hs) hmet,h.inhabited hmet⟩
  refine ⟨hreported,fun hne id offset length => ?_⟩
  have hmet := hreported.1 hne
  rw [mem_scanRule]
  constructor
  · rintro ⟨-,t,ht,-,hoffset,hlength⟩
    obtain ⟨hin,hid,hocc⟩ := lastOccurring_mem ht
    have hlen := (h.alike hmet t hin hocc).1
    rw [hid] at hlen
    exact ⟨t,hin,hid,hoffset,hlength.trans hlen.symm⟩
  · rintro ⟨s,hs,rfl,hoffset,rfl⟩
    have hocc : occurs data s=true := occurs_iff.2 (List.ne_nil_of_mem hoffset)
    obtain ⟨t,ht⟩ := exists_lastOccurring hs hocc
    obtain ⟨hlen,hsub⟩ := h.alike hmet s hs hocc
    exact ⟨((scanRule_ne_nil order).1 hne).1,t,ht,rfl,hsub t ht hoffset,hlen⟩

/-- The condition cannot be met by no string at all. -/
def Demanding (rule : YaraRule) : Prop :=
  (rule.condition=.allOfThem → rule.strings≠[]) ∧
  (rule.condition=.countGe → 0 < rule.conditionCount)

/-- Rules with pairwise different identifiers and a demanding condition are
separable on every buffer. -/
theorem separable_of_nodup (hids : (rule.strings.map YaraString.identifier).Nodup)
    (hdemand : Demanding rule) (data : Bytes) : Separable data rule := by
  have hsame : ∀ s ∈ rule.strings,∀ t ∈ rule.strings,s.identifier=t.identifier → s=t :=
    fun s hs t ht => List.inj_on_of_nodup_map hids hs ht
  have hshares : ∀ s ∈ rule.strings,shares data rule s=true → occurs data s=true := by
    intro s hs h
    obtain ⟨t,ht,hboth⟩ := List.any_eq_true.1 h
    simp only [Bool.and_eq_true,decide_eq_true_eq] at hboth
    rw [hsame s hs t ht hboth.1.symm]
    exact hboth.2
  refine ⟨fun hmet => ?_,fun _ hmet => metBy_mono hshares hmet,fun _ s hs _ => ⟨?_,?_⟩⟩
  · unfold YaraRule.metBy at hmet
    cases hc : rule.condition with
    | allOfThem =>
      rw [hc] at hmet
      obtain ⟨s,hs⟩ := List.exists_mem_of_ne_nil _ (hdemand.1 hc)
      exact List.any_eq_true.2 ⟨s,hs,List.all_eq_true.1 hmet s hs⟩
    | anyOfThem =>
      rw [hc] at hmet
      exact hmet
    | countGe =>
      rw [hc] at hmet
      have hpos := (hdemand.2 hc).trans_le (of_decide_eq_true hmet)
      obtain ⟨s,hs,hocc⟩ := List.countP_pos_iff.1 hpos
      exact List.any_eq_true.2 ⟨s,hs,hocc⟩
  · have hfind : rule.strings.find? (fun t => t.identifier=s.identifier)=some s := by
      cases hf : rule.strings.find? (fun t => t.identifier=s.identifier) with
      | none => exact absurd (List.find?_eq_none.1 hf s hs) (by simp)
      | some t =>
        have hid := List.find?_some hf
        rw [hsame t (List.mem_of_find?_eq_some hf) s hs (of_decide_eq_true hid)]
    rw [firstLength,hfind]
    rfl
  · intro t ht
    obtain ⟨hin,hid,-⟩ := lastOccurring_mem ht
    rw [hsame s hs t hin hid.symm]
    exact List.Subset.refl _

end Reports

/-- Every rule of a scan is reported by its strings counted one by one, with
each occurrence at its own length, exactly when every rule is separable on
the buffer; rules with pairwise different identifiers and a demanding
condition are. -/
theorem scan_buffer_rules_iff (order : IterationOrder Str (List ℕ)) (rules : List YaraRule)
    (data : Bytes) :
    scanBuffer order rules data=rules.flatMap (scanRule order data) ∧
    ((∀ rule ∈ rules,ScansRight data rule order) ↔ ∀ rule ∈ rules,Separable data rule) ∧
    ∀ rule : YaraRule,(rule.strings.map YaraString.identifier).Nodup → Demanding rule →
      Separable data rule := by
  refine ⟨?_,?_,fun rule hids hdemand => separable_of_nodup hids hdemand data⟩
  · rw [scanBuffer,List.foldl_append_eq_append,List.nil_append,List.flatMap_def]
  · constructor
    · exact fun h rule hin => (h rule hin).separable
    · exact fun h rule hin => (h rule hin).scansRight order

/-- Two anonymous strings of which only the second occurs. -/
def fixtureRule : YaraRule where
  name := "both".toList
  strings := [⟨"$".toList,[0x41,0x41,0x41,0x41],[],false,false⟩,
    ⟨"$".toList,[0x42,0x42,0x42,0x42],[],false,false⟩]
  condition := .allOfThem
  conditionCount := 1

/-- A rule that asks for both of its anonymous strings is reported for one. -/
theorem scan_buffer_merges :
    ¬∀ (order : IterationOrder Str (List ℕ)) (rules : List YaraRule) (data : Bytes),
      ∀ rule ∈ rules,ScansRight data rule order := by
  intro h
  have hright := h (IterationOrder.storage Str (List ℕ)) [fixtureRule] [0x42,0x42,0x42,0x42]
    fixtureRule List.mem_cons_self
  have hreported := hright.reported
  revert hreported
  decide

end Gcad.YaraScan
