import Gcad.KeyedMap
import Gcad.LedgerText
import Gcad.ProtectedPath

/-!
# The policy file

`PolicyStore::load` and `save` of policy_store.cpp. A file is a text of
`key=value` lines; a line that is empty, a comment, without a key or with a
number that does not parse or is out of range changes nothing. A policy
that was loaded is written and read back unchanged. A file that is cut off
keeps the prefix lines before the cut and only those.
-/

namespace Gcad.PolicyStore

open Common KeyedMap Observation DelimitedText LedgerText ProtectedPath

/-- Key of the score threshold. -/
def thresholdKey : Str := "critical_threshold".toList

/-- Key of the correlation window. -/
def windowKey : Str := "finding_window_minutes".toList

/-- Key of a protected prefix. -/
def prefixKey : Str := "protected_path_prefix".toList

/-- `MAX_FINDING_WINDOW_MINUTES`. -/
def maxFindingWindowMinutes : ℤ := 24*60

/-- Key and value of a line, or nothing for a line that is skipped. -/
def keyValue (line : Str) : Option (Str×Str) :=
  if line=[] ∨ line.head?=some '#' then none
  else match line.findIdx? fun c => c = '=' with
  | none => none
  | some 0 => none
  | some eq => some (line.take eq,line.drop (eq+1))

/-- Local variables of the loading loop. -/
structure Loading where
  /-- Policy assembled so far. -/
  policy : LocalSecurityPolicy
  /-- Prefixes read so far. -/
  prefixes : List Str
  /-- Whether a prefix has been read. -/
  prefixesSeen : Bool

/-- The three assignments of the loop; a number that does not parse throws
and leaves everything as it was. -/
def storeEntry (loading : Loading) (entry : Str×Str) : Loading :=
  if entry.1=thresholdKey then
    match stoi entry.2 with
    | none => loading
    | some v =>
      if 0 ≤ v ∧ v ≤ 100 then
        { loading with policy := { loading.policy with criticalThreshold := v.toNat } }
      else loading
  else if entry.1=windowKey then
    match stoi entry.2 with
    | none => loading
    | some v =>
      if 0 < v ∧ v ≤ maxFindingWindowMinutes then
        { loading with policy := { loading.policy with findingWindow := v } }
      else loading
  else if entry.1=prefixKey then
    if entry.2≠[] then
      { loading with prefixes := loading.prefixes++[entry.2],prefixesSeen := true }
    else loading
  else loading

/-- One iteration of the loading loop. -/
def loadLine (loading : Loading) (line : Str) : Loading :=
  match keyValue line with
  | none => loading
  | some entry => storeEntry loading entry

/-- The loop starts with the defaults and no prefix. -/
def start : Loading := ⟨LocalSecurityPolicy.default,[],false⟩

/-- After the loop the collected prefixes replace the defaults, if any. -/
def finish (loading : Loading) : LocalSecurityPolicy :=
  if loading.prefixesSeen then { loading.policy with protectedPathPrefixes := loading.prefixes }
  else loading.policy

/-- `PolicyStore::load`; no text stands for a file that cannot be opened. -/
def load : Option Str → LocalSecurityPolicy
  | none => LocalSecurityPolicy.default
  | some text => finish ((text.splitOn '\n').foldl loadLine start)

/-- Lines that `save` writes. -/
def savedLines (policy : LocalSecurityPolicy) : List Str :=
  (thresholdKey++ '='::toDecimal policy.criticalThreshold)::
  (windowKey++ '='::toSignedDecimal policy.findingWindow)::
  policy.protectedPathPrefixes.map fun pre => prefixKey++ '='::pre

/-- Text that `save` writes. -/
def savedText (policy : LocalSecurityPolicy) : Str := unlines (savedLines policy)

/-- What the output stream of one `save` does. -/
structure SaveFaults where
  /-- The file could be opened. -/
  opens : Bool
  /-- Characters that reach the file before the stream fails. -/
  written : ℕ

/-- `PolicyStore::save`: the error code and the new content of the file,
nothing when it was not opened. -/
def save (faults : SaveFaults) (policy : LocalSecurityPolicy) : ErrorCode×Option Str :=
  if faults.opens then
    (if (savedText policy).length ≤ faults.written then .ok else .errScanIo,
      some ((savedText policy).take faults.written))
  else (.errScanIo,none)

/-- Key and value pairs of a text, in file order. -/
def entries (text : Str) : List (Str×Str) := (text.splitOn '\n').filterMap keyValue

/-- Number that an entry assigns to a scalar with the given key and range. -/
def scalar (key : Str) (least greatest : ℤ) (entry : Str×Str) : Option ℤ :=
  if entry.1=key then
    (stoi entry.2).bind fun v => if least ≤ v ∧ v ≤ greatest then some v else none
  else none

/-- Prefix that an entry adds. -/
def prefixValue (entry : Str×Str) : Option Str :=
  if entry.1=prefixKey ∧ entry.2≠[] then some entry.2 else none

section Load

/-- The loop visits the entries of the text. -/
theorem foldl_loadLine (lines : List Str) (loading : Loading) :
    lines.foldl loadLine loading=(lines.filterMap keyValue).foldl storeEntry loading := by
  induction lines generalizing loading with
  | nil => rfl
  | cons line lines ih =>
    rw [List.foldl_cons,ih,List.filterMap_cons,loadLine]
    cases keyValue line with
    | none => rfl
    | some entry => rfl

/-- The three keys are different. -/
theorem keys_ne : windowKey≠thresholdKey ∧ prefixKey≠thresholdKey ∧ prefixKey≠windowKey := by
  decide

/-- A scalar that is assigned is in range. -/
theorem scalar_range {key : Str} {least greatest v : ℤ} {entry : Str×Str}
    (h : scalar key least greatest entry=some v) : least ≤ v ∧ v ≤ greatest := by
  unfold scalar at h
  split at h
  · obtain ⟨u,-,hu⟩ := Option.bind_eq_some_iff.1 h
    split at hu
    · next hr =>
      cases hu
      exact hr
    · cases hu
  · cases h

/-- What one entry can do: overwrite a scalar with its number in range, or
append its prefix. -/
theorem storeEntry_eq (loading : Loading) (entry : Str×Str) :
    storeEntry loading entry=
      ⟨⟨((scalar thresholdKey 0 100 entry).map Int.toNat).getD loading.policy.criticalThreshold,
        (scalar windowKey 1 maxFindingWindowMinutes entry).getD loading.policy.findingWindow,
        loading.policy.protectedPathPrefixes⟩,
        loading.prefixes++(prefixValue entry).toList,
        loading.prefixesSeen || (prefixValue entry).isSome⟩ := by
  obtain ⟨key,value⟩ := entry
  unfold storeEntry scalar prefixValue
  by_cases hthreshold : key=thresholdKey
  · cases hv : stoi value with
    | none => simp [hthreshold,keys_ne.1.symm,keys_ne.2.1.symm]
    | some v => by_cases hr : 0 ≤ v ∧ v ≤ 100 <;> simp [hthreshold,hr,keys_ne.1.symm,keys_ne.2.1.symm]
  · by_cases hwindow : key=windowKey
    · cases hv : stoi value with
      | none => simp [hwindow,keys_ne.1,keys_ne.2.2.symm]
      | some v =>
        have hiff : 0 < v ↔ 1 ≤ v := Int.lt_iff_add_one_le
        by_cases hr : 1 ≤ v ∧ v ≤ maxFindingWindowMinutes <;>
          simp [hwindow,hr,hiff,keys_ne.1,keys_ne.2.2.symm]
    · by_cases hstart : key=prefixKey
      · by_cases hne : value=[] <;> simp [hstart,hne,keys_ne.2.1,keys_ne.2.2]
      · simp [hthreshold,hwindow,hstart]

/-- The loop only touches the list of prefixes it collects. -/
theorem foldl_kept (es : List (Str×Str)) (loading : Loading) :
    (es.foldl storeEntry loading).policy.protectedPathPrefixes=
      loading.policy.protectedPathPrefixes := by
  induction es generalizing loading with
  | nil => rfl
  | cons entry es ih => rw [List.foldl_cons,ih,storeEntry_eq]

/-- The flag says whether a prefix was collected. -/
theorem foldl_seen (es : List (Str×Str)) {loading : Loading}
    (h : loading.prefixesSeen=!loading.prefixes.isEmpty) :
    (es.foldl storeEntry loading).prefixesSeen=
      !(es.foldl storeEntry loading).prefixes.isEmpty := by
  induction es generalizing loading with
  | nil => exact h
  | cons entry es ih =>
    rw [List.foldl_cons]
    apply ih
    rw [storeEntry_eq]
    cases prefixValue entry with
    | none => simpa using h
    | some value => simp

/-- Policies agree when their three fields do. -/
theorem policy_ext {p q : LocalSecurityPolicy} (ht : p.criticalThreshold=q.criticalThreshold)
    (hw : p.findingWindow=q.findingWindow)
    (hp : p.protectedPathPrefixes=q.protectedPathPrefixes) : p=q := by
  cases p
  cases q
  simp_all

/-- The three parts of a loaded policy, each read off the entries of the text. -/
theorem load_eq (text : Str) :
    load (some text)=
      ⟨(((entries text).filterMap (scalar thresholdKey 0 100)).getLast?.getD 90).toNat,
        ((entries text).filterMap (scalar windowKey 1 maxFindingWindowMinutes)).getLast?.getD 5,
        if (entries text).filterMap prefixValue=[] then
          LocalSecurityPolicy.default.protectedPathPrefixes
        else (entries text).filterMap prefixValue⟩ := by
  have hthreshold := foldl_last storeEntry
    (fun loading => (loading.policy.criticalThreshold : ℤ)) (scalar thresholdKey 0 100)
    (fun loading entry => by
      rw [storeEntry_eq]
      cases hv : scalar thresholdKey 0 100 entry with
      | none => rfl
      | some v => exact Int.toNat_of_nonneg (scalar_range hv).1) (entries text) start
  have hwindow := foldl_last storeEntry (fun loading => loading.policy.findingWindow)
    (scalar windowKey 1 maxFindingWindowMinutes) (fun loading entry => by rw [storeEntry_eq])
    (entries text) start
  have hprefixes := foldl_collect storeEntry Loading.prefixes prefixValue
    (fun loading entry => by rw [storeEntry_eq]) (entries text) start
  have hkept := foldl_kept (entries text) start
  have hseen : ((entries text).foldl storeEntry start).prefixesSeen=
      !((entries text).filterMap prefixValue).isEmpty := by
    rw [foldl_seen (entries text) rfl,hprefixes]
    rfl
  have hpolicy : ((entries text).foldl storeEntry start).policy=
      ⟨(((entries text).filterMap (scalar thresholdKey 0 100)).getLast?.getD 90).toNat,
        ((entries text).filterMap (scalar windowKey 1 maxFindingWindowMinutes)).getLast?.getD 5,
        LocalSecurityPolicy.default.protectedPathPrefixes⟩ := by
    refine policy_ext ?_ hwindow hkept
    have hcast := congrArg Int.toNat hthreshold
    rwa [Int.toNat_natCast] at hcast
  rw [load,foldl_loadLine,←entries,finish,hseen,hpolicy]
  by_cases hnone : (entries text).filterMap prefixValue=[]
  · rw [hnone]
    rfl
  · rw [if_neg hnone,if_pos (by simpa using hnone)]
    exact policy_ext rfl rfl hprefixes

/-- What a loaded policy always satisfies. -/
structure Storable (policy : LocalSecurityPolicy) : Prop where
  /-- The threshold is a score. -/
  threshold : policy.criticalThreshold ≤ 100
  /-- The window is positive and at most a day. -/
  window : 0 < policy.findingWindow ∧ policy.findingWindow ≤ maxFindingWindowMinutes
  /-- Some prefix is protected. -/
  some : policy.protectedPathPrefixes≠[]
  /-- No prefix is empty or spans lines. -/
  plain : ∀ pre ∈ policy.protectedPathPrefixes,pre≠[] ∧ '\n' ∉ pre

/-- The last value in a range, or a default in the range, is in the range. -/
theorem scalar_getLast_range (key : Str) {least greatest fallback : ℤ} (es : List (Str×Str))
    (h : least ≤ fallback ∧ fallback ≤ greatest) :
    least ≤ (es.filterMap (scalar key least greatest)).getLast?.getD fallback ∧
      (es.filterMap (scalar key least greatest)).getLast?.getD fallback ≤ greatest := by
  cases hlast : (es.filterMap (scalar key least greatest)).getLast? with
  | none => exact h
  | some v =>
    obtain ⟨entry,-,hv⟩ := List.mem_filterMap.1 (List.mem_of_getLast? hlast)
    exact scalar_range hv

/-- A line is its key, an equals sign and its value. -/
theorem keyValue_eq_some {row : Str} {entry : Str×Str} (h : keyValue row=some entry) :
    row=entry.1++ '='::entry.2 := by
  unfold keyValue at h
  split at h
  · cases h
  · split at h
    · cases h
    · cases h
    · next eq _ hidx =>
      cases h
      obtain ⟨hlt,hchar,-⟩ := List.findIdx?_eq_some_iff_getElem.1 hidx
      have hget : row[eq]= '=' := of_decide_eq_true hchar
      dsimp only
      rw [←hget,←List.drop_eq_getElem_cons hlt,List.take_append_drop]

/-- A prefix that was read is not empty and stands in a line of the text. -/
theorem prefixValue_line {text pre : Str} (h : pre ∈ (entries text).filterMap prefixValue) :
    pre≠[] ∧ prefixKey++ '='::pre ∈ text.splitOn '\n' := by
  obtain ⟨entry,hin,hpre⟩ := List.mem_filterMap.1 h
  obtain ⟨line,hline,hentry⟩ := List.mem_filterMap.1 hin
  unfold prefixValue at hpre
  split at hpre
  · next hcond =>
    cases hpre
    refine ⟨hcond.2,?_⟩
    rwa [←hcond.1,←keyValue_eq_some hentry]
  · cases hpre

/-- A prefix that was read has no line break. -/
theorem prefixValue_plain {text pre : Str} (h : pre ∈ (entries text).filterMap prefixValue) :
    pre≠[] ∧ '\n' ∉ pre := by
  obtain ⟨hne,hline⟩ := prefixValue_line h
  refine ⟨hne,fun hc => (mem_splitOn hline).1 ?_⟩
  exact List.mem_append_right _ (List.mem_cons_of_mem _ hc)

/-- Whatever the file holds, the loaded policy is within bounds. -/
theorem load_storable (text : Str) : Storable (load (some text)) := by
  have hthreshold := scalar_getLast_range thresholdKey (entries text)
    (by decide : (0 : ℤ) ≤ 90 ∧ (90 : ℤ) ≤ 100)
  have hwindow := scalar_getLast_range windowKey (entries text)
    (by decide : (1 : ℤ) ≤ 5 ∧ (5 : ℤ) ≤ maxFindingWindowMinutes)
  rw [load_eq]
  refine ⟨?_,⟨?_,hwindow.2⟩,?_,?_⟩
  · dsimp only
    omega
  · dsimp only
    omega
  · dsimp only
    split
    · decide
    · next hne => exact hne
  · dsimp only
    intro pre hpre
    split at hpre
    · revert pre
      decide
    · exact prefixValue_plain hpre

end Load

section Save

/-- A written line is read back as its key and value. -/
theorem keyValue_line {key : Str} (value : Str) (hne : key≠[]) (hhash : key.head?≠some '#')
    (heq : '=' ∉ key) : keyValue (key++ '='::value)=some (key,value) := by
  have hidx : (key++ '='::value).findIdx? (fun c => c = '=')=some key.length := by
    rw [List.findIdx?_append,List.findIdx?_eq_none_iff.2 (by
      intro c hc
      exact decide_eq_false fun h => heq (h ▸ hc))]
    simp [List.findIdx?_cons]
  have hlength : key.length≠0 := fun h => hne (List.eq_nil_of_length_eq_zero h)
  obtain ⟨n,hn⟩ := Nat.exists_eq_succ_of_ne_zero hlength
  unfold keyValue
  rw [if_neg,hidx,hn]
  · show some ((key++ '='::value).take n.succ,(key++ '='::value).drop (n.succ+1))=_
    rw [←hn,List.take_left,←List.drop_drop,List.drop_left]
    rfl
  · rw [not_or]
    refine ⟨by simp,?_⟩
    rwa [List.head?_append_of_ne_nil _ hne]

/-- The entries of a saved text whose prefixes have no line break. -/
theorem entries_savedText {policy : LocalSecurityPolicy}
    (h : ∀ pre ∈ policy.protectedPathPrefixes, '\n' ∉ pre) :
    entries (savedText policy)=(thresholdKey,toDecimal policy.criticalThreshold)::
      (windowKey,toSignedDecimal policy.findingWindow)::
      policy.protectedPathPrefixes.map fun pre => (prefixKey,pre) := by
  have hlines : ∀ line ∈ savedLines policy, '\n' ∉ line := by
    have hkey : ∀ key value : Str, '\n' ∉ key → '\n' ∉ value → '\n' ∉ key++ '='::value := by
      intro key value hk hv hc
      rcases List.mem_append.1 hc with hc | hc
      · exact hk hc
      · rcases List.mem_cons.1 hc with hc | hc
        · exact absurd hc (by decide)
        · exact hv hc
    intro line hline
    rcases List.mem_cons.1 hline with rfl | hline
    · exact hkey _ _ (by decide)
        fun hc => (isDigit_plain (isDigit_of_mem_toDecimal hc)).2.2.2.2 rfl
    · rcases List.mem_cons.1 hline with rfl | hline
      · exact hkey _ _ (by decide) fun hc => (plain_of_mem_toSignedDecimal hc).2 rfl
      · obtain ⟨pre,hpre,rfl⟩ := List.mem_map.1 hline
        exact hkey _ _ (by decide) (h pre hpre)
  have hempty : keyValue []=none := rfl
  have hprefixes : policy.protectedPathPrefixes.filterMap
      (fun pre => keyValue (prefixKey++ '='::pre))=
      policy.protectedPathPrefixes.map fun pre => (prefixKey,pre) := by
    rw [←List.filterMap_eq_map]
    apply List.filterMap_congr
    intro pre _
    exact keyValue_line pre (by decide) (by decide) (by decide)
  rw [entries,savedText,splitOn_unlines hlines,List.filterMap_append,List.filterMap_cons,hempty]
  rw [savedLines,List.filterMap_cons,keyValue_line _ (by decide) (by decide) (by decide),
    List.filterMap_cons,keyValue_line _ (by decide) (by decide) (by decide),List.filterMap_map]
  simp only [Function.comp_def,List.filterMap_nil,List.append_nil]
  rw [hprefixes]

/-- A number in range under its own key. -/
theorem scalar_of_key {key value : Str} {least greatest v : ℤ} (hv : stoi value=some v)
    (hr : least ≤ v ∧ v ≤ greatest) : scalar key least greatest (key,value)=some v := by
  rw [scalar,if_pos rfl,hv,Option.bind_some,if_pos hr]

/-- Another key does not assign the scalar. -/
theorem scalar_other {key other : Str} (value : Str) (least greatest : ℤ) (h : other≠key) :
    scalar key least greatest (other,value)=none := if_neg h

/-- Prefix lines assign no scalar. -/
theorem scalar_prefixes {key : Str} (prefixes : List Str) (least greatest : ℤ)
    (h : prefixKey≠key) :
    (prefixes.map fun pre => (prefixKey,pre)).filterMap (scalar key least greatest)=[] := by
  rw [List.filterMap_map]
  apply List.filterMap_eq_nil_iff.2
  intro pre _
  exact scalar_other pre least greatest h

/-- Another key adds no prefix. -/
theorem prefixValue_other {other : Str} (value : Str) (h : other≠prefixKey) :
    prefixValue (other,value)=none := if_neg fun hc => h hc.1

/-- Prefix lines with a value add their prefixes. -/
theorem prefixValue_prefixes {prefixes : List Str} (h : ∀ pre ∈ prefixes,pre≠[]) :
    (prefixes.map fun pre => (prefixKey,pre)).filterMap prefixValue=prefixes := by
  rw [List.filterMap_map]
  refine (List.filterMap_congr ?_).trans List.filterMap_some
  intro pre hpre
  exact if_pos ⟨rfl,h pre hpre⟩

/-- A policy within bounds is read back as it was saved. -/
theorem load_savedText {policy : LocalSecurityPolicy} (h : Storable policy) :
    load (some (savedText policy))=policy := by
  obtain ⟨hwt,hpt,hpw⟩ := keys_ne
  have hthreshold := h.threshold
  have hwindow := h.window
  have hmax : maxFindingWindowMinutes=1440 := rfl
  have hnumber₁ : stoi (toDecimal policy.criticalThreshold)=some (policy.criticalThreshold : ℤ) :=
    stoi_toDecimal (by omega)
  have hnumber₂ : stoi (toSignedDecimal policy.findingWindow)=some policy.findingWindow := by
    rw [toSignedDecimal,if_neg (by omega),stoi_toDecimal (by omega)]
    congr 1
    omega
  have hrange₁ : (0 : ℤ) ≤ policy.criticalThreshold ∧ (policy.criticalThreshold : ℤ) ≤ 100 := by
    omega
  have hrange₂ : 1 ≤ policy.findingWindow ∧ policy.findingWindow ≤ maxFindingWindowMinutes := by
    omega
  rw [load_eq,entries_savedText fun pre hpre => (h.plain pre hpre).2]
  apply policy_ext
  · simp only [List.filterMap_cons,scalar_of_key hnumber₁ hrange₁,scalar_other _ _ _ hwt,
      scalar_prefixes _ _ _ hpt]
    exact Int.toNat_natCast _
  · simp only [List.filterMap_cons,scalar_of_key hnumber₂ hrange₂,scalar_other _ _ _ hwt.symm,
      scalar_prefixes _ _ _ hpw]
    rfl
  · simp only [List.filterMap_cons,prefixValue_other _ hpt.symm,prefixValue_other _ hpw.symm,
      prefixValue_prefixes fun pre hpre => (h.plain pre hpre).1,if_neg h.some]

/-- A successful save of a loaded policy is read back. -/
theorem save_load {policy : LocalSecurityPolicy} (h : Storable policy) {faults : SaveFaults}
    (hok : (save faults policy).1=.ok) : load (save faults policy).2=policy := by
  unfold save at hok ⊢
  split at hok
  · next hopens =>
    rw [if_pos hopens]
    split at hok
    · next hwritten =>
      dsimp only
      rw [List.take_of_length_le hwritten,load_savedText h]
    · cases hok
  · cases hok

end Save

section Lines

/-- A line for a key with a value: the key, an equals sign and the value. -/
def LineFor (key value line : Str) : Prop := line=key++ '='::value

/-- A line gives a scalar a number: it is a line for the key whose value
parses to a number in the range. -/
def Gives (key : Str) (least greatest : ℤ) (line : Str) (v : ℤ) : Prop :=
  ∃ value, LineFor key value line ∧ stoi value=some v ∧ least ≤ v ∧ v ≤ greatest

/-- The number of the last line that gives one, or the fallback if no line
does. -/
def LastGiven (key : Str) (least greatest fallback : ℤ) (lines : List Str) (v : ℤ) : Prop :=
  (∃ before line after, lines=before++line::after ∧ Gives key least greatest line v ∧
    ∀ later ∈ after,∀ u,¬Gives key least greatest later u) ∨
  (∀ line ∈ lines,∀ u,¬Gives key least greatest line u) ∧ v=fallback

/-- The non-empty values of the lines for a key, in their order. -/
inductive ValuesOf (key : Str) : List Str → List Str → Prop
  /-- No line is left. -/
  | nil : ValuesOf key [] []
  /-- A line for the key with a value. -/
  | take {value line : Str} {lines values : List Str} (hline : LineFor key value line)
      (hne : value≠[]) (hrest : ValuesOf key lines values) :
      ValuesOf key (line::lines) (value::values)
  /-- Any other line. -/
  | skip {line : Str} {lines values : List Str} (hline : ∀ value,value≠[] → ¬LineFor key value line)
      (hrest : ValuesOf key lines values) : ValuesOf key (line::lines) values

/-- A key that a line can begin with. -/
structure IsKey (key : Str) : Prop where
  /-- It is not empty. -/
  ne : key≠[]
  /-- It does not begin a comment. -/
  noComment : key.head?≠some '#'
  /-- It has no equals sign. -/
  noEquals : '=' ∉ key

variable {key : Str}

/-- The loop finds the lines for a key. -/
theorem keyValue_iff (h : IsKey key) (value line : Str) :
    keyValue line=some (key,value) ↔ LineFor key value line := by
  constructor
  · exact keyValue_eq_some
  · rintro rfl
    exact keyValue_line value h.ne h.noComment h.noEquals

/-- The loop finds the numbers that lines give. -/
theorem gives_iff (h : IsKey key) (least greatest : ℤ) (line : Str) (v : ℤ) :
    (keyValue line).bind (scalar key least greatest)=some v ↔ Gives key least greatest line v := by
  rw [Option.bind_eq_some_iff]
  constructor
  · rintro ⟨⟨found,value⟩,hentry,hscalar⟩
    unfold scalar at hscalar
    split at hscalar
    · next hkey =>
      obtain rfl : found=key := hkey
      obtain ⟨u,hu,hrange⟩ := Option.bind_eq_some_iff.mp hscalar
      split at hrange
      · next hr =>
        obtain rfl := Option.some.inj hrange
        exact ⟨value,(keyValue_iff h value line).mp hentry,hu,hr⟩
      · cases hrange
    · cases hscalar
  · rintro ⟨value,hline,hv,hr⟩
    refine ⟨(key,value),(keyValue_iff h value line).mpr hline,?_⟩
    rw [scalar,if_pos rfl,hv,Option.bind_some,if_pos hr]

/-- The last number that the loop finds is the last one given. -/
theorem lastGiven_entries (h : IsKey key) (least greatest fallback : ℤ) (lines : List Str) :
    LastGiven key least greatest fallback lines
      (((lines.filterMap keyValue).filterMap (scalar key least greatest)).getLast?.getD
        fallback) := by
  rw [List.filterMap_filterMap]
  induction lines using List.reverseRecOn with
  | nil => exact .inr ⟨fun line hline => absurd hline List.not_mem_nil,rfl⟩
  | append_singleton lines line ih =>
    rw [List.filterMap_append,List.getLast?_append]
    cases hgiven : (keyValue line).bind (scalar key least greatest) with
    | some v =>
      refine .inl ⟨lines,line,[],rfl,?_,fun later hlater => absurd hlater List.not_mem_nil⟩
      simpa [hgiven] using (gives_iff h least greatest line v).mp hgiven
    | none =>
      have hnone : ∀ u,¬Gives key least greatest line u := by
        intro u hu
        rw [(gives_iff h least greatest line u).mpr hu] at hgiven
        cases hgiven
      simp only [List.filterMap_cons,hgiven,List.filterMap_nil,List.getLast?_nil,Option.none_or]
      rcases ih with ⟨before,last,after,rfl,hlast,hafter⟩ | ⟨hall,hfallback⟩
      · refine .inl ⟨before,last,after++[line],by simp,hlast,?_⟩
        rw [List.forall_mem_append,List.forall_mem_singleton]
        exact ⟨hafter,hnone⟩
      · refine .inr ⟨?_,hfallback⟩
        rw [List.forall_mem_append,List.forall_mem_singleton]
        exact ⟨hall,hnone⟩

/-- The prefixes that the loop collects are the values of the prefix lines. -/
theorem valuesOf_entries (h : IsKey prefixKey) (lines : List Str) :
    ValuesOf prefixKey lines ((lines.filterMap keyValue).filterMap prefixValue) := by
  induction lines with
  | nil => exact .nil
  | cons line lines ih =>
    have hskip : (∀ value,value≠[] → keyValue line≠some (prefixKey,value)) →
        ValuesOf prefixKey (line::lines) ((lines.filterMap keyValue).filterMap prefixValue) :=
      fun hnone => .skip (fun value hne hline =>
        hnone value hne ((keyValue_iff h value line).mpr hline)) ih
    rw [List.filterMap_cons]
    cases hentry : keyValue line with
    | none => exact hskip fun value _ hsome => by rw [hentry] at hsome; cases hsome
    | some entry =>
      obtain ⟨found,value⟩ := entry
      dsimp only
      rw [List.filterMap_cons]
      unfold prefixValue
      by_cases htake : found=prefixKey ∧ value≠[]
      · rw [if_pos htake]
        obtain ⟨rfl,hne⟩ := htake
        exact .take ((keyValue_iff h value line).mp hentry) hne ih
      · rw [if_neg htake]
        refine hskip fun other hne hsome => htake ?_
        rw [hentry] at hsome
        obtain ⟨rfl,rfl⟩ := Prod.mk.inj (Option.some.inj hsome)
        exact ⟨rfl,hne⟩

end Lines

/-- Loading is total and stays within bounds. Each scalar is the number of
the last line for its key that gives one in range, or the default; the
prefixes are the non-empty values of the prefix lines in file order, or the
defaults; and saving the policy and loading it again changes nothing. -/
theorem policy_load_sound (text : Str) :
    (load (some text)).criticalThreshold ≤ 100 ∧
    (0 < (load (some text)).findingWindow ∧ (load (some text)).findingWindow ≤ 1440) ∧
    ((load (some text)).protectedPathPrefixes≠[] ∧
      ∀ pre ∈ (load (some text)).protectedPathPrefixes,pre≠[]) ∧
    LastGiven "critical_threshold".toList 0 100 LocalSecurityPolicy.default.criticalThreshold
      (text.splitOn '\n') (load (some text)).criticalThreshold ∧
    LastGiven "finding_window_minutes".toList 1 1440 LocalSecurityPolicy.default.findingWindow
      (text.splitOn '\n') (load (some text)).findingWindow ∧
    (∃ values,ValuesOf "protected_path_prefix".toList (text.splitOn '\n') values ∧
      (load (some text)).protectedPathPrefixes=
        if values=[] then LocalSecurityPolicy.default.protectedPathPrefixes else values) ∧
    load (some (savedText (load (some text))))=load (some text) := by
  have hstorable := load_storable text
  have hthreshold := scalar_getLast_range thresholdKey (entries text)
    (by decide : (0 : ℤ) ≤ 90 ∧ (90 : ℤ) ≤ 100)
  refine ⟨hstorable.threshold,hstorable.window,⟨hstorable.some,?_⟩,?_,?_,
    ⟨(entries text).filterMap prefixValue,?_,?_⟩,load_savedText hstorable⟩
  · exact fun pre hpre => (hstorable.plain pre hpre).1
  · have hkey : IsKey thresholdKey := ⟨by decide,by decide,by decide⟩
    have hlast := lastGiven_entries hkey 0 100 90 (text.splitOn '\n')
    rw [load_eq]
    dsimp only
    rw [Int.toNat_of_nonneg hthreshold.1]
    exact hlast
  · rw [load_eq]
    have hkey : IsKey windowKey := ⟨by decide,by decide,by decide⟩
    exact lastGiven_entries hkey 1 1440 5 (text.splitOn '\n')
  · exact valuesOf_entries ⟨by decide,by decide,by decide⟩ (text.splitOn '\n')
  · rw [load_eq]

/-- A file with a comment, a repeated key, a number out of range and one
that does not parse. -/
def fixturePolicyText : Str :=
  "# local policy\ncritical_threshold=70\ncritical_threshold=80\ncritical_threshold=900\n".toList++
    "finding_window_minutes=soon\nprotected_path_prefix=\nprotected_path_prefix=c:/a=b\n".toList

/-- The second threshold and the one prefix are loaded from it, and the
window keeps its default. -/
theorem policy_load_sound_fixture :
    load (some fixturePolicyText)=⟨80,5,["c:/a=b".toList]⟩ ∧
    LastGiven "critical_threshold".toList 0 100 LocalSecurityPolicy.default.criticalThreshold
      (fixturePolicyText.splitOn '\n') 80 := by
  have hload : load (some fixturePolicyText)=⟨80,5,["c:/a=b".toList]⟩ := by decide +kernel
  obtain ⟨-,-,-,hthreshold,-⟩ := policy_load_sound fixturePolicyText
  rw [hload] at hthreshold
  exact ⟨hload,hthreshold⟩

section Truncation

/-- The text holds a line that protects a non-empty prefix. -/
def PrefixLine (text pre : Str) : Prop := pre≠[] ∧ prefixKey++ '='::pre ∈ text.splitOn '\n'

/-- Either no prefix line is left, or every built-in prefix starts with one
that is left, up to letter case and the direction of slashes. -/
def Covered (text : Str) : Prop :=
  (∀ pre,¬PrefixLine text pre) ∨
  ∀ builtin ∈ LocalSecurityPolicy.default.protectedPathPrefixes,
    ∃ pre,PrefixLine text pre ∧ foldPath pre <+: foldPath builtin

/-- The loop collects exactly the values of the prefix lines. -/
theorem mem_prefixes_iff (text pre : Str) :
    pre ∈ (entries text).filterMap prefixValue ↔ PrefixLine text pre := by
  constructor
  · exact prefixValue_line
  · rintro ⟨hne,hline⟩
    have hentry : keyValue (prefixKey++ '='::pre)=some (prefixKey,pre) :=
      keyValue_line pre (by decide) (by decide) (by decide)
    exact List.mem_filterMap.2 ⟨(prefixKey,pre),List.mem_filterMap.2 ⟨_,hline,hentry⟩,
      if_pos ⟨rfl,hne⟩⟩

/-- The prefixes of a loaded policy. -/
theorem load_prefixes (text : Str) :
    (load (some text)).protectedPathPrefixes=
      if (entries text).filterMap prefixValue=[] then
        LocalSecurityPolicy.default.protectedPathPrefixes
      else (entries text).filterMap prefixValue := by
  rw [load_eq]

/-- The built-in protection survives in a loaded text exactly when it is
covered by the prefix lines of the text. -/
theorem builtin_protected_iff (text : Str) :
    (∀ path,isProtectedPath path LocalSecurityPolicy.default=true →
      isProtectedPath path (load (some text))=true) ↔ Covered text := by
  simp only [isProtectedPath_iff,SpellsOut,load_prefixes]
  by_cases hnone : (entries text).filterMap prefixValue=[]
  · rw [if_pos hnone]
    refine iff_of_true (fun path h => h) (Or.inl fun pre hpre => ?_)
    have hin := (mem_prefixes_iff text pre).2 hpre
    rw [hnone] at hin
    exact List.not_mem_nil hin
  · rw [if_neg hnone]
    constructor
    · intro h
      refine Or.inr fun builtin hb => ?_
      obtain ⟨pre,hin,hstarts⟩ := h builtin ⟨builtin,hb,List.prefix_refl _⟩
      exact ⟨pre,(mem_prefixes_iff text pre).1 hin,hstarts⟩
    · rintro (hfree | hcovers) path ⟨builtin,hb,hstarts⟩
      · obtain ⟨pre,hpre⟩ := List.exists_mem_of_ne_nil _ hnone
        exact absurd ((mem_prefixes_iff text pre).1 hpre) (hfree pre)
      · obtain ⟨pre,hline,hpre⟩ := hcovers builtin hb
        exact ⟨pre,(mem_prefixes_iff text pre).2 hline,hpre.trans hstarts⟩

end Truncation

/-- A truncated policy file keeps the built-in protection exactly when the
lines before the cut cover it. -/
theorem truncated_policy_protects_iff (policy : LocalSecurityPolicy) (n : ℕ) :
    (∀ path,isProtectedPath path LocalSecurityPolicy.default=true →
      isProtectedPath path (load (some ((savedText policy).take n)))=true) ↔
    Covered ((savedText policy).take n) :=
  builtin_protected_iff _

/-- The default policy, cut after its first prefix line, no longer protects
the program directory. -/
theorem truncated_policy_unprotects :
    ¬∀ (policy : LocalSecurityPolicy) (n : ℕ),
      (∀ builtin ∈ LocalSecurityPolicy.default.protectedPathPrefixes,
        builtin ∈ policy.protectedPathPrefixes) →
      ∀ path,isProtectedPath path LocalSecurityPolicy.default=true →
        isProtectedPath path (load (some ((savedText policy).take n)))=true := by
  intro h
  have hpath := h LocalSecurityPolicy.default 81 (fun builtin hb => hb)
    "c:/program files/x".toList (by decide)
  revert hpath
  decide +kernel

end Gcad.PolicyStore
