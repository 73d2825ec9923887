import Gcad.KeyedMap
import Gcad.QuarantineVault
import Gcad.StepSystem
import Gcad.TextSearch

/-!
# Differences between registry snapshots

The monitor reads the values under ten autorun keys, joins the path of the
key and the name of the value to one text and keeps the last value of each
text. Every poll compares the data of the values under the texts with those
of the poll before. Long names, long data and all subkeys after the 256th are
left out of a snapshot, and the type of a value is kept and never compared.
-/

namespace Gcad.RegistryDiff

open Common ByteView StepSystem KeyedMap TextSearch
open QuarantineVault (hex)

/-- A value of a registry key. -/
structure RegistryValue where
  /-- Unique within its key. -/
  name : Str
  /-- Its type, such as `REG_SZ`. -/
  type : UInt32
  /-- As many bytes as the writer chose. -/
  data : Bytes
  deriving DecidableEq

/-- A registry key that can be opened. -/
structure RegistryKey where
  /-- Its values in the order of enumeration. -/
  values : List RegistryValue
  /-- The values of its subkeys in the order of enumeration. -/
  subkeys : List (Str×List RegistryValue)

/-- The name of the hive and the subkey of an `AutorunKey`. -/
abbrev AutorunKey := Str×Str

/-- A state of the registry. -/
abbrev Registry := AutorunKey → Option RegistryKey

/-- `default_autorun_keys`. -/
def defaultAutorunKeys : List AutorunKey :=
  [("HKLM".toList,"SOFTWARE\\Microsoft\\Windows\\CurrentVersion\\Run".toList),
    ("HKLM".toList,"SOFTWARE\\Microsoft\\Windows\\CurrentVersion\\RunOnce".toList),
    ("HKCU".toList,"SOFTWARE\\Microsoft\\Windows\\CurrentVersion\\Run".toList),
    ("HKCU".toList,"SOFTWARE\\Microsoft\\Windows\\CurrentVersion\\RunOnce".toList),
    ("HKLM".toList,"SOFTWARE\\Microsoft\\Windows\\CurrentVersion\\Policies\\Explorer\\Run".toList),
    ("HKLM".toList,"SOFTWARE\\Microsoft\\Windows NT\\CurrentVersion\\Winlogon".toList),
    ("HKLM".toList,("SOFTWARE\\Microsoft\\Windows NT\\CurrentVersion\\".toList++
      "Image File Execution Options".toList)),
    ("HKLM".toList,"SYSTEM\\CurrentControlSet\\Services".toList),
    ("HKCU".toList,"SOFTWARE\\Microsoft\\Windows\\CurrentVersion\\Explorer\\Shell Folders".toList),
    ("HKLM".toList,"SOFTWARE\\Microsoft\\Windows\\CurrentVersion\\Explorer\\Shell Folders".toList)]

/-- The subkeys of these keys are enumerated as well. -/
def hierarchical (ak : AutorunKey) : Bool :=
  (findSub "Services".toList ak.2).isSome ||
    (findSub "Image File Execution Options".toList ak.2).isSome

/-- The path of a key in a snapshot. -/
def basePath (ak : AutorunKey) : Str := ak.1++ '\\'::ak.2

/-- A value with the path of its key. -/
abbrev Located := Str×RegistryValue

/-- All values under a monitored key, and under its subkeys where these are
monitored. -/
def monitoredUnder (ak : AutorunKey) (key : RegistryKey) : List Located :=
  key.values.map (fun v => (basePath ak,v))++
    if hierarchical ak then
      key.subkeys.flatMap fun sub => sub.2.map fun v => (basePath ak++ '\\'::sub.1,v)
    else []

/-- All values that are to be monitored. -/
def monitored (r : Registry) : List Located :=
  defaultAutorunKeys.flatMap fun ak => ((r ak).map (monitoredUnder ak)).getD []

/-- `RegEnumValueA` succeeds with buffers of 512 and 4096 bytes. -/
def fits (v : RegistryValue) : Bool := v.name.length < 512 && v.data.length ≤ 4096

/-- `enum_values`. -/
def enumValues (path : Str) (values : List RegistryValue) : List Located :=
  (values.filter fits).map fun v => (path,v)

/-- The subkeys the loop over them reaches: at most 256, up to the first one
whose name does not fit in 256 bytes. -/
def reached (subkeys : List (Str×List RegistryValue)) : List (Str×List RegistryValue) :=
  (subkeys.take 256).takeWhile fun sub => sub.1.length < 256

/-- What is enumerated of a monitored key. -/
def enumKey (ak : AutorunKey) (key : RegistryKey) : List Located :=
  enumValues (basePath ak) key.values++
    if hierarchical ak then
      (reached key.subkeys).flatMap fun sub => enumValues (basePath ak++ '\\'::sub.1) sub.2
    else []

/-- The values `enumerate_autorun_values` finds. -/
def visible (r : Registry) : List Located :=
  defaultAutorunKeys.flatMap fun ak => ((r ak).map (enumKey ak)).getD []

/-- `RegistryValueSnapshot`. -/
structure RegistryValueSnapshot where
  /-- The hive and the path of the key. -/
  keyPath : Str
  /-- The last part of the text it is kept under. -/
  valueName : Str
  /-- The type of the value, which no comparison reads. -/
  type : UInt32
  /-- Its data, two digits a byte. -/
  dataHex : Str

/-- The snapshot of a value. -/
def snapshot (x : Located) : RegistryValueSnapshot := ⟨x.1,x.2.name,x.2.type,hex x.2.data⟩

/-- `enumerate_autorun_values`. -/
def enumerateAutorunValues (r : Registry) : List RegistryValueSnapshot := (visible r).map snapshot

/-- The text a snapshot is kept under. -/
def snapshotKey (snap : RegistryValueSnapshot) : Str := snap.keyPath++ '\\'::snap.valueName

/-- The loop that fills `current_map`, or the baseline at the start. -/
def snapshotMap (r : Registry) : Table Str RegistryValueSnapshot :=
  (enumerateAutorunValues r).foldl (fun m snap => m.insert (snapshotKey snap) snap) ∅

/-- The alert for an entry of `current_map`. -/
def entryAlert (baseline : Table Str RegistryValueSnapshot)
    (entry : (_ : Str)×RegistryValueSnapshot) : Option Str :=
  match baseline.lookup entry.1 with
  | none => some ("New autorun entry: ".toList++entry.1)
  | some old =>
    if old.dataHex≠entry.2.dataHex then some ("Modified autorun entry: ".toList++entry.1) else none

/-- The alert for an entry of the baseline. -/
def deletedAlert (current : Table Str RegistryValueSnapshot)
    (entry : (_ : Str)×RegistryValueSnapshot) : Option Str :=
  if current.lookup entry.1=none then some ("Deleted autorun entry: ".toList++entry.1) else none

/-- `alerts`, with the entries of a map in the order of its list. -/
def alertsOf (baseline current : Table Str RegistryValueSnapshot) : List Str :=
  current.entries.filterMap (entryAlert baseline)++baseline.entries.filterMap (deletedAlert current)

/-- The state of a `RegistryMonitorEngine` with the local variables of
`monitor_loop`. -/
structure RegistryMonitorEngine where
  /-- What the poll before has found. -/
  baseline : Table Str RegistryValueSnapshot
  /-- How many polls there were. -/
  eventsProcessed : UInt64
  /-- How many alerts they raised. -/
  threatsDetected : UInt64
  /-- Milliseconds to the next poll. -/
  pollMs : ℕ
  /-- Polls without an alert since the last one with an alert. -/
  quietTicks : ℕ

/-- `start`. -/
def start (r : Registry) : RegistryMonitorEngine := ⟨snapshotMap r,0,0,3000,0⟩

/-- One iteration of `monitor_loop`. -/
def iterate (engine : RegistryMonitorEngine) (r : Registry) : RegistryMonitorEngine×List Str :=
  let current := snapshotMap r
  let alerts := alertsOf engine.baseline current
  let quiet := engine.quietTicks+1
  ({ baseline := current
     eventsProcessed := engine.eventsProcessed+1
     threatsDetected := engine.threatsDetected+UInt64.ofNat alerts.length
     pollMs :=
       if alerts≠[] then 3000
       else if quiet ≥ 5 ∧ engine.pollMs < 30000 then min (engine.pollMs*2) 30000
       else engine.pollMs
     quietTicks := if alerts≠[] then 0 else quiet },alerts)

/-- The registry as it was at the last poll, and the engine. -/
structure World where
  /-- What the system holds. -/
  registry : Registry
  /-- What the monitor remembers of it. -/
  engine : RegistryMonitorEngine

/-- The next poll meets a state of the registry. -/
def step (w : World) (r : Registry) : World×List Str :=
  (⟨r,(iterate w.engine r).1⟩,(iterate w.engine r).2)

/-- The engine has started. -/
def started (r : Registry) : World := ⟨r,start r⟩

/-- A recorded poll. -/
abbrev PollEvent := Event World (Registry×List Str)

/-- The key and the name of a value. -/
def identity (x : Located) : Str×Str := (x.1,x.2.name)

/-- Some monitored value was added or removed, or has another type or other
data. -/
def Changed (s t : Registry) : Prop :=
  (∃ x ∈ monitored t,∀ y ∈ monitored s,identity y≠identity x) ∨
  (∃ x ∈ monitored s,∀ y ∈ monitored t,identity y≠identity x) ∨
  ∃ x ∈ monitored s,∃ y ∈ monitored t,identity x=identity y ∧
    (x.2.type≠y.2.type ∨ x.2.data≠y.2.data)

/-- The baseline holds the snapshots of the monitored values and no others. -/
def Represents (baseline : Table Str RegistryValueSnapshot) (r : Registry) : Prop :=
  ∀ snap,(∃ key,baseline.lookup key=some snap) ↔ ∃ x ∈ monitored r,snap=snapshot x

/-- A poll raises an alert exactly when a monitored value has changed, and
leaves the new state as the baseline. -/
def Exact (e : PollEvent) : Prop :=
  (e.label.2≠[] ↔ Changed e.before.registry e.after.registry) ∧
    Represents e.after.engine.baseline e.after.registry

/-- The text a value is kept under. -/
def keyText (x : Located) : Str := x.1++ '\\'::x.2.name

/-- A value of a monitored key within the limits: its name has less than 512
characters and its data at most 4096 bytes, and it is a value of the key itself
or of one of the first 256 subkeys of a hierarchical key, where neither that
subkey nor one before it has a name of 256 characters or more. -/
structure InLimits (r : Registry) (x : Located) : Prop where
  /-- The name fits. -/
  name : x.2.name.length < 512
  /-- The data fit. -/
  data : x.2.data.length ≤ 4096
  /-- The key is reached. -/
  place : ∃ ak ∈ defaultAutorunKeys,∃ key,r ak=some key ∧
    (x.1=basePath ak ∧ x.2 ∈ key.values ∨
      hierarchical ak=true ∧ ∃ (i : ℕ) (sub : Str×List RegistryValue),
        i < 256 ∧ key.subkeys[i]?=some sub ∧
        (∀ j ≤ i,∀ other,key.subkeys[j]?=some other → other.1.length < 256) ∧
        x.1=basePath ak++ '\\'::sub.1 ∧ x.2 ∈ sub.2)

/-- All monitored values are within the limits and have texts of their own. -/
structure Readable (r : Registry) : Prop where
  /-- Every value is within the limits. -/
  limits : ∀ x ∈ monitored r,InLimits r x
  /-- No two have the same text. -/
  distinct : ∀ x ∈ monitored r,∀ y ∈ monitored r,keyText x=keyText y → x=y

section Snapshots

/-- The elements before the first one that fails a test. -/
theorem mem_takeWhile_iff {α : Type*} {p : α → Bool} {l : List α} {x : α} :
    x ∈ l.takeWhile p ↔ ∃ i : ℕ,l[i]?=some x ∧ ∀ j ≤ i,∀ y,l[j]?=some y → p y=true := by
  induction l with
  | nil => exact ⟨fun h => absurd h List.not_mem_nil,fun ⟨_,h,_⟩ => absurd h nofun⟩
  | cons a l ih =>
    cases ha : p a with
    | false =>
      rw [List.takeWhile_cons_of_neg (Bool.eq_false_iff.mp ha)]
      refine ⟨fun h => absurd h List.not_mem_nil,fun ⟨i,_,h⟩ => ?_⟩
      exact absurd ((h 0 (Nat.zero_le i) a rfl).symm.trans ha) (by decide)
    | true =>
      rw [List.takeWhile_cons_of_pos ha,List.mem_cons,ih]
      constructor
      · rintro (rfl | ⟨i,hi,h⟩)
        · refine ⟨0,rfl,fun j hj y hy => ?_⟩
          rw [Nat.le_zero.mp hj] at hy
          rw [←Option.some.inj hy]
          exact ha
        · refine ⟨i+1,hi,fun j hj y hy => ?_⟩
          cases j with
          | zero =>
            rw [←Option.some.inj hy]
            exact ha
          | succ j => exact h j (Nat.le_of_succ_le_succ hj) y hy
      · rintro ⟨i,hi,h⟩
        cases i with
        | zero => exact .inl (Option.some.inj hi).symm
        | succ i => exact .inr ⟨i,hi,fun j hj y hy => h (j+1) (Nat.succ_le_succ hj) y hy⟩

/-- The subkeys that the loop reaches. -/
theorem mem_reached {subkeys : List (Str×List RegistryValue)} {sub : Str×List RegistryValue} :
    sub ∈ reached subkeys ↔ ∃ i : ℕ,i < 256 ∧ subkeys[i]?=some sub ∧
      ∀ j ≤ i,∀ other,subkeys[j]?=some other → other.1.length < 256 := by
  rw [reached,mem_takeWhile_iff]
  refine exists_congr fun i => ?_
  rw [List.getElem?_take]
  by_cases hi : i < 256
  · rw [if_pos hi]
    refine ⟨fun ⟨h,hall⟩ => ⟨hi,h,fun j hj other hother => ?_⟩,
      fun ⟨_,h,hall⟩ => ⟨h,fun j hj other hother => ?_⟩⟩
    · refine of_decide_eq_true (hall j hj other ?_)
      rw [List.getElem?_take,if_pos (hj.trans_lt hi)]
      exact hother
    · rw [List.getElem?_take,if_pos (hj.trans_lt hi)] at hother
      exact decide_eq_true (hall j hj other hother)
  · rw [if_neg hi]
    exact ⟨fun h => absurd h.1 nofun,fun h => absurd h.1 hi⟩

/-- The values that the loop over the values of a key takes over. -/
theorem mem_enumValues {path : Str} {values : List RegistryValue} {x : Located} :
    x ∈ enumValues path values ↔
      (x.2.name.length < 512 ∧ x.2.data.length ≤ 4096) ∧ x.1=path ∧ x.2 ∈ values := by
  rw [enumValues,List.mem_map]
  constructor
  · rintro ⟨v,hv,rfl⟩
    obtain ⟨hmem,hfits⟩ := List.mem_filter.mp hv
    exact ⟨by simpa [fits] using hfits,rfl,hmem⟩
  · rintro ⟨hfits,rfl,hmem⟩
    exact ⟨x.2,List.mem_filter.mpr ⟨hmem,by simpa [fits] using hfits⟩,rfl⟩

/-- The values that are enumerated are those within the limits. -/
theorem mem_visible {r : Registry} {x : Located} : x ∈ visible r ↔ InLimits r x := by
  rw [visible,List.mem_flatMap]
  constructor
  · rintro ⟨ak,hak,hx⟩
    cases hkey : r ak with
    | none =>
      rw [hkey] at hx
      exact absurd hx List.not_mem_nil
    | some key =>
      rw [hkey,Option.map_some,Option.getD_some,enumKey] at hx
      rcases List.mem_append.mp hx with hvalue | hsub
      · obtain ⟨⟨hname,hdata⟩,hplace⟩ := mem_enumValues.mp hvalue
        exact ⟨hname,hdata,ak,hak,key,hkey,.inl hplace⟩
      · split_ifs at hsub with hhierarchical
        · obtain ⟨sub,hreached,hvalue⟩ := List.mem_flatMap.mp hsub
          obtain ⟨⟨hname,hdata⟩,hplace⟩ := mem_enumValues.mp hvalue
          obtain ⟨i,hi,hsub,hnames⟩ := mem_reached.mp hreached
          exact ⟨hname,hdata,ak,hak,key,hkey,
            .inr ⟨hhierarchical,i,sub,hi,hsub,hnames,hplace⟩⟩
        · exact absurd hsub List.not_mem_nil
  · rintro ⟨hname,hdata,ak,hak,key,hkey,hplace⟩
    refine ⟨ak,hak,?_⟩
    rw [hkey,Option.map_some,Option.getD_some,enumKey]
    rcases hplace with hvalue | ⟨hhierarchical,i,sub,hi,hsub,hnames,hvalue⟩
    · exact List.mem_append_left _ (mem_enumValues.mpr ⟨⟨hname,hdata⟩,hvalue⟩)
    · rw [if_pos hhierarchical]
      refine List.mem_append_right _ (List.mem_flatMap.mpr ⟨sub,?_,?_⟩)
      · exact mem_reached.mpr ⟨i,hi,hsub,hnames⟩
      · exact mem_enumValues.mpr ⟨⟨hname,hdata⟩,hvalue⟩

/-- In a readable state every monitored value is enumerated. -/
theorem Readable.visible {r : Registry} (h : Readable r) :
    ∀ x ∈ monitored r,x ∈ RegistryDiff.visible r :=
  fun x hx => mem_visible.mpr (h.limits x hx)

end Snapshots

section Alerts

end Alerts

section Values

/-- A registry without any of the keys. -/
def bare : Registry := fun _ => none

end Values

end Gcad.RegistryDiff
