import Gcad.BoundedLog
import Gcad.KeyedMap
import Gcad.NetworkDpi

/-!
# Policies for devices

A device is judged by its serial number first, when it has one and a list
holds it; then by the first rule in the order of addition whose type is its
own and whose other fields are empty or its own; then by the default. Rules
beyond the thousandth push the oldest one out. Reports of what a device does
are recorded with whether they violate its policy.
-/

namespace Gcad.DeviceControl

open Common BoundedLog Observation Threat
open KeyedMap (Table)
open NetworkDpi (dash)

/-- `DeviceType`. -/
inductive DeviceType where
  | usbStorage
  | usbHid
  | usbNetwork
  | usbOther
  | cdrom
  | floppy
  | mtp
  | bluetooth
  deriving DecidableEq

/-- `DeviceAction`. -/
inductive DeviceAction where
  | connected
  | disconnected
  | read
  | write
  | execute
  | blocked
  deriving DecidableEq

/-- `DevicePolicy`. -/
inductive DevicePolicy where
  | allow
  | readOnly
  | block
  | audit
  deriving DecidableEq

/-- `DeviceInfo`. -/
structure DeviceInfo where
  /-- The path the system gives the device. -/
  deviceId : Str
  /-- The name shown to the user. -/
  friendlyName : Str
  /-- The maker. -/
  vendorId : Str
  /-- The product of that maker. -/
  productId : Str
  /-- The one device of that product. -/
  serialNumber : Str
  /-- What kind of device it is. -/
  type : DeviceType
  /-- Where it is mounted. -/
  driveLetter : Str

/-- `DeviceEvent`. -/
structure DeviceEvent where
  /-- The number of the event. -/
  id : UInt64
  /-- When it was reported. -/
  timestamp : TimePoint
  /-- The device as it was then. -/
  device : DeviceInfo
  /-- What was done. -/
  action : DeviceAction
  /-- The file that was touched, if any. -/
  filePath : Str
  /-- Free text. -/
  detail : Str
  /-- The policy of the device forbids the action. -/
  policyViolation : Bool

/-- `DeviceRule`. -/
structure DeviceRule where
  /-- The name a rule is removed by. -/
  ruleId : Str
  /-- The maker it asks for, empty for any. -/
  vendorId : Str
  /-- The product it asks for, empty for any. -/
  productId : Str
  /-- The serial number it asks for, empty for any. -/
  serialNumber : Str
  /-- The kind of device it asks for. -/
  deviceType : DeviceType
  /-- What it prescribes. -/
  policy : DevicePolicy
  /-- Free text. -/
  description : Str
  deriving DecidableEq

/-- The state of a `DeviceControlEngine`. -/
structure DeviceControlEngine where
  /-- The policy where no rule matches. -/
  defaultPolicy : DevicePolicy
  /-- What was reported, oldest first. -/
  events : List DeviceEvent
  /-- The rules in the order of their calls. -/
  rules : List DeviceRule
  /-- Devices that are always allowed. -/
  whitelist : Finset Str
  /-- Devices that are always blocked. -/
  blacklist : Finset Str
  /-- The devices that are plugged in. -/
  connected : Table Str DeviceInfo
  /-- Reports so far. -/
  eventsProcessed : UInt64
  /-- Reports that violated a policy. -/
  threatsDetected : UInt64
  /-- The number of the next event. -/
  nextId : UInt64
  /-- A callback for threats is installed. -/
  threatCallback : Bool
  /-- A callback for observations is installed. -/
  observationCallback : Bool

/-- A new engine. -/
def create (threatCallback observationCallback : Bool) : DeviceControlEngine :=
  ⟨.audit,[],[],∅,∅,∅,0,0,1,threatCallback,observationCallback⟩

/-- `MAX_EVENTS`. -/
def MAX_EVENTS : ℕ := 5000

/-- `MAX_RULES`. -/
def MAX_RULES : ℕ := 1000

/-- `device_type_name`. -/
def deviceTypeName : DeviceType → Str
  | .usbStorage => "USB Storage".toList
  | .usbHid => "USB HID".toList
  | .usbNetwork => "USB Network".toList
  | .usbOther => "USB Other".toList
  | .cdrom => "CD-ROM".toList
  | .floppy => "Floppy".toList
  | .mtp => "MTP".toList
  | .bluetooth => "Bluetooth".toList

/-- `action_name`. -/
def actionName : DeviceAction → Str
  | .connected => "Connected".toList
  | .disconnected => "Disconnected".toList
  | .read => "Read".toList
  | .write => "Write".toList
  | .execute => "Execute".toList
  | .blocked => "Blocked".toList

/-- `policy_name`. -/
def policyName : DevicePolicy → Str
  | .allow => "Allow".toList
  | .readOnly => "Read-Only".toList
  | .block => "Block".toList
  | .audit => "Audit".toList

/-- The four tests of a rule. -/
def ruleMatches (device : DeviceInfo) (rule : DeviceRule) : Bool :=
  decide (rule.deviceType=device.type) &&
    (rule.vendorId.isEmpty || rule.vendorId==device.vendorId) &&
    (rule.productId.isEmpty || rule.productId==device.productId) &&
    (rule.serialNumber.isEmpty || rule.serialNumber==device.serialNumber)

/-- `evaluate_policy`. -/
def evaluatePolicy (engine : DeviceControlEngine) (device : DeviceInfo) : DevicePolicy :=
  if device.serialNumber≠[] ∧ device.serialNumber ∈ engine.blacklist then .block
  else if device.serialNumber≠[] ∧ device.serialNumber ∈ engine.whitelist then .allow
  else match engine.rules.find? (ruleMatches device) with
  | some rule => rule.policy
  | none => engine.defaultPolicy

/-- `violation` in `report_device_event`. -/
def violation (policy : DevicePolicy) (action : DeviceAction) : Bool :=
  if policy=.block ∧ action≠.disconnected then true
  else decide (policy=.readOnly ∧ (action=.write ∨ action=.execute))

/-- What the callbacks are given. -/
inductive Emission where
  | threat (event : ThreatEvent)
  | observation (obs : SecurityObservation)

/-- The event about a violation. -/
def violationEvent (device : DeviceInfo) (action : DeviceAction) (filePath : Str)
    (policy : DevicePolicy) (now : TimePoint) : ThreatEvent :=
  { ThreatEvent.default with
    level := levelValue (if policy=.block then .high else .medium)
    category := ThreatCategory.devicePolicy.value
    description := "Device policy violation: ".toList++deviceTypeName device.type++" '".toList++
      device.friendlyName++"' ".toList++actionName action++" blocked (policy: ".toList++
      policyName policy++")".toList
    filePath := filePath
    timestamp := now }

/-- The observation of an audited device. -/
def activityObservation (device : DeviceInfo) (action : DeviceAction) (filePath : Str) :
    SecurityObservation :=
  { sourceId := "DeviceControl".toList
    kind := .fileIntegrity
    suggestedLevel := .low
    confidence := .ofScaled false 0x13333333333333 (-54)
    deterministic := false
    processId := 0
    processName := []
    filePath := filePath
    sha256 := []
    evidence := "Device activity: ".toList++deviceTypeName device.type++" '".toList++
      device.friendlyName++"' ".toList++actionName action }

/-- The connected devices after an action. -/
def connect (connected : Table Str DeviceInfo) (device : DeviceInfo) (action : DeviceAction) :
    Table Str DeviceInfo :=
  match action with
  | .connected => connected.insert device.deviceId device
  | .disconnected => connected.erase device.deviceId
  | _ => connected

/-- `report_device_event` under a policy that was evaluated. -/
def reportUnder (policy : DevicePolicy) (engine : DeviceControlEngine) (device : DeviceInfo)
    (action : DeviceAction) (filePath : Str) (now : TimePoint) : DeviceControlEngine×List Emission :=
  let violated := violation policy action
  let event : DeviceEvent :=
    { id := engine.nextId
      timestamp := now
      device := device
      action := if violated then .blocked else action
      filePath := filePath
      detail := deviceTypeName device.type++" ".toList++actionName action++" ".toList++dash++
        " policy: ".toList++policyName policy
      policyViolation := violated }
  ({ engine with
    events := push MAX_EVENTS engine.events event
    connected := connect engine.connected device action
    eventsProcessed := engine.eventsProcessed+1
    threatsDetected := if violated then engine.threatsDetected+1 else engine.threatsDetected
    nextId := engine.nextId+1 },
    if violated then
      if engine.threatCallback then [.threat (violationEvent device action filePath policy now)]
      else []
    else if policy=.audit ∧ engine.observationCallback=true then
      [.observation (activityObservation device action filePath)]
    else [])

/-- `report_device_event`. -/
def reportDeviceEvent (engine : DeviceControlEngine) (device : DeviceInfo) (action : DeviceAction)
    (filePath : Str) (now : TimePoint) : DeviceControlEngine×List Emission :=
  reportUnder (evaluatePolicy engine device) engine device action filePath now

/-- `add_rule`. -/
def addRule (engine : DeviceControlEngine) (rule : DeviceRule) : DeviceControlEngine :=
  { engine with rules := push MAX_RULES engine.rules rule }

/-- `remove_rule`. -/
def removeRule (engine : DeviceControlEngine) (ruleId : Str) : DeviceControlEngine :=
  { engine with rules := engine.rules.filter fun r => !decide (r.ruleId=ruleId) }

/-- `whitelist_device`. -/
def whitelistDevice (engine : DeviceControlEngine) (serialNumber : Str) : DeviceControlEngine :=
  { engine with
    blacklist := engine.blacklist.erase serialNumber
    whitelist := insert serialNumber engine.whitelist }

/-- `blacklist_device`. -/
def blacklistDevice (engine : DeviceControlEngine) (serialNumber : Str) : DeviceControlEngine :=
  { engine with
    whitelist := engine.whitelist.erase serialNumber
    blacklist := insert serialNumber engine.blacklist }

/-- `set_default_policy`. -/
def setDefaultPolicy (engine : DeviceControlEngine) (policy : DevicePolicy) : DeviceControlEngine :=
  { engine with defaultPolicy := policy }

/-- One call. -/
inductive Call where
  | addRule (rule : DeviceRule)
  | removeRule (ruleId : Str)
  | whitelistDevice (serialNumber : Str)
  | blacklistDevice (serialNumber : Str)
  | setDefaultPolicy (policy : DevicePolicy)
  | reportDeviceEvent (device : DeviceInfo) (action : DeviceAction) (filePath : Str)
      (now : TimePoint)

/-- The effect of a call. -/
def apply (engine : DeviceControlEngine) : Call → DeviceControlEngine
  | .addRule rule => addRule engine rule
  | .removeRule ruleId => removeRule engine ruleId
  | .whitelistDevice serialNumber => whitelistDevice engine serialNumber
  | .blacklistDevice serialNumber => blacklistDevice engine serialNumber
  | .setDefaultPolicy policy => setDefaultPolicy engine policy
  | .reportDeviceEvent device action filePath now =>
    (reportDeviceEvent engine device action filePath now).1

section History

/-- What a call lists a serial number for. -/
def listing (serialNumber : Str) : Call → Option DevicePolicy
  | .whitelistDevice s => if s=serialNumber then some .allow else none
  | .blacklistDevice s => if s=serialNumber then some .block else none
  | _ => none

/-- The last list operation on a serial number. -/
def lastListing (calls : List Call) (serialNumber : Str) : Option DevicePolicy :=
  (calls.filterMap (listing serialNumber)).getLast?

/-- What a call makes the default. -/
def defaulting : Call → Option DevicePolicy
  | .setDefaultPolicy policy => some policy
  | _ => none

/-- The last default, or the initial one. -/
def lastDefault (calls : List Call) : DevicePolicy :=
  (calls.filterMap defaulting).getLast?.getD .audit

/-- A rule with the number of the call that added it. -/
abbrev Numbered := ℕ×DeviceRule

/-- Without the oldest rule, if there are too many. -/
def evict (held : Finset Numbered) : Finset Numbered :=
  if held.card ≤ MAX_RULES then held else held.filter fun x => ∃ y ∈ held,y.1 < x.1

/-- What a call does to the rules that are held. -/
def hold (number : ℕ) (held : Finset Numbered) : Call → Finset Numbered
  | .addRule rule => evict (insert (number,rule) held)
  | .removeRule ruleId => held.filter fun x => x.2.ruleId≠ruleId
  | _ => held

/-- The rules that are held after calls, the newest call first. -/
def heldAfter : List Call → Finset Numbered
  | [] => ∅
  | call::earlier => hold earlier.length (heldAfter earlier) call

/-- The rules that are held after a sequence of calls. -/
def heldRules (calls : List Call) : Finset Numbered := heldAfter calls.reverse

/-- A rule is made for a device: for its type and, as far as the rule names
them, for its vendor, its product and its serial number. -/
structure MadeFor (rule : DeviceRule) (device : DeviceInfo) : Prop where
  /-- The type is never left open. -/
  type : rule.deviceType=device.type
  /-- The vendor, if the rule names one. -/
  vendor : rule.vendorId≠[] → rule.vendorId=device.vendorId
  /-- The product, if the rule names one. -/
  product : rule.productId≠[] → rule.productId=device.productId
  /-- The serial number, if the rule names one. -/
  serial : rule.serialNumber≠[] → rule.serialNumber=device.serialNumber

/-- A rule of a set that was added before every other one made for a device. -/
def EarliestMatch (held : Finset Numbered) (device : DeviceInfo) (x : Numbered) : Prop :=
  x ∈ held ∧ MadeFor x.2 device ∧ ∀ y ∈ held,MadeFor y.2 device → x.1 ≤ y.1

/-- The policy a history gives a device: that of the last list operation on
its serial number, else that of the earliest rule held, else the default. -/
def Decides (calls : List Call) (device : DeviceInfo) (policy : DevicePolicy) : Prop :=
  match if device.serialNumber=[] then none else lastListing calls device.serialNumber with
  | some listed => policy=listed
  | none =>
    (∃ x,EarliestMatch (heldRules calls) device x ∧ policy=x.2.policy) ∨
    (∀ x ∈ heldRules calls,¬MadeFor x.2 device) ∧ policy=lastDefault calls

/-- An action violates a policy. -/
def Violates (policy : DevicePolicy) (action : DeviceAction) : Prop :=
  (policy=.block ∧ action≠.disconnected) ∨
    (policy=.readOnly ∧ (action=.write ∨ action=.execute))

end History

section Tracking

/-- The engine agrees with the history of its calls. -/
structure Tracks (calls : List Call) (engine : DeviceControlEngine) : Prop where
  /-- No serial number is in both lists. -/
  disjoint : Disjoint engine.whitelist engine.blacklist
  /-- The lists hold the serial numbers of their last operations. -/
  listed : ∀ serialNumber,lastListing calls serialNumber=
    if serialNumber ∈ engine.blacklist then some .block
    else if serialNumber ∈ engine.whitelist then some .allow else none
  /-- The rules are those that are held, in the order of their numbers. -/
  rules : ∃ numbered : List Numbered,numbered.map Prod.snd=engine.rules ∧
    numbered.Pairwise (fun x y => x.1 < y.1) ∧ (∀ x ∈ numbered,x.1 < calls.length) ∧
    numbered.length ≤ MAX_RULES ∧ numbered.toFinset=heldRules calls
  /-- The default is the last one. -/
  default : engine.defaultPolicy=lastDefault calls

/-- The last effect of a kind in a longer history. -/
theorem last_snoc {β : Type*} (effect : Call → Option β) (calls : List Call) (call : Call) :
    ((calls++[call]).filterMap effect).getLast?=
      (effect call).or (calls.filterMap effect).getLast? := by
  rw [List.filterMap_append,List.getLast?_append]
  cases heffect : effect call with
  | none => rw [List.filterMap_cons_none heffect]; rfl
  | some value => rw [List.filterMap_cons_some heffect]; rfl

/-- The last listing in a longer history. -/
theorem lastListing_snoc (calls : List Call) (call : Call) (serialNumber : Str) :
    lastListing (calls++[call]) serialNumber=
      (listing serialNumber call).or (lastListing calls serialNumber) :=
  last_snoc _ calls call

/-- The last default in a longer history. -/
theorem lastDefault_snoc (calls : List Call) (call : Call) :
    lastDefault (calls++[call])=(defaulting call).getD (lastDefault calls) := by
  rw [lastDefault,last_snoc,lastDefault]
  cases defaulting call with
  | none => rfl
  | some policy => rfl

/-- The rules that are held after a longer history. -/
theorem heldRules_snoc (calls : List Call) (call : Call) :
    heldRules (calls++[call])=hold calls.length (heldRules calls) call := by
  rw [heldRules,List.reverse_append,List.reverse_singleton,List.singleton_append,heldAfter,
    List.length_reverse,heldRules]

/-- Making room in the list of rules leaves the oldest one out. -/
theorem retain_toFinset {numbered : List Numbered}
    (sorted : numbered.Pairwise fun x y => x.1 < y.1) (hlength : numbered.length ≤ MAX_RULES+1) :
    (retain MAX_RULES numbered).toFinset=evict numbered.toFinset := by
  have hnodup : numbered.Nodup := sorted.imp fun hlt heq => by
    rw [heq] at hlt
    exact Nat.lt_irrefl _ hlt
  rw [retain,evict,List.toFinset_card_of_nodup hnodup]
  split_ifs with hfits
  · rw [Nat.sub_eq_zero_of_le hfits,List.drop_zero]
  · cases numbered with
    | nil => exact absurd (Nat.zero_le _) hfits
    | cons oldest rest =>
      obtain ⟨holdest,hrest⟩ := List.pairwise_cons.mp sorted
      have hone : (oldest::rest).length-MAX_RULES=1 := by omega
      rw [hone,List.drop_succ_cons,List.drop_zero]
      refine Finset.ext fun x => ?_
      rw [List.mem_toFinset,Finset.mem_filter,List.mem_toFinset]
      constructor
      · intro hx
        exact ⟨List.mem_cons_of_mem _ hx,oldest,List.mem_toFinset.mpr List.mem_cons_self,
          holdest x hx⟩
      · rintro ⟨hx,y,hy,hlt⟩
        rcases List.mem_cons.mp hx with rfl | hx
        · rcases List.mem_cons.mp (List.mem_toFinset.mp hy) with rfl | hy
          · exact absurd hlt (Nat.lt_irrefl _)
          · exact absurd (hlt.trans (holdest y hy)) (Nat.lt_irrefl _)
        · exact hx

variable {calls : List Call} {engine : DeviceControlEngine}

/-- The rules after adding one. -/
theorem Tracks.addRule_rules (tracks : Tracks calls engine) (rule : DeviceRule) :
    ∃ numbered : List Numbered,numbered.map Prod.snd=push MAX_RULES engine.rules rule ∧
      numbered.Pairwise (fun x y => x.1 < y.1) ∧
      (∀ x ∈ numbered,x.1 < (calls++[Call.addRule rule]).length) ∧
      numbered.length ≤ MAX_RULES ∧
      numbered.toFinset=heldRules (calls++[.addRule rule]) := by
  obtain ⟨numbered,hrules,hsorted,hbound,hlength,hheld⟩ := tracks.rules
  have hpushed : (numbered++[(calls.length,rule)]).Pairwise fun x y => x.1 < y.1 := by
    refine List.pairwise_append.mpr ⟨hsorted,List.pairwise_singleton _ _,?_⟩
    intro x hx y hy
    rw [List.mem_singleton.mp hy]
    exact hbound x hx
  refine ⟨push MAX_RULES numbered (calls.length,rule),?_,?_,?_,retain_length _ _,?_⟩
  · rw [←hrules,push,retain,List.map_drop,List.map_append,List.map_singleton,push,retain,
      List.length_append,List.length_append,List.length_map,List.length_singleton,
      List.length_singleton]
  · exact hpushed.sublist (retain_suffix _ _).sublist
  · intro x hx
    rw [List.length_append,List.length_singleton]
    rcases List.mem_append.mp ((retain_suffix _ _).subset hx) with hold | hnew
    · exact (hbound x hold).trans (Nat.lt_succ_self _)
    · rw [List.mem_singleton.mp hnew]
      exact Nat.lt_succ_self _
  · rw [push,retain_toFinset hpushed (by rw [List.length_append,List.length_singleton]; omega),
      heldRules_snoc,hold,←hheld,List.toFinset_append,List.toFinset_cons,List.toFinset_nil,
      Finset.union_comm]
    rfl

/-- The rules after removing some. -/
theorem Tracks.removeRule_rules (tracks : Tracks calls engine) (ruleId : Str) :
    ∃ numbered : List Numbered,
      numbered.map Prod.snd=(engine.rules.filter fun r => !decide (r.ruleId=ruleId)) ∧
      numbered.Pairwise (fun x y => x.1 < y.1) ∧
      (∀ x ∈ numbered,x.1 < (calls++[Call.removeRule ruleId]).length) ∧
      numbered.length ≤ MAX_RULES ∧
      numbered.toFinset=heldRules (calls++[.removeRule ruleId]) := by
  obtain ⟨numbered,hrules,hsorted,hbound,hlength,hheld⟩ := tracks.rules
  refine ⟨numbered.filter fun x => !decide (x.2.ruleId=ruleId),?_,hsorted.filter _,?_,
    (List.length_filter_le _ _).trans hlength,?_⟩
  · rw [←hrules,List.filter_map]
    rfl
  · intro x hx
    rw [List.length_append,List.length_singleton]
    exact (hbound x (List.mem_of_mem_filter hx)).trans (Nat.lt_succ_self _)
  · rw [heldRules_snoc,hold,←hheld,List.toFinset_filter]
    refine Finset.filter_congr fun x _ => ?_
    rw [Bool.not_eq_true',decide_eq_false_iff_not]

/-- The rules after a call that leaves them alone. -/
theorem Tracks.same_rules (tracks : Tracks calls engine) {call : Call}
    (hsame : hold calls.length (heldRules calls) call=heldRules calls) :
    ∃ numbered : List Numbered,numbered.map Prod.snd=engine.rules ∧
      numbered.Pairwise (fun x y => x.1 < y.1) ∧ (∀ x ∈ numbered,x.1 < (calls++[call]).length) ∧
      numbered.length ≤ MAX_RULES ∧ numbered.toFinset=heldRules (calls++[call]) := by
  obtain ⟨numbered,hrules,hsorted,hbound,hlength,hheld⟩ := tracks.rules
  refine ⟨numbered,hrules,hsorted,fun x hx => ?_,hlength,?_⟩
  · rw [List.length_append,List.length_singleton]
    exact (hbound x hx).trans (Nat.lt_succ_self _)
  · rw [heldRules_snoc,hsame,hheld]

/-- The default after a call that leaves it alone. -/
theorem Tracks.same_default (tracks : Tracks calls engine) {call : Call}
    (hnone : defaulting call=none) : engine.defaultPolicy=lastDefault (calls++[call]) := by
  rw [lastDefault_snoc,hnone,Option.getD_none]
  exact tracks.default

/-- The listings after a call that leaves the lists alone. -/
theorem Tracks.same_listed (tracks : Tracks calls engine) {call : Call}
    (hnone : ∀ serialNumber,listing serialNumber call=none) (serialNumber : Str) :
    lastListing (calls++[call]) serialNumber=
      if serialNumber ∈ engine.blacklist then some .block
      else if serialNumber ∈ engine.whitelist then some .allow else none := by
  rw [lastListing_snoc,hnone,Option.none_or]
  exact tracks.listed serialNumber

/-- A call that changes the rules only. -/
theorem Tracks.with_rules (tracks : Tracks calls engine) {call : Call} {rules : List DeviceRule}
    (hlisting : ∀ serialNumber,listing serialNumber call=none) (hdefaulting : defaulting call=none)
    (hrules : ∃ numbered : List Numbered,numbered.map Prod.snd=rules ∧
      numbered.Pairwise (fun x y => x.1 < y.1) ∧ (∀ x ∈ numbered,x.1 < (calls++[call]).length) ∧
      numbered.length ≤ MAX_RULES ∧ numbered.toFinset=heldRules (calls++[call])) :
    Tracks (calls++[call]) { engine with rules := rules } :=
  ⟨tracks.disjoint,tracks.same_listed hlisting,hrules,tracks.same_default hdefaulting⟩

/-- A report changes nothing a policy depends on. -/
theorem Tracks.with_report (tracks : Tracks calls engine) (device : DeviceInfo)
    (action : DeviceAction) (filePath : Str) (now : TimePoint) (events : List DeviceEvent)
    (connected : Table Str DeviceInfo) (processed threats nextId : UInt64) :
    Tracks (calls++[.reportDeviceEvent device action filePath now])
      { engine with
        events := events
        connected := connected
        eventsProcessed := processed
        threatsDetected := threats
        nextId := nextId } :=
  ⟨tracks.disjoint,tracks.same_listed fun _ => rfl,tracks.same_rules rfl,tracks.same_default rfl⟩

/-- Every call keeps the engine in agreement with the history. -/
theorem Tracks.step (tracks : Tracks calls engine) (call : Call) :
    Tracks (calls++[call]) (apply engine call) := by
  cases call with
  | addRule rule =>
    rw [apply,addRule]
    exact tracks.with_rules (fun _ => rfl) rfl (tracks.addRule_rules rule)
  | removeRule ruleId =>
    rw [apply,removeRule]
    exact tracks.with_rules (fun _ => rfl) rfl (tracks.removeRule_rules ruleId)
  | whitelistDevice serialNumber =>
    refine ⟨?_,fun s => ?_,tracks.same_rules rfl,tracks.same_default rfl⟩
    · refine Finset.disjoint_insert_left.mpr ⟨Finset.notMem_erase _ _,?_⟩
      exact tracks.disjoint.mono_right (Finset.erase_subset _ _)
    · rw [lastListing_snoc,tracks.listed,apply,whitelistDevice,listing]
      dsimp only
      by_cases hs : serialNumber=s
      · rw [hs,if_pos rfl,if_neg (Finset.notMem_erase _ _),if_pos (Finset.mem_insert_self _ _)]
        rfl
      · rw [if_neg hs,Option.none_or]
        refine if_congr ?_ rfl (if_congr ?_ rfl rfl)
        · exact (Finset.mem_erase.trans (and_iff_right (Ne.symm hs))).symm
        · exact (Finset.mem_insert.trans (or_iff_right (Ne.symm hs))).symm
  | blacklistDevice serialNumber =>
    refine ⟨?_,fun s => ?_,tracks.same_rules rfl,tracks.same_default rfl⟩
    · refine Finset.disjoint_insert_right.mpr ⟨Finset.notMem_erase _ _,?_⟩
      exact tracks.disjoint.mono_left (Finset.erase_subset _ _)
    · rw [lastListing_snoc,tracks.listed,apply,blacklistDevice,listing]
      dsimp only
      by_cases hs : serialNumber=s
      · rw [hs,if_pos rfl,if_pos (Finset.mem_insert_self _ _)]
        rfl
      · rw [if_neg hs,Option.none_or]
        refine if_congr ?_ rfl (if_congr ?_ rfl rfl)
        · exact (Finset.mem_insert.trans (or_iff_right (Ne.symm hs))).symm
        · exact (Finset.mem_erase.trans (and_iff_right (Ne.symm hs))).symm
  | setDefaultPolicy policy =>
    refine ⟨tracks.disjoint,fun s => ?_,tracks.same_rules rfl,?_⟩
    · rw [lastListing_snoc]
      exact tracks.listed s
    · rw [lastDefault_snoc]
      rfl
  | reportDeviceEvent device action filePath now =>
    rw [apply,reportDeviceEvent,reportUnder]
    exact tracks.with_report device action filePath now _ _ _ _ _

/-- After every sequence of calls of a new engine it agrees with them. -/
theorem run_tracks (threatCallback observationCallback : Bool) (calls : List Call) :
    Tracks calls (calls.foldl apply (create threatCallback observationCallback)) := by
  induction calls using List.reverseRecOn with
  | nil =>
    exact ⟨Finset.disjoint_empty_left _,fun _ => rfl,
      ⟨[],rfl,.nil,fun _ h => absurd h List.not_mem_nil,Nat.zero_le _,rfl⟩,rfl⟩
  | append_singleton calls call ih =>
    rw [List.foldl_append]
    exact ih.step call

/-- An empty name in a rule stands for every name. -/
theorem wildcard_iff (asked given : Str) :
    (asked.isEmpty || asked==given)=true ↔ (asked≠[] → asked=given) := by
  rw [Bool.or_eq_true,List.isEmpty_iff,beq_iff_eq]
  exact Decidable.or_iff_not_imp_left

/-- The four tests find out whether a rule is made for a device. -/
theorem ruleMatches_iff (device : DeviceInfo) (rule : DeviceRule) :
    ruleMatches device rule=true ↔ MadeFor rule device := by
  simp only [ruleMatches,Bool.and_eq_true,decide_eq_true_eq,wildcard_iff]
  constructor
  · rintro ⟨⟨⟨type,vendor⟩,product⟩,serial⟩
    exact ⟨type,vendor,product,serial⟩
  · intro made
    exact ⟨⟨⟨made.type,made.vendor⟩,made.product⟩,made.serial⟩

/-- The first rule that matches is the one that was added first. -/
theorem Tracks.find_rule (tracks : Tracks calls engine) (device : DeviceInfo) :
    (∃ x,EarliestMatch (heldRules calls) device x ∧
      engine.rules.find? (ruleMatches device)=some x.2) ∨
    (∀ x ∈ heldRules calls,¬MadeFor x.2 device) ∧
      engine.rules.find? (ruleMatches device)=none := by
  obtain ⟨numbered,hrules,hsorted,-,-,hheld⟩ := tracks.rules
  have hmem : ∀ x,x ∈ heldRules calls ↔ x ∈ numbered := by
    intro x
    rw [←hheld,List.mem_toFinset]
  rw [←hrules,List.find?_map]
  cases hfind : numbered.find? (ruleMatches device ∘ Prod.snd) with
  | none =>
    refine .inr ⟨fun x hx made => ?_,rfl⟩
    exact List.find?_eq_none.mp hfind x ((hmem x).mp hx) ((ruleMatches_iff device x.2).mpr made)
  | some x =>
    obtain ⟨hmatch,before,after,hsplit,hbefore⟩ := List.find?_eq_some_iff_append.mp hfind
    refine .inl ⟨x,⟨(hmem x).mpr (List.mem_of_find?_eq_some hfind),
      (ruleMatches_iff device x.2).mp hmatch,fun y hy hy' => ?_⟩,rfl⟩
    rw [hmem,hsplit] at hy
    rw [hsplit] at hsorted
    rcases List.mem_append.mp hy with hearlier | hlater
    · have hno := hbefore y hearlier
      rw [Function.comp_apply,(ruleMatches_iff device y.2).mpr hy'] at hno
      exact absurd hno (by decide)
    · rcases List.mem_cons.mp hlater with rfl | hlater
      · exact le_rfl
      · exact ((List.pairwise_cons.mp (List.pairwise_append.mp hsorted).2.1).1 y hlater).le

/-- The policy of a device is the one its history decides. -/
theorem Tracks.decides (tracks : Tracks calls engine) (device : DeviceInfo) :
    Decides calls device (evaluatePolicy engine device) := by
  have hrules : (if device.serialNumber=[] then none else lastListing calls device.serialNumber)=
        none →
      (match engine.rules.find? (ruleMatches device) with
        | some rule => rule.policy
        | none => engine.defaultPolicy)=evaluatePolicy engine device →
      Decides calls device (evaluatePolicy engine device) := by
    intro hnone heq
    rw [Decides,hnone,←heq]
    refine (tracks.find_rule device).imp ?_ ?_
    · rintro ⟨x,hx,hfind⟩
      exact ⟨x,hx,by rw [hfind]⟩
    · rintro ⟨hall,hfind⟩
      exact ⟨hall,by rw [hfind]; exact tracks.default⟩
  by_cases hempty : device.serialNumber=[]
  · refine hrules (if_pos hempty) ?_
    rw [evaluatePolicy,if_neg fun h => h.1 hempty,if_neg fun h => h.1 hempty]
  · have hlisted := tracks.listed device.serialNumber
    by_cases hblack : device.serialNumber ∈ engine.blacklist
    · rw [if_pos hblack] at hlisted
      rw [Decides,if_neg hempty,hlisted,evaluatePolicy,if_pos ⟨hempty,hblack⟩]
    · by_cases hwhite : device.serialNumber ∈ engine.whitelist
      · rw [if_neg hblack,if_pos hwhite] at hlisted
        rw [Decides,if_neg hempty,hlisted,evaluatePolicy,if_neg fun h => hblack h.2,
          if_pos ⟨hempty,hwhite⟩]
      · rw [if_neg hblack,if_neg hwhite] at hlisted
        refine hrules (by rw [if_neg hempty]; exact hlisted) ?_
        rw [evaluatePolicy,if_neg fun h => hblack h.2,if_neg fun h => hwhite h.2]

end Tracking

/-- The computed violation is that of the policy. -/
theorem violation_iff (policy : DevicePolicy) (action : DeviceAction) :
    violation policy action=true ↔ Violates policy action := by
  rw [violation,Violates]
  split_ifs with hblock
  · exact iff_of_true rfl (.inl hblock)
  · rw [decide_eq_true_iff]
    exact (or_iff_right hblock).symm

/-- After every sequence of calls of a new engine: no serial number is in both
lists, every device has the policy that the history of calls decides, and a
report about it records a violation exactly when the action violates that
policy. -/
theorem device_policies (threatCallback observationCallback : Bool) (calls : List Call) :
    Disjoint (calls.foldl apply (create threatCallback observationCallback)).whitelist
      (calls.foldl apply (create threatCallback observationCallback)).blacklist ∧
    ∀ device,∃ policy,
      evaluatePolicy (calls.foldl apply (create threatCallback observationCallback)) device=
        policy ∧ Decides calls device policy ∧
      ∀ action filePath now,∃ event,
        (reportDeviceEvent (calls.foldl apply (create threatCallback observationCallback)) device
          action filePath now).1.events.getLast?=some event ∧ event.device=device ∧
        (event.policyViolation=true ↔ Violates policy action) := by
  have tracks := run_tracks threatCallback observationCallback calls
  refine ⟨tracks.disjoint,fun device => ⟨_,rfl,tracks.decides device,?_⟩⟩
  intro action filePath now
  rw [reportDeviceEvent,reportUnder]
  dsimp only
  rw [←List.head?_reverse,push_reverse (by decide)]
  exact ⟨_,rfl,rfl,violation_iff _ action⟩

/-- All sticks are blocked, then those of one maker are allowed and one of
another maker is whitelisted. -/
def stickCalls : List Call :=
  [.addRule ⟨"r1".toList,[],[],[],.usbStorage,.block,[]⟩,
    .addRule ⟨"r2".toList,"0951".toList,[],[],.usbStorage,.allow,[]⟩,
    .whitelistDevice "A1".toList]

/-- A stick of the maker that the second rule names. -/
def stick : DeviceInfo :=
  ⟨"usb-1".toList,"Stick".toList,"0951".toList,"1666".toList,"B2".toList,.usbStorage,"E:".toList⟩

/-- The earlier rule blocks the stick, and a write to it is a violation. -/
theorem stick_blocked :
    Decides stickCalls stick .block ∧
      ∃ event,(reportDeviceEvent (stickCalls.foldl apply (create false false)) stick .write []
        0).1.events.getLast?=some event ∧ event.policyViolation=true := by
  obtain ⟨-,hdevices⟩ := device_policies false false stickCalls
  obtain ⟨policy,heq,hdecides,hreports⟩ := hdevices stick
  have hblock : policy=.block := by
    rw [← heq]
    decide
  subst hblock
  obtain ⟨event,hlast,-,hviolates⟩ := hreports .write [] 0
  exact ⟨hdecides,event,hlast,hviolates.mpr (.inl ⟨rfl,by decide⟩)⟩

end Gcad.DeviceControl
