import Gcad.BoundedLog
import Gcad.StepSystem
import Gcad.Threat

/-!
# Alerts under concurrent pushes

`AlertManager` of alert_manager.cpp. A push takes its number from an atomic
counter, files the record under the lock, and then notifies and perhaps
beeps without the lock, so the steps of several pushes interleave with each
other and with the callers that acknowledge, clear or read. The history is a
bounded end of a journal that is never cut; every number is filed at most
once, and every filed record is shown at most once, unless there is nothing to
show it with.
-/

namespace Gcad.AlertManager

open Common Threat BoundedLog StepSystem

/-- `AlertRecord`. -/
@[ext]
structure AlertRecord where
  /-- Number of the alert. -/
  id : UInt64
  /-- Time of the event, or of the push where the event has none. -/
  timestamp : TimePoint
  /-- Underlying value of the level. -/
  level : UInt8
  /-- Underlying value of the category. -/
  category : UInt16
  /-- Short name of the engine the category belongs to. -/
  source : Str
  /-- What happened. -/
  description : Str
  /-- The process the alert is about, empty if none is. -/
  processName : Str
  /-- Number of the process. -/
  processId : UInt32
  /-- Whether a user has acknowledged it. -/
  acknowledged : Bool
  deriving DecidableEq

/-- `map_category_source` on the enumerators. -/
def sourceOfCategory : ThreatCategory → String
  | .memoryInjection | .processHollow | .dllInjection | .apcInjection | .reflectiveLoad
  | .shellcode | .filelessExec => "PMSR"
  | .dnsTunnel | .dgaDomain => "DnsMon"
  | .ransomware | .fileEncrypt | .backdoorAccount => "ARHS"
  | .networkScan | .synFlood | .udpFlood | .arpPoison | .icmpCovert | .rawSocketProbe => "ZRGP"
  | .registryTamper => "RegMon"
  | .evasionAmsi | .evasionEtw | .evasionUnhook | .directSyscall => "SyscallGuard"
  | .ppidSpoof | .kerberosAttack | .ntlmCoerce | .credentialDump => "KernelMon"
  | .entropyAnomaly | .suspiciousBinary => "DeepScan"
  | .antiForensic => "SelfDefense"
  | .fileIntegrityViolation => "FIM"
  | .yaraRuleMatch => "YARA"
  | _ => "GCAD"

/-- `map_category_source`; a value without an enumerator takes the default
branch. -/
def mapCategorySource (cat : UInt16) : Str :=
  match categoryOf cat with
  | some category => (sourceOfCategory category).toList
  | none => "GCAD".toList

/-- `AlertManager::MAX_HISTORY`. -/
def maxHistory : ℕ := 500

/-- `AlertManager::SOUND_COOLDOWN_MS`. -/
def soundCooldownMs : ℤ := 3000

/-- The members of `AlertManager`, with the pushes that are under way. -/
structure State where
  /-- The alerts filed, oldest first. -/
  history : List AlertRecord
  /-- The number of the next alert. -/
  nextId : UInt64
  /-- The lowest level that is filed. -/
  minLevel : UInt8
  /-- Alerts may be heard. -/
  soundEnabled : Bool
  /-- Alerts may pop up. -/
  toastEnabled : Bool
  /-- When the last sound was played. -/
  lastSoundTimeMs : ℤ
  /-- Whether `notification_cb_` is set. -/
  notificationCb : Bool
  /-- Whether the tray icon is initialised. -/
  tray : Bool
  /-- Pushes that have a number and wait for the lock. -/
  numbered : List AlertRecord
  /-- Pushes that have filed their record and have not notified yet. -/
  filed : List AlertRecord
  /-- Pushes that have notified and have not looked at the sound yet. -/
  notified : List AlertRecord
  /-- Pushes that passed the cooldown, with the time they read. -/
  sounding : List ℤ

/-- A new manager. -/
def State.initial : State := ⟨[],1,levelValue .low,false,true,0,false,true,[],[],[],[]⟩

/-- What one step of a caller does. A number selects one of the pushes that
wait at that point. -/
inductive Action where
  /-- `push` up to the record with its number. -/
  | number (ev : ThreatEvent) (now : TimePoint)
  /-- The locked block of `push`. -/
  | file (i : ℕ)
  /-- The notification of `push`. -/
  | notify (i : ℕ)
  /-- `play_sound` up to the comparison with the last time. -/
  | sound (i : ℕ) (nowMs : ℤ)
  /-- The end of `play_sound`. -/
  | beep (i : ℕ)
  /-- One alert is acknowledged. -/
  | acknowledge (id : UInt64)
  /-- All of them are. -/
  | acknowledgeAll
  /-- The list is emptied. -/
  | clear
  /-- The lowest level is chosen. -/
  | setMinLevel (level : UInt8)
  /-- Sounds are switched. -/
  | setSoundEnabled (on : Bool)
  /-- Balloons are switched. -/
  | setToastEnabled (on : Bool)
  /-- A callback is installed or removed. -/
  | setNotificationCallback (present : Bool)
  /-- The tray icon is taken away. -/
  | disableTray

/-- What a step shows to the outside. -/
inductive Reply where
  /-- Nothing. -/
  | silent
  /-- The callback is called with a record. -/
  | callback (rec : AlertRecord)
  /-- A balloon is shown for a record. -/
  | balloon (rec : AlertRecord)
  /-- The machine beeps. -/
  | beep

/-- The record that `push` makes. -/
def recordOf (id : UInt64) (ev : ThreatEvent) (now : TimePoint) : AlertRecord :=
  { id := id
    timestamp := if ev.timestamp≠0 then ev.timestamp else now
    level := ev.level
    category := ev.category
    source := mapCategorySource ev.category
    description := ev.description
    processName := ev.processName
    processId := ev.processId
    acknowledged := false }

/-- The record with its flag set. -/
def AlertRecord.acknowledge (rec : AlertRecord) : AlertRecord := { rec with acknowledged := true }

/-- The loop of `acknowledge`: the first record with the number. -/
def acknowledgeFirst (id : UInt64) : List AlertRecord → List AlertRecord
  | [] => []
  | rec::rest => if rec.id=id then rec.acknowledge::rest else rec::acknowledgeFirst id rest

/-- One step. A step of a push that does not exist does nothing. -/
def step (s : State) : Action → State×Reply
  | .number ev now =>
    if ev.level < s.minLevel then (s,.silent)
    else ({ s with
      nextId := s.nextId+1
      numbered := s.numbered++[recordOf s.nextId ev now] },.silent)
  | .file i =>
    match s.numbered[i]? with
    | none => (s,.silent)
    | some rec =>
      ({ s with
        numbered := s.numbered.eraseIdx i
        history := push maxHistory s.history rec
        filed := s.filed++[rec] },.silent)
  | .notify i =>
    match s.filed[i]? with
    | none => (s,.silent)
    | some rec =>
      ({ s with filed := s.filed.eraseIdx i,notified := s.notified++[rec] },
        if s.notificationCb then .callback rec
        else if s.toastEnabled && s.tray then .balloon rec else .silent)
  | .sound i nowMs =>
    match s.notified[i]? with
    | none => (s,.silent)
    | some rec =>
      let s := { s with notified := s.notified.eraseIdx i }
      if !s.soundEnabled || rec.level < levelValue .high ||
          nowMs-s.lastSoundTimeMs < soundCooldownMs then (s,.silent)
      else ({ s with sounding := s.sounding++[nowMs] },.silent)
  | .beep i =>
    match s.sounding[i]? with
    | none => (s,.silent)
    | some nowMs =>
      ({ s with sounding := s.sounding.eraseIdx i,lastSoundTimeMs := nowMs },.beep)
  | .acknowledge id => ({ s with history := acknowledgeFirst id s.history },.silent)
  | .acknowledgeAll => ({ s with history := s.history.map AlertRecord.acknowledge },.silent)
  | .clear => ({ s with history := [] },.silent)
  | .setMinLevel level => ({ s with minLevel := level },.silent)
  | .setSoundEnabled on => ({ s with soundEnabled := on },.silent)
  | .setToastEnabled on => ({ s with toastEnabled := on },.silent)
  | .setNotificationCallback present => ({ s with notificationCb := present },.silent)
  | .disableTray => ({ s with tray := false },.silent)

/-- `recent`. -/
def recent (s : State) (n : ℕ) : List AlertRecord :=
  s.history.drop (if n < s.history.length then s.history.length-n else 0)

/-- `total_count`. -/
def totalCount (s : State) : ℕ := s.history.length

/-- `unacknowledged_count`. -/
def unacknowledgedCount (s : State) : ℕ := s.history.countP fun rec => !rec.acknowledged

/-- A recorded step of a caller. -/
abbrev Step := Event State (Action×Reply)

/-- Whether a step gave out a number. -/
def numbers (e : Step) : Bool :=
  match e.label.1 with
  | .number ev _ => !decide (ev.level < e.before.minLevel)
  | _ => false

/-- The record that a step files. -/
def filedBy (e : Step) : Option AlertRecord :=
  match e.label.1 with
  | .file i => e.before.numbered[i]?
  | _ => none

/-- The record that a step hands to the callback or shows in a balloon. -/
def notifiedBy (e : Step) : Option AlertRecord :=
  match e.label.2 with
  | .callback rec => some rec
  | .balloon rec => some rec
  | _ => none

/-- The record that a push could not show: its notification came to nothing. -/
def passedBy (e : Step) : Option AlertRecord :=
  match e.label with
  | (.notify i,.silent) => e.before.filed[i]?
  | _ => none

/-- A record can be shown: a callback is set, or balloons are enabled and the
tray icon is there. -/
def Shows (s : State) : Prop :=
  s.notificationCb=true ∨ s.toastEnabled=true ∧ s.tray=true

/-- What a step does to the journal: as to the history, without a bound, and
an acknowledgement concerns every record with the number. -/
def record (journal : List AlertRecord) (e : Step) : List AlertRecord :=
  match e.label.1 with
  | .file i => journal++(e.before.numbered[i]?).toList
  | .acknowledge id => journal.map fun rec => if rec.id=id then rec.acknowledge else rec
  | .acknowledgeAll => journal.map AlertRecord.acknowledge
  | .clear => []
  | _ => journal

/-- All records filed since the last clear, with their flags. -/
def journal (events : List Step) : List AlertRecord := events.foldl record []

/-- All records that were ever filed, as they were filed. -/
def everFiled (events : List Step) : List AlertRecord := events.filterMap filedBy

/-- All records that were ever handed to the callback or shown in a balloon. -/
def everNotified (events : List Step) : List AlertRecord := events.filterMap notifiedBy

/-- All records that could not be shown. -/
def everPassed (events : List Step) : List AlertRecord := events.filterMap passedBy

/-- The numbers that a count of pushes takes. -/
def issued (count : ℕ) : List UInt64 := (List.range count).map fun i => UInt64.ofNat (i+1)

/-- The first numbers are distinct, as many as the counter has values. -/
theorem issued_nodup {count : ℕ} (h : count ≤ 2^64) : (issued count).Nodup := by
  refine List.Nodup.map_on ?_ List.nodup_range
  intro i hi j hj heq
  rw [List.mem_range] at hi hj
  have hmod := congrArg UInt64.toNat heq
  rw [UInt64.toNat_ofNat',UInt64.toNat_ofNat'] at hmod
  omega

/-- An element that is taken out of a list is left out of it. -/
theorem toList_eraseIdx_perm {α : Type*} {source : List α} {i : ℕ} {a : α}
    (h : source[i]?=some a) : (a::source.eraseIdx i).Perm source := by
  obtain ⟨hi,rfl⟩ := List.getElem?_eq_some_iff.mp h
  exact List.getElem_cons_eraseIdx_perm hi

section Steps

variable {s t : State} {action : Action} {reply : Reply}

/-- A step takes the next number for one more waiting push, or leaves the
counter and moves at most one waiting push to the filed records. -/
theorem step_numbered (h : step s action=(t,reply)) :
    (numbers ⟨s,(action,reply),t⟩=true ∧ t.nextId=s.nextId+1 ∧
      filedBy ⟨s,(action,reply),t⟩=none ∧
      ∃ rec : AlertRecord,rec.id=s.nextId ∧ t.numbered=s.numbered++[rec]) ∨
    (numbers ⟨s,(action,reply),t⟩=false ∧ t.nextId=s.nextId ∧
      ((filedBy ⟨s,(action,reply),t⟩).toList++t.numbered).Perm s.numbered) := by
  cases action with
  | number ev now =>
    by_cases hlow : ev.level < s.minLevel
    · obtain ⟨rfl,-⟩ := Prod.mk.inj ((if_pos hlow).symm.trans h)
      exact .inr ⟨by simp [numbers,hlow],rfl,.refl _⟩
    · obtain ⟨rfl,-⟩ := Prod.mk.inj ((if_neg hlow).symm.trans h)
      exact .inl ⟨by simp [numbers,hlow],rfl,rfl,recordOf s.nextId ev now,rfl,rfl⟩
  | file i =>
    cases hget : s.numbered[i]? with
    | none =>
      simp only [step,hget,Prod.mk.injEq] at h
      exact .inr ⟨rfl,by rw [← h.1],by simp [filedBy,hget,← h.1]⟩
    | some rec =>
      simp only [step,hget,Prod.mk.injEq] at h
      refine .inr ⟨rfl,by rw [← h.1],?_⟩
      simpa [filedBy,hget,← h.1] using toList_eraseIdx_perm hget
  | _ =>
    refine .inr ⟨rfl,?_⟩
    simp only [step] at h
    (try split at h) <;> (try split at h) <;> simp [← (Prod.mk.inj h).1,filedBy]

/-- A notification takes its record from the filed ones and shows it where it
can. -/
theorem step_notify {i : ℕ} {rec : AlertRecord} (hget : s.filed[i]?=some rec)
    (h : step s (.notify i)=(t,reply)) :
    t.filed=s.filed.eraseIdx i ∧
      (Shows s ∧ notifiedBy ⟨s,(.notify i,reply),t⟩=some rec ∧
          passedBy ⟨s,(.notify i,reply),t⟩=none ∨
        ¬Shows s ∧ notifiedBy ⟨s,(.notify i,reply),t⟩=none ∧
          passedBy ⟨s,(.notify i,reply),t⟩=some rec) := by
  simp only [step,hget,Prod.mk.injEq] at h
  obtain ⟨rfl,rfl⟩ := h
  refine ⟨rfl,?_⟩
  by_cases hcallback : s.notificationCb=true
  · rw [if_pos hcallback]
    exact .inl ⟨.inl hcallback,rfl,rfl⟩
  · rw [if_neg hcallback]
    by_cases hballoon : (s.toastEnabled && s.tray)=true
    · rw [if_pos hballoon]
      exact .inl ⟨.inr (Bool.and_eq_true_iff.mp hballoon),rfl,rfl⟩
    · rw [if_neg hballoon]
      refine .inr ⟨fun hshows => ?_,rfl,hget⟩
      exact hshows.elim hcallback fun h => hballoon (Bool.and_eq_true_iff.mpr h)

/-- A step that is no notification of a filed record shows and passes none,
and files what it files. -/
theorem step_quiet (h : step s action=(t,reply))
    (quiet : ∀ i,action=.notify i → s.filed[i]?=none) :
    notifiedBy ⟨s,(action,reply),t⟩=none ∧ passedBy ⟨s,(action,reply),t⟩=none ∧
      t.filed=s.filed++(filedBy ⟨s,(action,reply),t⟩).toList := by
  cases action with
  | file i =>
    cases hget : s.numbered[i]? with
    | none =>
      simp only [step,hget,Prod.mk.injEq] at h
      simp [notifiedBy,passedBy,filedBy,hget,← h.1,← h.2]
    | some rec =>
      simp only [step,hget,Prod.mk.injEq] at h
      simp [notifiedBy,passedBy,filedBy,hget,← h.1,← h.2]
  | notify i =>
    have hget := quiet i rfl
    simp only [step,hget,Prod.mk.injEq] at h
    simp [notifiedBy,passedBy,filedBy,hget,← h.1,← h.2]
  | _ =>
    simp only [step] at h
    (try split at h) <;> (try split at h) <;>
      simp [← (Prod.mk.inj h).1,← (Prod.mk.inj h).2,filedBy,notifiedBy,passedBy]

/-- A step shows or passes at most one of the filed records. -/
theorem step_filed (h : step s action=(t,reply)) :
    ((notifiedBy ⟨s,(action,reply),t⟩).toList++((passedBy ⟨s,(action,reply),t⟩).toList++
      t.filed)).Perm (s.filed++(filedBy ⟨s,(action,reply),t⟩).toList) := by
  by_cases hnotify : ∃ i rec,action=.notify i ∧ s.filed[i]?=some rec
  · obtain ⟨i,rec,rfl,hget⟩ := hnotify
    obtain ⟨hfiled,⟨-,hshown,hpassed⟩ | ⟨-,hshown,hpassed⟩⟩ := step_notify hget h
    · rw [hshown,hpassed,hfiled]
      simpa [filedBy] using toList_eraseIdx_perm hget
    · rw [hshown,hpassed,hfiled]
      simpa [filedBy] using toList_eraseIdx_perm hget
  · have hquiet : ∀ i,action=.notify i → s.filed[i]?=none := fun i hi =>
      Option.eq_none_iff_forall_ne_some.mpr fun rec hrec => hnotify ⟨i,rec,hi,hrec⟩
    obtain ⟨hshown,hpassed,hfiled⟩ := step_quiet h hquiet
    rw [hshown,hpassed,hfiled]
    exact .refl _

/-- A step shows a record only where it can, and passes one only where it
cannot. -/
theorem step_shows (h : step s action=(t,reply)) :
    (notifiedBy ⟨s,(action,reply),t⟩≠none → Shows s) ∧
      (passedBy ⟨s,(action,reply),t⟩≠none → ¬Shows s) := by
  by_cases hnotify : ∃ i rec,action=.notify i ∧ s.filed[i]?=some rec
  · obtain ⟨i,rec,rfl,hget⟩ := hnotify
    obtain ⟨-,⟨hshows,-,hpassed⟩ | ⟨hshows,hshown,-⟩⟩ := step_notify hget h
    · exact ⟨fun _ => hshows,fun hsome => absurd hpassed hsome⟩
    · exact ⟨fun hsome => absurd hshown hsome,fun _ => hshows⟩
  · have hquiet : ∀ i,action=.notify i → s.filed[i]?=none := fun i hi =>
      Option.eq_none_iff_forall_ne_some.mpr fun rec hrec => hnotify ⟨i,rec,hi,hrec⟩
    obtain ⟨hshown,hpassed,-⟩ := step_quiet h hquiet
    exact ⟨fun hsome => absurd hshown hsome,fun hsome => absurd hpassed hsome⟩

/-- Where the numbers are distinct, the first record with a number is the
only one. -/
theorem acknowledgeFirst_eq_map {id : UInt64} {records : List AlertRecord}
    (h : (records.map AlertRecord.id).Nodup) :
    acknowledgeFirst id records=
      records.map fun rec => if rec.id=id then rec.acknowledge else rec := by
  induction records with
  | nil => rfl
  | cons rec rest ih =>
    rw [List.map_cons,List.nodup_cons] at h
    rw [acknowledgeFirst,List.map_cons]
    split
    · next heq =>
      have hrest : ∀ other ∈ rest,
          (if other.id=id then other.acknowledge else other)=other := by
        intro other hother
        refine if_neg fun hsame => h.1 ?_
        rw [heq,← hsame]
        exact List.mem_map_of_mem hother
      rw [List.map_congr_left hrest,List.map_id']
    · rw [ih h.2]

/-- A step does to the end of the journal what it does to the history. -/
theorem step_history {records : List AlertRecord} (h : step s action=(t,reply))
    (hdistinct : (records.map AlertRecord.id).Nodup)
    (hhistory : s.history=retain maxHistory records) :
    t.history=retain maxHistory (record records ⟨s,(action,reply),t⟩) := by
  cases action with
  | file i =>
    cases hget : s.numbered[i]? with
    | none =>
      simp only [step,hget,Prod.mk.injEq] at h
      simp [record,hget,← h.1,hhistory]
    | some rec =>
      simp only [step,hget,Prod.mk.injEq] at h
      rw [← h.1]
      simp only [record,hget,hhistory,push_retain,Option.toList_some]
  | acknowledge id =>
    have hheld : ((retain maxHistory records).map AlertRecord.id).Nodup :=
      ((retain_suffix maxHistory records).sublist.map AlertRecord.id).nodup hdistinct
    simp only [step,Prod.mk.injEq] at h
    rw [← h.1,hhistory,acknowledgeFirst_eq_map hheld,← retain_map,record]
  | acknowledgeAll =>
    simp only [step,Prod.mk.injEq] at h
    rw [← h.1,hhistory,← retain_map,record]
  | clear =>
    simp only [step,Prod.mk.injEq] at h
    rw [← h.1,record,retain,List.drop_nil]
  | _ =>
    simp only [step] at h
    (try split at h) <;> (try split at h) <;> simp [← (Prod.mk.inj h).1,record,hhistory]

/-- The numbers of the journal are numbers of filed records. -/
theorem record_ids {records filedRecords : List AlertRecord} (e : Step)
    (h : (records.map AlertRecord.id).Sublist (filedRecords.map AlertRecord.id)) :
    ((record records e).map AlertRecord.id).Sublist
      ((filedRecords++(filedBy e).toList).map AlertRecord.id) := by
  rw [List.map_append]
  have hkeep := h.trans (List.sublist_append_left _ ((filedBy e).toList.map AlertRecord.id))
  obtain ⟨before,⟨action,reply⟩,after⟩ := e
  cases action with
  | file i =>
    simp only [record,filedBy,List.map_append]
    exact h.append (.refl _)
  | acknowledge id =>
    have hids : (record records ⟨before,(.acknowledge id,reply),after⟩).map AlertRecord.id=
        records.map AlertRecord.id := by
      simp only [record,List.map_map]
      refine List.map_congr_left fun rec _ => ?_
      rw [Function.comp_apply]
      split <;> rfl
    rw [hids]
    exact hkeep
  | acknowledgeAll =>
    simp only [record,List.map_map]
    exact hkeep
  | clear => exact List.nil_sublist _
  | _ => exact hkeep

end Steps

section Runs

variable {events : List Step} {s : State}

/-- The numbers handed out so far are those of the filed records and of the
pushes that wait for the lock, and the counter stands behind them. -/
theorem numbered_run (run : Run (Deterministic step) State.initial events s) :
    s.nextId=UInt64.ofNat (events.countP numbers+1) ∧
      ((everFiled events++s.numbered).map AlertRecord.id).Perm
        (issued (events.countP numbers)) := by
  induction run with
  | nil => exact ⟨rfl,.refl _⟩
  | @snoc events s t label run hstep ih =>
    obtain ⟨hnext,hperm⟩ := ih
    have hfiled := filterMap_snoc filedBy events ⟨s,label,t⟩
    rw [everFiled] at hperm ⊢
    rw [List.countP_append,List.countP_singleton,hfiled]
    rcases step_numbered hstep with ⟨hnumber,htaken,hnone,rec,hid,hwait⟩ | ⟨hnumber,hkept,hmoved⟩
    · have hsucc : s.nextId+1=UInt64.ofNat (events.countP numbers+1+1) := by
        rw [hnext,UInt64.ofNat_add (_+1) 1]
        rfl
      rw [if_pos hnumber,htaken,hnone,hwait]
      refine ⟨hsucc,?_⟩
      have hlast : [rec].map AlertRecord.id=[UInt64.ofNat (events.countP numbers+1)] := by
        rw [List.map_singleton,hid,hnext]
      rw [Option.toList_none,List.append_nil,← List.append_assoc,List.map_append,hlast]
      simpa [issued,List.range_succ] using hperm.append_right _
    · have hidle : ¬numbers ⟨s,label,t⟩=true := by simp [hnumber]
      rw [if_neg hidle,hkept,Nat.add_zero,List.append_assoc]
      exact ⟨hnext,((hmoved.append_left _).map _).trans hperm⟩

/-- Every filed record has been shown, or passed, or still waits for it. -/
theorem notified_run (run : Run (Deterministic step) State.initial events s) :
    (everNotified events++everPassed events++s.filed).Perm (everFiled events) := by
  induction run with
  | nil => exact .refl _
  | @snoc events s t label run hstep ih =>
    obtain ⟨action,reply⟩ := label
    rw [everNotified,everPassed,everFiled,filterMap_snoc,filterMap_snoc,filterMap_snoc]
    refine List.perm_iff_count.mpr fun rec => ?_
    have hmoved := (step_filed hstep).count_eq rec
    have hbefore := ih.count_eq rec
    simp only [everNotified,everPassed,everFiled,List.count_append] at hmoved hbefore ⊢
    omega

/-- Whether a record was shown depends on whether it could be. -/
theorem shows_run (run : Run (Deterministic step) State.initial events s) :
    ∀ e ∈ events,(notifiedBy e≠none → Shows e.before) ∧ (passedBy e≠none → ¬Shows e.before) := by
  induction run with
  | nil => exact fun _ member => absurd member List.not_mem_nil
  | @snoc events s t label run hstep ih =>
    rw [List.forall_mem_append,List.forall_mem_singleton]
    exact ⟨ih,step_shows hstep⟩

/-- The numbers of the filed records are distinct. -/
theorem everFiled_nodup (run : Run (Deterministic step) State.initial events s)
    (h : events.countP numbers ≤ 2^64) : ((everFiled events).map AlertRecord.id).Nodup := by
  have hall := (numbered_run run).2.nodup_iff.mpr (issued_nodup h)
  rw [List.map_append] at hall
  exact hall.of_append_left

/-- The history is the end of the journal, and the journal holds distinct
filed records. -/
theorem journal_run (run : Run (Deterministic step) State.initial events s)
    (h : events.countP numbers ≤ 2^64) :
    s.history=retain maxHistory (journal events) ∧
      ((journal events).map AlertRecord.id).Sublist ((everFiled events).map AlertRecord.id) := by
  induction run with
  | nil => exact ⟨rfl,.refl _⟩
  | @snoc events s t label run hstep ih =>
    rw [List.countP_append] at h
    obtain ⟨hhistory,hids⟩ := ih (by omega)
    have hdistinct := hids.nodup (everFiled_nodup run (by omega))
    rw [journal,List.foldl_append,everFiled,filterMap_snoc]
    exact ⟨step_history hstep hdistinct hhistory,record_ids ⟨s,label,t⟩ hids⟩

end Runs

/-- Whatever the order in which concurrent pushes, acknowledgements and
clears take effect, the history is the end of the unbounded journal: the
readers return what they would return on the journal cut to its last records,
and no two records of the journal have one number. -/
theorem history_refines_journal {events : List Step} {s : State}
    (run : Run (Deterministic step) State.initial events s)
    (h : events.countP numbers ≤ 2^64) :
    ((journal events).map AlertRecord.id).Nodup ∧
      (∀ n,recent s n=retain (min n maxHistory) (journal events)) ∧
      totalCount s=min (journal events).length maxHistory ∧
      unacknowledgedCount s=
        (retain maxHistory (journal events)).countP fun rec => !rec.acknowledged := by
  obtain ⟨hhistory,hids⟩ := journal_run run h
  refine ⟨hids.nodup (everFiled_nodup run h),fun n => ?_,?_,?_⟩
  · have hrecent : recent s n=retain n s.history := by
      rw [recent,retain]
      split
      · rfl
      · next hshort => rw [Nat.sub_eq_zero_of_le (Nat.not_lt.mp hshort)]
    rw [hrecent,hhistory,retain_retain]
  · rw [totalCount,hhistory,retain,List.length_drop]
    omega
  · rw [unacknowledgedCount,hhistory]

/-- An event that is severe enough to be filed. -/
def severeEvent : ThreatEvent := { ThreatEvent.default with level := levelValue .high }

/-- Two pushes overlap; the second is filed first and acknowledged. -/
def overlappingPushes : List Action :=
  [.number severeEvent 1,.number severeEvent 2,.file 1,.notify 0,.acknowledge 2,.file 0]

/-- One of the two alerts of the overlapping pushes is unacknowledged. -/
theorem history_refines_journal_overlapping :
    unacknowledgedCount (execute step State.initial overlappingPushes).2=1 := by
  have hrun := execute_run step State.initial overlappingPushes
  rw [(history_refines_journal hrun (by decide)).2.2.2]
  decide +kernel

/-- Every number that a push took belongs to exactly one record, filed or
waiting for the lock. Every filed record waits for its notification, or was
shown exactly once, or was passed exactly once; it is shown where a callback is
set or balloons are enabled and the tray icon is there, and passed elsewhere. -/
theorem alerts_filed_and_notified_once {events : List Step} {s : State}
    (run : Run (Deterministic step) State.initial events s) :
    ((everFiled events++s.numbered).map AlertRecord.id).Perm (issued (events.countP numbers)) ∧
      (everNotified events++everPassed events++s.filed).Perm (everFiled events) ∧
      ∀ e ∈ events,(notifiedBy e≠none → Shows e.before) ∧ (passedBy e≠none → ¬Shows e.before) :=
  ⟨(numbered_run run).2,notified_run run,shows_run run⟩

/-- After the overlapping pushes the second record is notified and the first
waits. -/
theorem alerts_filed_and_notified_once_overlapping :
    (everNotified (execute step State.initial overlappingPushes).1).length=1 ∧
      (everNotified (execute step State.initial overlappingPushes).1++
        everPassed (execute step State.initial overlappingPushes).1++
        (execute step State.initial overlappingPushes).2.filed).Perm
          (everFiled (execute step State.initial overlappingPushes).1) :=
  ⟨by decide,(alerts_filed_and_notified_once (execute_run step State.initial overlappingPushes)).2.1⟩

end Gcad.AlertManager
