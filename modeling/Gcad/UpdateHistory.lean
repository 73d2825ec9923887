import Gcad.BoundedLog
import Gcad.ManifestText

/-!
# The history of updates

Every loader records an update with the version that was found after it and
an empty text as the version before it; only the change detector records both
versions. The version a loader replaces is computed where the manifest is
written and never leaves that function.
-/

namespace Gcad.UpdateHistory

open Common BoundedLog StepSystem FileDigest DatabaseUpdate ManifestText

/-- The version in the manifest of a database. -/
def versionOf (engine : UpdateEngine) (dbName : Str) : Option Str :=
  (manifestOf engine.manifests dbName).map UpdateManifest.version

/-- The records of the loop of `check_for_updates`. -/
def changeRecords (disk : Str → DiskEntry) (now : TimePoint) :
    UInt64 → List UpdateManifest → List UpdateRecord
  | _,[] => []
  | id,m::rest =>
    if Changed disk m then
      ⟨id,m.dbName,m.version,parseVersionFromFile (disk m.filePath),.success,now⟩::
        changeRecords disk now (id+1) rest
    else changeRecords disk now id rest

/-- The records an action appends to the log. -/
def recordsMade (w : World) : Action → List UpdateRecord
  | .load db path expected now =>
    let loaded := load db (w.disk path) w.engine path expected now
    [⟨w.engine.nextId,db.name,[],(versionOf loaded.1 db.name).getD [],loaded.2,now⟩]
  | .change _ _ => []
  | .check now => changeRecords w.disk now w.engine.nextId w.engine.manifests

/-- The records of an executed action. -/
def madeBy (e : UpdateEvent) : List UpdateRecord := recordsMade e.before e.label.1

/-- All records, including those the log has dropped. -/
def history (events : List UpdateEvent) : List UpdateRecord := events.flatMap madeBy

/-- A record of a successful update of a database. -/
def Succeeds (dbName : Str) (r : UpdateRecord) : Bool := r.result=.success ∧ r.dbName=dbName

/-- The successful updates of a database. -/
def successes (dbName : Str) (events : List UpdateEvent) : List UpdateRecord :=
  (history events).filter (Succeeds dbName)

/-- A record names the versions before and after the action; the placeholder
stands for that of a database without manifest. -/
def Told (placeholder : Str) (e : UpdateEvent) (r : UpdateRecord) : Prop :=
  r.oldVersion=(versionOf e.before.engine r.dbName).getD placeholder ∧
    versionOf e.after.engine r.dbName=some r.newVersion

/-- Every record of a successful update names the versions around it, and
those of one database make a chain. -/
def Consistent (placeholder : Str) (events : List UpdateEvent) : Prop :=
  (∀ e ∈ events,∀ r ∈ madeBy e,r.result=.success → Told placeholder e r) ∧
  ∀ dbName,(successes dbName events).IsChain fun r next => r.newVersion=next.oldVersion

/-- `validate_and_update` takes a file over: it is there, it passes the
checksum and it is not the recorded one. -/
def Accepts (entry : DiskEntry) (engine : UpdateEngine) (dbName expected : Str) : Prop :=
  entry≠.missing ∧ verifyChecksum entry expected=true ∧
    (manifestOf engine.manifests dbName).map UpdateManifest.sha256≠some (computeFileSha256 entry)

/-- A load that takes a file over finds an empty version to replace. -/
def ReplacesEmpty (placeholder : Str) (e : UpdateEvent) : Prop :=
  ∀ db path expected now,e.label.1=.load db path expected now →
    Accepts (e.before.disk path) e.before.engine db.name expected →
    (versionOf e.before.engine db.name).getD placeholder=[]

section Log

/-- The loop of `check_for_updates` appends its records to the log. -/
theorem foldl_logChange (disk : Str → DiskEntry) (now : TimePoint)
    (manifests : List UpdateManifest) (log : List UpdateRecord) (id : UInt64) :
    manifests.foldl (logChange disk now) (retain MAX_UPDATE_LOG log,id)=
      (retain MAX_UPDATE_LOG (log++changeRecords disk now id manifests),
        id+UInt64.ofNat (changeRecords disk now id manifests).length) := by
  induction manifests generalizing log id with
  | nil =>
    rw [List.foldl_nil,changeRecords,List.append_nil]
    exact Prod.ext rfl (UInt64.add_zero id).symm
  | cons m rest ih =>
    rw [List.foldl_cons,logChange,changeRecords]
    split_ifs with hchanged
    · have hpush := push_retain MAX_UPDATE_LOG log
        ⟨id,m.dbName,m.version,parseVersionFromFile (disk m.filePath),.success,now⟩
      rw [push,retain] at hpush
      rw [appendLog,hpush,ih,List.append_assoc,List.singleton_append,List.length_cons]
      refine Prod.ext rfl ?_
      dsimp only
      rw [add_ofNat_succ,UInt64.add_assoc,UInt64.add_comm 1,UInt64.add_assoc]
    · exact ih log id

/-- Every action appends its records to the log and makes room. -/
theorem step_updateLog {w : World} {log : List UpdateRecord}
    (h : w.engine.updateLog=retain MAX_UPDATE_LOG log) (action : Action) :
    (step w action).1.engine.updateLog=retain MAX_UPDATE_LOG (log++recordsMade w action) := by
  cases action with
  | load db path expected now =>
    have hsame : (validateAndUpdate (w.disk path) w.engine db.name path expected now).1.updateLog=
          w.engine.updateLog ∧
        (validateAndUpdate (w.disk path) w.engine db.name path expected now).1.nextId=
          w.engine.nextId := by
      unfold validateAndUpdate
      dsimp only
      split_ifs
      · exact ⟨rfl,rfl⟩
      · exact ⟨rfl,rfl⟩
      · exact ⟨rfl,rfl⟩
      · exact ⟨rfl,rfl⟩
    have hpush := push_retain MAX_UPDATE_LOG log
      ⟨w.engine.nextId,db.name,[],
        (versionOf (load db (w.disk path) w.engine path expected now).1 db.name).getD [],
        (load db (w.disk path) w.engine path expected now).2,now⟩
    rw [push,retain,←h] at hpush
    rw [recordsMade,←hpush,step,load,recordUpdate]
    dsimp only
    rw [hsame.1,hsame.2,appendLog]
    rfl
  | change path entry =>
    rw [recordsMade,List.append_nil,←h]
    rfl
  | check now =>
    rw [step,checkForUpdates,recordsMade]
    dsimp only
    rw [h,foldl_logChange]

/-- The log holds the newest records of the history. -/
theorem run_updateLog {disk : Str → DiskEntry} {text : Str} {events : List UpdateEvent} {w : World}
    (run : Run (Deterministic step) ⟨disk,readManifest text fresh⟩ events w) :
    w.engine.updateLog=retain MAX_UPDATE_LOG (history events) := by
  refine run.invariant (fun events w => w.engine.updateLog=retain MAX_UPDATE_LOG (history events))
    rfl ?_
  intro events s label t h hstep
  have hnext : (step s label.1).1=t := congrArg Prod.fst hstep
  rw [history,List.flatMap_append,List.flatMap_singleton,←hnext]
  exact step_updateLog h label.1

end Log

section Records

/-- A record of `check_for_updates` is that of a changed manifest. -/
theorem changeRecords_of {disk : Str → DiskEntry} {now : TimePoint} {id : UInt64}
    {manifests : List UpdateManifest} {r : UpdateRecord}
    (h : r ∈ changeRecords disk now id manifests) :
    r.result=.success ∧ ∃ m ∈ manifests,Changed disk m ∧ r.dbName=m.dbName ∧
      r.oldVersion=m.version ∧ r.newVersion=parseVersionFromFile (disk m.filePath) := by
  induction manifests generalizing id with
  | nil => exact absurd h List.not_mem_nil
  | cons m rest ih =>
    rw [changeRecords] at h
    split_ifs at h with hchanged
    · rcases List.mem_cons.mp h with rfl | h
      · exact ⟨rfl,m,List.mem_cons_self,hchanged,rfl,rfl,rfl⟩
      · obtain ⟨hresult,other,hmem,hother⟩ := ih h
        exact ⟨hresult,other,List.mem_cons_of_mem _ hmem,hother⟩
    · obtain ⟨hresult,other,hmem,hother⟩ := ih h
      exact ⟨hresult,other,List.mem_cons_of_mem _ hmem,hother⟩

/-- The changed manifests are recorded in their order. -/
theorem changeRecords_names (disk : Str → DiskEntry) (now : TimePoint) (id : UInt64)
    (manifests : List UpdateManifest) :
    (changeRecords disk now id manifests).map UpdateRecord.dbName=
      (manifests.filter fun m => Changed disk m).map UpdateManifest.dbName := by
  induction manifests generalizing id with
  | nil => rfl
  | cons m rest ih =>
    rw [changeRecords]
    split_ifs with hchanged
    · have hkept := List.filter_cons_of_pos (p := fun m => decide (Changed disk m)) (l := rest)
        (decide_eq_true hchanged)
      rw [hkept,List.map_cons,List.map_cons,ih]
    · have hdropped := List.filter_cons_of_neg (p := fun m => decide (Changed disk m)) (l := rest)
        fun h => hchanged (of_decide_eq_true h)
      rw [hdropped,ih]

/-- Records of different databases hold at most one of a database. -/
theorem filter_succeeds_cases {records : List UpdateRecord}
    (h : (records.map UpdateRecord.dbName).Nodup) (dbName : Str) :
    records.filter (Succeeds dbName)=[] ∨ ∃ r,records.filter (Succeeds dbName)=[r] := by
  have hname : ∀ r ∈ records.filter (Succeeds dbName),r.dbName=dbName :=
    fun r member => (of_decide_eq_true (List.mem_filter.mp member).2).2
  have hnodup : ((records.filter (Succeeds dbName)).map UpdateRecord.dbName).Nodup :=
    h.sublist (List.filter_sublist.map _)
  rcases hlist : records.filter (Succeeds dbName) with _ | ⟨r,_ | ⟨next,rest⟩⟩
  · exact .inl rfl
  · exact .inr ⟨r,rfl⟩
  · rw [hlist] at hname hnodup
    rw [List.map_cons,List.map_cons] at hnodup
    refine absurd ?_ (List.nodup_cons.mp hnodup).1
    rw [hname r List.mem_cons_self,
      ←hname next (List.mem_cons_of_mem _ List.mem_cons_self)]
    exact List.mem_cons_self

/-- The manifest that was put is found. -/
theorem manifestOf_putManifest_self (manifest : UpdateManifest) (manifests : List UpdateManifest) :
    manifestOf (putManifest manifest manifests) manifest.dbName=some manifest := by
  induction manifests with
  | nil => exact List.find?_cons_of_pos (decide_eq_true rfl)
  | cons m rest ih =>
    rw [putManifest]
    split_ifs with hname
    · exact List.find?_cons_of_pos (decide_eq_true rfl)
    · rw [manifestOf,List.find?_cons_of_neg (by rw [decide_eq_true_iff]; exact hname)]
      exact ih

/-- A load succeeds exactly when the file is taken over. -/
theorem load_success_iff (db : Database) (entry : DiskEntry) (engine : UpdateEngine)
    (path expected : Str) (now : TimePoint) :
    (load db entry engine path expected now).2=.success ↔
      Accepts entry engine db.name expected := by
  rw [load_result,validateAndUpdate,Accepts]
  dsimp only
  split_ifs with hmissing hchecksum hcurrent
  · exact iff_of_false (by decide) fun h => h.1 hmissing
  · exact iff_of_false (by decide) fun h => Bool.false_ne_true (hchecksum.symm.trans h.2.1)
  · exact iff_of_false (by decide) fun h => h.2.2 hcurrent
  · exact iff_of_true rfl ⟨hmissing,eq_true_of_ne_false hchecksum,hcurrent⟩

/-- The record of a load. -/
theorem madeBy_load (w t : World) (reply : Reply) (db : Database) (path expected : Str)
    (now : TimePoint) : ∃ r,madeBy ⟨w,(.load db path expected now,reply),t⟩=[r] ∧
      r.dbName=db.name ∧ r.oldVersion=[] ∧
      r.newVersion=(versionOf (load db (w.disk path) w.engine path expected now).1 db.name).getD [] ∧
      r.result=(load db (w.disk path) w.engine path expected now).2 := by
  rw [madeBy,recordsMade]
  dsimp only
  generalize load db (w.disk path) w.engine path expected now=loaded
  exact ⟨_,rfl,rfl,rfl,rfl,rfl⟩

/-- A manifest that a check records nothing about has not changed. -/
theorem unchanged_of_silent {disk : Str → DiskEntry} {now : TimePoint} {id : UInt64}
    {manifests : List UpdateManifest} {m : UpdateManifest} (member : m ∈ manifests)
    (hnone : (changeRecords disk now id manifests).filter (Succeeds m.dbName)=[]) :
    ¬Changed disk m := by
  intro hchanged
  have hrecorded : m.dbName ∈ (changeRecords disk now id manifests).map UpdateRecord.dbName := by
    rw [changeRecords_names]
    exact List.mem_map_of_mem (List.mem_filter.mpr ⟨member,decide_eq_true hchanged⟩)
  obtain ⟨r,hmem,hdb⟩ := List.mem_map.mp hrecorded
  have hsucceeds : Succeeds m.dbName r=true := decide_eq_true ⟨(changeRecords_of hmem).1,hdb⟩
  have hfiltered := List.mem_filter.mpr ⟨hmem,hsucceeds⟩
  exact absurd (hnone ▸ hfiltered : r ∈ []) List.not_mem_nil

/-- A check that records nothing about a database leaves its version. -/
theorem versionOf_check_of_silent {w : World} {now : TimePoint} {dbName : Str}
    (hnone : (changeRecords w.disk now w.engine.nextId w.engine.manifests).filter
      (Succeeds dbName)=[]) :
    versionOf (step w (.check now)).1.engine dbName=versionOf w.engine dbName := by
  rw [versionOf,step,checkForUpdates]
  dsimp only
  rw [manifestOf_refresh,versionOf,Option.map_map]
  cases hheld : manifestOf w.engine.manifests dbName with
  | none => rfl
  | some m =>
    have hfound := List.find?_some hheld
    have hname : m.dbName=dbName := of_decide_eq_true hfound
    have hstays := unchanged_of_silent (List.mem_of_find?_eq_some hheld) (hname ▸ hnone)
    rw [Option.map_some,Option.map_some,Function.comp_apply,refresh,if_neg hstays]

/-- What is recorded about an action: at most one success for each database,
and none where the version stays. -/
theorem madeBy_cases {w t : World} {label : Action×Reply} (distinct : Distinct w.engine.manifests)
    (hstep : Deterministic step w label t) (dbName : Str) :
    ((madeBy ⟨w,label,t⟩).filter (Succeeds dbName)=[] ∧
      versionOf t.engine dbName=versionOf w.engine dbName) ∨
    ∃ r,(madeBy ⟨w,label,t⟩).filter (Succeeds dbName)=[r] := by
  obtain ⟨action,reply⟩ := label
  obtain rfl : (step w action).1=t := congrArg Prod.fst hstep
  cases action with
  | load db path expected now =>
    obtain ⟨r,hone,hdb,-,-,hcopy⟩ := madeBy_load w (step w (.load db path expected now)).1 reply db
      path expected now
    rw [hone,List.filter_singleton]
    by_cases hsucceeds : Succeeds dbName r=true
    · rw [hsucceeds,cond_true]
      exact .inr ⟨r,rfl⟩
    · rw [eq_false_of_ne_true hsucceeds,cond_false]
      refine .inl ⟨rfl,?_⟩
      rw [versionOf,step,versionOf]
      rcases load_cases db (w.disk path) w.engine path expected now with
        ⟨-,hsame⟩ | ⟨hresult,hput⟩
      · rw [hsame]
      · have hname : db.name≠dbName := fun heq =>
          hsucceeds (decide_eq_true ⟨hcopy.trans hresult,hdb.trans heq⟩)
        rw [hput,manifestOf_putManifest hname]
  | change path entry => exact .inl ⟨rfl,rfl⟩
  | check now =>
    have hnames : ((changeRecords w.disk now w.engine.nextId w.engine.manifests).map
        UpdateRecord.dbName).Nodup := by
      rw [changeRecords_names]
      exact distinct.sublist (List.filter_sublist.map _)
    refine (filter_succeeds_cases hnames dbName).imp_left fun hnone => ⟨hnone,?_⟩
    exact versionOf_check_of_silent hnone

/-- The records of an action name the versions around it exactly when no load
replaces a version that is not empty. -/
theorem told_iff (placeholder : Str) {w t : World} {label : Action×Reply}
    (distinct : Distinct w.engine.manifests) (hstep : Deterministic step w label t) :
    (∀ r ∈ madeBy ⟨w,label,t⟩,r.result=.success → Told placeholder ⟨w,label,t⟩ r) ↔
      ReplacesEmpty placeholder ⟨w,label,t⟩ := by
  obtain ⟨action,reply⟩ := label
  obtain rfl : (step w action).1=t := congrArg Prod.fst hstep
  cases action with
  | load db path expected now =>
    obtain ⟨r,hone,hdb,hold,hnew,hcopy⟩ := madeBy_load w (step w (.load db path expected now)).1
      reply db path expected now
    have haccepts := load_success_iff db (w.disk path) w.engine path expected now
    rw [hone,List.forall_mem_singleton,hcopy,haccepts,Told,hold,hdb]
    constructor
    · rintro h db' path' expected' now' heq accepts
      obtain ⟨rfl,rfl,rfl,rfl⟩ := Action.load.inj heq
      exact (h accepts).1.symm
    · intro h accepts
      refine ⟨(h db path expected now rfl accepts).symm,?_⟩
      rcases load_cases db (w.disk path) w.engine path expected now with ⟨hfails,-⟩ | ⟨-,hput⟩
      · exact absurd (haccepts.mpr accepts) hfails
      · have hversion : versionOf (load db (w.disk path) w.engine path expected now).1 db.name=
            some (parseVersionFromFile (w.disk path)) := by
          rw [versionOf,hput]
          exact congrArg (Option.map UpdateManifest.version) (manifestOf_putManifest_self _ _)
        rw [hnew,hversion]
        exact hversion
  | change path entry =>
    refine iff_of_true (fun r h => absurd h List.not_mem_nil) fun db path expected now heq => ?_
    cases heq
  | check now =>
    refine iff_of_true (fun r h _ => ?_) fun db path expected now heq => by cases heq
    obtain ⟨-,m,hmem,hchanged,hname,hold,hnew⟩ := changeRecords_of h
    have hheld := distinct.manifestOf_eq hmem
    refine ⟨?_,?_⟩
    · rw [versionOf,hname,hheld,Option.map_some,Option.getD_some]
      exact hold
    · rw [versionOf,step,checkForUpdates]
      dsimp only
      rw [manifestOf_refresh,hname,hheld,Option.map_some,Option.map_some,refresh,if_pos hchanged,
        hnew]

end Records

section Runs

variable (placeholder : Str)

/-- The successes of a longer history. -/
theorem successes_snoc (dbName : Str) (events : List UpdateEvent) (e : UpdateEvent) :
    successes dbName (events++[e])=
      successes dbName events++(madeBy e).filter (Succeeds dbName) := by
  rw [successes,history,List.flatMap_append,List.flatMap_singleton,List.filter_append]
  rfl

/-- The successes of every database make a chain, and the last one names the
version that is held. -/
def Chained (events : List UpdateEvent) (w : World) : Prop :=
  ∀ dbName,((successes dbName events).IsChain fun r next => r.newVersion=next.oldVersion) ∧
    ∀ r ∈ (successes dbName events).getLast?,versionOf w.engine dbName=some r.newVersion

/-- An action whose records name the versions around it extends the chains. -/
theorem step_chained {events : List UpdateEvent} {w t : World} {label : Action×Reply}
    (distinct : Distinct w.engine.manifests) (chained : Chained events w)
    (hstep : Deterministic step w label t)
    (told : ∀ r ∈ madeBy ⟨w,label,t⟩,r.result=.success → Told placeholder ⟨w,label,t⟩ r) :
    Chained (events++[⟨w,label,t⟩]) t := by
  intro dbName
  obtain ⟨hchain,hlast⟩ := chained dbName
  rw [successes_snoc]
  rcases madeBy_cases distinct hstep dbName with ⟨hnone,hsame⟩ | ⟨r,hone⟩
  · rw [hnone,List.append_nil,hsame]
    exact ⟨hchain,hlast⟩
  · have hmem : r ∈ (madeBy ⟨w,label,t⟩).filter (Succeeds dbName) := by
      rw [hone]
      exact List.mem_cons_self
    obtain ⟨hmade,hsucceeds⟩ := List.mem_filter.mp hmem
    obtain ⟨hresult,hname⟩ := of_decide_eq_true hsucceeds
    obtain ⟨hold,hnew⟩ := told r hmade hresult
    rw [hname] at hold hnew
    rw [hone,List.isChain_append]
    refine ⟨⟨hchain,List.isChain_singleton _,?_⟩,?_⟩
    · intro previous hprevious next hnext
      rw [List.head?_cons,Option.mem_some_iff] at hnext
      rw [←hnext,hold,hlast previous hprevious,Option.getD_some]
    · intro final hfinal
      rw [List.getLast?_concat,Option.mem_some_iff] at hfinal
      rw [←hfinal]
      exact hnew

/-- The names of the manifests stay apart. -/
theorem readManifest_distinct (text : Str) : Distinct (readManifest text fresh).manifests := by
  have hfold : ∀ (read : List ManifestFields) (manifests : List UpdateManifest),
      Distinct manifests → Distinct (read.foldl putFields manifests) := by
    intro read
    induction read with
    | nil => exact fun _ h => h
    | cons fields read ih => exact fun manifests h => ih _ (h.put _)
  exact hfold _ [] List.nodup_nil

/-- For every manifest file the engine starts from and every sequence of
loads, changes on disk and checks: every record of a success names the
versions around it and those of one database make a chain, if and only if no
load takes a file over where a version that is not empty was held. -/
theorem history_consistent_iff (disk : Str → DiskEntry) (text : Str)
    {events : List UpdateEvent} {w : World}
    (run : Run (Deterministic step) ⟨disk,readManifest text fresh⟩ events w) :
    Consistent placeholder events ↔ ∀ e ∈ events,ReplacesEmpty placeholder e := by
  have hall : Distinct w.engine.manifests ∧
      ((∀ e ∈ events,∀ r ∈ madeBy e,r.result=.success → Told placeholder e r) ↔
        ∀ e ∈ events,ReplacesEmpty placeholder e) ∧
      ((∀ e ∈ events,∀ r ∈ madeBy e,r.result=.success → Told placeholder e r) →
        Chained events w) := by
    induction run with
    | nil =>
      refine ⟨readManifest_distinct text,?_,?_⟩
      · exact iff_of_true (fun _ h => absurd h List.not_mem_nil) fun _ h => absurd h List.not_mem_nil
      · exact fun _ dbName => ⟨.nil,fun r h => absurd h.symm (Option.some_ne_none _)⟩
    | @snoc events s t label run hstep ih =>
      obtain ⟨distinct,hiff,hchained⟩ := ih
      refine ⟨?_,?_,?_⟩
      · have hnext : (step s label.1).1=t := congrArg Prod.fst hstep
        rw [←hnext]
        exact step_distinct distinct label.1
      · rw [List.forall_mem_append,List.forall_mem_append,hiff,List.forall_mem_singleton,
          List.forall_mem_singleton,told_iff placeholder distinct hstep]
      · intro told
        rw [List.forall_mem_append,List.forall_mem_singleton] at told
        exact step_chained placeholder distinct (hchained told.1) hstep told.2
  constructor
  · exact fun h => hall.2.1.mp h.1
  · exact fun h => ⟨hall.2.1.mpr h,fun dbName => (hall.2.2 (hall.2.1.mpr h) dbName).1⟩

end Runs

/-- Two loads of different files leave records that do not name the version
in between, whatever stands for the first one. -/
theorem replaced_version_lost :
    ∃ events w,Run (Deterministic step) ⟨installed.disk,readManifest [] fresh⟩ events w ∧
      ∀ placeholder,¬Consistent placeholder events := by
  have hload : Deterministic step installed (.load .signatures dbPath [] 0,.result .success)
      current := Prod.ext rfl rfl
  have hchange : Deterministic step current (.change dbPath (.file [2]),.done) replaced := rfl
  have hagain : Deterministic step replaced (.load .signatures dbPath [] 0,
      (step replaced (.load .signatures dbPath [] 0)).2)
      (step replaced (.load .signatures dbPath [] 0)).1 := Prod.ext rfl rfl
  have hrun := ((Run.nil.snoc hload).snoc hchange).snoc hagain
  have haccepts : Accepts (replaced.disk dbPath) replaced.engine Database.signatures.name [] := by
    refine ⟨DiskEntry.noConfusion,rfl,fun h => ?_⟩
    exact hashFile_one_ne_two (Option.some.inj h)
  have hdistinct : Distinct replaced.engine.manifests := List.nodup_singleton _
  have hheld : versionOf replaced.engine Database.signatures.name=some "1.0.0".toList := rfl
  refine ⟨_,_,hrun,fun placeholder h => ?_⟩
  have htold := (told_iff placeholder hdistinct hagain).mp
    (h.1 _ (List.mem_append_right _ List.mem_cons_self))
  have hversion := htold .signatures dbPath [] 0 rfl haccepts
  dsimp only at hversion
  rw [hheld,Option.getD_some] at hversion
  exact absurd hversion (by decide)

/-- A manifest file that names a version of a database without a hash. -/
def oldManifest : Str := "ioc|1||p\n".toList

/-- A newer file of that database. -/
def newFile : DiskEntry := .file ("# version: 2\n".toList.map fun c => UInt8.ofNat c.toNat)

/-- An engine that has read the manifest file, with the newer file on disk. -/
def outdated : World := ⟨fun _ => newFile,readManifest oldManifest fresh⟩

/-- A check that finds the newer file leaves a record of both versions. -/
theorem check_history_consistent :
    ∃ events w,Run (Deterministic step) outdated events w ∧
      (∃ r,history events=[r] ∧ r.oldVersion="1".toList ∧ r.newVersion="2".toList) ∧
      Consistent "0.0.0".toList events := by
  have hcheck : Deterministic step outdated (.check 0,(step outdated (.check 0)).2)
      (step outdated (.check 0)).1 := Prod.ext rfl rfl
  have hheld : outdated.engine.manifests=[⟨"ioc".toList,"1".toList,[],"p".toList,0⟩] := rfl
  have hchanged : Changed outdated.disk ⟨"ioc".toList,"1".toList,[],"p".toList,0⟩ := by
    refine ⟨List.cons_ne_nil _ _,DiskEntry.noConfusion,fun h => ?_⟩
    exact hashBytes_ne_nil _ ((hashFile_eq_hashBytes _).symm.trans h)
  have hrun := Run.nil.snoc hcheck
  refine ⟨_,_,hrun,?_,(history_consistent_iff _ _ _ hrun).mpr ?_⟩
  · rw [List.nil_append,history,List.flatMap_singleton,madeBy,recordsMade]
    dsimp only
    rw [hheld,changeRecords,if_pos hchanged]
    exact ⟨_,rfl,rfl,rfl⟩
  · intro e member db path expected now heq
    rw [List.mem_singleton.mp member] at heq
    cases heq

end Gcad.UpdateHistory
