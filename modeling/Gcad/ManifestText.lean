import Gcad.DatabaseUpdate
import Gcad.LedgerText

/-!
# The text of the update manifest

One manifest is one line of four fields with a vertical bar between them,
below a comment line. Reading skips empty lines, comments and lines without
a version, and takes the first four fields of every other line. The version
is text from the header of the database file, and neither it nor the path is
escaped or refused, as the quarantine ledger refuses its delimiters.
-/

namespace Gcad.ManifestText

open Common StepSystem DatabaseUpdate DelimitedText LedgerText
open QuarantineVault (plain_hex)

/-- What the manifest file keeps of a manifest. -/
structure ManifestFields where
  /-- The database. -/
  dbName : Str
  /-- The version that was installed last. -/
  version : Str
  /-- The hash of its file. -/
  sha256 : Str
  /-- Where the file lies. -/
  filePath : Str
  deriving DecidableEq

/-- The four fields of a manifest. -/
def fieldsOf (m : UpdateManifest) : ManifestFields := ⟨m.dbName,m.version,m.sha256,m.filePath⟩

/-- The line `write_manifest` writes for a manifest. -/
def manifestLine (m : UpdateManifest) : Str :=
  ['|'].intercalate [m.dbName,m.version,m.sha256,m.filePath]

/-- The first line of the file. -/
def manifestHeader : Str := "# GCAD Update Manifest".toList

/-- `write_manifest`. -/
def writeManifest (engine : UpdateEngine) : Str :=
  unlines (manifestHeader::engine.manifests.map manifestLine)

/-- The fields `read_manifest` reads from a line, or nothing for a line that
is skipped. A field that is not there stays empty. -/
def parseManifestLine (line : Str) : Option ManifestFields :=
  if line=[] ∨ line.head?=some '#' then none
  else match pieces '|' line with
  | dbName::version::rest => some ⟨dbName,version,rest.headD [],rest.tail.headD []⟩
  | _ => none

/-- Overwrite the fields of a manifest, or append one that was never
updated. -/
def putFields (manifests : List UpdateManifest) (fields : ManifestFields) : List UpdateManifest :=
  putManifest ⟨fields.dbName,fields.version,fields.sha256,fields.filePath,
    ((manifestOf manifests fields.dbName).map UpdateManifest.updatedAt).getD 0⟩ manifests

/-- `read_manifest` on the text of the file. -/
def readManifest (text : Str) (engine : UpdateEngine) : UpdateEngine :=
  { engine with
    manifests := ((pieces '\n' text).filterMap parseManifestLine).foldl putFields engine.manifests }

/-- A new engine. -/
def fresh : UpdateEngine := ⟨[],[],1,0,0⟩

/-- A new engine reads back the fields of every manifest. -/
def RoundTrips (engine : UpdateEngine) : Prop :=
  (readManifest (writeManifest engine) fresh).manifests.map fieldsOf=engine.manifests.map fieldsOf

/-- The version holds no bar, and the path neither a bar nor a line break. -/
def Storable (m : UpdateManifest) : Prop := '|' ∉ m.version ∧ Plain m.filePath

/-- What the loaders put into a manifest besides the path. -/
structure Loadable (m : UpdateManifest) : Prop where
  /-- The name is one of a database. -/
  dbName : ∃ db : Database,m.dbName=db.name
  /-- The version is part of a line. -/
  version : '\n' ∉ m.version
  /-- The hash is a digest or empty. -/
  sha256 : Plain m.sha256

/-- Every database has at most one manifest. -/
def Distinct (manifests : List UpdateManifest) : Prop :=
  (manifests.map UpdateManifest.dbName).Nodup

section Putting

/-- A manifest that is put is the new one or an old one. -/
theorem mem_putManifest {manifest m : UpdateManifest} {manifests : List UpdateManifest}
    (h : m ∈ putManifest manifest manifests) : m=manifest ∨ m ∈ manifests := by
  induction manifests with
  | nil => exact .inl (List.mem_singleton.mp h)
  | cons first rest ih =>
    rw [putManifest] at h
    split_ifs at h with hname
    · exact (List.mem_cons.mp h).imp_right fun hrest => List.mem_cons_of_mem _ hrest
    · rcases List.mem_cons.mp h with rfl | hrest
      · exact .inr List.mem_cons_self
      · exact (ih hrest).imp_right fun hold => List.mem_cons_of_mem _ hold

/-- A manifest of a new name is appended. -/
theorem putManifest_new {manifest : UpdateManifest} {manifests : List UpdateManifest}
    (h : manifest.dbName ∉ manifests.map UpdateManifest.dbName) :
    putManifest manifest manifests=manifests++[manifest] := by
  induction manifests with
  | nil => rfl
  | cons first rest ih =>
    rw [List.map_cons,List.mem_cons,not_or] at h
    rw [putManifest,if_neg (Ne.symm h.1),ih h.2,List.cons_append]

/-- A manifest of a known name is put in its place. -/
theorem putManifest_names {manifest : UpdateManifest} {manifests : List UpdateManifest}
    (h : manifest.dbName ∈ manifests.map UpdateManifest.dbName) :
    (putManifest manifest manifests).map UpdateManifest.dbName=
      manifests.map UpdateManifest.dbName := by
  induction manifests with
  | nil => exact absurd h List.not_mem_nil
  | cons first rest ih =>
    rw [putManifest]
    split_ifs with hname
    · rw [List.map_cons,List.map_cons,hname]
    · have hrest := (List.mem_cons.mp h).resolve_left fun heq => hname heq.symm
      rw [List.map_cons,List.map_cons,ih hrest]

/-- Putting keeps the names apart. -/
theorem Distinct.put {manifests : List UpdateManifest} (distinct : Distinct manifests)
    (manifest : UpdateManifest) : Distinct (putManifest manifest manifests) := by
  unfold Distinct at distinct ⊢
  by_cases h : manifest.dbName ∈ manifests.map UpdateManifest.dbName
  · rw [putManifest_names h]
    exact distinct
  · rw [putManifest_new h,List.map_append,List.map_singleton]
    refine distinct.append (List.nodup_singleton _) ?_
    intro name hold hnew
    rw [List.mem_singleton.mp hnew] at hold
    exact h hold

/-- The manifest of a name is found. -/
theorem Distinct.manifestOf_eq {manifests : List UpdateManifest} (distinct : Distinct manifests)
    {m : UpdateManifest} (member : m ∈ manifests) : manifestOf manifests m.dbName=some m := by
  induction manifests with
  | nil => exact absurd member List.not_mem_nil
  | cons first rest ih =>
    obtain ⟨hfirst,hrest⟩ := List.nodup_cons.mp distinct
    rw [manifestOf,List.find?_cons]
    rcases List.mem_cons.mp member with rfl | hmember
    · rw [decide_eq_true rfl]
    · have hne : first.dbName≠m.dbName := fun heq => hfirst (heq ▸ List.mem_map_of_mem hmember)
      rw [decide_eq_false hne]
      exact ih hrest hmember

end Putting

section Reading

/-- The fields that are read hold neither delimiter. -/
theorem parseManifestLine_plain {line : Str} {fields : ManifestFields} (hline : '\n' ∉ line)
    (h : parseManifestLine line=some fields) : Plain fields.version ∧ Plain fields.filePath := by
  have hpiece : ∀ piece ∈ pieces '|' line,Plain piece := by
    intro piece member c hc
    obtain ⟨hbar,hsub⟩ := mem_pieces member
    exact ⟨fun heq => hbar (heq ▸ hc),fun heq => hline (heq ▸ hsub hc)⟩
  have hfirst : ∀ rest : List Str,(∀ piece ∈ rest,Plain piece) → Plain (rest.headD []) := by
    intro rest hrest
    cases rest with
    | nil => exact fun c hc => absurd hc List.not_mem_nil
    | cons piece rest => exact hrest piece List.mem_cons_self
  unfold parseManifestLine at h
  split_ifs at h
  split at h
  · next dbName version rest hpieces =>
    rw [hpieces] at hpiece
    rw [←Option.some.inj h]
    have hrest : ∀ piece ∈ rest,Plain piece := fun piece member =>
      hpiece piece (List.mem_cons_of_mem _ (List.mem_cons_of_mem _ member))
    exact ⟨hpiece version (List.mem_cons_of_mem _ List.mem_cons_self),
      hfirst rest.tail fun piece member => hrest piece (List.mem_of_mem_tail member)⟩
  · exact absurd h.symm (Option.some_ne_none _)

/-- What is read into a new engine holds neither delimiter. -/
theorem foldl_putFields_plain {read : List ManifestFields} {manifests : List UpdateManifest}
    (hread : ∀ fields ∈ read,Plain fields.version ∧ Plain fields.filePath)
    (h : ∀ m ∈ manifests,Plain m.version ∧ Plain m.filePath) :
    ∀ m ∈ read.foldl putFields manifests,Plain m.version ∧ Plain m.filePath := by
  induction read generalizing manifests with
  | nil => exact h
  | cons fields read ih =>
    refine ih (fun other member => hread other (List.mem_cons_of_mem _ member)) ?_
    intro m member
    rcases mem_putManifest member with rfl | hold
    · exact hread fields List.mem_cons_self
    · exact h m hold

/-- What is not storable is not read back. -/
theorem RoundTrips.storable {engine : UpdateEngine} (h : RoundTrips engine) :
    ∀ m ∈ engine.manifests,Storable m := by
  intro m member
  have hread : fieldsOf m ∈ (readManifest (writeManifest engine) fresh).manifests.map fieldsOf := by
    rw [h]
    exact List.mem_map_of_mem member
  obtain ⟨other,hother,hfields⟩ := List.mem_map.mp hread
  have hparsed : ∀ fields ∈ (pieces '\n' (writeManifest engine)).filterMap parseManifestLine,
      Plain fields.version ∧ Plain fields.filePath := by
    intro fields hfields
    obtain ⟨line,hline,hparse⟩ := List.mem_filterMap.mp hfields
    exact parseManifestLine_plain (mem_pieces hline).1 hparse
  have hplain := foldl_putFields_plain hparsed (fun _ hnone => absurd hnone List.not_mem_nil)
    other hother
  obtain ⟨-,hversion,-,hpath⟩ := ManifestFields.mk.inj hfields
  exact ⟨fun hbar => (hversion ▸ hplain.1 _) hbar |>.1 rfl,hpath ▸ hplain.2⟩

/-- The line of a loaded manifest with storable texts is read back. -/
theorem Loadable.parseManifestLine_eq {m : UpdateManifest} (loadable : Loadable m)
    (storable : Storable m) : parseManifestLine (manifestLine m)=some (fieldsOf m) := by
  obtain ⟨db,hname⟩ := loadable.dbName
  have hfields : ∀ field ∈ [m.dbName,m.version,m.sha256,m.filePath],'|' ∉ field := by
    intro field member
    rcases List.mem_cons.mp member with rfl | member
    · rw [hname]
      cases db <;> decide
    rcases List.mem_cons.mp member with rfl | member
    · exact storable.1
    rcases List.mem_cons.mp member with rfl | member
    · exact fun hbar => (loadable.sha256 _ hbar).1 rfl
    · rw [List.mem_singleton.mp member]
      exact fun hbar => (storable.2 _ hbar).1 rfl
  have hstart : ∃ c rest,manifestLine m=c::rest ∧ c ≠ '#' := by
    rw [manifestLine,List.intercalate_cons_cons,hname]
    cases db
    · exact ⟨'s',_,rfl,by decide⟩
    · exact ⟨'i',_,rfl,by decide⟩
    · exact ⟨'y',_,rfl,by decide⟩
  obtain ⟨c,rest,hline,hhash⟩ := hstart
  have hkept : ¬(manifestLine m=[] ∨ (manifestLine m).head?=some '#') := by
    rw [hline]
    rintro (hnil | hcomment)
    · exact absurd hnil (List.cons_ne_nil _ _)
    · exact hhash (Option.some.inj hcomment)
  rw [parseManifestLine,if_neg hkept,manifestLine,
    pieces_intercalate hfields (List.cons_ne_nil _ _)]
  cases hpath : m.filePath with
  | nil => rw [fieldsOf,hpath]; rfl
  | cons c rest => rw [fieldsOf,hpath]; rfl

/-- The line of such a manifest is one line. -/
theorem Loadable.line {m : UpdateManifest} (loadable : Loadable m) (storable : Storable m) :
    '\n' ∉ manifestLine m := by
  obtain ⟨db,hname⟩ := loadable.dbName
  refine not_mem_intercalate (by decide) fun field member => ?_
  rcases List.mem_cons.mp member with rfl | member
  · rw [hname]
    cases db <;> decide
  rcases List.mem_cons.mp member with rfl | member
  · exact loadable.version
  rcases List.mem_cons.mp member with rfl | member
  · exact fun hbreak => (loadable.sha256 _ hbreak).2 rfl
  · rw [List.mem_singleton.mp member]
    exact fun hbreak => (storable.2 _ hbreak).2 rfl

/-- Manifests of different names are appended one after the other. -/
theorem foldl_putFields_new {manifests held : List UpdateManifest}
    (distinct : Distinct (held++manifests)) :
    ((manifests.map fieldsOf).foldl putFields held).map fieldsOf=
      (held++manifests).map fieldsOf := by
  induction manifests generalizing held with
  | nil => rw [List.append_nil]; rfl
  | cons m manifests ih =>
    have hnew : m.dbName ∉ held.map UpdateManifest.dbName := by
      intro hold
      rw [Distinct,List.map_append,List.map_cons] at distinct
      exact (List.nodup_append.mp distinct).2.2 _ hold _ List.mem_cons_self rfl
    have hput : ∃ new,putFields held (fieldsOf m)=held++[new] ∧ fieldsOf new=fieldsOf m ∧
        new.dbName=m.dbName := ⟨_,putManifest_new hnew,rfl,rfl⟩
    obtain ⟨new,hput,hfields,hname⟩ := hput
    rw [List.map_cons,List.foldl_cons,hput,ih]
    · rw [List.append_assoc,List.singleton_append,List.map_append,List.map_cons,hfields,
        List.map_append,List.map_cons]
    · rw [Distinct,List.append_assoc,List.singleton_append,List.map_append,List.map_cons,hname]
      rwa [Distinct,List.map_append,List.map_cons] at distinct

/-- Loaded manifests are read back exactly when they are storable. -/
theorem roundTrips_iff {engine : UpdateEngine} (distinct : Distinct engine.manifests)
    (loadable : ∀ m ∈ engine.manifests,Loadable m) :
    RoundTrips engine ↔ ∀ m ∈ engine.manifests,Storable m := by
  refine ⟨RoundTrips.storable,fun storable => ?_⟩
  have hlines : ∀ line ∈ manifestHeader::engine.manifests.map manifestLine,'\n' ∉ line := by
    intro line member
    rcases List.mem_cons.mp member with rfl | member
    · decide
    · obtain ⟨m,hm,rfl⟩ := List.mem_map.mp member
      exact (loadable m hm).line (storable m hm)
  have hread : (engine.manifests.map manifestLine).filterMap parseManifestLine=
      engine.manifests.map fieldsOf := by
    rw [List.filterMap_map,←List.filterMap_eq_map]
    refine List.filterMap_congr fun m hm => ?_
    exact (loadable m hm).parseManifestLine_eq (storable m hm)
  have hheader : parseManifestLine manifestHeader=none := by decide
  rw [RoundTrips,readManifest,writeManifest,unlines,pieces_terminated hlines,
    List.filterMap_cons_none hheader,hread]
  exact foldl_putFields_new distinct

end Reading

section Loading

/-- What follows a text is part of the line. -/
theorem findAfter_subset {needle text value : Str} (h : findAfter needle text=some value) :
    value ⊆ text := by
  induction text with
  | nil =>
    rw [findAfter] at h
    split_ifs at h
    rw [←Option.some.inj h]
    exact List.nil_subset _
  | cons c rest ih =>
    rw [findAfter] at h
    split_ifs at h
    · rw [←Option.some.inj h]
      exact List.drop_subset _ _
    · exact List.subset_cons_of_subset _ (ih h)

/-- A trimmed version is part of the text. -/
theorem trimVersion_subset (value : Str) : trimVersion value ⊆ value :=
  fun _ h => List.dropWhile_subset _ ((List.rdropWhile_prefix _ _).subset h)

/-- A version read from lines is part of a line. -/
theorem versionOfLines_line {lines : List Str} (h : ∀ line ∈ lines,'\n' ∉ line) :
    '\n' ∉ versionOfLines lines := by
  induction lines with
  | nil => exact (by decide : '\n' ∉ "1.0.0".toList)
  | cons text rest ih =>
    have hrest := ih fun line member => h line (List.mem_cons_of_mem _ member)
    rw [versionOfLines]
    split_ifs with hcomment
    · exact (by decide : '\n' ∉ "1.0.0".toList)
    · split
      · next value hvalue =>
        split_ifs with hempty
        · have hsub : value ⊆ text := by
            rcases Option.or_eq_some_iff.mp hvalue with hfirst | ⟨-,hsecond⟩
            · exact findAfter_subset hfirst
            · exact findAfter_subset hsecond
          exact fun hbreak => h text List.mem_cons_self (hsub (trimVersion_subset value hbreak))
        · exact hrest
      · exact hrest

/-- A version read from a file has no line break. -/
theorem parseVersionFromFile_line (entry : DiskEntry) : '\n' ∉ parseVersionFromFile entry := by
  cases entry with
  | missing => exact (by decide : '\n' ∉ "0.0.0".toList)
  | unreadable => exact (by decide : '\n' ∉ "0.0.0".toList)
  | file content => exact versionOfLines_line fun line member => (mem_splitOn member).1

/-- A recorded hash has no delimiter. -/
theorem computeFileSha256_plain (entry : DiskEntry) : Plain (computeFileSha256 entry) := by
  cases entry with
  | missing => exact fun c h => absurd h List.not_mem_nil
  | unreadable => exact fun c h => absurd h List.not_mem_nil
  | file content => exact plain_hex _

/-- What a load leaves: the same manifests, or one put in its place. -/
theorem load_cases (db : Database) (entry : DiskEntry) (engine : UpdateEngine)
    (path expected : Str) (now : TimePoint) :
    ((load db entry engine path expected now).2≠.success ∧
      (load db entry engine path expected now).1.manifests=engine.manifests) ∨
    ((load db entry engine path expected now).2=.success ∧
      (load db entry engine path expected now).1.manifests=putManifest
        ⟨db.name,parseVersionFromFile entry,computeFileSha256 entry,path,now⟩ engine.manifests) := by
  by_cases hresult : (load db entry engine path expected now).2=.success
  · refine .inr ⟨hresult,?_⟩
    rw [load_result] at hresult
    rw [load_manifests]
    unfold validateAndUpdate at hresult ⊢
    dsimp only at hresult ⊢
    split_ifs at hresult ⊢
    rfl
  · exact .inl ⟨hresult,load_failed hresult⟩

/-- The names of refreshed manifests. -/
theorem refresh_names (disk : Str → DiskEntry) (now : TimePoint)
    (manifests : List UpdateManifest) :
    (manifests.map (refresh disk now)).map UpdateManifest.dbName=
      manifests.map UpdateManifest.dbName := by
  rw [List.map_map]
  refine List.map_congr_left fun m _ => ?_
  rw [Function.comp_apply,refresh]
  split_ifs
  · rfl
  · rfl

/-- Every action keeps the names apart. -/
theorem step_distinct {w : World} (distinct : Distinct w.engine.manifests) (action : Action) :
    Distinct (step w action).1.engine.manifests := by
  cases action with
  | load db path expected now =>
    rcases load_cases db (w.disk path) w.engine path expected now with ⟨-,heq⟩ | ⟨-,heq⟩
    · rw [step,heq]
      exact distinct
    · rw [step,heq]
      exact distinct.put _
  | change path entry => exact distinct
  | check now =>
    rw [Distinct,step,checkForUpdates]
    dsimp only
    rw [refresh_names]
    exact distinct

/-- Every action keeps the manifests loadable. -/
theorem step_loadable {w : World} (loadable : ∀ m ∈ w.engine.manifests,Loadable m)
    (action : Action) : ∀ m ∈ (step w action).1.engine.manifests,Loadable m := by
  intro m member
  cases action with
  | load db path expected now =>
    rw [step] at member
    rcases load_cases db (w.disk path) w.engine path expected now with ⟨-,heq⟩ | ⟨-,heq⟩
    · rw [heq] at member
      exact loadable m member
    · rw [heq] at member
      rcases mem_putManifest member with rfl | hold
      · exact ⟨⟨db,rfl⟩,parseVersionFromFile_line _,computeFileSha256_plain _⟩
      · exact loadable m hold
  | change path entry => exact loadable m member
  | check now =>
    obtain ⟨old,hold,rfl⟩ := List.mem_map.mp member
    have hloadable := loadable old hold
    rw [refresh]
    split_ifs
    · exact ⟨hloadable.dbName,parseVersionFromFile_line _,computeFileSha256_plain _⟩
    · exact hloadable

/-- After every sequence of loads, changes on disk and checks of a new
engine, the manifests are read back from the manifest file exactly when no
version holds a bar and no path a bar or a line break. -/
theorem manifests_read_back_iff (disk : Str → DiskEntry) {events : List UpdateEvent} {w : World}
    (run : Run (Deterministic step) ⟨disk,fresh⟩ events w) :
    RoundTrips w.engine ↔ ∀ m ∈ w.engine.manifests,Storable m := by
  have hheld : Distinct w.engine.manifests ∧ ∀ m ∈ w.engine.manifests,Loadable m := by
    have hstart : Distinct [] := List.nodup_nil
    refine run.invariant (fun _ w => Distinct w.engine.manifests ∧
      ∀ m ∈ w.engine.manifests,Loadable m) ⟨hstart,fun _ h => absurd h List.not_mem_nil⟩ ?_
    rintro events s label t ⟨distinct,loadable⟩ hstep
    have hnext : (step s label.1).1=t := congrArg Prod.fst hstep
    rw [←hnext]
    exact ⟨step_distinct distinct label.1,step_loadable loadable label.1⟩
  exact roundTrips_iff hheld.1 hheld.2

/-- A database file whose header names a version with a bar in it. -/
def barredFile : DiskEntry :=
  .file ("# version: 1|2\n".toList.map fun c => UInt8.ofNat c.toNat)

/-- A new engine and that file. -/
def barred : World := ⟨fun _ => barredFile,fresh⟩

/-- A load of that file succeeds and its manifest is not read back. -/
theorem barred_version_cut :
    ∃ events w,Run (Deterministic step) barred events w ∧
      (∀ e ∈ events,Loaded e .signatures .success) ∧ ¬RoundTrips w.engine := by
  have hload : Deterministic step barred (.load .signatures dbPath [] 0,.result .success)
      (step barred (.load .signatures dbPath [] 0)).1 := Prod.ext rfl rfl
  refine ⟨_,_,Run.nil.snoc hload,?_,fun h => ?_⟩
  · intro e member
    rw [List.mem_singleton.mp member]
    exact ⟨dbPath,[],0,rfl⟩
  · exact (h.storable _ List.mem_cons_self).1 (by decide : '|' ∈ parseVersionFromFile barredFile)

/-- A file without a header. -/
def plainFile : DiskEntry := .file [49]

/-- The manifest of a file without a header is read back. -/
theorem plain_manifest_read_back :
    ∃ events w,Run (Deterministic step) ⟨fun _ => plainFile,fresh⟩ events w ∧
      w.engine.manifests≠[] ∧ RoundTrips w.engine := by
  have hload : Deterministic step ⟨fun _ => plainFile,fresh⟩
      (.load .signatures dbPath [] 0,.result .success)
      (step ⟨fun _ => plainFile,fresh⟩ (.load .signatures dbPath [] 0)).1 := Prod.ext rfl rfl
  have hrun := Run.nil.snoc hload
  refine ⟨_,_,hrun,List.cons_ne_nil _ _,(manifests_read_back_iff _ hrun).mpr ?_⟩
  intro m member
  rw [List.mem_singleton.mp member]
  refine ⟨(by decide : '|' ∉ parseVersionFromFile plainFile),?_⟩
  rw [←hasUnsafeDelimiter_eq_false_iff]
  decide

end Loading

end Gcad.ManifestText
