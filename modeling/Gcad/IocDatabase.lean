import Gcad.ThreatIntel
import Gcad.LedgerText

/-!
# The file of the threat intelligence engine

Saving writes one line for every active indicator, with a vertical bar
between its five fields and without any escaping; loading cuts the file
into lines and a line into fields. The severity passes through a table of
names that has no name for `SAFE`.
-/

namespace Gcad.IocDatabase

open Common Observation DelimitedText LedgerText ThreatIntel

/-- The type names that `save_to_file` writes. -/
def typeStr : IocType → Str
  | .sha256Hash => "sha256".toList
  | .md5Hash => "md5".toList
  | .ipv4Address => "ip".toList
  | .domain => "domain".toList
  | .url => "url".toList
  | .fileName => "filename".toList

/-- The severity names that it writes. -/
def sev : ThreatLevel → Str
  | .critical => "critical".toList
  | .high => "high".toList
  | .medium => "medium".toList
  | .low => "low".toList
  | .safe => "high".toList

/-- The five fields of a line. -/
def entryFields (e : IocEntry) : List Str :=
  [typeStr e.type,e.value,sev e.severity,e.source,e.description]

/-- The line of an indicator. -/
def entryLine (e : IocEntry) : Str := ['|'].intercalate (entryFields e)

/-- The two comment lines at the top of the file. -/
def headerLines : List Str :=
  ["# GCAD Threat Intelligence IOC Database".toList,
    "# Format: type|value|severity|source|description".toList]

/-- `save_to_file` where the file can be opened: the text and the count. -/
def saveToFile (engine : ThreatIntelEngine) : Str×ℕ :=
  (unlines (headerLines++(engine.iocs.filter IocEntry.active).map entryLine),
    (engine.iocs.filter IocEntry.active).length)

/-- Consecutive calls of `add_ioc`, each with its clock reading. -/
def addAll (engine : ThreatIntelEngine) (entries : List (IocEntry×TimePoint)) : ThreatIntelEngine :=
  entries.foldl (fun engine entry => (addIoc engine entry.1 entry.2).1) engine

/-- What a line of the file is to keep of an indicator. -/
structure Content where
  /-- Sort of the indicator. -/
  type : IocType
  /-- Stored value. -/
  value : Str
  /-- How bad a match is. -/
  severity : ThreatLevel
  /-- The feed it comes from. -/
  source : Str
  /-- Free text. -/
  description : Str
  deriving DecidableEq

/-- The content of an indicator as it stands. -/
def contentOf (e : IocEntry) : Content := ⟨e.type,e.value,e.severity,e.source,e.description⟩

/-- The active indicators of an engine, in the order of their insertion. -/
def activeContents (engine : ThreatIntelEngine) : List Content :=
  (engine.iocs.filter IocEntry.active).map contentOf

/-- The content under which an indicator is stored. -/
def storedContent (e : IocEntry) : Content :=
  { contentOf e with value := normalizeValue e.type e.value }

section Adding

/-- Adding an indicator appends its stored content, if it is active. -/
theorem activeContents_addIoc (engine : ThreatIntelEngine) (e : IocEntry) (now : TimePoint) :
    activeContents (addIoc engine e now).1=
      activeContents engine++([e].filter IocEntry.active).map storedContent := by
  unfold activeContents addIoc
  dsimp only
  rw [(rebuildIndices_iocs _).1,List.filter_append,List.map_append]
  cases hactive : e.active with
  | false => simp [hactive]
  | true => simp [hactive,storedContent,contentOf]

/-- Adding several indicators appends the contents of the active ones. -/
theorem activeContents_addAll (engine : ThreatIntelEngine) (entries : List (IocEntry×TimePoint)) :
    activeContents (addAll engine entries)=activeContents engine++
      ((entries.map Prod.fst).filter IocEntry.active).map storedContent := by
  induction entries generalizing engine with
  | nil => simp [addAll]
  | cons entry rest ih =>
    have hcons : addAll engine (entry::rest)=addAll (addIoc engine entry.1 entry.2).1 rest := rfl
    rw [hcons,ih,activeContents_addIoc,List.append_assoc,←List.map_append,←List.filter_append]
    rfl

/-- The fields of a line that is read. -/
theorem readFileLine_fields {text : Str} {e : IocEntry} (h : readFileLine text=some e) :
    ∃ typeText value rest type,pieces '|' text=typeText::value::rest ∧ e=
      { type := type,value := value,severity := severityOf (rest[0]?.getD [])
        source := rest[1]?.getD [],description := rest[2]?.getD [] } := by
  unfold readFileLine readEntry at h
  split at h
  · cases h
  · split at h
    · next typeText value rest heq =>
      obtain ⟨type,-,rfl⟩ := Option.map_eq_some_iff.mp h
      exact ⟨typeText,value,rest,type,heq,rfl⟩
    · cases h

/-- An indicator read from a line is active. -/
theorem readFileLine_active {text : Str} {e : IocEntry} (h : readFileLine text=some e) :
    e.active=true := by
  obtain ⟨_,_,_,_,-,rfl⟩ := readFileLine_fields h
  rfl

/-- Adding lines appends the contents of the indicators that are read. -/
theorem activeContents_addLines {read : Str → Option IocEntry}
    (hread : ∀ text e,read text=some e → e.active=true) (lines : List Str) (now : ℕ → TimePoint)
    (loaded : ThreatIntelEngine×ℕ) :
    activeContents (lines.foldl (addLines read now) loaded).1=
      activeContents loaded.1++(lines.filterMap read).map storedContent := by
  induction lines generalizing loaded with
  | nil => simp
  | cons text rest ih =>
    rw [List.foldl_cons,ih,List.filterMap_cons]
    unfold addLines
    cases htext : read text with
    | none => rfl
    | some e =>
      have hactive := hread text e htext
      dsimp only
      rw [activeContents_addIoc,List.append_assoc]
      simp [hactive]

/-- Loading a text into an emptied engine. -/
theorem activeContents_loadFromFile (engine : ThreatIntelEngine) (text : Str) (now : ℕ → TimePoint) :
    activeContents (loadFromFile (clearIocs engine) (some text) now).1=
      ((pieces '\n' text).filterMap readFileLine).map storedContent := by
  dsimp only [loadFromFile]
  rw [activeContents_addLines fun _ _ => readFileLine_active]
  rfl

end Adding

section Normalising

/-- The code of a lowered capital letter. -/
theorem toNat_ofNat_capital {c : Char} (h : 'A'.toNat ≤ c.toNat ∧ c.toNat ≤ 'Z'.toNat) :
    (Char.ofNat (c.toNat+32)).toNat=c.toNat+32 ∧ 97 ≤ c.toNat+32 ∧ c.toNat+32 ≤ 122 := by
  have ha : 'A'.toNat=65 := rfl
  have hz : 'Z'.toNat=90 := rfl
  refine ⟨?_,by omega,by omega⟩
  rw [Char.toNat_ofNat,if_pos]
  exact Or.inl (by omega)

/-- A lowered character is not lowered again. -/
theorem toLower_toLower (c : Char) : toLower (toLower c)=toLower c := by
  unfold toLower
  split
  · next h =>
    obtain ⟨hval,hlow,-⟩ := toNat_ofNat_capital h
    have hz : 'Z'.toNat=90 := rfl
    rw [if_neg (by rw [hval]; omega)]
  · rfl

/-- Only a delimiter is lowered to a delimiter. -/
theorem toLower_plain (c : Char) : (toLower c≠ '|' ∧ toLower c≠ '\n') ↔ c≠ '|' ∧ c≠ '\n' := by
  unfold toLower
  split
  · next h =>
    obtain ⟨hval,hlow,hhigh⟩ := toNat_ofNat_capital h
    have hcode : ∀ d : Char,d.toNat < 97 ∨ 122 < d.toNat → Char.ofNat (c.toNat+32)≠d := by
      intro d hd heq
      have hnat := congrArg Char.toNat heq
      omega
    have hlowered : Char.ofNat (c.toNat+32)≠ '|' ∧ Char.ofNat (c.toNat+32)≠ '\n' :=
      ⟨hcode _ (by decide),hcode _ (by decide)⟩
    refine iff_of_true hlowered ⟨?_,?_⟩
    · rintro rfl
      exact absurd h (by decide)
    · rintro rfl
      exact absurd h (by decide)
  · exact Iff.rfl

/-- A text is plain when its lowered text is. -/
theorem plain_map_toLower (text : Str) : Plain (text.map toLower) ↔ Plain text := by
  unfold Plain
  rw [List.forall_mem_map]
  exact forall₂_congr fun c _ => toLower_plain c

/-- Dots at the end do not matter for that. -/
theorem plain_rdropWhile (text : Str) : Plain (text.rdropWhile fun c => c = '.') ↔ Plain text := by
  constructor
  · intro h c hc
    have hcut : text.rdropWhile (fun c => c = '.')++text.rtakeWhile (fun c => c = '.')=text :=
      List.rdropWhile_append_rtakeWhile
    rw [←hcut,List.mem_append] at hc
    rcases hc with hc | hc
    · exact h c hc
    · have hdot := List.mem_rtakeWhile_imp hc
      rw [decide_eq_true_iff.mp hdot]
      decide
  · intro h c hc
    exact h c ((List.rdropWhile_prefix _ _).subset hc)

/-- A value is plain when its stored form is. -/
theorem plain_normalizeValue (type : IocType) (value : Str) :
    Plain (normalizeValue type value) ↔ Plain value := by
  unfold normalizeValue
  split
  · exact plain_map_toLower value
  · split
    · exact (plain_rdropWhile _).trans (plain_map_toLower value)
    · exact Iff.rfl

/-- Lowering a lowered text does nothing. -/
theorem map_toLower_map (text : Str) : (text.map toLower).map toLower=text.map toLower := by
  rw [List.map_map]
  exact List.map_congr_left fun c _ => toLower_toLower c

/-- Stored values are not changed when they are stored again. -/
theorem normalizeValue_idem (type : IocType) (value : Str) :
    normalizeValue type (normalizeValue type value)=normalizeValue type value := by
  unfold normalizeValue
  split
  · exact map_toLower_map value
  · split
    · have hlower : ∀ c ∈ (value.map toLower).rdropWhile (fun c => c = '.'),toLower c=c := by
        intro c hc
        have hmem := (List.rdropWhile_prefix _ _).subset hc
        obtain ⟨d,-,rfl⟩ := List.mem_map.mp hmem
        exact toLower_toLower d
      have hmap := List.map_congr_left hlower
      rw [List.map_id'] at hmap
      unfold normalizeDomain
      rw [hmap,List.rdropWhile_idempotent]
    · rfl

end Normalising

/-- An indicator that a line of the file can keep. -/
structure Storable (e : IocEntry) : Prop where
  /-- No delimiter in the value. -/
  value : Plain e.value
  /-- No delimiter in the source. -/
  source : Plain e.source
  /-- No delimiter in the description. -/
  description : Plain e.description
  /-- A severity with a name. -/
  severity : e.severity≠.safe

/-- The same of the content of a line. -/
structure StorableContent (content : Content) : Prop where
  /-- No delimiter in the value. -/
  value : Plain content.value
  /-- No delimiter in the source. -/
  source : Plain content.source
  /-- No delimiter in the description. -/
  description : Plain content.description
  /-- A severity with a name. -/
  severity : content.severity≠.safe

/-- Normalising the value does not change whether an indicator is storable. -/
theorem storable_iff (e : IocEntry) : StorableContent (storedContent e) ↔ Storable e := by
  constructor
  · intro h
    exact ⟨(plain_normalizeValue _ _).mp h.value,h.source,h.description,h.severity⟩
  · intro h
    exact ⟨(plain_normalizeValue _ _).mpr h.value,h.source,h.description,h.severity⟩

section Reading

/-- The severity that is read always has a name. -/
theorem severityOf_ne_safe (text : Str) : severityOf text≠.safe := by
  unfold severityOf
  split_ifs <;> decide

/-- The pieces of a line of a file are plain. -/
theorem plain_of_mem_pieces {text line piece : Str} (hline : line ∈ pieces '\n' text)
    (hpiece : piece ∈ pieces '|' line) : Plain piece := by
  obtain ⟨hbar,hsub⟩ := mem_pieces hpiece
  intro c hc
  refine ⟨?_,?_⟩
  · rintro rfl
    exact hbar hc
  · rintro rfl
    exact (mem_pieces hline).1 (hsub hc)

/-- A field that may be missing is plain where the fields are. -/
theorem plain_getD {fields : List Str} (h : ∀ field ∈ fields, Plain field) (i : ℕ) :
    Plain (fields[i]?.getD []) := by
  cases hget : fields[i]? with
  | none => exact fun c hc => absurd hc List.not_mem_nil
  | some field => exact h field (List.mem_of_getElem? hget)

/-- Whatever the file holds, the indicators that are read are storable. -/
theorem readFileLine_storable {text line : Str} {e : IocEntry} (hline : line ∈ pieces '\n' text)
    (h : readFileLine line=some e) : Storable e := by
  have hplain : ∀ piece ∈ pieces '|' line,Plain piece := fun piece => plain_of_mem_pieces hline
  obtain ⟨typeText,value,rest,type,heq,rfl⟩ := readFileLine_fields h
  rw [heq] at hplain
  have hrest : ∀ piece ∈ rest,Plain piece := fun piece hp =>
    hplain piece (List.mem_cons_of_mem _ (List.mem_cons_of_mem _ hp))
  exact ⟨hplain value (List.mem_cons_of_mem _ List.mem_cons_self),plain_getD hrest 1,
    plain_getD hrest 2,severityOf_ne_safe _⟩

/-- The names of the types are read back. -/
theorem typeOf_typeStr (type : IocType) : typeOf (typeStr type)=some type := by
  cases type <;> decide

/-- The names of the severities are read back. -/
theorem severityOf_sev {severity : ThreatLevel} (h : severity≠.safe) :
    severityOf (sev severity)=severity := by
  cases severity with
  | safe => exact absurd rfl h
  | low => decide
  | medium => decide
  | high => decide
  | critical => decide

/-- No field of a storable indicator holds a delimiter. -/
theorem Storable.fields {e : IocEntry} (h : Storable e) : ∀ field ∈ entryFields e,Plain field := by
  have htype : Plain (typeStr e.type) :=
    (hasUnsafeDelimiter_eq_false_iff _).mp (by cases e.type <;> decide)
  have hsev : Plain (sev e.severity) :=
    (hasUnsafeDelimiter_eq_false_iff _).mp (by cases e.severity <;> decide)
  simp only [entryFields,List.forall_mem_cons]
  exact ⟨htype,h.value,hsev,h.source,h.description,fun field hf => absurd hf List.not_mem_nil⟩

/-- The line of a storable indicator is one line. -/
theorem Storable.line {e : IocEntry} (h : Storable e) : '\n' ∉ entryLine e :=
  not_mem_intercalate (by decide) fun field hf hc => (h.fields field hf _ hc).2 rfl

/-- A line begins with the first letter of a type name. -/
theorem entryLine_head (e : IocEntry) : entryLine e≠[] ∧ (entryLine e).head?≠some '#' := by
  have hname : typeStr e.type≠[] ∧ (typeStr e.type).head?≠some '#' := by
    cases e.type <;> decide
  unfold entryLine entryFields
  rw [List.intercalate_cons_cons,List.append_assoc,List.head?_append_of_ne_nil _ hname.1]
  exact ⟨List.append_ne_nil_of_left_ne_nil hname.1 _,hname.2⟩

/-- The line of a storable indicator is read back. -/
theorem Storable.readFileLine_eq {e : IocEntry} (h : Storable e) :
    ∃ read,readFileLine (entryLine e)=some read ∧ contentOf read=contentOf e := by
  have hbar : ∀ field ∈ entryFields e, '|' ∉ field := fun field hf hc =>
    (h.fields field hf _ hc).1 rfl
  have hpieces := pieces_intercalate hbar (List.cons_ne_nil _ _)
  have hhead := entryLine_head e
  unfold readFileLine readEntry
  rw [if_neg (not_or.mpr hhead),entryLine,hpieces]
  cases hdesc : e.description with
  | nil =>
    have hfields : (entryFields e).getLast?.all List.isEmpty=true := by
      simp [entryFields,hdesc]
    rw [if_pos hfields]
    simp [entryFields,contentOf,typeOf_typeStr,severityOf_sev h.severity,hdesc]
  | cons c rest =>
    have hfields : ¬(entryFields e).getLast?.all List.isEmpty=true := by
      simp [entryFields,hdesc]
    rw [if_neg hfields]
    simp [entryFields,contentOf,typeOf_typeStr,severityOf_sev h.severity,hdesc]

end Reading

/-- The stored form of an indicator is storable where the indicator is, and
has the same stored content. -/
theorem storedContent_of_contentOf {read e : IocEntry} (h : contentOf read=storedContent e) :
    storedContent read=storedContent e := by
  have htype : read.type=e.type := congrArg Content.type h
  have hvalue : read.value=normalizeValue e.type e.value := congrArg Content.value h
  unfold storedContent at h ⊢
  rw [h,htype,hvalue,normalizeValue_idem]

/-- Loading the lines of storable indicators gives their stored contents. -/
theorem filterMap_entryLine {iocs : List IocEntry} (h : ∀ e ∈ iocs,Storable e)
    (hnormal : ∀ e ∈ iocs,storedContent e=contentOf e) :
    ((iocs.map entryLine).filterMap readFileLine).map storedContent=iocs.map contentOf := by
  induction iocs with
  | nil => rfl
  | cons e rest ih =>
    obtain ⟨read,hread,hcontent⟩ := (h e List.mem_cons_self).readFileLine_eq
    have hstored := hnormal e List.mem_cons_self
    have hsame := storedContent_of_contentOf (hcontent.trans hstored.symm)
    rw [List.map_cons,List.filterMap_cons,hread,List.map_cons,List.map_cons,hsame,hstored,
      ih (fun other ho => h other (List.mem_cons_of_mem _ ho))
        (fun other ho => hnormal other (List.mem_cons_of_mem _ ho))]

/-- The file of an engine with storable active indicators is read back. -/
theorem activeContents_reloaded {engine : ThreatIntelEngine}
    (h : ∀ e ∈ engine.iocs.filter IocEntry.active,Storable e)
    (hnormal : ∀ e ∈ engine.iocs.filter IocEntry.active,storedContent e=contentOf e)
    (other : ThreatIntelEngine) (now : ℕ → TimePoint) :
    activeContents (loadFromFile (clearIocs other) (some (saveToFile engine).1) now).1=
      activeContents engine := by
  have hheader : ∀ text ∈ headerLines, '\n' ∉ text ∧ readFileLine text=none := by decide
  have hbreak : ∀ text ∈ headerLines++(engine.iocs.filter IocEntry.active).map entryLine,
      '\n' ∉ text := by
    intro text htext
    rcases List.mem_append.mp htext with htext | htext
    · exact (hheader text htext).1
    · obtain ⟨e,he,rfl⟩ := List.mem_map.mp htext
      exact (h e he).line
  have hskip : headerLines.filterMap readFileLine=[] :=
    List.filterMap_eq_nil_iff.mpr fun text htext => (hheader text htext).2
  rw [activeContents_loadFromFile,saveToFile,unlines,pieces_terminated hbreak,
    List.filterMap_append,hskip,List.nil_append,filterMap_entryLine h hnormal]
  rfl

/-- Every active indicator of an engine that was filled by `add_ioc` has the
stored content of an active entry that was added. -/
theorem mem_active_addAll {entries : List (IocEntry×TimePoint)} {e : IocEntry}
    (h : e ∈ (addAll create entries).iocs.filter IocEntry.active) :
    ∃ entry ∈ entries,entry.1.active=true ∧ contentOf e=storedContent entry.1 := by
  have hcontent : contentOf e ∈ activeContents (addAll create entries) := List.mem_map_of_mem h
  rw [activeContents_addAll] at hcontent
  rcases List.mem_append.mp hcontent with hnone | hcontent
  · exact absurd hnone List.not_mem_nil
  · obtain ⟨added,hadded,heq⟩ := List.mem_map.mp hcontent
    obtain ⟨hmem,hactive⟩ := List.mem_filter.mp hadded
    obtain ⟨entry,hentry,rfl⟩ := List.mem_map.mp hmem
    exact ⟨entry,hentry,hactive,heq.symm⟩

/-- The active indicators that were added are saved and loaded back exactly
when each of them has a severity other than `SAFE` and neither a vertical bar
nor a line break in its value, source or description. -/
theorem ioc_round_trip_iff (entries : List (IocEntry×TimePoint)) (other : ThreatIntelEngine)
    (now : ℕ → TimePoint) :
    activeContents (loadFromFile (clearIocs other)
      (some (saveToFile (addAll create entries)).1) now).1=activeContents (addAll create entries) ↔
    ∀ entry ∈ entries,entry.1.active=true → Storable entry.1 := by
  constructor
  · intro h entry hentry hactive
    have hmem : storedContent entry.1 ∈ activeContents (addAll create entries) := by
      rw [activeContents_addAll]
      refine List.mem_append_right _ (List.mem_map_of_mem ?_)
      exact List.mem_filter.mpr ⟨List.mem_map_of_mem hentry,hactive⟩
    rw [←h,activeContents_loadFromFile] at hmem
    obtain ⟨read,hread,heq⟩ := List.mem_map.mp hmem
    obtain ⟨text,htext,hparse⟩ := List.mem_filterMap.mp hread
    have hstorable := (storable_iff read).mpr (readFileLine_storable htext hparse)
    rw [heq] at hstorable
    exact (storable_iff entry.1).mp hstorable
  · intro h
    refine activeContents_reloaded ?_ ?_ other now
    · intro e he
      obtain ⟨entry,hentry,hactive,heq⟩ := mem_active_addAll he
      have hstorable := (storable_iff entry.1).mpr (h entry hentry hactive)
      rw [←heq] at hstorable
      exact ⟨hstorable.value,hstorable.source,hstorable.description,hstorable.severity⟩
    · intro e he
      obtain ⟨entry,-,-,heq⟩ := mem_active_addAll he
      rw [storedContent_of_contentOf heq,heq]

/-- A description with a vertical bar comes back without its second half. -/
theorem ioc_round_trip_lossy :
    ¬∀ (entries : List (IocEntry×TimePoint)) (other : ThreatIntelEngine) (now : ℕ → TimePoint),
      activeContents (loadFromFile (clearIocs other)
        (some (saveToFile (addAll create entries)).1) now).1=
          activeContents (addAll create entries) := by
  intro h
  have hcase := h [({ value := ['a'],description := "seen|twice".toList },0)] create fun _ => 0
  revert hcase
  decide +kernel

end Gcad.IocDatabase
