import Gcad.IocDatabase

/-!
# The two importers of indicators

`load_from_file` reads the lines of a file as they stand, and
`import_iocs_from_string` trims every line first. A blank at the start of a
line hides its type from the first one, and blanks at its end become part of
its last field. Which lines the two read alike is settled line by line, and
then for texts.
-/

namespace Gcad.IocImport

open Common Observation DelimitedText LedgerText ThreatIntel IocDatabase

/-- The fields of a line, an empty last one included. -/
def fields (line : Str) : List Str := line.splitOn '|'

/-- The content of an indicator whose fields were read one by one. -/
def contentOfPieces : List Str → Option Content
  | typeText::value::rest => (typeOf typeText).map fun type =>
    ⟨type,normalizeValue type value,severityOf (rest[0]?.getD []),rest[1]?.getD [],
      rest[2]?.getD []⟩
  | _ => none

/-- A line starts with a blank. -/
def Indented (line : Str) : Prop := line.head?.any isBlank=true

instance (line : Str) : Decidable (Indented line) := inferInstanceAs (Decidable (_=true))

/-- A trimmed line holds no indicator: it is a comment, has no known type or
a single field. -/
def Skipped (core : Str) : Prop :=
  core.head?=some '#' ∨ typeOf ((fields core).headD [])=none ∨ (fields core).length=1

instance (core : Str) : Decidable (Skipped core) := inferInstanceAs (Decidable (_ ∨ _ ∨ _))

/-- Trimming a line changes nothing of what is read: there is nothing to
trim, the line holds no indicator, it is indented and holds no value, or what
is cut off stood in the severity and the severity has no other name than that
of the default, or behind the fifth field. -/
def Harmless (line : Str) : Prop :=
  line=trim isBlank line ∨ Skipped (trim isBlank line) ∨
    if Indented line then
      (fields (trim isBlank line)).length=2 ∧ (fields (trim isBlank line)).getLast?=some []
    else
      (fields (trim isBlank line)).length=3 ∧
          severityOf ((fields (trim isBlank line)).getLastD [])=.high ∨
        6 ≤ (fields (trim isBlank line)).length

instance (line : Str) : Decidable (Harmless line) := inferInstanceAs (Decidable (_ ∨ _ ∨ _))

section Lines

/-- The content of the indicator in a line. -/
theorem readEntry_content (text : Str) :
    (readEntry text).map storedContent=contentOfPieces (pieces '|' text) := by
  rw [readEntry]
  match pieces '|' text with
  | [] => rfl
  | [_] => rfl
  | typeText::value::rest =>
    dsimp only [contentOfPieces]
    rw [Option.map_map]
    rfl

/-- Without a default source the importer reads the trimmed line as the other
one would. -/
theorem readImportLine_eq (line : Str) :
    readImportLine [] line=readFileLine (trim isBlank line) := by
  rw [readImportLine,readFileLine]
  split_ifs with hskip
  · rfl
  · refine (congrArg (Option.map · _) (funext fun e => ?_)).trans Option.map_id'
    by_cases hsource : e.source=[]
    · rw [if_pos hsource,←hsource]
    · rw [if_neg hsource]

/-- No type starts with a blank. -/
theorem typeOf_blank {c : Char} (h : isBlank c=true) (rest : Str) : typeOf (c::rest)=none := by
  have hne : ∀ name ∈ ["sha256".toList,"md5".toList,"ip".toList,"domain".toList,"url".toList,
      "filename".toList],c::rest≠name := by
    rintro name hmem rfl
    have hhead : ∀ name ∈ ["sha256".toList,"md5".toList,"ip".toList,"domain".toList,
        "url".toList,"filename".toList],name.head?.any isBlank=false := by decide
    have hblank := hhead _ hmem
    rw [List.head?_cons,Option.any_some,h] at hblank
    exact absurd hblank nofun
  simp only [List.forall_mem_cons] at hne
  obtain ⟨h1,h2,h3,h4,h5,h6,-⟩ := hne
  rw [typeOf,if_neg h1,if_neg h2,if_neg h3,if_neg h4,if_neg h5,if_neg h6]

/-- There is always a last field. -/
theorem exists_last_field (line : Str) : ∃ front last,fields line=front++[last] := by
  refine ⟨(fields line).dropLast,(fields line).getLast (List.splitOn_ne_nil _ _),?_⟩
  exact (List.dropLast_append_getLast _).symm

/-- Reading field by field misses an empty last field. -/
theorem pieces_of_fields {line last : Str} {front : List Str} (h : fields line=front++[last]) :
    pieces '|' line=front++if last=[] then [] else [last] := by
  change line.splitOn '|'=front++[last] at h
  rw [pieces,h,List.getLast?_concat,List.dropLast_concat,Option.all_some]
  by_cases hempty : last=[]
  · rw [if_pos (List.isEmpty_iff.mpr hempty),if_pos hempty,List.append_nil]
  · rw [if_neg fun hnil => hempty (List.isEmpty_iff.mp hnil),if_neg hempty]

/-- A line with a bar is cut at its last one. -/
theorem exists_last_bar {core : Str} (h : '|' ∈ core) :
    ∃ before after,core=before++ '|'::after ∧ '|' ∉ after := by
  obtain ⟨first,rest,hsplit,hfirst⟩ := List.eq_append_cons_of_mem (List.mem_reverse.mpr h)
  refine ⟨rest.reverse,first.reverse,?_,fun hmem => hfirst (List.mem_reverse.mp hmem)⟩
  rw [←List.reverse_reverse core,hsplit,List.reverse_append,List.reverse_cons,List.append_assoc,
    List.singleton_append]

/-- The fields of a line that is cut at its last bar. -/
theorem fields_last_bar (before : Str) {after : Str} (h : '|' ∉ after) :
    fields (before++ '|'::after)=fields before++[after] := by
  rw [fields,List.splitOn_append_cons_self,List.splitOn_eq_singleton h,fields]

/-- What is appended to a line belongs to its last field. -/
theorem fields_append {core last tail : Str} {front : List Str} (h : fields core=front++[last])
    (htail : '|' ∉ tail) : fields (core++tail)=front++[last++tail] := by
  by_cases hbar : '|' ∈ core
  · obtain ⟨before,after,rfl,hafter⟩ := exists_last_bar hbar
    rw [fields_last_bar before hafter] at h
    obtain ⟨rfl,hlast⟩ := List.append_inj' h rfl
    rw [←List.singleton_inj.mp hlast,List.append_assoc,List.cons_append]
    exact fields_last_bar before fun hmem => (List.mem_append.mp hmem).elim hafter htail
  · rw [fields,List.splitOn_eq_singleton hbar] at h
    obtain ⟨rfl,hlast⟩ := List.append_inj' (show []++[core]=front++[last] from h) rfl
    rw [←List.singleton_inj.mp hlast]
    exact List.splitOn_eq_singleton fun hmem => (List.mem_append.mp hmem).elim hbar htail

/-- A first field of no known type is no indicator. -/
theorem contentOfPieces_none {pieces : List Str} (h : typeOf (pieces.headD [])=none) :
    contentOfPieces pieces=none := by
  match pieces with
  | [] => rfl
  | [_] => rfl
  | typeText::_::_ =>
    rw [List.headD_cons] at h
    rw [contentOfPieces,h,Option.map_none]

/-- The file reader finds nothing in an indented line. -/
theorem readEntry_indented {line : Str} (h : Indented line) :
    (readEntry line).map storedContent=none := by
  match line with
  | [] => exact absurd h Bool.false_ne_true
  | c::rest =>
    rw [Indented,List.head?_cons,Option.any_some] at h
    have hbar : ¬(c== '|')=true := fun heq => by
      rw [beq_iff_eq.mp heq] at h
      exact absurd h (by decide)
    have hfields : fields (c::rest)=(fields rest).modifyHead (List.cons c) := by
      rw [fields,List.splitOn_cons_eq_if_modifyHead,if_neg hbar,fields]
    obtain ⟨front,last,hrest⟩ := exists_last_field rest
    rw [hrest] at hfields
    rw [readEntry_content]
    cases front with
    | nil =>
      rw [pieces_of_fields (show fields (c::rest)=[]++[c::last] from hfields),
        if_neg (List.cons_ne_nil _ _)]
      rfl
    | cons typeText front =>
      rw [pieces_of_fields (show fields (c::rest)=((c::typeText)::front)++[last] from hfields)]
      exact contentOfPieces_none (typeOf_blank h typeText)

/-- What the file reader finds in a line, as long as it is no comment. -/
theorem readFileLine_content (line : Str) : (readFileLine line).map storedContent=
    if line.head?=some '#' then none else contentOfPieces (pieces '|' line) := by
  rw [readFileLine]
  by_cases hcomment : line.head?=some '#'
  · rw [if_pos (.inr hcomment),if_pos hcomment,Option.map_none]
  · rw [if_neg hcomment]
    by_cases hempty : line=[]
    · rw [if_pos (.inl hempty),hempty]
      rfl
    · rw [if_neg fun h => h.elim hempty hcomment,readEntry_content]

/-- A lowered blank is no dot. -/
theorem toLower_blank {c : Char} (h : isBlank c=true) : ¬decide (toLower c= '.')=true := by
  simp only [isBlank,Bool.or_eq_true,decide_eq_true_iff] at h
  rcases h with ((rfl | rfl) | rfl) | rfl <;> decide

/-- A value with a blank at its end is not stored as the value without it. -/
theorem normalizeValue_append_ne (type : IocType) (value : Str) {tail : Str} (hne : tail≠[])
    (hblank : ∀ c ∈ tail,isBlank c=true) :
    normalizeValue type (value++tail)≠normalizeValue type value := by
  have hpos := List.length_pos_iff.mpr hne
  intro heq
  have hlength := congrArg List.length heq
  unfold normalizeValue at hlength
  split_ifs at hlength with hhash hdomain
  · rw [normalizeHash,normalizeHash,List.length_map,List.length_map,List.length_append] at hlength
    omega
  · obtain ⟨front,c,rfl⟩ := (List.eq_nil_or_concat' tail).resolve_left hne
    have hc := hblank c (List.mem_append_right _ List.mem_cons_self)
    have hkeep : normalizeDomain (value++(front++[c]))=(value++(front++[c])).map toLower := by
      rw [normalizeDomain,←List.append_assoc,List.map_append,List.map_singleton,
        List.rdropWhile_concat_neg (fun c => decide (c= '.')) _ _ (toLower_blank hc)]
    have hless : (normalizeDomain value).length ≤ value.length := by
      have hshorter := (List.rdropWhile_prefix (fun c => decide (c= '.'))
        (value.map toLower)).length_le
      rwa [List.length_map] at hshorter
    rw [hkeep,List.length_map,List.length_append] at hlength
    omega
  · rw [List.length_append] at hlength
    omega

/-- A name of a severity with a blank at its end is none. -/
theorem severityOf_append (text : Str) {tail : Str} (hne : tail≠[])
    (hblank : ∀ c ∈ tail,isBlank c=true) : severityOf (text++tail)=.high := by
  obtain ⟨front,c,rfl⟩ := (List.eq_nil_or_concat' tail).resolve_left hne
  have hc := hblank c (List.mem_append_right _ List.mem_cons_self)
  have hother : ∀ name ∈ ["critical".toList,"high".toList,"medium".toList,"low".toList],
      text++(front++[c])≠name := by
    rintro name hmem rfl
    have hlast : ∀ name ∈ ["critical".toList,"high".toList,"medium".toList,"low".toList],
        name.getLast?.any isBlank=false := by decide
    have hnone := hlast _ hmem
    rw [←List.append_assoc,List.getLast?_concat,Option.any_some,hc] at hnone
    exact absurd hnone nofun
  simp only [List.forall_mem_cons] at hother
  obtain ⟨h1,h2,h3,h4,-⟩ := hother
  rw [severityOf,if_neg h1,if_neg h2,if_neg h3,if_neg h4]

/-- The indicator of a line with a type and a value. -/
theorem contentOfPieces_some {typeText : Str} {type : IocType} (h : typeOf typeText=some type)
    (value : Str) (rest : List Str) : contentOfPieces (typeText::value::rest)=
      some ⟨type,normalizeValue type value,severityOf (rest[0]?.getD []),rest[1]?.getD [],
        rest[2]?.getD []⟩ := by
  rw [contentOfPieces,h,Option.map_some]

/-- A line of one field holds no indicator. -/
theorem contentOfPieces_short (last : Str) :
    contentOfPieces (if last=[] then [] else [last])=none := by
  by_cases hempty : last=[]
  · rw [if_pos hempty]
    rfl
  · rw [if_neg hempty]
    rfl

/-- A last field as the reader keeps it: not at all, or alone. -/
theorem exists_kept (last : Str) : ∃ kept : List Str,
    (if last=[] then [] else [last])=kept ∧ kept[0]?.getD []=last ∧
      ∀ i,kept[i+1]?.getD []=[] := by
  by_cases hempty : last=[]
  · exact ⟨[],if_pos hempty,hempty.symm,fun _ => rfl⟩
  · exact ⟨[last],if_neg hempty,rfl,fun _ => rfl⟩

section Blanks

variable {typeText last tail : Str} {type : IocType}

/-- Blanks behind a value change what is stored. -/
theorem contentOfPieces_value_ne (htype : typeOf typeText=some type) (hne : tail≠[])
    (hblank : ∀ c ∈ tail,isBlank c=true) : contentOfPieces [typeText,last++tail]≠
      contentOfPieces (typeText::if last=[] then [] else [last]) := by
  have hsome := contentOfPieces_some htype
  intro heq
  by_cases hempty : last=[]
  · rw [if_pos hempty] at heq
    exact absurd ((hsome (last++tail) []).symm.trans heq) (Option.some_ne_none _)
  · rw [if_neg hempty] at heq
    have hvalue := (hsome (last++tail) []).symm.trans (heq.trans (hsome last []))
    exact normalizeValue_append_ne type last hne hblank
      (congrArg Content.value (Option.some.inj hvalue))

/-- Blanks behind a severity make it the default one. -/
theorem contentOfPieces_severity_iff (htype : typeOf typeText=some type) (hne : tail≠[])
    (hblank : ∀ c ∈ tail,isBlank c=true) (value : Str) :
    contentOfPieces [typeText,value,last++tail]=
      contentOfPieces (typeText::value::if last=[] then [] else [last]) ↔
      severityOf last=.high := by
  have hsome := contentOfPieces_some htype
  obtain ⟨kept,hkept,hfirst,hrest⟩ := exists_kept last
  rw [hkept,hsome,hsome,Option.some_inj,Content.mk.injEq,hfirst,hrest 0,hrest 1]
  change _ ∧ _ ∧ severityOf (last++tail)=severityOf last ∧ _ ∧ _ ↔ _
  rw [severityOf_append last hne hblank]
  exact ⟨fun h => h.2.2.1.symm,fun hhigh => ⟨rfl,rfl,hhigh.symm,rfl,rfl⟩⟩

/-- Blanks behind a source or a description stay in it. -/
theorem contentOfPieces_text_ne (htype : typeOf typeText=some type) (hne : tail≠[])
    (value severity : Str) :
    contentOfPieces [typeText,value,severity,last++tail]≠
        contentOfPieces (typeText::value::severity::if last=[] then [] else [last]) ∧
      ∀ source,contentOfPieces [typeText,value,severity,source,last++tail]≠
        contentOfPieces (typeText::value::severity::source::if last=[] then [] else [last]) := by
  have hlonger : last++tail≠last := fun heq => hne (List.self_eq_append_right.mp heq.symm)
  have hsome := contentOfPieces_some htype
  obtain ⟨kept,hkept,hfirst,-⟩ := exists_kept last
  rw [hkept]
  constructor
  · rw [hsome,hsome,Ne,Option.some_inj,Content.mk.injEq]
    exact fun h => hlonger (h.2.2.2.1.trans hfirst)
  · intro source
    rw [hsome,hsome,Ne,Option.some_inj,Content.mk.injEq]
    exact fun h => hlonger (h.2.2.2.2.trans hfirst)

end Blanks

/-- What blanks at the end of a line change. -/
theorem contentOfPieces_append_iff {front : List Str} {last tail : Str} (hne : tail≠[])
    (hblank : ∀ c ∈ tail,isBlank c=true) :
    contentOfPieces (front++[last++tail])=
        contentOfPieces (front++if last=[] then [] else [last]) ↔
      front=[] ∨ typeOf (front.headD [])=none ∨ front.length=2 ∧ severityOf last=.high ∨
        5 ≤ front.length := by
  match front with
  | [] => exact iff_of_true (contentOfPieces_short last).symm (.inl rfl)
  | typeText::more =>
    rw [List.headD_cons,or_iff_right (List.cons_ne_nil _ _)]
    cases htype : typeOf typeText with
    | none =>
      have hnone : ∀ rest,contentOfPieces (typeText::rest)=none :=
        fun rest => contentOfPieces_none htype
      exact iff_of_true ((hnone _).trans (hnone _).symm) (.inl rfl)
    | some type =>
      rw [or_iff_right (Option.some_ne_none _)]
      match more with
      | [] =>
        refine iff_of_false (contentOfPieces_value_ne htype hne hblank) ?_
        rw [List.length_singleton]
        omega
      | [value] =>
        have hshort : ¬5 ≤ [typeText,value].length := by
          rw [List.length_cons,List.length_singleton]
          omega
        refine (contentOfPieces_severity_iff htype hne hblank value).trans ?_
        exact ⟨fun hhigh => .inl ⟨rfl,hhigh⟩,fun h => (h.resolve_right hshort).2⟩
      | [value,severity] =>
        refine iff_of_false (contentOfPieces_text_ne htype hne value severity).1 ?_
        rw [List.length_cons,List.length_cons,List.length_singleton]
        omega
      | [value,severity,source] =>
        refine iff_of_false ((contentOfPieces_text_ne htype hne value severity).2 source) ?_
        rw [List.length_cons,List.length_cons,List.length_cons,List.length_singleton]
        omega
      | value::severity::source::description::others =>
        have hsome := contentOfPieces_some htype
        simp only [List.cons_append]
        rw [hsome,hsome]
        refine iff_of_true rfl (.inr ?_)
        rw [List.length_cons,List.length_cons,List.length_cons,List.length_cons,List.length_cons]
        omega

/-- The file reader finds nothing in a line exactly when it holds no
indicator or no value. -/
theorem content_none_iff (core : Str) : (readFileLine core).map storedContent=none ↔
    Skipped core ∨ (fields core).length=2 ∧ (fields core).getLast?=some [] := by
  rw [readFileLine_content,Skipped]
  by_cases hcomment : core.head?=some '#'
  · rw [if_pos hcomment]
    exact iff_of_true rfl (.inl (.inl hcomment))
  · obtain ⟨front,last,hfields⟩ := exists_last_field core
    rw [if_neg hcomment,or_iff_right hcomment,pieces_of_fields hfields,hfields,List.getLast?_concat,
      Option.some_inj,List.length_append,List.length_singleton]
    match front with
    | [] =>
      exact iff_of_true (contentOfPieces_short last) (.inl (.inr rfl))
    | [typeText] =>
      cases htype : typeOf typeText with
      | none => exact iff_of_true (contentOfPieces_none htype) (.inl (.inl htype))
      | some type =>
        have hknown : typeOf (([typeText]++[last]).headD [])≠none := by
          rw [List.singleton_append,List.headD_cons,htype]
          exact Option.some_ne_none _
        rw [or_iff_right hknown]
        by_cases hempty : last=[]
        · rw [if_pos hempty]
          exact iff_of_true rfl (.inr ⟨rfl,hempty⟩)
        · rw [if_neg hempty]
          refine iff_of_false ?_ fun h => h.elim (by rw [List.length_singleton]; omega) (hempty ·.2)
          change contentOfPieces [typeText,last]≠none
          rw [contentOfPieces_some htype]
          exact Option.some_ne_none _
    | typeText::value::more =>
      cases htype : typeOf typeText with
      | none => exact iff_of_true (contentOfPieces_none htype) (.inl (.inl htype))
      | some type =>
        refine iff_of_false ?_ ?_
        · change contentOfPieces (typeText::value::(more++_))≠none
          rw [contentOfPieces_some htype]
          exact Option.some_ne_none _
        · rintro ((hnone | hone) | ⟨htwo,-⟩)
          · exact Option.some_ne_none _ (htype.symm.trans hnone)
          · rw [List.length_cons,List.length_cons] at hone
            omega
          · rw [List.length_cons,List.length_cons] at htwo
            omega

/-- Trimming shortens an indented line. -/
theorem trim_ne_of_indented {line : Str} (h : Indented line) : line≠trim isBlank line := by
  match line with
  | [] => exact absurd h Bool.false_ne_true
  | c::rest =>
    rw [Indented,List.head?_cons,Option.any_some] at h
    intro heq
    have hlength := congrArg List.length heq
    rw [trim,List.dropWhile_cons_of_pos h] at hlength
    have hback := (List.rdropWhile_prefix isBlank (rest.dropWhile isBlank)).length_le
    have hfront := (List.dropWhile_suffix isBlank (l := rest)).length_le
    rw [List.length_cons] at hlength
    omega

/-- Trimming cuts blanks off the end of any other line. -/
theorem exists_tail {line : Str} (h : ¬Indented line) :
    ∃ tail,line=trim isBlank line++tail ∧ ∀ c ∈ tail,isBlank c=true := by
  have hkeep : line.dropWhile isBlank=line := by
    match line with
    | [] => rfl
    | c::rest =>
      rw [Indented,List.head?_cons,Option.any_some] at h
      exact List.dropWhile_cons_of_neg h
  refine ⟨line.rtakeWhile isBlank,?_,fun c hc => List.mem_rtakeWhile_imp hc⟩
  rw [trim,hkeep]
  exact List.rdropWhile_append_rtakeWhile.symm

/-- Trimming a line that is not indented leaves its first character. -/
theorem head_trim {line : Str} (h : ¬Indented line) : (trim isBlank line).head?=line.head? := by
  obtain ⟨tail,hline,hblank⟩ := exists_tail h
  cases hcore : trim isBlank line with
  | cons c rest =>
    rw [hcore] at hline
    rw [hline]
    rfl
  | nil =>
    rw [hcore,List.nil_append] at hline
    cases htail : tail with
    | nil => rw [hline,htail]
    | cons c rest =>
      refine absurd ?_ h
      rw [Indented,hline,htail,List.head?_cons,Option.any_some]
      exact hblank c (htail ▸ List.mem_cons_self)

/-- The two importers read a line alike exactly when it is harmless. -/
theorem line_agrees_iff (line : Str) : (readFileLine line).map storedContent=
    (readImportLine [] line).map storedContent ↔ Harmless line := by
  rw [readImportLine_eq,Harmless]
  by_cases hindented : Indented line
  · have hnone : (readFileLine line).map storedContent=none := by
      rw [readFileLine_content]
      split_ifs
      · rfl
      · rw [←readEntry_content]
        exact readEntry_indented hindented
    rw [hnone,eq_comm,content_none_iff,if_pos hindented,
      or_iff_right (trim_ne_of_indented hindented)]
  · obtain ⟨tail,hline,hblank⟩ := exists_tail hindented
    have hhead := head_trim hindented
    rw [if_neg hindented]
    by_cases htail : tail=[]
    · have hsame : line=trim isBlank line := by rw [htail,List.append_nil] at hline; exact hline
      exact iff_of_true (congrArg (fun text => (readFileLine text).map storedContent) hsame)
        (.inl hsame)
    · have hcut : line≠trim isBlank line := fun hsame =>
        htail (List.self_eq_append_right.mp (hsame.symm.trans hline))
      have hbar : '|' ∉ tail := fun hmem => absurd (hblank _ hmem) (by decide)
      obtain ⟨front,last,hfields⟩ := exists_last_field (trim isBlank line)
      have hfields' := fields_append hfields hbar
      rw [←hline] at hfields'
      rw [or_iff_right hcut,readFileLine_content,readFileLine_content,hhead,Skipped,hhead]
      by_cases hcomment : line.head?=some '#'
      · rw [if_pos hcomment,if_pos hcomment]
        exact iff_of_true rfl (.inl (.inl hcomment))
      · rw [if_neg hcomment,if_neg hcomment,or_iff_right hcomment,pieces_of_fields hfields',
          if_neg (List.append_ne_nil_of_right_ne_nil _ htail),pieces_of_fields hfields,
          contentOfPieces_append_iff htail hblank,hfields,List.length_append,
          List.length_singleton,List.getLastD_concat]
        match front with
        | [] => exact iff_of_true (.inl rfl) (.inl (.inr rfl))
        | typeText::more =>
          rw [List.cons_append,List.headD_cons,List.headD_cons,List.length_cons,
            or_iff_right (List.cons_ne_nil _ _),or_iff_left (by omega : ¬more.length+1+1=1)]
          refine or_congr_right (or_congr (and_congr_left fun _ => ?_) ?_)
          · omega
          · omega

end Lines

/-- Both importers add equally many indicators with the same contents, to
whichever engine and at whatever times. -/
def Agree (text : Str) : Prop :=
  ∀ (engine : ThreatIntelEngine) (now : ℕ → TimePoint),
    (loadFromFile engine (some text) now).2=(importIocsFromString engine text [] now).2 ∧
    activeContents (loadFromFile engine (some text) now).1=
      activeContents (importIocsFromString engine text [] now).1

/-- The first lines of a text. -/
def beginning (text : Str) (k : ℕ) : Str := unlines ((pieces '\n' text).take k)

section Texts

/-- Adding lines counts the indicators that are read. -/
theorem addLines_count (read : Str → Option IocEntry) (lines : List Str) (now : ℕ → TimePoint)
    (loaded : ThreatIntelEngine×ℕ) :
    (lines.foldl (addLines read now) loaded).2=loaded.2+(lines.filterMap read).length := by
  induction lines generalizing loaded with
  | nil => rfl
  | cons text rest ih =>
    rw [List.foldl_cons,ih,List.filterMap_cons,addLines]
    cases read text with
    | none => rfl
    | some e =>
      dsimp only
      rw [List.length_cons]
      omega

/-- The importers agree exactly when the contents they read are the same. -/
theorem agree_iff (text : Str) : Agree text ↔
    ((pieces '\n' text).filterMap fun line => (readFileLine line).map storedContent)=
      (pieces '\n' text).filterMap fun line => (readImportLine [] line).map storedContent := by
  have hactive : ∀ text e,readImportLine [] text=some e → e.active=true := fun text e h =>
    readFileLine_active ((readImportLine_eq text).symm.trans h)
  have hcontents : ∀ (engine : ThreatIntelEngine) (now : ℕ → TimePoint),
      activeContents (loadFromFile engine (some text) now).1=
          activeContents (importIocsFromString engine text [] now).1 ↔
        ((pieces '\n' text).filterMap fun line => (readFileLine line).map storedContent)=
          (pieces '\n' text).filterMap fun line => (readImportLine [] line).map storedContent := by
    intro engine now
    rw [loadFromFile,importIocsFromString,activeContents_addLines fun _ _ => readFileLine_active,
      activeContents_addLines hactive,List.append_cancel_left_eq,List.map_filterMap,
      List.map_filterMap]
  constructor
  · exact fun h => (hcontents create fun _ => 0).mp (h create fun _ => 0).2
  · refine fun h engine now => ⟨?_,(hcontents engine now).mpr h⟩
    have hlength := congrArg List.length h
    rw [←List.map_filterMap,←List.map_filterMap,List.length_map,List.length_map] at hlength
    rw [loadFromFile,importIocsFromString,addLines_count,addLines_count,hlength]

/-- Two readers agree on every beginning of a list of lines exactly when they
agree on every line. -/
theorem filterMap_take_iff {α β : Type*} (f g : α → Option β) (lines : List α) :
    (∀ k,(lines.take k).filterMap f=(lines.take k).filterMap g) ↔ ∀ line ∈ lines,f line=g line := by
  constructor
  · intro h
    induction lines with
    | nil => exact fun line hmem => absurd hmem List.not_mem_nil
    | cons first lines ih =>
      have hfirst : f first=g first := by
        have hone := h 1
        rw [List.take_succ_cons,List.take_zero,List.filterMap_eq_flatMap_toList,
          List.filterMap_eq_flatMap_toList,List.flatMap_singleton,List.flatMap_singleton] at hone
        have hhead := congrArg List.head? hone
        rwa [Option.head?_toList,Option.head?_toList] at hhead
      have hrest : ∀ line ∈ lines,f line=g line := by
        refine ih fun k => ?_
        have hnext := h (k+1)
        rw [List.take_succ_cons,List.filterMap_cons,List.filterMap_cons,hfirst] at hnext
        cases hg : g first with
        | none =>
          rw [hg] at hnext
          exact hnext
        | some b =>
          rw [hg] at hnext
          exact (List.cons.inj hnext).2
      rintro line hmem
      rcases List.mem_cons.mp hmem with rfl | hmem
      · exact hfirst
      · exact hrest line hmem
  · exact fun h k => List.filterMap_congr fun line hmem => h line (List.mem_of_mem_take hmem)

/-- The lines of a beginning. -/
theorem pieces_beginning (text : Str) (k : ℕ) :
    pieces '\n' (beginning text k)=(pieces '\n' text).take k :=
  pieces_terminated fun _ hmem => (mem_pieces (List.mem_of_mem_take hmem)).1

/-- The importers agree on a text whose lines are harmless, and they agree on
every beginning of a text exactly when its lines are harmless. -/
theorem importers_agree_iff (text : Str) :
    ((∀ line ∈ pieces '\n' text,Harmless line) → Agree text) ∧
    ((∀ k,Agree (beginning text k)) ↔ ∀ line ∈ pieces '\n' text,Harmless line) := by
  constructor
  · intro h
    rw [agree_iff]
    exact List.filterMap_congr fun line hmem => (line_agrees_iff line).mpr (h line hmem)
  · have hstep : (∀ k,Agree (beginning text k)) ↔ ∀ line ∈ pieces '\n' text,
        (readFileLine line).map storedContent=(readImportLine [] line).map storedContent := by
      rw [←filterMap_take_iff]
      refine forall_congr' fun k => ?_
      rw [agree_iff,pieces_beginning]
    exact hstep.trans (forall₂_congr fun line _ => line_agrees_iff line)

/-- A text without blanks at the ends of its lines. -/
theorem importers_agree_plain :
    Agree "# feed\nip|10.0.0.1|high|feed|scanner\ndomain|evil.example".toList :=
  (importers_agree_iff _).1 (by decide)

/-- A blank in front of a line or a carriage return behind it is enough. -/
theorem importers_disagree :
    ¬Agree " ip|10.0.0.1".toList ∧ ¬Agree "ip|10.0.0.1\r\n".toList := by
  rw [agree_iff,agree_iff]
  decide

end Texts

end Gcad.IocImport
