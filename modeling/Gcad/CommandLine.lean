import Gcad.ByteView
import Gcad.Insertions

/-!
# Normalising a command line

`LolbinsEngine::normalize_command_line`: carets are dropped, a double quote
between two alphanumerical characters is dropped, and runs of white space
become one blank. The quote rule looks at the raw neighbours, so a caret next
to a quote keeps it. A quote is seen alike with and without carets exactly
where the line has no quote inside a word once its carets are gone.
-/

namespace Gcad.CommandLine

open ByteView Insertions

/-- The character `'^'`. -/
def caret : UInt8 := 0x5E

/-- The character `'"'`. -/
def quote : UInt8 := 0x22

/-- The character `' '`. -/
def blank : UInt8 := 0x20

/-- `std::isalnum` in the C locale. -/
def isalnum (c : UInt8) : Bool :=
  (0x30 ≤ c && c ≤ 0x39) || (0x41 ≤ c && c ≤ 0x5A) || (0x61 ≤ c && c ≤ 0x7A)

/-- `std::isspace` in the C locale. -/
def isspace (c : UInt8) : Bool := c=0x20 || (0x09 ≤ c && c ≤ 0x0D)

/-- The quote rule: both neighbours exist and are alphanumerical. -/
def insideWord (previous : Option UInt8) (rest : Bytes) : Bool :=
  match previous,rest with
  | some p,n::_ => isalnum p && isalnum n
  | _,_ => false

/-- The first loop, with the raw character in front of the rest. -/
def stripLoop : Option UInt8 → Bytes → Bytes
  | _,[] => []
  | previous,c::rest =>
    if c=caret then stripLoop (some c) rest
    else if c=quote ∧ insideWord previous rest=true then stripLoop (some c) rest
    else c::stripLoop (some c) rest

/-- The loop that collapses white space; the flag is `last_space`. -/
def collapse : Bool → Bytes → Bytes
  | _,[] => []
  | lastSpace,c::rest =>
    if isspace c then
      if lastSpace then collapse true rest else blank::collapse true rest
    else c::collapse false rest

/-- `normalize_command_line`. -/
def normalizeCommandLine (raw : Bytes) : Bytes := collapse false (stripLoop none raw)

/-- The line without its carets. -/
def withoutCarets (s : Bytes) : Bytes := s.filter fun c => decide (c≠caret)

/-- A double quote stands directly between two alphanumerical characters. -/
def WordQuote (s : Bytes) : Prop :=
  ∃ a b,isalnum a=true ∧ isalnum b=true ∧ [a,quote,b] <:+: s

section Characters

variable {c : UInt8}

/-- An alphanumerical character is no caret, no quote and no space. -/
theorem isalnum_plain (h : isalnum c=true) : c≠caret ∧ c≠quote ∧ isspace c=false := by
  have hall : ∀ c : UInt8,isalnum c=true → c≠caret ∧ c≠quote ∧ isspace c=false :=
    forall_byte (by decide +kernel)
  exact hall c h

/-- A blank is a space. -/
theorem isspace_blank : isspace blank=true := by decide

/-- A quote is no space. -/
theorem isspace_quote : isspace quote=false := by decide

end Characters

section Strip

/-- A caret is dropped. -/
theorem withoutCarets_caret (s : Bytes) : withoutCarets (caret::s)=withoutCarets s :=
  List.filter_cons_of_neg (by decide)

/-- Every other character stays. -/
theorem withoutCarets_cons {c : UInt8} (h : ¬c=caret) (s : Bytes) :
    withoutCarets (c::s)=c::withoutCarets s :=
  List.filter_cons_of_pos (decide_eq_true h)

variable {previous : Option UInt8} {s : Bytes}

/-- Without a quote inside a word the first loop drops the carets only. -/
theorem stripLoop_eq (h : ¬WordQuote (withoutCarets (previous.toList++s))) :
    stripLoop previous s=withoutCarets s := by
  induction s generalizing previous with
  | nil => rfl
  | cons c rest ih =>
    have hrest : ¬WordQuote (withoutCarets ((some c).toList++rest)) := by
      rintro ⟨a,b,ha,hb,hin⟩
      refine h ⟨a,b,ha,hb,hin.trans ?_⟩
      rw [Option.toList_some,List.singleton_append,withoutCarets,withoutCarets,List.filter_append]
      exact (List.suffix_append _ _).isInfix
    unfold stripLoop
    by_cases hcaret : c=caret
    · rw [if_pos hcaret,ih hrest,hcaret,withoutCarets_caret]
    · rw [if_neg hcaret,withoutCarets_cons hcaret]
      by_cases hquote : c=quote ∧ insideWord previous rest=true
      · refine (h ?_).elim
        obtain ⟨rfl,hword⟩ := hquote
        match previous,rest with
        | some p,n::tail =>
          obtain ⟨hp,hn⟩ := Bool.and_eq_true_iff.mp hword
          refine ⟨p,n,hp,hn,[],withoutCarets tail,?_⟩
          have hpne := (isalnum_plain hp).1
          have hnne := (isalnum_plain hn).1
          rw [Option.toList_some,List.singleton_append,withoutCarets_cons hpne,
            withoutCarets_cons hcaret,withoutCarets_cons hnne]
          rfl
      · rw [if_neg hquote,ih hrest]

/-- With a caret in front of every character the first loop keeps all
quotes. -/
theorem stripLoop_before (s : Bytes) (previous : Option UInt8) :
    stripLoop previous (before caret s)=withoutCarets s := by
  induction s generalizing previous with
  | nil => rfl
  | cons c rest ih =>
    have hstep : before caret (c::rest)=caret::c::before caret rest := rfl
    have hword : insideWord (some caret) (before caret rest)=false := by
      cases rest with
      | nil => rfl
      | cons n tail => rfl
    rw [hstep,stripLoop,if_pos rfl,stripLoop,ih,hword]
    by_cases hcaret : c=caret
    · rw [if_pos hcaret,hcaret,withoutCarets_caret]
    · rw [if_neg hcaret,if_neg fun hquote => Bool.false_ne_true hquote.2,
        withoutCarets_cons hcaret]

/-- The first loop adds no quotes. -/
theorem stripLoop_count_le (previous : Option UInt8) (s : Bytes) :
    (stripLoop previous s).count quote ≤ s.count quote := by
  induction s generalizing previous with
  | nil => exact le_rfl
  | cons c rest ih =>
    have hrest := ih (some c)
    have hmore : rest.count quote ≤ (c::rest).count quote := List.count_le_count_cons
    unfold stripLoop
    split
    · exact hrest.trans hmore
    · split
      · exact hrest.trans hmore
      · rw [List.count_cons,List.count_cons]
        exact Nat.add_le_add_right hrest _

/-- The first loop drops a quote inside a word. -/
theorem stripLoop_count_lt (previous : Option UInt8) (h : WordQuote s) :
    (stripLoop previous s).count quote < s.count quote := by
  obtain ⟨a,b,ha,hb,front,back,rfl⟩ := h
  induction front generalizing previous with
  | nil =>
    have haplain := isalnum_plain ha
    have hword : insideWord (some a) (b::back)=true := Bool.and_eq_true_iff.mpr ⟨ha,hb⟩
    have hquote : ¬quote=caret := by decide
    have hrest := stripLoop_count_le (some quote) (b::back)
    simp only [List.nil_append,List.cons_append]
    rw [stripLoop,if_neg haplain.1,if_neg fun hq => haplain.2.1 hq.1,stripLoop,if_neg hquote,
      if_pos ⟨rfl,hword⟩,List.count_cons_of_ne haplain.2.1,List.count_cons_of_ne haplain.2.1,
      List.count_cons_self]
    exact Nat.lt_succ_of_le hrest
  | cons c front ih =>
    have hrest := ih (some c)
    simp only [List.cons_append] at hrest ⊢
    unfold stripLoop
    split
    · exact hrest.trans_le List.count_le_count_cons
    · split
      · exact hrest.trans_le List.count_le_count_cons
      · rw [List.count_cons,List.count_cons]
        exact Nat.add_lt_add_right hrest _

end Strip

section Collapse

variable {lastSpace : Bool} {s : Bytes}

/-- Collapsing twice is collapsing once. -/
theorem collapse_collapse (lastSpace : Bool) (s : Bytes) :
    collapse lastSpace (collapse lastSpace s)=collapse lastSpace s := by
  induction s generalizing lastSpace with
  | nil => rfl
  | cons c rest ih =>
    by_cases hspace : isspace c=true
    · cases lastSpace with
      | true =>
        rw [collapse,if_pos hspace,if_pos rfl]
        exact ih true
      | false =>
        rw [collapse,if_pos hspace,if_neg Bool.false_ne_true,collapse,if_pos isspace_blank,
          if_neg Bool.false_ne_true,ih true]
    · rw [collapse,if_neg hspace,collapse,if_neg hspace,ih false]

/-- Collapsing leaves the quotes. -/
theorem collapse_count (lastSpace : Bool) (s : Bytes) :
    (collapse lastSpace s).count quote=s.count quote := by
  have hblank : blank≠quote := by decide
  induction s generalizing lastSpace with
  | nil => rfl
  | cons c rest ih =>
    by_cases hspace : isspace c=true
    · have hc : c≠quote := by
        rintro rfl
        exact Bool.false_ne_true (isspace_quote.symm.trans hspace)
      rw [collapse,if_pos hspace,List.count_cons_of_ne hc]
      cases lastSpace with
      | true => exact ih true
      | false =>
        rw [if_neg Bool.false_ne_true,List.count_cons_of_ne hblank]
        exact ih true
    · rw [collapse,if_neg hspace,List.count_cons,List.count_cons,ih false]

/-- A text without carets has none after collapsing. -/
theorem collapse_caret (h : caret ∉ s) : caret ∉ collapse lastSpace s := by
  have hblank : caret≠blank := by decide
  induction s generalizing lastSpace with
  | nil => exact List.not_mem_nil
  | cons c rest ih =>
    rw [List.mem_cons,not_or] at h
    have hrest : ∀ flag,caret ∉ collapse flag rest := fun flag => ih h.2
    by_cases hspace : isspace c=true
    · rw [collapse,if_pos hspace]
      cases lastSpace with
      | true => exact hrest true
      | false => exact List.not_mem_cons_of_ne_of_not_mem hblank (hrest true)
    · rw [collapse,if_neg hspace]
      exact List.not_mem_cons_of_ne_of_not_mem h.1 (hrest false)

/-- Collapsing a text in two parts: the second starts with some flag. -/
theorem collapse_append (lastSpace : Bool) (front back : Bytes) :
    ∃ flag,collapse lastSpace (front++back)=collapse lastSpace front++collapse flag back := by
  induction front generalizing lastSpace with
  | nil => exact ⟨lastSpace,rfl⟩
  | cons c front ih =>
    by_cases hspace : isspace c=true
    · obtain ⟨flag,hflag⟩ := ih true
      refine ⟨flag,?_⟩
      rw [List.cons_append,collapse,if_pos hspace,collapse,if_pos hspace,hflag]
      split
      · rfl
      · rfl
    · obtain ⟨flag,hflag⟩ := ih false
      exact ⟨flag,by rw [List.cons_append,collapse,if_neg hspace,collapse,if_neg hspace,hflag]; rfl⟩

/-- A quote inside a word is still there after collapsing. -/
theorem WordQuote.collapse (h : WordQuote s) : WordQuote (CommandLine.collapse lastSpace s) := by
  obtain ⟨a,b,ha,hb,front,back,rfl⟩ := h
  have hspace : ∀ {c : UInt8},isalnum c=true → ¬isspace c=true := fun hc =>
    Bool.eq_false_iff.mp (isalnum_plain hc).2.2
  have hquote : ¬isspace quote=true := by decide
  obtain ⟨flag,hflag⟩ := collapse_append lastSpace front ([a,quote,b]++back)
  refine ⟨a,b,ha,hb,CommandLine.collapse lastSpace front,CommandLine.collapse false back,?_⟩
  rw [List.append_assoc front,hflag,List.append_assoc]
  congr 1
  simp only [List.cons_append,List.nil_append]
  rw [CommandLine.collapse,if_neg (hspace ha),CommandLine.collapse,if_neg hquote,
    CommandLine.collapse,if_neg (hspace hb)]

/-- The first character of a collapsed text, if it is no blank. -/
theorem collapse_eq_cons {c : UInt8} {t : Bytes} (hc : c≠blank)
    (h : CommandLine.collapse false s=c::t) :
    ∃ rest,s=c::rest ∧ (isspace c=false → t=CommandLine.collapse false rest) := by
  cases s with
  | nil => exact (List.cons_ne_nil _ _ h.symm).elim
  | cons d rest =>
    rw [CommandLine.collapse] at h
    by_cases hspace : isspace d=true
    · rw [if_pos hspace,if_neg Bool.false_ne_true] at h
      exact (hc (List.cons.inj h).1.symm).elim
    · rw [if_neg hspace] at h
      obtain ⟨rfl,htail⟩ := List.cons.inj h
      exact ⟨rest,rfl,fun _ => htail.symm⟩

/-- A quote inside a word of the collapsed text was there before. -/
theorem WordQuote.of_collapse (h : WordQuote (CommandLine.collapse lastSpace s)) :
    WordQuote s := by
  have hblank : quote≠blank := by decide
  have hne : ∀ {c : UInt8},isalnum c=true → c≠blank := by
    rintro c hc rfl
    exact Bool.false_ne_true ((isalnum_plain hc).2.2.symm.trans isspace_blank)
  obtain ⟨a,b,ha,hb,hin⟩ := h
  refine ⟨a,b,ha,hb,?_⟩
  induction s generalizing lastSpace with
  | nil => exact hin
  | cons c rest ih =>
    have hrest : ∀ flag,[a,quote,b] <:+: CommandLine.collapse flag rest →
        [a,quote,b] <:+: c::rest :=
      fun flag hflag => (ih hflag).trans (List.suffix_cons c rest).isInfix
    rw [CommandLine.collapse] at hin
    by_cases hspace : isspace c=true
    · rw [if_pos hspace] at hin
      cases lastSpace with
      | true => exact hrest true hin
      | false =>
        rw [if_neg Bool.false_ne_true,List.infix_cons_iff] at hin
        rcases hin with hhead|htail
        · exact (hne ha (List.cons_prefix_cons.mp hhead).1).elim
        · exact hrest true htail
    · rw [if_neg hspace,List.infix_cons_iff] at hin
      rcases hin with hhead|htail
      · obtain ⟨rfl,t,ht⟩ := List.cons_prefix_cons.mp hhead
        obtain ⟨tail,rfl,htail⟩ := collapse_eq_cons hblank ht.symm
        obtain ⟨last,rfl,-⟩ := collapse_eq_cons (hne hb) (htail isspace_quote).symm
        exact ⟨[],last,rfl⟩
      · exact hrest false htail

end Collapse

/-- Without carets and without a quote inside a word, only white space
changes. -/
theorem normalizeCommandLine_eq {s : Bytes} (h : ¬WordQuote (withoutCarets s)) :
    normalizeCommandLine s=collapse false (withoutCarets s) := by
  have hstrip : stripLoop none s=withoutCarets s := @stripLoop_eq none s h
  unfold normalizeCommandLine
  rw [hstrip]

/-- Inserted carets do not change the line without carets. -/
theorem withoutCarets_inserted {s t : Bytes} (h : Inserted (fun c => c=caret) s t) :
    withoutCarets t=withoutCarets s :=
  h.filter_eq fun _ hc => decide_eq_false (not_not.mpr hc)

/-- Nothing is left to drop in a line without carets. -/
theorem withoutCarets_eq {s : Bytes} (h : caret ∉ s) : withoutCarets s=s :=
  List.filter_eq_self.mpr fun _ member => decide_eq_true fun heq => h (heq ▸ member)

/-- The line without carets, collapsed, has none. -/
theorem withoutCarets_collapse (s : Bytes) :
    withoutCarets (collapse false (withoutCarets s))=collapse false (withoutCarets s) := by
  refine withoutCarets_eq (collapse_caret fun member => ?_)
  exact of_decide_eq_true (List.mem_filter.mp member).2 rfl

/-- Normalising is blind to inserted carets and idempotent on a line exactly
when no quote stands between two alphanumerical characters once the carets
are gone. -/
theorem normalize_carets_iff (s : Bytes) :
    ((∀ t,Inserted (fun c => c=caret) s t → normalizeCommandLine t=normalizeCommandLine s) ∧
        normalizeCommandLine (normalizeCommandLine s)=normalizeCommandLine s) ↔
      ¬WordQuote (withoutCarets s) := by
  constructor
  · rintro ⟨hinserted,hidem⟩ hword
    have hcarets := @before_inserted _ (fun c => c=caret) caret rfl s
    have hbefore := hinserted _ hcarets
    have hkept : normalizeCommandLine (before caret s)=collapse false (withoutCarets s) := by
      unfold normalizeCommandLine
      rw [stripLoop_before]
    have hsame : normalizeCommandLine s=collapse false (withoutCarets s) :=
      hbefore.symm.trans hkept
    rw [hsame] at hidem
    have hcount := congrArg (List.count quote) hidem
    have hlt := stripLoop_count_lt none (hword.collapse : WordQuote (collapse false _))
    rw [normalizeCommandLine,collapse_count] at hcount
    exact hlt.ne hcount
  · intro hfree
    have hsame := normalizeCommandLine_eq hfree
    refine ⟨fun t ht => ?_,?_⟩
    · have hcarets := withoutCarets_inserted ht
      have hfree' : ¬WordQuote (withoutCarets t) := hcarets ▸ hfree
      rw [normalizeCommandLine_eq hfree',hsame,hcarets]
    · have hfree' : ¬WordQuote (withoutCarets (collapse false (withoutCarets s))) := by
        rw [withoutCarets_collapse]
        exact fun hword => hfree hword.of_collapse
      rw [hsame,normalizeCommandLine_eq hfree',withoutCarets_collapse,collapse_collapse]

/-- A caret in front of the quote of `c"e` keeps the quote. -/
theorem normalize_carets_word :
    Inserted (fun c => c=caret) [0x63,quote,0x65] [0x63,caret,quote,0x65] ∧
      normalizeCommandLine [0x63,caret,quote,0x65]=[0x63,quote,0x65] ∧
      normalizeCommandLine [0x63,quote,0x65]=[0x63,0x65] :=
  ⟨.keep _ (.insert rfl (.keep _ (.keep _ .nil))),by decide,by decide⟩

end Gcad.CommandLine
