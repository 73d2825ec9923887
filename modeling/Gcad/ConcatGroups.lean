import Gcad.FilelessAst

/-!
# Sums of literals under the deobfuscator

A sum of literals in single quotes is merged in groups of four, the plus
signs between the groups stay with their white space, and known reversals are
undone inside each literal. What the whole sum says is in the result exactly
where one group says all of it and no reversal is in it, or where it is so
blank that it stands between two groups.
-/

namespace Gcad.ConcatGroups

open ByteView CommandLine EncodedCommand TextSearch Replacement FilelessAst

/-- A literal in single quotes. -/
def literal (p : Bytes) : Bytes := apostrophe::(p++[apostrophe])

/-- The operands of a sum behind the first one, each with the text in front
of it. -/
def operands (rest : List (Bytes×Bytes)) : Bytes := rest.flatMap fun x => x.1++literal x.2

/-- A sum of literals: the first piece, and the further ones with the text
that separates each from the piece before it. -/
def expression (p : Bytes) (rest : List (Bytes×Bytes)) : Bytes := literal p++operands rest

/-- A plus sign with white space around it. -/
def IsSeparator (s : Bytes) : Prop :=
  ∃ before behind,(∀ c ∈ before,isspace c=true) ∧ (∀ c ∈ behind,isspace c=true) ∧
    s=before++plus::behind

/-- A piece without quotes, backticks and opening brackets. -/
structure Plain (p : Bytes) : Prop where
  /-- No single quote. -/
  noApostrophe : apostrophe ∉ p
  /-- No double quote. -/
  noQuote : quote ∉ p
  /-- No backtick. -/
  noBacktick : backtick ∉ p
  /-- No opening bracket. -/
  noBracket : bracket ∉ p

/-- The operands of a sum of plain pieces. -/
def PlainOperands (rest : List (Bytes×Bytes)) : Prop :=
  ∀ x ∈ rest,IsSeparator x.1 ∧ Plain x.2

/-- What the whole sum says. -/
def joined (p : Bytes) (rest : List (Bytes×Bytes)) : Bytes := p++rest.flatMap Prod.snd

/-- One pass: the pieces are joined in pairs. -/
def mergePairs (p : Bytes) : List (Bytes×Bytes) → Bytes×List (Bytes×Bytes)
  | [] => (p,[])
  | [x] => (p++x.2,[])
  | x::y::rest => (p++x.2,(y.1,(mergePairs y.2 rest).1)::(mergePairs y.2 rest).2)

/-- The pieces joined in groups of four. -/
def fours (p : Bytes) : List (Bytes×Bytes) → Bytes×List (Bytes×Bytes)
  | a::b::c::d::rest =>
    (p++a.2++b.2++c.2,(d.1,(fours d.2 rest).1)::(fours d.2 rest).2)
  | rest => (joined p rest,[])

/-- No known reversal is in a text, in any letter case. -/
def ReversalFree (s : Bytes) : Prop := ∀ pair ∈ knownReversals,¬pair.1 <:+: toLowerAscii s

section Grouping

variable {p : Bytes} {rest : List (Bytes×Bytes)}

/-- Two passes join groups of four. -/
theorem mergePairs_twice (p : Bytes) (rest : List (Bytes×Bytes)) :
    mergePairs (mergePairs p rest).1 (mergePairs p rest).2=fours p rest := by
  induction p,rest using fours.induct with
  | case1 p a b c d rest ih =>
    simp only [mergePairs,fours,←ih,List.append_assoc]
  | case2 p rest hrest =>
    match rest,hrest with
    | [],_ => simp [mergePairs,fours,joined]
    | [a],_ => simp [mergePairs,fours,joined]
    | [a,b],_ => simp [mergePairs,fours,joined]
    | [a,b,c],_ => simp [mergePairs,fours,joined]
    | a::b::c::d::rest,hrest => exact (hrest a b c d rest rfl).elim

/-- A pass does not change what the sum says. -/
theorem joined_mergePairs (p : Bytes) (rest : List (Bytes×Bytes)) :
    joined (mergePairs p rest).1 (mergePairs p rest).2=joined p rest := by
  induction p,rest using mergePairs.induct with
  | case1 p => rfl
  | case2 p x => simp [mergePairs,joined]
  | case3 p x y rest ih =>
    rw [joined] at ih
    simp only [mergePairs,joined,List.flatMap_cons] at ih ⊢
    rw [ih]
    simp

/-- Grouping does not change what the sum says. -/
theorem joined_fours (p : Bytes) (rest : List (Bytes×Bytes)) :
    joined (fours p rest).1 (fours p rest).2=joined p rest := by
  rw [←mergePairs_twice,joined_mergePairs,joined_mergePairs]

/-- Two pieces joined. -/
theorem Plain.append {q : Bytes} (hp : Plain p) (hq : Plain q) : Plain (p++q) := by
  have hboth : ∀ {c : UInt8},c ∉ p → c ∉ q → c ∉ p++q := fun h1 h2 member =>
    (List.mem_append.mp member).elim h1 h2
  exact ⟨hboth hp.noApostrophe hq.noApostrophe,hboth hp.noQuote hq.noQuote,
    hboth hp.noBacktick hq.noBacktick,hboth hp.noBracket hq.noBracket⟩

/-- The pieces after a pass are plain. -/
theorem plain_mergePairs (hp : Plain p) (hrest : PlainOperands rest) :
    Plain (mergePairs p rest).1 ∧ PlainOperands (mergePairs p rest).2 := by
  induction p,rest using mergePairs.induct with
  | case1 p => exact ⟨hp,hrest⟩
  | case2 p x =>
    exact ⟨hp.append (hrest x List.mem_cons_self).2,fun y hy => absurd hy List.not_mem_nil⟩
  | case3 p x y rest ih =>
    obtain ⟨hsep,hy⟩ := hrest y (List.mem_cons_of_mem _ List.mem_cons_self)
    obtain ⟨hfirst,hothers⟩ := ih hy fun z hz =>
      hrest z (List.mem_cons_of_mem _ (List.mem_cons_of_mem _ hz))
    refine ⟨hp.append (hrest x List.mem_cons_self).2,fun z hz => ?_⟩
    rcases List.mem_cons.mp hz with rfl|hz
    · exact ⟨hsep,hfirst⟩
    · exact hothers z hz

/-- The groups are plain. -/
theorem plain_fours (hp : Plain p) (hrest : PlainOperands rest) :
    Plain (fours p rest).1 ∧ PlainOperands (fours p rest).2 := by
  obtain ⟨hfirst,hothers⟩ := plain_mergePairs hp hrest
  rw [←mergePairs_twice]
  exact plain_mergePairs hfirst hothers

end Grouping

section Separators

/-- White space and plus signs are no quotes, backticks or brackets, and they
are not alphanumerical. -/
theorem separator_char {c : UInt8} (h : isspace c=true ∨ c=plus) :
    c≠apostrophe ∧ c≠quote ∧ c≠backtick ∧ c≠bracket ∧ isalnum (tolower c)=false := by
  have hall : ∀ c : UInt8,isspace c=true ∨ c=plus →
      c≠apostrophe ∧ c≠quote ∧ c≠backtick ∧ c≠bracket ∧ isalnum (tolower c)=false :=
    forall_byte (by decide +kernel)
  exact hall c h

/-- The characters of a separator. -/
theorem IsSeparator.char {s : Bytes} (h : IsSeparator s) {c : UInt8} (member : c ∈ s) :
    isspace c=true ∨ c=plus := by
  obtain ⟨before,behind,hbefore,hbehind,rfl⟩ := h
  rcases List.mem_append.mp member with hin|hin
  · exact .inl (hbefore c hin)
  · rcases List.mem_cons.mp hin with rfl|hin
    · exact .inr rfl
    · exact .inl (hbehind c hin)

/-- The plus sign is found behind the white space. -/
theorem IsSeparator.plusAt {s : Bytes} (h : IsSeparator s) {u : Bytes}
    (hu : u.dropWhile isspace=u) :
    ∃ operand,FilelessAst.plusAt ((s++u).dropWhile isspace)=some operand ∧
      operand.dropWhile isspace=u := by
  obtain ⟨before,behind,hbefore,hbehind,rfl⟩ := h
  have hplus : ¬isspace plus=true := by decide
  refine ⟨behind++u,?_,?_⟩
  · rw [List.append_assoc,List.dropWhile_append_of_pos hbefore,List.cons_append,
      List.dropWhile_cons_of_neg hplus,FilelessAst.plusAt,if_pos rfl]
  · rw [List.dropWhile_append_of_pos hbehind,hu]

end Separators

section Merging

variable {p : Bytes} {rest : List (Bytes×Bytes)}

/-- A text without the closing quote in front of it. -/
theorem findQuote_append {q : UInt8} (h : q ∉ p) (u : Bytes) :
    findQuote q (p++q::u)=some (p,u) := by
  induction p with
  | nil => exact if_pos rfl
  | cons c p ih =>
    rw [List.mem_cons,not_or] at h
    rw [List.cons_append,findQuote,if_neg fun heq => h.1 heq.symm,ih h.2]
    rfl

/-- A literal is read. -/
theorem literalAt_literal (h : apostrophe ∉ p) (u : Bytes) :
    literalAt (literal p++u)=some (p,u) := by
  have hsplit : literal p++u=apostrophe::(p++apostrophe::u) := by simp [literal]
  rw [hsplit,literalAt,if_pos (.inl rfl),findQuote_append h]

/-- A literal does not start with white space. -/
theorem dropWhile_literal (p u : Bytes) : (literal p++u).dropWhile isspace=literal p++u :=
  List.dropWhile_cons_of_neg (by decide)

/-- Where nothing is merged, a character is copied. -/
theorem concat_cons {c : UInt8} {u : Bytes} (h : mergeAt (c::u)=none) :
    deobfuscateStringConcat (c::u)=c::deobfuscateStringConcat u := by
  rw [deobfuscateStringConcat]
  split
  · next heq =>
    rw [h] at heq
    cases heq
  · rfl

/-- Where two literals are merged, they are copied together. -/
theorem concat_merged {text content u : Bytes} (h : mergeAt text=some (content,u)) :
    deobfuscateStringConcat text=literal content++deobfuscateStringConcat u := by
  rw [deobfuscateStringConcat]
  split
  · next heq =>
    rw [h] at heq
    cases heq
    simp [literal]
  · next heq =>
    rw [h] at heq
    cases heq

/-- Text without quotes is copied. -/
theorem concat_plain {s : Bytes} (h : ∀ c ∈ s,c≠apostrophe ∧ c≠quote) (u : Bytes) :
    deobfuscateStringConcat (s++u)=s++deobfuscateStringConcat u := by
  induction s with
  | nil => rfl
  | cons c s ih =>
    have hc := h c List.mem_cons_self
    have hnone : mergeAt (c::(s++u))=none := by
      rw [mergeAt,literalAt,if_neg fun hq => hq.elim hc.1 hc.2]
      rfl
    rw [List.cons_append,concat_cons hnone,ih fun d hd => h d (List.mem_cons_of_mem _ hd)]
    rfl

/-- The characters of a plain piece are no quotes. -/
theorem Plain.char (h : Plain p) : ∀ c ∈ p,c≠apostrophe ∧ c≠quote :=
  fun _ hc => ⟨fun heq => h.noApostrophe (heq ▸ hc),fun heq => h.noQuote (heq ▸ hc)⟩

/-- A literal alone is copied. -/
theorem concat_literal (h : Plain p) : deobfuscateStringConcat (literal p)=literal p := by
  have hnil : deobfuscateStringConcat []=[] := by rw [deobfuscateStringConcat]; rfl
  have hlast : deobfuscateStringConcat [apostrophe]=[apostrophe] := by
    rw [concat_cons rfl,hnil]
  have hread := literalAt_literal h.noApostrophe []
  rw [List.append_nil] at hread
  have hnone : mergeAt (literal p)=none := by
    rw [mergeAt,hread]
    rfl
  rw [literal] at hnone ⊢
  rw [concat_cons hnone,concat_plain h.char,hlast]

/-- One pass joins the pieces of a sum in pairs. -/
theorem concat_expression (hp : Plain p) (hrest : PlainOperands rest) :
    deobfuscateStringConcat (expression p rest)=
      expression (mergePairs p rest).1 (mergePairs p rest).2 := by
  have hpair : ∀ {p : Bytes} {x : Bytes×Bytes},Plain p → IsSeparator x.1 → Plain x.2 →
      ∀ u,mergeAt (literal p++(x.1++(literal x.2++u)))=some (p++x.2,u) := by
    intro p x hp hsep hx u
    obtain ⟨operand,hplus,hoperand⟩ := hsep.plusAt (dropWhile_literal x.2 u)
    have hfirst := literalAt_literal hp.noApostrophe (x.1++(literal x.2++u))
    have hsecond := literalAt_literal hx.noApostrophe u
    rw [←hoperand] at hsecond
    simp only [mergeAt,hfirst,hplus,hsecond,Option.bind_eq_bind,Option.bind_some,Option.pure_def]
  induction p,rest using mergePairs.induct with
  | case1 p =>
    have hsame : expression p []=literal p := List.append_nil _
    rw [mergePairs,hsame]
    exact concat_literal hp
  | case2 p x =>
    obtain ⟨hsep,hx⟩ := hrest x List.mem_cons_self
    have hmerged := concat_merged (hpair hp hsep hx [])
    have htext : expression p [x]=literal p++(x.1++(literal x.2++[])) := by
      simp [expression,operands]
    rw [htext,hmerged,deobfuscateStringConcat]
    rfl
  | case3 p x y rest ih =>
    obtain ⟨hsep,hx⟩ := hrest x List.mem_cons_self
    obtain ⟨hsep',hy⟩ := hrest y (List.mem_cons_of_mem _ List.mem_cons_self)
    have hnext := ih hy fun z hz =>
      hrest z (List.mem_cons_of_mem _ (List.mem_cons_of_mem _ hz))
    have hmerged := concat_merged (hpair hp hsep hx (y.1++expression y.2 rest))
    have htext : expression p (x::y::rest)=
        literal p++(x.1++(literal x.2++(y.1++expression y.2 rest))) := by
      simp [expression,operands]
    have hspace : ∀ c ∈ y.1,c≠apostrophe ∧ c≠quote := fun c hc =>
      ⟨(separator_char (hsep'.char hc)).1,(separator_char (hsep'.char hc)).2.1⟩
    rw [htext,hmerged,concat_plain hspace,hnext]
    simp [mergePairs,expression,operands]

end Merging

section Identity

/-- A text without backticks is not changed by stripping them. -/
theorem stripBackticks_eq {s : Bytes} (h : backtick ∉ s) : stripBackticks s=s := by
  induction s with
  | nil => rfl
  | cons c rest ih =>
    rw [List.mem_cons,not_or] at h
    cases rest with
    | nil => rfl
    | cons n rest =>
      have hc : ¬(c=backtick ∧ isalnum n=true) := fun hc => h.1 hc.1.symm
      have hstep : stripBackticks (c::n::rest)=c::stripBackticks (n::rest) := if_neg hc
      rw [hstep,ih h.2]

/-- A text without opening brackets has no casts. -/
theorem deobfuscateCharCasts_eq {s : Bytes} (h : bracket ∉ s) : deobfuscateCharCasts s=s := by
  have hlower : ∀ c : UInt8,tolower c=bracket → c=bracket := forall_byte (by decide +kernel)
  have hascii : ascii "[char]"=bracket::ascii "char]" := by decide +kernel
  induction s with
  | nil =>
    rw [deobfuscateCharCasts]
    rfl
  | cons c rest ih =>
    rw [List.mem_cons,not_or] at h
    have hnone : castAt (c::rest)=none := by
      unfold castAt
      rw [if_neg]
      rintro ⟨-,heq⟩
      rw [List.take_succ_cons,toLowerAscii,List.map_cons,hascii] at heq
      exact h.1 (hlower c (List.cons.inj heq).1).symm
    rw [deobfuscateCharCasts]
    split
    · next heq =>
      rw [hnone] at heq
      cases heq
    · exact congrArg (List.cons c) (ih h.2)

/-- The characters of a sum. -/
theorem mem_expression {p : Bytes} {rest : List (Bytes×Bytes)} {c : UInt8}
    (h : c ∈ expression p rest) :
    c=apostrophe ∨ c ∈ p ∨ ∃ x ∈ rest,c ∈ x.1 ∨ c ∈ x.2 := by
  simp only [expression,operands,literal,List.mem_append,List.mem_cons,List.mem_flatMap,
    List.not_mem_nil,or_false] at h
  rcases h with (h|h|h)|⟨x,hx,h|h|h|h⟩
  · exact .inl h
  · exact .inr (.inl h)
  · exact .inl h
  · exact .inr (.inr ⟨x,hx,.inl h⟩)
  · exact .inl h
  · exact .inr (.inr ⟨x,hx,.inr h⟩)
  · exact .inl h

/-- A sum of plain pieces has no backticks and no opening brackets. -/
theorem expression_plain {p : Bytes} {rest : List (Bytes×Bytes)} (hp : Plain p)
    (hrest : PlainOperands rest) :
    backtick ∉ expression p rest ∧ bracket ∉ expression p rest := by
  constructor
  · intro hmem
    rcases mem_expression hmem with heq|hin|⟨x,hx,hin|hin⟩
    · exact absurd heq (by decide)
    · exact hp.noBacktick hin
    · exact (separator_char ((hrest x hx).1.char hin)).2.2.1 rfl
    · exact (hrest x hx).2.noBacktick hin
  · intro hmem
    rcases mem_expression hmem with heq|hin|⟨x,hx,hin|hin⟩
    · exact absurd heq (by decide)
    · exact hp.noBracket hin
    · exact (separator_char ((hrest x hx).1.char hin)).2.2.2.1 rfl
    · exact (hrest x hx).2.noBracket hin

end Identity

section Reversals

/-- The six replacements on one text. -/
def reversals (pairs : List (Bytes×Bytes)) (s : Bytes) : Bytes :=
  pairs.foldl (fun text pair => replaceFrom tolower pair.1 pair.2 0 text) s

/-- The weight of a character: the first letters of the words are light. -/
def weight (c : UInt8) : ℕ := if tolower c=0x64 ∨ tolower c=0x69 ∨ tolower c=0x70 then 0 else 1

/-- What the replacements need of a reversal: the reversed word has a
character, none of its characters is a single quote, the two words have one
length, the word is in lower case, and its first letter is lighter than that
of its reversal. -/
structure Reversal (pair : Bytes×Bytes) : Prop where
  /-- There is a word. -/
  nonempty : pair.1≠[]
  /-- Quotes stay where they are. -/
  unquoted : tolower apostrophe ∉ pair.1
  /-- The lengths agree. -/
  length : pair.2.length=pair.1.length
  /-- The word is in lower case. -/
  lower : toLowerAscii pair.2=pair.2
  /-- The word is lighter. -/
  lighter : ∃ first others head,pair.2=first::others ∧ pair.1.head?=some head ∧
    weight first=0 ∧ weight head=1 ∧ tolower head=head
  /-- There is an alphanumerical character. -/
  letter : ∃ c ∈ pair.1,isalnum c=true

/-- The known reversals are such. -/
theorem knownReversals_reversal {pair : Bytes×Bytes} (h : pair ∈ knownReversals) :
    Reversal pair := by
  have hall : ∀ pair ∈ knownReversals,pair.1≠[] ∧ tolower apostrophe ∉ pair.1 ∧
      pair.2.length=pair.1.length ∧ toLowerAscii pair.2=pair.2 ∧
      (pair.2.head?.map weight=some 0 ∧ pair.1.head?.map weight=some 1 ∧
        pair.1.head?.map tolower=pair.1.head? ∧ pair.1.any isalnum=true) := by decide +kernel
  obtain ⟨hne,hquote,hlength,hlower,hfirst,hhead,hkey,hletter⟩ := hall pair h
  obtain ⟨first,hfirst,hlight⟩ := Option.map_eq_some_iff.mp hfirst
  obtain ⟨head,hhead,hheavy⟩ := Option.map_eq_some_iff.mp hhead
  obtain ⟨others,hothers⟩ : ∃ others,pair.2=first::others := by
    cases hword : pair.2 with
    | nil =>
      rw [hword] at hfirst
      cases hfirst
    | cons c others =>
      rw [hword] at hfirst
      cases hfirst
      exact ⟨others,rfl⟩
  rw [hhead] at hkey
  exact ⟨hne,hquote,hlength,hlower,⟨first,others,head,hothers,hhead,hlight,hheavy,
    Option.some.inj hkey⟩,List.any_eq_true.mp hletter⟩

/-- The loop keeps the two texts together. -/
theorem replaceLoop_eq {rev orig : Bytes} (h : toLowerAscii orig=orig) (skip : ℕ) (s : Bytes) :
    replaceLoop rev orig skip s (toLowerAscii s)=
      (replaceFrom tolower rev orig skip s,toLowerAscii (replaceFrom tolower rev orig skip s)) := by
  induction s generalizing skip with
  | nil => cases skip <;> rfl
  | cons c rest ih =>
    have hcons : toLowerAscii (c::rest)=tolower c::toLowerAscii rest := rfl
    rw [hcons]
    cases skip with
    | succ skip => exact ih skip
    | zero =>
      rw [replaceLoop,replaceFrom]
      have hmap : (c::rest).map tolower=tolower c::toLowerAscii rest := rfl
      rw [hmap,ih,ih]
      by_cases hfound : rev <+: tolower c::toLowerAscii rest
      · rw [if_pos hfound,if_pos hfound,toLowerAscii_append,h]
      · rw [if_neg hfound,if_neg hfound]
        rfl

/-- The step that undoes reversals. -/
theorem deobfuscateReversePatterns_eq (s : Bytes) :
    deobfuscateReversePatterns s=reversals knownReversals s := by
  have hfold : ∀ (pairs : List (Bytes×Bytes)) (s : Bytes),(∀ pair ∈ pairs,Reversal pair) →
      pairs.foldl (fun text pair => replaceLoop pair.1 pair.2 0 text.1 text.2) (s,toLowerAscii s)=
        (reversals pairs s,toLowerAscii (reversals pairs s)) := by
    intro pairs s h
    induction pairs generalizing s with
    | nil => rfl
    | cons pair pairs ih =>
      rw [List.foldl_cons,replaceLoop_eq (h pair List.mem_cons_self).lower]
      exact ih _ fun other member => h other (List.mem_cons_of_mem _ member)
  rw [deobfuscateReversePatterns,hfold _ _ fun _ => knownReversals_reversal]

variable {pairs : List (Bytes×Bytes)}

/-- The replacements keep the length. -/
theorem reversals_length (h : ∀ pair ∈ pairs,Reversal pair) (s : Bytes) :
    (reversals pairs s).length=s.length := by
  induction pairs generalizing s with
  | nil => rfl
  | cons pair pairs ih =>
    have hpair := h pair List.mem_cons_self
    have hnext := ih (fun other member => h other (List.mem_cons_of_mem _ member))
      (replaceFrom tolower pair.1 pair.2 0 s)
    rw [reversals] at hnext ⊢
    rw [List.foldl_cons,hnext,replaceFrom_length hpair.nonempty hpair.length,Nat.sub_zero]

/-- A single quote cuts the work in two. -/
theorem reversals_append (h : ∀ pair ∈ pairs,Reversal pair) (front back : Bytes) :
    reversals pairs (front++apostrophe::back)=
      reversals pairs front++apostrophe::reversals pairs back := by
  induction pairs generalizing front back with
  | nil => rfl
  | cons pair pairs ih =>
    have hpair := h pair List.mem_cons_self
    have hnext := ih (fun other member => h other (List.mem_cons_of_mem _ member))
    simp only [reversals,List.foldl_cons] at hnext ⊢
    rw [replaceFrom_append hpair.nonempty hpair.unquoted 0 (Nat.zero_le _),hnext]

/-- The replacements leave a text alone, or make it lighter. -/
theorem reversals_cases (h : ∀ pair ∈ pairs,Reversal pair) (s : Bytes) :
    ((∀ pair ∈ pairs,¬pair.1 <:+: toLowerAscii s) ∧ reversals pairs s=s) ∨
      (reversals pairs s).map weight < s.map weight := by
  induction pairs generalizing s with
  | nil => exact .inl ⟨fun _ member => absurd member List.not_mem_nil,rfl⟩
  | cons pair pairs ih =>
    have hpair := h pair List.mem_cons_self
    have hnext := ih fun other member => h other (List.mem_cons_of_mem _ member)
    have hstep : reversals (pair::pairs) s=
        reversals pairs (replaceFrom tolower pair.1 pair.2 0 s) := rfl
    rw [hstep]
    by_cases hfound : pair.1 <:+: toLowerAscii s
    · obtain ⟨first,others,head,himage,hhead,hlight,hheavy,hkey⟩ := hpair.lighter
      have hlt := @replaceFrom_lt _ _ tolower pair.1 pair.2 weight first others himage (by
        intro c hc
        rw [hhead,Option.some.injEq] at hc
        have hweight : weight c=weight head := by
          unfold weight
          rw [hkey,hc]
        rw [hlight,hweight,hheavy]
        exact Nat.zero_lt_one) s hfound hpair.nonempty
      rcases hnext (replaceFrom tolower pair.1 pair.2 0 s) with ⟨-,hsame⟩|hlighter
      · rw [hsame]
        exact .inr hlt
      · exact .inr (lt_trans hlighter hlt)
    · rw [replaceFrom_eq_self hfound]
      rcases hnext s with ⟨hfree,hsame⟩|hlighter
      · refine .inl ⟨fun other member => ?_,hsame⟩
        rcases List.mem_cons.mp member with rfl|member
        · exact hfound
        · exact hfree other member
      · exact .inr hlighter

/-- A text without reversals is left alone. -/
theorem reversals_eq_self {s : Bytes} (h : ∀ pair ∈ pairs,¬pair.1 <:+: toLowerAscii s) :
    reversals pairs s=s := by
  induction pairs with
  | nil => rfl
  | cons pair pairs ih =>
    have hnot : ¬pair.1 <:+: s.map tolower := h pair List.mem_cons_self
    have hnext := ih fun other member => h other (List.mem_cons_of_mem _ member)
    rw [reversals] at hnext ⊢
    rw [List.foldl_cons,replaceFrom_eq_self hnot,hnext]

/-- A text comes back unchanged exactly if no reversal is in it. -/
theorem reversals_eq_iff (s : Bytes) : reversals knownReversals s=s ↔ ReversalFree s := by
  refine ⟨fun hsame => ?_,fun hfree => reversals_eq_self hfree⟩
  rcases reversals_cases (fun _ => knownReversals_reversal) s with ⟨hfree,-⟩|hlighter
  · exact hfree
  · rw [hsame] at hlighter
    exact (lt_irrefl _ hlighter).elim

/-- No reversal is in a separator. -/
theorem reversals_separator {s : Bytes} (h : IsSeparator s) :
    reversals knownReversals s=s := by
  rw [reversals_eq_iff]
  intro pair member hwithin
  obtain ⟨c,hc,hletter⟩ := (knownReversals_reversal member).letter
  obtain ⟨d,hd,rfl⟩ := List.mem_map.mp (hwithin.subset hc)
  rw [(separator_char (h.char hd)).2.2.2.2] at hletter
  exact Bool.false_ne_true hletter

end Reversals

section Result

variable {p : Bytes} {rest : List (Bytes×Bytes)}

/-- The groups with their reversals undone. -/
def undone (rest : List (Bytes×Bytes)) : List (Bytes×Bytes) :=
  rest.map fun x => (x.1,reversals knownReversals x.2)

/-- A literal cuts the work in three. -/
theorem reversals_literal (s q u : Bytes) :
    reversals knownReversals (s++(literal q++u))=
      reversals knownReversals s++(literal (reversals knownReversals q)++
        reversals knownReversals u) := by
  have hcut := @reversals_append knownReversals fun _ => knownReversals_reversal
  have hsplit : s++(literal q++u)=s++apostrophe::(q++apostrophe::u) := by simp [literal]
  rw [hsplit,hcut,hcut]
  simp [literal]

/-- Nothing is undone in an empty text. -/
theorem reversals_nil : reversals knownReversals []=[] :=
  reversals_eq_self fun _ member hwithin =>
    (knownReversals_reversal member).nonempty (List.infix_nil.mp hwithin)

/-- The operands of a sum in steps. -/
theorem operands_cons (x : Bytes×Bytes) (rest : List (Bytes×Bytes)) :
    operands (x::rest)=x.1++(literal x.2++operands rest) := by
  rw [operands,List.flatMap_cons,List.append_assoc]
  rfl

/-- Reversals are undone inside each literal. -/
theorem reversals_expression (p : Bytes) {rest : List (Bytes×Bytes)}
    (hrest : ∀ x ∈ rest,IsSeparator x.1) :
    reversals knownReversals (expression p rest)=
      expression (reversals knownReversals p) (undone rest) := by
  have hoperands : reversals knownReversals (operands rest)=operands (undone rest) := by
    induction rest with
    | nil => exact reversals_nil
    | cons x rest ih =>
      have hx := hrest x List.mem_cons_self
      have hnext := ih fun y hy => hrest y (List.mem_cons_of_mem _ hy)
      have hundone : undone (x::rest)=(x.1,reversals knownReversals x.2)::undone rest := rfl
      rw [operands_cons,reversals_literal,reversals_separator hx,hnext,hundone,operands_cons]
  have hliteral := reversals_literal [] p (operands rest)
  rw [reversals_nil,List.nil_append,List.nil_append,hoperands] at hliteral
  exact hliteral

/-- The result for a sum of plain pieces: the groups of four with their
reversals undone. -/
theorem deobfuscatePowershell_eq (hp : Plain p) (hrest : PlainOperands rest) :
    deobfuscatePowershell (expression p rest)=
      expression (reversals knownReversals (fours p rest).1) (undone (fours p rest).2) := by
  obtain ⟨hbacktick,hbracket⟩ := expression_plain hp hrest
  obtain ⟨hfirst,hothers⟩ := plain_mergePairs hp hrest
  have hgroups := (plain_fours hp hrest).2
  unfold deobfuscatePowershell
  dsimp only
  rw [stripBackticks_eq hbacktick,deobfuscateCharCasts_eq hbracket,concat_expression hp hrest,
    concat_expression hfirst hothers,mergePairs_twice,deobfuscateReversePatterns_eq,
    reversals_expression _ fun x hx => (hgroups x hx).1]

/-- A text without single quotes in a sum is in a literal or between two. -/
theorem infix_expression_iff {text : Bytes} (h : apostrophe ∉ text) (p : Bytes)
    (rest : List (Bytes×Bytes)) :
    text <:+: expression p rest ↔
      text <:+: p ∨ ∃ x ∈ rest,text <:+: x.1 ∨ text <:+: x.2 := by
  have hliteral : ∀ s q u : Bytes,text <:+: s++(literal q++u) ↔
      text <:+: s ∨ text <:+: q ∨ text <:+: u := by
    intro s q u
    have hsplit : s++(literal q++u)=s++apostrophe::(q++apostrophe::u) := by simp [literal]
    rw [hsplit]
    constructor
    · intro hwithin
      rcases infix_separated h hwithin with hs|hwithin
      · exact .inl hs
      · exact .inr (infix_separated h hwithin)
    · have hinside : q++apostrophe::u <:+: s++apostrophe::(q++apostrophe::u) :=
        ⟨s++[apostrophe],[],by simp⟩
      rintro (hs|hq|hu)
      · exact hs.trans (List.prefix_append s _).isInfix
      · exact (hq.trans (List.prefix_append q _).isInfix).trans hinside
      · exact (hu.trans ⟨q++[apostrophe],[],by simp⟩).trans hinside
  have hoperands : text <:+: operands rest ↔
      text=[] ∨ ∃ x ∈ rest,text <:+: x.1 ∨ text <:+: x.2 := by
    induction rest with
    | nil =>
      have hnone : operands []=[] := rfl
      rw [hnone,List.infix_nil]
      exact ⟨.inl,fun hnil => hnil.elim id fun ⟨x,hx,_⟩ => absurd hx List.not_mem_nil⟩
    | cons x rest ih =>
      rw [operands_cons,hliteral,ih]
      simp only [List.mem_cons,exists_eq_or_imp,or_assoc,or_left_comm]
  have hfirst := hliteral [] p (operands rest)
  have hempty : text=[] → text <:+: p := fun htext => htext ▸ List.nil_infix
  rw [List.nil_append,List.infix_nil,hoperands] at hfirst
  refine hfirst.trans ⟨?_,fun hin => .inr (hin.imp_right .inr)⟩
  rintro (hnil|hp|hnil|hrest)
  · exact .inl (hempty hnil)
  · exact .inl hp
  · exact .inl (hempty hnil)
  · exact .inr hrest

/-- Every group is part of what the sum says. -/
theorem group_infix {group : Bytes} (h : group ∈ p::rest.map Prod.snd) :
    group <:+: joined p rest := by
  have hflat : joined p rest=(p::rest.map Prod.snd).flatten := by
    rw [joined,List.flatten_cons,List.flatMap_def]
  obtain ⟨before,behind,heq⟩ := List.append_of_mem h
  rw [hflat,heq]
  exact ⟨before.flatten,behind.flatten,by simp⟩

/-- What the sum says has no single quote. -/
theorem joined_plain (hp : Plain p) (hrest : PlainOperands rest) :
    apostrophe ∉ joined p rest := by
  intro hmem
  rcases List.mem_append.mp hmem with hin|hin
  · exact hp.noApostrophe hin
  · obtain ⟨x,hx,hin⟩ := List.mem_flatMap.mp hin
    exact (hrest x hx).2.noApostrophe hin

/-- A whole sum is read off a group with its reversals undone exactly if the
group says all of it and has no reversal in it. -/
theorem infix_reversals_iff {text group : Bytes} (h : group <:+: text) :
    text <:+: reversals knownReversals group ↔ text=group ∧ ReversalFree text := by
  have hlength := reversals_length (fun _ => knownReversals_reversal) group
  constructor
  · intro hwithin
    have hle := hwithin.length_le
    have hge := h.length_le
    have hgroup : group=text := h.eq_of_length (by omega)
    have hsame : text=reversals knownReversals group := hwithin.eq_of_length (by omega)
    rw [hgroup] at hsame
    exact ⟨hgroup.symm,(reversals_eq_iff text).mp hsame.symm⟩
  · rintro ⟨rfl,hfree⟩
    rw [(reversals_eq_iff text).mpr hfree]

/-- The result contains what the sum says exactly where one group of four
says all of it and no reversal is in it, or where it is part of the white
space and plus sign between two groups. -/
theorem concat_contains_iff (hp : Plain p) (hrest : PlainOperands rest) :
    joined p rest <:+: deobfuscatePowershell (expression p rest) ↔
      (joined p rest ∈ (fours p rest).1::(fours p rest).2.map Prod.snd ∧
          ReversalFree (joined p rest)) ∨
        ∃ x ∈ (fours p rest).2,joined p rest <:+: x.1 := by
  have hgroup : ∀ group ∈ (fours p rest).1::(fours p rest).2.map Prod.snd,
      group <:+: joined p rest := by
    intro group member
    rw [←joined_fours p rest]
    exact group_infix member
  rw [deobfuscatePowershell_eq hp hrest,infix_expression_iff (joined_plain hp hrest),
    infix_reversals_iff (hgroup _ List.mem_cons_self)]
  constructor
  · rintro (⟨hsame,hfree⟩|⟨y,hy,hin⟩)
    · exact .inl ⟨hsame ▸ List.mem_cons_self,hfree⟩
    · obtain ⟨x,hx,rfl⟩ := List.mem_map.mp hy
      have member : x.2 ∈ (fours p rest).1::(fours p rest).2.map Prod.snd :=
        List.mem_cons_of_mem _ (List.mem_map_of_mem hx)
      rcases hin with hsep|hin
      · exact .inr ⟨x,hx,hsep⟩
      · obtain ⟨hsame,hfree⟩ := (infix_reversals_iff (hgroup _ member)).mp hin
        exact .inl ⟨hsame ▸ member,hfree⟩
  · rintro (⟨member,hfree⟩|⟨x,hx,hsep⟩)
    · rcases List.mem_cons.mp member with hsame|member
      · exact .inl ⟨hsame,hfree⟩
      · obtain ⟨x,hx,hsame⟩ := List.mem_map.mp member
        have hwithin := (infix_reversals_iff (hgroup x.2 (List.mem_cons_of_mem _
          (List.mem_map_of_mem hx)))).mpr ⟨hsame.symm,hfree⟩
        exact .inr ⟨_,List.mem_map_of_mem hx,.inr hwithin⟩
    · exact .inr ⟨_,List.mem_map_of_mem hx,.inl hsep⟩

/-- Up to four pieces are joined, unless that spells a reversal. -/
theorem concat_contains_four (hp : Plain p) (hrest : PlainOperands rest)
    (hfew : rest.length ≤ 3) :
    joined p rest <:+: deobfuscatePowershell (expression p rest) ↔
      ReversalFree (joined p rest) := by
  have hfours : fours p rest=(joined p rest,[]) := by
    match rest,hfew with
    | [],_ => rfl
    | [a],_ => rfl
    | [a,b],_ => rfl
    | [a,b,c],_ => rfl
  rw [concat_contains_iff hp hrest,hfours]
  constructor
  · rintro (⟨-,hfree⟩|⟨x,hx,-⟩)
    · exact hfree
    · exact absurd hx List.not_mem_nil
  · exact fun hfree => .inl ⟨List.mem_cons_self,hfree⟩

/-- A sum of single characters: the operands behind the first one. -/
def spelled (letters : Bytes) : List (Bytes×Bytes) := letters.map fun c => ([plus],[c])

/-- Letters and digits are plain pieces, with a bare plus sign between them. -/
theorem plain_spelled {letters : Bytes} (h : letters.all isalnum=true) :
    PlainOperands (spelled letters) ∧ ∀ c ∈ letters,Plain [c] := by
  have hall : ∀ c : UInt8,isalnum c=true → c≠apostrophe ∧ c≠quote ∧ c≠backtick ∧ c≠bracket :=
    forall_byte (by decide +kernel)
  have hplain : ∀ c ∈ letters,Plain [c] := by
    intro c hc
    obtain ⟨h1,h2,h3,h4⟩ := hall c (List.all_eq_true.mp h c hc)
    have hnot : ∀ {d : UInt8},c≠d → d ∉ [c] := fun hne hd => hne (List.mem_singleton.mp hd).symm
    exact ⟨hnot h1,hnot h2,hnot h3,hnot h4⟩
  refine ⟨fun x hx => ?_,hplain⟩
  obtain ⟨c,hc,rfl⟩ := List.mem_map.mp hx
  have hnone : ∀ d ∈ ([] : Bytes),isspace d=true := fun d hd => absurd hd List.not_mem_nil
  exact ⟨⟨[],[],hnone,hnone,rfl⟩,hplain c hc⟩

/-- The condition for the sum of five letters. -/
theorem concat_contains_letters :
    joined (ascii "a") (spelled (ascii "bcde")) <:+:
        deobfuscatePowershell (expression (ascii "a") (spelled (ascii "bcde"))) ↔
      (joined (ascii "a") (spelled (ascii "bcde")) ∈
            (fours (ascii "a") (spelled (ascii "bcde"))).1::
              (fours (ascii "a") (spelled (ascii "bcde"))).2.map Prod.snd ∧
          ReversalFree (joined (ascii "a") (spelled (ascii "bcde")))) ∨
        ∃ x ∈ (fours (ascii "a") (spelled (ascii "bcde"))).2,
          joined (ascii "a") (spelled (ascii "bcde")) <:+: x.1 :=
  concat_contains_iff (@plain_spelled (ascii "a") (by decide +kernel) |>.2 0x61 (by decide +kernel))
    (plain_spelled (by decide +kernel)).1

/-- The sum of the letters from `a` to `e` is left in two parts. -/
theorem concat_contains_five :
    (∀ piece ∈ [ascii "a",ascii "b",ascii "c",ascii "d",ascii "e"],ReversalFree piece) ∧
      deobfuscatePowershell (ascii "'a'+'b'+'c'+'d'+'e'")=ascii "'abcd'+'e'" ∧
      ¬ascii "abcde" <:+: ascii "'abcd'+'e'" := by
  have hsum : ascii "'a'+'b'+'c'+'d'+'e'"=expression (ascii "a") (spelled (ascii "bcde")) := by
    decide +kernel
  have hfirst : Plain (ascii "a") :=
    (@plain_spelled (ascii "a") (by decide +kernel)).2 0x61 (by decide +kernel)
  have hfree : ∀ piece ∈ [ascii "a",ascii "b",ascii "c",ascii "d",ascii "e"],
      ∀ pair ∈ knownReversals,¬pair.1 <:+: toLowerAscii piece := by decide +kernel
  refine ⟨hfree,?_,by decide +kernel⟩
  rw [hsum,deobfuscatePowershell_eq hfirst (plain_spelled (by decide +kernel)).1]
  decide +kernel

end Result

end Gcad.ConcatGroups
