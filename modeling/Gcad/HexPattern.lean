import Gcad.YaraRules

/-!
# Hexadecimal patterns

What `YaraEngine::parse_hex_pattern` accepts, as a relation between tokens and
texts that does not mention the parser. A byte is two digits, a wildcard is
two question marks, or one that no other follows; blanks and braces may stand
around a token, but not within it.
-/

namespace Gcad.HexPattern

open Common ByteView YaraRules

/-- What one position of a pattern asks for. -/
inductive Token where
  /-- Exactly this byte. -/
  | byte (value : UInt8)
  /-- Any byte. -/
  | wildcard
  deriving DecidableEq

/-- The pattern byte and the mask byte of a token. -/
def Token.pair : Token → UInt8×UInt8
  | .byte value => (value,0xFF)
  | .wildcard => (0x00,0x00)

/-- Lower-case digits. -/
def lowerDigits : Str :=
  ['0','1','2','3','4','5','6','7','8','9','a','b','c','d','e','f']

/-- Upper-case digits. -/
def upperDigits : Str :=
  ['0','1','2','3','4','5','6','7','8','9','A','B','C','D','E','F']

/-- The character is the digit of a value, in either case. -/
def IsDigit (c : Char) (n : ℕ) : Prop := lowerDigits[n]?=some c ∨ upperDigits[n]?=some c

/-- The characters that separate tokens. -/
abbrev IsSeparator (c : Char) : Prop := c = ' ' ∨ c = '{' ∨ c = '}'

/-- Any number of separators. -/
def Gap (text : Str) : Prop := ∀ c ∈ text,IsSeparator c

/-- The text of one token. -/
inductive Spells : Token → Str → Prop
  /-- Two digits. -/
  | byte {value : UInt8} {high low : Char} {h l : ℕ} : IsDigit high h → IsDigit low l →
      value.toNat=16*h+l → Spells (.byte value) [high,low]
  /-- Two question marks. -/
  | wildcard : Spells .wildcard ['?','?']

/-- A text that spells every token in full, with gaps around the tokens. -/
inductive Rendered : List Token → Str → Prop
  /-- No token is left. -/
  | done {gap : Str} : Gap gap → Rendered [] gap
  /-- A gap, a token and what follows it. -/
  | token {gap text rest : Str} {token : Token} {tokens : List Token} : Gap gap →
      Spells token text → Rendered tokens rest → Rendered (token::tokens) (gap++(text++rest))

/-- Texts with gaps around the tokens, where one question mark is a wildcard
too if no other follows it. -/
inductive Reads : List Token → Str → Prop
  /-- No token is left. -/
  | done {gap : Str} : Gap gap → Reads [] gap
  /-- A gap, a token in full and what follows it. -/
  | token {gap text rest : Str} {token : Token} {tokens : List Token} : Gap gap →
      Spells token text → Reads tokens rest → Reads (token::tokens) (gap++(text++rest))
  /-- A gap, one question mark and what follows it. -/
  | single {gap rest : Str} {tokens : List Token} : Gap gap → rest.head?≠some '?' →
      Reads tokens rest → Reads (.wildcard::tokens) (gap++('?'::rest))

/-- Tokens spelled in full are read. -/
theorem Rendered.reads {tokens : List Token} {text : Str} (h : Rendered tokens text) :
    Reads tokens text := by
  induction h with
  | done hgap => exact .done hgap
  | token hgap hspells _ ih => exact .token hgap hspells ih

section Characters

/-- The parser's reading of the lower-case digits. -/
theorem hexVal_lowerDigits : ∀ n,∀ h : n < lowerDigits.length,
    hexVal lowerDigits[n]=some n ∧ ¬IsSeparator lowerDigits[n] ∧ lowerDigits[n]≠ '?' := by
  decide

/-- The parser's reading of the upper-case digits. -/
theorem hexVal_upperDigits : ∀ n,∀ h : n < upperDigits.length,
    hexVal upperDigits[n]=some n ∧ ¬IsSeparator upperDigits[n] ∧ upperDigits[n]≠ '?' := by
  decide

/-- A digit has its value and is neither a separator nor a question mark. -/
theorem IsDigit.spec {c : Char} {n : ℕ} (h : IsDigit c n) :
    hexVal c=some n ∧ ¬IsSeparator c ∧ c≠ '?' := by
  rcases h with hlower | hupper
  · obtain ⟨hlt,rfl⟩ := List.getElem?_eq_some_iff.mp hlower
    exact hexVal_lowerDigits n hlt
  · obtain ⟨hlt,rfl⟩ := List.getElem?_eq_some_iff.mp hupper
    exact hexVal_upperDigits n hlt

/-- Digits are below 16. -/
theorem IsDigit.lt {c : Char} {n : ℕ} (h : IsDigit c n) : n < 16 := by
  rcases h with hlower | hupper
  · exact (List.getElem?_eq_some_iff.mp hlower).1
  · exact (List.getElem?_eq_some_iff.mp hupper).1

/-- Codes up to that of the last digit: a character with a value is in one of
the tables. -/
theorem mem_digits_of_code : ∀ code,code < 103 → hexVal (Char.ofNat code)≠none →
    Char.ofNat code ∈ lowerDigits ∨ Char.ofNat code ∈ upperDigits := by
  decide

/-- A character with a value is not behind the last digit. -/
theorem toNat_lt_of_hexVal {c : Char} (h : hexVal c≠none) : c.toNat < 103 := by
  by_contra hbehind
  have hnine : ¬(c ≤ '9') := fun hle => hbehind (Nat.lt_of_le_of_lt hle (by decide))
  have hlower : ¬(c ≤ 'f') := fun hle => hbehind (Nat.lt_of_le_of_lt hle (by decide))
  have hupper : ¬(c ≤ 'F') := fun hle => hbehind (Nat.lt_of_le_of_lt hle (by decide))
  apply h
  rw [hexVal,if_neg fun hc => hnine hc.2,if_neg fun hc => hlower hc.2,if_neg fun hc => hupper hc.2]

/-- Every character that the parser reads as a digit is one. -/
theorem isDigit_of_hexVal {c : Char} {n : ℕ} (h : hexVal c=some n) : IsDigit c n := by
  have hsome : hexVal c≠none := h ▸ Option.some_ne_none n
  have hmem := mem_digits_of_code c.toNat (toNat_lt_of_hexVal hsome)
    (by rw [Char.ofNat_toNat]; exact hsome)
  rw [Char.ofNat_toNat] at hmem
  have hsame : ∀ k,IsDigit c k → IsDigit c n := by
    intro k hk
    have hvalue := hk.spec.1.symm.trans h
    exact Option.some.inj hvalue ▸ hk
  rcases hmem with hlower | hupper
  · obtain ⟨k,hk⟩ := List.getElem?_of_mem hlower
    exact hsame k (.inl hk)
  · obtain ⟨k,hk⟩ := List.getElem?_of_mem hupper
    exact hsame k (.inr hk)

end Characters

section Parser

/-- The loop passes over a separator. -/
theorem hexPairs_separator {c : Char} (h : IsSeparator c) (text : Str) :
    hexPairs (c::text)=hexPairs text := by
  cases text with
  | nil => simp only [hexPairs,if_pos h]
  | cons d rest => rw [hexPairs,if_pos h]

/-- The loop passes over a gap. -/
theorem hexPairs_gap {gap : Str} (h : Gap gap) (text : Str) :
    hexPairs (gap++text)=hexPairs text := by
  induction gap with
  | nil => rfl
  | cons c gap ih =>
    rw [List.cons_append,hexPairs_separator (h c List.mem_cons_self)]
    exact ih fun d hd => h d (List.mem_cons_of_mem c hd)

/-- The question mark is no separator. -/
theorem not_isSeparator_question : ¬IsSeparator '?' := by decide

/-- The loop takes one token at a time. -/
theorem hexPairs_token {token : Token} {text : Str} (h : Spells token text) (rest : Str) :
    hexPairs (text++rest)=(hexPairs rest).map fun pairs => token.pair::pairs := by
  cases h with
  | @byte value high low h l hhigh hlow hvalue =>
    obtain ⟨hh,hseparator,hquestion⟩ := hhigh.spec
    obtain ⟨hl,_,_⟩ := hlow.spec
    have hbyte : UInt8.ofNat (16*h+l)=value := by rw [← hvalue,UInt8.ofNat_toNat]
    rw [List.cons_append,List.cons_append,List.nil_append,hexPairs,if_neg hseparator,
      if_neg hquestion,hh,hl]
    dsimp only
    rw [hbyte]
    rfl
  | wildcard =>
    rw [List.cons_append,List.cons_append,List.nil_append,hexPairs,
      if_neg not_isSeparator_question,if_pos rfl,if_pos rfl]
    rfl

/-- The loop takes one question mark that no other follows. -/
theorem hexPairs_single {rest : Str} (h : rest.head?≠some '?') :
    hexPairs ('?'::rest)=(hexPairs rest).map fun pairs => Token.wildcard.pair::pairs := by
  cases rest with
  | nil => rfl
  | cons d rest =>
    have hd : d≠ '?' := fun heq => h (congrArg some heq)
    rw [hexPairs,if_neg not_isSeparator_question,if_pos rfl,if_neg hd]
    rfl

/-- A text that reads as tokens gives their bytes and masks. -/
theorem Reads.hexPairs_eq {tokens : List Token} {text : Str} (h : Reads tokens text) :
    hexPairs text=some (tokens.map Token.pair) := by
  induction h with
  | done hgap =>
    have hrest := hexPairs_gap hgap []
    rw [List.append_nil] at hrest
    exact hrest
  | token hgap hspells _ ih =>
    rw [hexPairs_gap hgap,hexPairs_token hspells,ih]
    rfl
  | single hgap hhead _ ih =>
    rw [hexPairs_gap hgap,hexPairs_single hhead,ih]
    rfl

/-- A separator in front belongs to the first gap. -/
theorem Reads.separator {tokens : List Token} {text : Str} {c : Char} (h : Reads tokens text)
    (hc : IsSeparator c) : Reads tokens (c::text) := by
  cases h with
  | done hgap => exact .done (List.forall_mem_cons.mpr ⟨hc,hgap⟩)
  | token hgap hspells hrest => exact .token (List.forall_mem_cons.mpr ⟨hc,hgap⟩) hspells hrest
  | single hgap hhead hrest => exact .single (List.forall_mem_cons.mpr ⟨hc,hgap⟩) hhead hrest

/-- The gap without a character. -/
theorem gap_nil : Gap [] := fun _ hc => absurd hc List.not_mem_nil

/-- Two digits spell the byte that the parser makes of them. -/
theorem spells_byte {high low : Char} {h l : ℕ} (hh : hexVal high=some h)
    (hl : hexVal low=some l) : Spells (.byte (UInt8.ofNat (16*h+l))) [high,low] := by
  have hhigh := isDigit_of_hexVal hh
  have hlow := isDigit_of_hexVal hl
  have hsmall : 16*h+l < 2^8 := by
    have hlt := hhigh.lt
    have hlt' := hlow.lt
    omega
  exact .byte hhigh hlow (UInt8.toNat_ofNat_of_lt' hsmall)

/-- Whatever the loop accepts reads as tokens with these bytes and masks. -/
theorem reads_of_hexPairs {text : Str} {pairs : List (UInt8×UInt8)}
    (h : hexPairs text=some pairs) : ∃ tokens,tokens.map Token.pair=pairs ∧ Reads tokens text := by
  induction text using hexPairs.induct generalizing pairs with
  | case1 => exact ⟨[],Option.some.inj h,.done gap_nil⟩
  | case2 c hseparator =>
    rw [hexPairs_separator hseparator] at h
    exact ⟨[],Option.some.inj h,(Reads.done gap_nil).separator hseparator⟩
  | case3 _ => exact ⟨[.wildcard],Option.some.inj h,.single gap_nil nofun (.done gap_nil)⟩
  | case4 c hseparator hquestion =>
    simp only [hexPairs,if_neg hseparator,if_neg hquestion] at h
    exact absurd h.symm (Option.some_ne_none pairs)
  | case5 c d rest hseparator ih =>
    rw [hexPairs_separator hseparator] at h
    obtain ⟨tokens,hpairs,hreads⟩ := ih h
    exact ⟨tokens,hpairs,hreads.separator hseparator⟩
  | case6 d rest _ ihRest ihNext =>
    by_cases hd : d = '?'
    · rw [hd] at h ⊢
      rw [show '?':: '?'::rest=['?','?']++rest from rfl,hexPairs_token .wildcard] at h
      obtain ⟨later,hlater,rfl⟩ := Option.map_eq_some_iff.mp h
      obtain ⟨tokens,hpairs,hreads⟩ := ihRest hlater
      exact ⟨.wildcard::tokens,congrArg _ hpairs,.token gap_nil .wildcard hreads⟩
    · have hhead : (d::rest).head?≠some '?' := fun heq => hd (Option.some.inj heq)
      rw [hexPairs_single hhead] at h
      obtain ⟨later,hlater,rfl⟩ := Option.map_eq_some_iff.mp h
      obtain ⟨tokens,hpairs,hreads⟩ := ihNext hlater
      exact ⟨.wildcard::tokens,congrArg _ hpairs,.single gap_nil hhead hreads⟩
  | case7 c d rest _ _ high low hlow hhigh ih =>
    have hspells := spells_byte hhigh hlow
    rw [show c::d::rest=[c,d]++rest from rfl,hexPairs_token hspells] at h
    obtain ⟨later,hlater,rfl⟩ := Option.map_eq_some_iff.mp h
    obtain ⟨tokens,hpairs,hreads⟩ := ih hlater
    exact ⟨.byte _::tokens,congrArg _ hpairs,.token gap_nil hspells hreads⟩
  | case8 c d rest hseparator hquestion hnone =>
    rw [hexPairs,if_neg hseparator,if_neg hquestion] at h
    cases hhigh : hexVal c with
    | none => rw [hhigh] at h; exact absurd h.symm (Option.some_ne_none pairs)
    | some high =>
      cases hlow : hexVal d with
      | none => rw [hhigh,hlow] at h; exact absurd h.symm (Option.some_ne_none pairs)
      | some low => exact (hnone high low hhigh hlow).elim

/-- The loop accepts exactly the texts that read as tokens. -/
theorem hexPairs_eq_some_iff {text : Str} {pairs : List (UInt8×UInt8)} :
    hexPairs text=some pairs ↔ ∃ tokens,tokens.map Token.pair=pairs ∧ Reads tokens text := by
  constructor
  · exact reads_of_hexPairs
  · rintro ⟨tokens,rfl,hreads⟩
    exact hreads.hexPairs_eq

/-- The pattern that the parser returns for a text that reads as tokens. -/
theorem parseHexPattern_of_reads {tokens : List Token} {text : Str} (h : Reads tokens text)
    (hne : tokens≠[]) : parseHexPattern text=
      some ((tokens.map Token.pair).map Prod.fst,(tokens.map Token.pair).map Prod.snd) := by
  have hpairs : tokens.map Token.pair≠[] := fun hnil => hne (List.map_eq_nil_iff.mp hnil)
  rw [parseHexPattern,h.hexPairs_eq]
  exact if_neg hpairs

/-- An accepted text has a token, and its bytes and masks are the tokens'. -/
theorem reads_of_parseHexPattern {text : Str} {pattern mask : Bytes}
    (h : parseHexPattern text=some (pattern,mask)) : ∃ tokens,tokens≠[] ∧ Reads tokens text ∧
      (tokens.map Token.pair).map Prod.fst=pattern ∧
      (tokens.map Token.pair).map Prod.snd=mask := by
  rw [parseHexPattern] at h
  cases hpairs : hexPairs text with
  | none =>
    rw [hpairs] at h
    exact absurd h.symm (Option.some_ne_none _)
  | some pairs =>
    rw [hpairs] at h
    dsimp only at h
    obtain ⟨tokens,rfl,hreads⟩ := reads_of_hexPairs hpairs
    split_ifs at h with hnil
    obtain ⟨rfl,rfl⟩ := Prod.mk.inj (Option.some.inj h)
    exact ⟨tokens,fun heq => hnil (heq ▸ rfl),hreads,rfl,rfl⟩

end Parser

/-- Tokens spelled in full with any gaps around them are parsed to their bytes
and masks; and in every accepted pattern bytes and masks are as many, and not
none. -/
theorem parseHexPattern_spec :
    (∀ tokens text,tokens≠[] → Rendered tokens text → parseHexPattern text=
      some ((tokens.map Token.pair).map Prod.fst,(tokens.map Token.pair).map Prod.snd)) ∧
    ∀ text pattern mask,parseHexPattern text=some (pattern,mask) →
      pattern.length=mask.length ∧ pattern.length≠0 := by
  refine ⟨fun tokens text hne h => parseHexPattern_of_reads h.reads hne,?_⟩
  intro text pattern mask h
  obtain ⟨tokens,hne,_,rfl,rfl⟩ := reads_of_parseHexPattern h
  refine ⟨(List.length_map _).trans (List.length_map _).symm,fun hzero => hne ?_⟩
  rw [List.length_map,List.length_map] at hzero
  exact List.length_eq_zero_iff.mp hzero

/-- Digits of both cases, a missing gap and a gap of a brace and a blank. -/
theorem parseHexPattern_mixed :
    parseHexPattern ['4','d','?','?','{',' ','F','e','}']=
      some ([0x4D,0x00,0xFE],[0xFF,0x00,0xFF]) :=
  have h4d : Spells (.byte 0x4D) ['4','d'] := .byte (h:=4) (l:=13) (.inl rfl) (.inl rfl) rfl
  have hfe : Spells (.byte 0xFE) ['F','e'] := .byte (h:=15) (l:=14) (.inr rfl) (.inl rfl) rfl
  have hbefore : Gap ['{',' '] :=
    List.forall_mem_cons.mpr ⟨.inr (.inl rfl),List.forall_mem_cons.mpr ⟨.inl rfl,gap_nil⟩⟩
  have hbehind : Gap ['}'] := List.forall_mem_cons.mpr ⟨.inr (.inr rfl),gap_nil⟩
  have hlast : Rendered [.byte 0xFE] ['{',' ','F','e','}'] := .token hbefore hfe (.done hbehind)
  have hrendered : Rendered [.byte 0x4D,.wildcard,.byte 0xFE]
      ['4','d','?','?','{',' ','F','e','}'] :=
    .token gap_nil h4d (.token gap_nil .wildcard hlast)
  parseHexPattern_spec.1 _ _ (List.cons_ne_nil _ _) hrendered

end Gcad.HexPattern
