import Mathlib

/-!
# JSON texts

The grammar of RFC 8259 over bytes: white space, literals, numbers, strings
with their escapes, arrays and objects, in a text that has to be UTF-8.
A character stands for one byte. A string value is the byte sequence its
token denotes and a number value the text of its token, so two readings of
one text differ exactly where a receiver sees a difference.
-/

namespace Gcad.Json

/-- A JSON value; an object keeps its members in the order of the text. -/
inductive Value where
  | null
  | bool (flag : Bool)
  | number (text : List Char)
  | string (text : List Char)
  | array (elements : List Value)
  | object (members : List (List Char×Value))

/-- Ranges of the bytes that have to follow the first byte of a UTF-8
sequence, if it can start one. -/
def continuation (lead : ℕ) : Option (List (ℕ×ℕ)) :=
  if lead < 0x80 then some []
  else if lead < 0xc2 then none
  else if lead < 0xe0 then some [(0x80,0xbf)]
  else if lead=0xe0 then some [(0xa0,0xbf),(0x80,0xbf)]
  else if lead=0xed then some [(0x80,0x9f),(0x80,0xbf)]
  else if lead < 0xf0 then some [(0x80,0xbf),(0x80,0xbf)]
  else if lead=0xf0 then some [(0x90,0xbf),(0x80,0xbf),(0x80,0xbf)]
  else if lead < 0xf4 then some [(0x80,0xbf),(0x80,0xbf),(0x80,0xbf)]
  else if lead=0xf4 then some [(0x80,0x8f),(0x80,0xbf),(0x80,0xbf)]
  else none

/-- The text completes the sequence that is under way and is UTF-8 after it. -/
def utf8From : List (ℕ×ℕ) → List Char → Bool
  | [],[] => true
  | _::_,[] => false
  | [],c::rest => match continuation c.toNat with
    | none => false
    | some pending => utf8From pending rest
  | (low,high)::pending,c::rest =>
    decide (low ≤ c.toNat) && decide (c.toNat ≤ high) && utf8From pending rest

/-- The text is UTF-8. -/
def utf8 (text : List Char) : Bool := utf8From [] text

/-- White space between tokens. -/
def isWhite (c : Char) : Bool := c = ' ' || c = '\t' || c = '\n' || c = '\r'

/-- Skip white space. -/
def skip (text : List Char) : List Char := text.dropWhile isWhite

/-- A hexadecimal digit. -/
def isHex (c : Char) : Bool :=
  c.isDigit || (decide ('a' ≤ c) && decide (c ≤ 'f')) || (decide ('A' ≤ c) && decide (c ≤ 'F'))

/-- Value of a hexadecimal digit. -/
def hexDigit (c : Char) : ℕ :=
  if c.isDigit then c.toNat-48 else if 'a' ≤ c then c.toNat-87 else c.toNat-55

/-- Value of hexadecimal digits. -/
def hexValue (digits : List Char) : ℕ := digits.foldl (fun n c => 16*n+hexDigit c) 0

/-- UTF-8 bytes of a code point. -/
def encode (code : ℕ) : List Char :=
  if code < 0x80 then [Char.ofNat code]
  else if code < 0x800 then [Char.ofNat (0xc0+code/64),Char.ofNat (0x80+code%64)]
  else if code < 0x10000 then
    [Char.ofNat (0xe0+code/4096),Char.ofNat (0x80+code/64%64),Char.ofNat (0x80+code%64)]
  else [Char.ofNat (0xf0+code/262144),Char.ofNat (0x80+code/4096%64),
    Char.ofNat (0x80+code/64%64),Char.ofNat (0x80+code%64)]

/-- State of an escape sequence after some of its characters. -/
inductive Escape where
  | incomplete
  | refused
  | decoded (out : List Char)

/-- The escapes of one letter. -/
def letterEscapes : List (Char×Char) :=
  [('"','"'),('\\','\\'),('/','/'),('b',Char.ofNat 8),('f',Char.ofNat 12),('n','\n'),('r','\r'),
    ('t','\t')]

/-- The second half of a surrogate pair. -/
def lowHalf (high : ℕ) (text : List Char) : Escape :=
  if ¬text.take 2 <+: ['\\','u'] then .refused
  else if ¬(text.drop 2).all isHex then .refused
  else if text.length < 6 then .incomplete
  else
    let low := hexValue (text.drop 2)
    if 0xdc00 ≤ low ∧ low < 0xe000 ∧ text.length=6 then
      .decoded (encode (0x10000+(high-0xd800)*0x400+(low-0xdc00)))
    else .refused

/-- The digits after the letter of a Unicode escape; a surrogate stands
only in a pair. -/
def unicodeEscape (text : List Char) : Escape :=
  if ¬(text.take 4).all isHex then .refused
  else if text.length < 4 then .incomplete
  else
    let code := hexValue (text.take 4)
    if 0xd800 ≤ code ∧ code < 0xdc00 then lowHalf code (text.drop 4)
    else if text.length=4 ∧ ¬(0xdc00 ≤ code ∧ code < 0xe000) then .decoded (encode code)
    else .refused

/-- The characters after a backslash. -/
def escape : List Char → Escape
  | [] => .incomplete
  | c::rest =>
    if c = 'u' then unicodeEscape rest
    else if rest=[] then
      match letterEscapes.lookup c with
      | some out => .decoded [out]
      | none => .refused
    else .refused

/-- Read a string token after its opening quote: the bytes it denotes and
the text behind it. An escape under way is carried along. -/
def scan : Option (List Char) → List Char → Option (List Char×List Char)
  | _,[] => none
  | none,c::rest =>
    if c = '"' then some ([],rest)
    else if c = '\\' then scan (some []) rest
    else if c.toNat < 0x20 then none
    else (scan none rest).map fun read => (c::read.1,read.2)
  | some pending,c::rest =>
    match escape (pending++[c]) with
    | .incomplete => scan (some (pending++[c])) rest
    | .refused => none
    | .decoded out => (scan none rest).map fun read => (out++read.1,read.2)

/-- Read at least one digit. -/
def readDigits (text : List Char) : Option (List Char×List Char) :=
  if text.takeWhile Char.isDigit=[] then none
  else some (text.takeWhile Char.isDigit,text.dropWhile Char.isDigit)

/-- Read an optional sign. -/
def readMinus : List Char → List Char×List Char
  | '-'::rest => (['-'],rest)
  | text => ([],text)

/-- Read the integer part of a number, which has no leading zero. -/
def readInteger : List Char → Option (List Char×List Char)
  | '0'::rest => some (['0'],rest)
  | text => readDigits text

/-- Read an optional fraction. -/
def readFraction : List Char → Option (List Char×List Char)
  | '.'::rest => (readDigits rest).map fun read => ('.'::read.1,read.2)
  | text => some ([],text)

/-- Read the optional sign of an exponent. -/
def readExponentSign : List Char → List Char×List Char
  | '+'::rest => (['+'],rest)
  | text => readMinus text

/-- Read an optional exponent. -/
def readExponent : List Char → Option (List Char×List Char)
  | [] => some ([],[])
  | c::rest =>
    if c = 'e' ∨ c = 'E' then
      (readDigits (readExponentSign rest).2).map fun read =>
        (c::(readExponentSign rest).1++read.1,read.2)
    else some ([],c::rest)

/-- Read a number token. -/
def readNumber (text : List Char) : Option (List Char×List Char) :=
  (readInteger (readMinus text).2).bind fun integer =>
    (readFraction integer.2).bind fun fraction =>
      (readExponent fraction.2).map fun exponent =>
        ((readMinus text).1++integer.1++fraction.1++exponent.1,exponent.2)

/-- Read a literal name or a number. -/
def readScalar (text : List Char) : Option (Value×List Char) :=
  if ['n','u','l','l'] <+: text then some (.null,text.drop 4)
  else if ['t','r','u','e'] <+: text then some (.bool true,text.drop 4)
  else if ['f','a','l','s','e'] <+: text then some (.bool false,text.drop 5)
  else (readNumber text).map fun read => (.number read.1,read.2)

/-- Read the name of a member and the colon after it. -/
def readKey (text : List Char) : Option (List Char×List Char) :=
  match skip text with
  | '"'::rest => (scan none rest).bind fun key =>
    match skip key.2 with
    | ':'::rest => some (key.1,rest)
    | _ => none
  | _ => none

mutual

/-- Read a value. -/
def readValue : ℕ → List Char → Option (Value×List Char)
  | 0,_ => none
  | fuel+1,text =>
    match skip text with
    | [] => none
    | c::rest =>
      if c = '"' then (scan none rest).map fun read => (.string read.1,read.2)
      else if c = '{' then
        if (skip rest).head?=some '}' then some (.object [],(skip rest).tail)
        else (readMembers fuel (','::rest)).map fun read => (.object read.1,read.2)
      else if c = '[' then
        if (skip rest).head?=some ']' then some (.array [],(skip rest).tail)
        else (readElements fuel (','::rest)).map fun read => (.array read.1,read.2)
      else readScalar (c::rest)

/-- Read the members of an object that are left, each behind a comma, and
the closing brace. -/
def readMembers : ℕ → List Char → Option (List (List Char×Value)×List Char)
  | 0,_ => none
  | fuel+1,text =>
    match skip text with
    | '}'::rest => some ([],rest)
    | ','::rest => (readKey rest).bind fun key => (readValue fuel key.2).bind fun value =>
      (readMembers fuel value.2).map fun more => ((key.1,value.1)::more.1,more.2)
    | _ => none

/-- Read the elements of an array that are left, each behind a comma, and
the closing bracket. -/
def readElements : ℕ → List Char → Option (List Value×List Char)
  | 0,_ => none
  | fuel+1,text =>
    match skip text with
    | ']'::rest => some ([],rest)
    | ','::rest => (readValue fuel rest).bind fun value =>
      (readElements fuel value.2).map fun more => (value.1::more.1,more.2)
    | _ => none

end

/-- Read a whole text. A call inside another reads a shorter text or, for
the first member or element, a text as long with a comma for the bracket,
so twice the length is always enough fuel. -/
def parse (text : List Char) : Option Value :=
  if utf8 text then
    (readValue (2*text.length+2) text).bind fun read =>
      if skip read.2=[] then some read.1 else none
  else none

section utf8

/-- No byte that continues a sequence is ASCII. -/
def Above (pending : List (ℕ×ℕ)) : Prop := ∀ range ∈ pending, 0x80 ≤ range.1

/-- A first byte asks for continuation bytes only. -/
theorem continuation_above {lead : ℕ} {pending : List (ℕ×ℕ)}
    (h : continuation lead=some pending) : Above pending := by
  unfold continuation at h
  split_ifs at h <;> cases h <;> simp [Above]

/-- Inside a sequence an ASCII byte ends the text's being UTF-8; between
sequences it separates. -/
theorem utf8From_append_ascii {pending : List (ℕ×ℕ)} (hp : Above pending) (text rest : List Char)
    {c : Char} (hc : c.toNat < 0x80) :
    utf8From pending (text++c::rest)=(utf8From pending text && utf8 rest) := by
  induction text generalizing pending with
  | nil =>
    rw [List.nil_append]
    cases pending with
    | nil => simp [utf8From,continuation,hc,utf8]
    | cons range pending =>
      have hlow := hp range List.mem_cons_self
      have hbelow : ¬range.1 ≤ c.toNat := by omega
      simp [utf8From,hbelow]
  | cons first text ih =>
    rw [List.cons_append]
    cases pending with
    | nil =>
      simp only [utf8From]
      cases hnext : continuation first.toNat with
      | none => rfl
      | some pending => exact ih (continuation_above hnext)
    | cons range pending =>
      have hpending : Above pending := fun other hother => hp other (List.mem_cons_of_mem _ hother)
      simp only [utf8From]
      rw [ih hpending,Bool.and_assoc (decide _ && decide _)]

/-- An ASCII byte separates a text into parts that are UTF-8 on their own. -/
theorem utf8_append_ascii (text rest : List Char) {c : Char} (hc : c.toNat < 0x80) :
    utf8 (text++c::rest)=(utf8 text && utf8 rest) :=
  utf8From_append_ascii (by simp [Above]) text rest hc

/-- An ASCII byte in front changes nothing. -/
theorem utf8_cons_ascii (rest : List Char) {c : Char} (hc : c.toNat < 0x80) :
    utf8 (c::rest)=utf8 rest := by
  have h := utf8_append_ascii [] rest hc
  rwa [List.nil_append,show utf8 []=true from rfl,Bool.true_and] at h

/-- ASCII bytes in front change nothing. -/
theorem utf8_ascii_append {text : List Char} (h : ∀ c ∈ text, c.toNat < 0x80) (rest : List Char) :
    utf8 (text++rest)=utf8 rest := by
  induction text with
  | nil => rfl
  | cons c text ih =>
    rw [List.cons_append,utf8_cons_ascii _ (h c List.mem_cons_self)]
    exact ih fun other hother => h other (List.mem_cons_of_mem c hother)

end utf8

section strings

/-- A text that a string token can hold as it is. -/
def Plain (text : List Char) : Prop := ∀ c ∈ text, c ≠ '"' ∧ c ≠ '\\' ∧ 0x20 ≤ c.toNat

instance (text : List Char) : Decidable (Plain text) := List.decidableBAll _ text

/-- The characters between the quotes of a string token and the bytes they
denote. -/
inductive Body : List Char → List Char → Prop where
  | nil : Body [] []
  | plain {c : Char} {raw out : List Char} (hquote : c ≠ '"') (hslash : c ≠ '\\')
      (hcontrol : 0x20 ≤ c.toNat) (h : Body raw out) : Body (c::raw) (c::out)
  | escaped {sequence decoded raw out : List Char} (hescape : escape sequence=.decoded decoded)
      (h : Body raw out) : Body ('\\'::sequence++raw) (decoded++out)

/-- A plain text is read as it is. -/
theorem scan_plain {text : List Char} (h : Plain text) (rest : List Char) :
    scan none (text++ '"'::rest)=some (text,rest) := by
  induction text with
  | nil => rfl
  | cons c text ih =>
    obtain ⟨hquote,hslash,hcontrol⟩ := h c List.mem_cons_self
    have hrest := ih fun other hother => h other (List.mem_cons_of_mem c hother)
    rw [List.cons_append,scan,if_neg hquote,if_neg hslash,if_neg (by omega),hrest]
    rfl

/-- Reading finds the characters of the token up to its closing quote. -/
theorem scan_body {text out rest : List Char} {pending : Option (List Char)}
    (h : scan pending text=some (out,rest)) :
    match pending with
    | none => ∃ raw, text=raw++ '"'::rest ∧ Body raw out
    | some pending => ∃ sequence raw decoded more, text=sequence++raw++ '"'::rest ∧
        escape (pending++sequence)=.decoded decoded ∧ Body raw more ∧ out=decoded++more := by
  induction text generalizing pending out with
  | nil => cases pending <;> simp [scan] at h
  | cons c text ih =>
    cases pending with
    | none =>
      rw [scan] at h
      split_ifs at h with hquote hslash hcontrol
      · cases h
        exact ⟨[],by rw [hquote]; rfl,.nil⟩
      · obtain ⟨sequence,raw,decoded,more,rfl,hescape,hbody,rfl⟩ := ih h
        exact ⟨'\\'::sequence++raw,by rw [hslash]; rfl,.escaped hescape hbody⟩
      · obtain ⟨⟨out,rest⟩,hread,hout⟩ := Option.map_eq_some_iff.mp h
        cases hout
        obtain ⟨raw,rfl,hbody⟩ := ih hread
        exact ⟨c::raw,rfl,.plain hquote hslash (by omega) hbody⟩
    | some pending =>
      rw [scan] at h
      cases hescape : escape (pending++[c]) with
      | refused => simp [hescape] at h
      | incomplete =>
        simp only [hescape] at h
        obtain ⟨sequence,raw,decoded,more,rfl,hmore,hbody,rfl⟩ := ih h
        rw [List.append_assoc] at hmore
        exact ⟨c::sequence,raw,decoded,more,rfl,hmore,hbody,rfl⟩
      | decoded decoded =>
        simp only [hescape] at h
        obtain ⟨⟨more,rest⟩,hread,hout⟩ := Option.map_eq_some_iff.mp h
        cases hout
        obtain ⟨raw,rfl,hbody⟩ := ih hread
        exact ⟨[c],raw,decoded,more,rfl,hescape,hbody,rfl⟩

/-- A code point has at most four bytes. -/
theorem length_encode_le (code : ℕ) : (encode code).length ≤ 4 := by
  unfold encode
  split_ifs <;> simp

/-- A quote is not a hexadecimal digit. -/
theorem not_mem_of_all_isHex {text : List Char} (h : text.all isHex=true) : '"' ∉ text := by
  intro hmem
  have hquote := List.all_eq_true.mp h '"' hmem
  exact absurd hquote (by decide)

/-- A surrogate pair is twelve characters without a quote. -/
theorem lowHalf_decoded {high : ℕ} {text out : List Char} (h : lowHalf high text=.decoded out) :
    text.length=6 ∧ '"' ∉ text ∧ out.length ≤ 4 := by
  simp only [lowHalf] at h
  split_ifs at h with hstart hhex hlength hlow
  rw [Escape.decoded.injEq] at h
  refine ⟨hlow.2.2,?_,h ▸ length_encode_le _⟩
  rw [← List.take_append_drop 2 text,List.mem_append,not_or]
  refine ⟨fun hmem => ?_,not_mem_of_all_isHex hhex⟩
  exact absurd (hstart.subset hmem) (by decide)

/-- A Unicode escape has no quote in it and is longer than what it denotes. -/
theorem unicodeEscape_decoded {text out : List Char} (h : unicodeEscape text=.decoded out) :
    '"' ∉ text ∧ out.length ≤ text.length := by
  simp only [unicodeEscape] at h
  split_ifs at h with hhex hlength hhigh hlow
  · obtain ⟨-,hdrop,hout⟩ := lowHalf_decoded h
    refine ⟨?_,by omega⟩
    rw [← List.take_append_drop 4 text,List.mem_append,not_or]
    exact ⟨not_mem_of_all_isHex hhex,hdrop⟩
  · rw [Escape.decoded.injEq] at h
    have hout := h ▸ length_encode_le (hexValue (text.take 4))
    rw [List.take_of_length_le hlow.1.le] at hhex
    exact ⟨not_mem_of_all_isHex hhex,by omega⟩

/-- An escape denotes no more bytes than it has characters after the
backslash, and a quote in it is the escape of a quote. -/
theorem escape_decoded {text out : List Char} (h : escape text=.decoded out) :
    out.length ≤ text.length ∧ ('"' ∈ text → text=['"'] ∧ out=['"']) := by
  cases text with
  | nil => cases h
  | cons c rest =>
    rw [escape] at h
    split_ifs at h with hu hrest
    · obtain ⟨hquote,hlength⟩ := unicodeEscape_decoded h
      refine ⟨by rw [List.length_cons]; omega,fun hmem => ?_⟩
      rcases List.mem_cons.mp hmem with hc | hmem
      · exact absurd (hc.trans hu) (by decide)
      · exact absurd hmem hquote
    · cases hletter : letterEscapes.lookup c with
      | none => simp [hletter] at h
      | some letter =>
        simp only [hletter] at h
        cases h
        refine ⟨by simp,fun hmem => ?_⟩
        rw [hrest,List.mem_singleton] at hmem
        subst hmem hrest
        cases hletter
        exact ⟨rfl,rfl⟩

/-- A token denotes at most as many bytes as it has characters, and as many
only where it has no escape. -/
theorem Body.length_le {raw out : List Char} (h : Body raw out) :
    out.length ≤ raw.length ∧ (out.length=raw.length → out=raw ∧ Plain raw) := by
  induction h with
  | nil => exact ⟨le_rfl,fun _ => ⟨rfl,by simp [Plain]⟩⟩
  | plain hquote hslash hcontrol _ ih =>
    refine ⟨by simp only [List.length_cons]; omega,fun hlength => ?_⟩
    obtain ⟨rfl,hplain⟩ := ih.2 (by simpa using hlength)
    refine ⟨rfl,fun c hc => ?_⟩
    rcases List.mem_cons.mp hc with rfl | hc
    · exact ⟨hquote,hslash,hcontrol⟩
    · exact hplain c hc
  | escaped hescape _ ih =>
    have hdecoded := (escape_decoded hescape).1
    simp only [List.length_append,List.length_cons]
    exact ⟨by omega,fun hlength => absurd hlength (by omega)⟩

/-- A quote inside a token is the escape of a quote. -/
theorem Body.quote {raw out : List Char} (h : Body raw out) {before after : List Char}
    (hraw : raw=before++ '"'::after) :
    ∃ front x y, before=front++['\\'] ∧ Body front x ∧ out=x++ '"'::y := by
  induction h generalizing before with
  | nil => cases before <;> cases hraw
  | @plain c raw out hquote hslash hcontrol _ ih =>
    cases before with
    | nil =>
      cases hraw
      exact absurd rfl hquote
    | cons first before =>
      rw [List.cons_append,List.cons.injEq] at hraw
      obtain ⟨rfl,hraw⟩ := hraw
      obtain ⟨front,x,y,rfl,hfront,rfl⟩ := ih hraw
      exact ⟨c::front,c::x,y,rfl,.plain hquote hslash hcontrol hfront,rfl⟩
  | @escaped sequence decoded raw out hescape _ ih =>
    rcases List.append_eq_append_iff.mp hraw with ⟨middle,hbefore,hmiddle⟩ | ⟨middle,hhead,hmiddle⟩
    · obtain ⟨front,x,y,rfl,hfront,rfl⟩ := ih hmiddle
      refine ⟨'\\'::sequence++front,decoded++x,y,?_,.escaped hescape hfront,?_⟩
      · rw [hbefore,List.append_assoc]
      · rw [List.append_assoc]
    · cases middle with
      | nil =>
        obtain ⟨front,x,y,hfront,-⟩ := ih (show raw=[]++ '"'::after from hmiddle.symm)
        cases front <;> cases hfront
      | cons first middle =>
        rw [List.cons_append,List.cons.injEq] at hmiddle
        obtain ⟨rfl,-⟩ := hmiddle
        cases before with
        | nil => cases hhead
        | cons slash before =>
          rw [List.cons_append,List.cons.injEq] at hhead
          obtain ⟨rfl,hsequence⟩ := hhead
          have hmem : '"' ∈ sequence := by simp [hsequence]
          obtain ⟨rfl,rfl⟩ := (escape_decoded hescape).2 hmem
          obtain ⟨rfl,-⟩ : before=[] ∧ middle=[] := by
            cases before with
            | nil => exact ⟨rfl,by simpa using hsequence.symm⟩
            | cons c before => simp at hsequence
          exact ⟨[],[],out,rfl,.nil,rfl⟩

/-- No token denotes the text in front of a quote inside it. -/
theorem not_body_before_quote (n : ℕ) {text after : List Char} (hn : text.length ≤ n) :
    ¬Body (text++ '"'::after) text := by
  induction n generalizing text after with
  | zero =>
    intro h
    obtain ⟨front,x,y,-,-,htext⟩ := h.quote rfl
    have hlength := congrArg List.length htext
    simp only [List.length_append,List.length_cons] at hlength
    omega
  | succ n ih =>
    intro h
    obtain ⟨front,x,y,hfront,hbody,htext⟩ := h.quote rfl
    have hle := hbody.length_le.1
    have hlength := congrArg List.length hfront
    simp only [List.length_append,List.length_singleton] at hlength
    rw [htext] at hfront
    rcases List.append_eq_append_iff.mp hfront with ⟨middle,hmiddle,hquote⟩ | ⟨middle,hmiddle,hquote⟩
    · cases middle with
      | nil => simp at hquote
      | cons first middle =>
        rw [List.cons_append,List.cons.injEq] at hquote
        obtain ⟨rfl,-⟩ := hquote
        rw [hmiddle] at hbody
        exact ih (by omega) hbody
    · have hmiddleLength := congrArg List.length hmiddle
      rw [List.length_append] at hmiddleLength
      obtain rfl : middle=[] := List.length_eq_zero_iff.mp (by omega)
      simp at hquote

/-- A text that is read back as it was written between quotes is plain. -/
theorem plain_of_scan {text rest behind : List Char}
    (h : scan none (text++ '"'::rest)=some (text,behind)) : Plain text := by
  obtain ⟨raw,hraw,hbody⟩ := scan_body h
  obtain ⟨hle,heq⟩ := hbody.length_le
  rcases List.append_eq_append_iff.mp hraw with ⟨middle,hmiddle,hquote⟩ | ⟨middle,hmiddle,-⟩
  · cases middle with
    | nil =>
      rw [List.append_nil] at hmiddle
      subst hmiddle
      exact (heq rfl).2
    | cons first middle =>
      rw [List.cons_append,List.cons.injEq] at hquote
      obtain ⟨rfl,-⟩ := hquote
      rw [hmiddle] at hbody
      exact absurd hbody (not_body_before_quote text.length le_rfl)
  · have hlength := congrArg List.length hmiddle
    rw [List.length_append] at hlength
    obtain rfl : middle=[] := List.length_eq_zero_iff.mp (by omega)
    rw [List.append_nil] at hmiddle
    subst hmiddle
    exact (heq rfl).2

end strings

end Gcad.Json
