import Mathlib

/-!
# UTF-8 and UTF-16

The two encodings over numbers. The bytes of a number below `0x110000` are
defined whether or not it is a scalar value, and units are read whether or not
surrogates stand in pairs. The bytes of a list of numbers determine the list,
so they are UTF-8 exactly when every number is a scalar value, and the numbers
read from units are scalar values exactly when the units are UTF-16. Nothing
here depends on a particular program.
-/

namespace Gcad.Unicode

section Bytes

/-- The bytes of a code point, of a surrogate as well. -/
def bytesOf (code : ℕ) : List UInt8 :=
  if code < 0x80 then [UInt8.ofNat code]
  else if code < 0x800 then [UInt8.ofNat (0xc0+code/64),UInt8.ofNat (0x80+code%64)]
  else if code < 0x10000 then
    [UInt8.ofNat (0xe0+code/4096),UInt8.ofNat (0x80+code/64%64),UInt8.ofNat (0x80+code%64)]
  else [UInt8.ofNat (0xf0+code/262144),UInt8.ofNat (0x80+code/4096%64),
    UInt8.ofNat (0x80+code/64%64),UInt8.ofNat (0x80+code%64)]

/-- Bytes are UTF-8 when they encode some text of scalar values. -/
def WellFormedUtf8 (bytes : List UInt8) : Prop :=
  ∃ text : List Char,bytes=text.flatMap String.utf8EncodeChar

/-- The code point that a number of continuation bytes complete, and the bytes
behind it. -/
def readTail : ℕ → ℕ → List UInt8 → Option (ℕ×List UInt8)
  | 0,code,rest => some (code,rest)
  | _+1,_,[] => none
  | more+1,code,b::rest => readTail more (code*64+(b.toNat-0x80)) rest

/-- The code point at the start of bytes, and the bytes behind it. -/
def readCode : List UInt8 → Option (ℕ×List UInt8)
  | [] => none
  | a::rest =>
    if a.toNat < 0x80 then some (a.toNat,rest)
    else if a.toNat < 0xe0 then readTail 1 (a.toNat-0xc0) rest
    else if a.toNat < 0xf0 then readTail 2 (a.toNat-0xe0) rest
    else readTail 3 (a.toNat-0xf0) rest

/-- A scalar value is a code point. -/
theorem char_lt (c : Char) : c.toNat < 0x110000 := by
  rcases c.valid with h | h
  · exact Nat.lt_trans h (by decide)
  · exact h.2

/-- A scalar value has the bytes that the core library gives it. -/
theorem bytesOf_toNat (c : Char) : bytesOf c.toNat=String.utf8EncodeChar c := by
  have hlt : c.val.toNat < 0x110000 := char_lt c
  rw [String.utf8EncodeChar,bytesOf,Char.toNat]
  generalize c.val.toNat=v at hlt
  by_cases h1 : v < 0x80
  · rw [if_pos h1,if_pos (Nat.le_of_lt_succ h1)]
  · have h1' : ¬v ≤ 0x7f := by omega
    rw [if_neg h1,if_neg h1']
    by_cases h2 : v < 0x800
    · have hlead : v/64%0x20+0xc0=0xc0+v/64 := by omega
      rw [if_pos h2,if_pos (Nat.le_of_lt_succ h2),hlead,Nat.add_comm (v%0x40)]
    · have h2' : ¬v ≤ 0x7ff := by omega
      rw [if_neg h2,if_neg h2']
      by_cases h3 : v < 0x10000
      · have hlead : v/4096%0x10+0xe0=0xe0+v/4096 := by omega
        rw [if_pos h3,if_pos (Nat.le_of_lt_succ h3),hlead,Nat.add_comm (v/64%0x40),
          Nat.add_comm (v%0x40)]
      · have h3' : ¬v ≤ 0xffff := by omega
        have hlead : v/262144%0x08+0xf0=0xf0+v/262144 := by omega
        rw [if_neg h3,if_neg h3',hlead,Nat.add_comm (v/4096%0x40),Nat.add_comm (v/64%0x40),
          Nat.add_comm (v%0x40)]

/-- A byte keeps a number that fits. -/
theorem toNat_byte {n : ℕ} (h : n < 256) : (UInt8.ofNat n).toNat=n := by
  rw [UInt8.toNat_ofNat']
  exact Nat.mod_eq_of_lt h

/-- A continuation byte adds its six bits. -/
theorem readTail_succ (more code n : ℕ) (hn : n < 64) (rest : List UInt8) :
    readTail (more+1) code (UInt8.ofNat (0x80+n)::rest)=readTail more (code*64+n) rest := by
  rw [readTail,toNat_byte (by omega),Nat.add_sub_cancel_left]

/-- The bytes of a code point are read back. -/
theorem readCode_bytesOf {code : ℕ} (h : code < 0x110000) (rest : List UInt8) :
    readCode (bytesOf code++rest)=some (code,rest) := by
  rw [bytesOf]
  split_ifs with h1 h2 h3
  · have hlead : (UInt8.ofNat code).toNat=code := toNat_byte (by omega)
    rw [List.cons_append,List.nil_append,readCode,hlead,if_pos h1]
  · have hlead : (UInt8.ofNat (0xc0+code/64)).toNat=0xc0+code/64 := toNat_byte (by omega)
    have hcode : code/64*64+code%64=code := by omega
    rw [List.cons_append,List.cons_append,List.nil_append,readCode,hlead,if_neg (by omega),
      if_pos (by omega),Nat.add_sub_cancel_left,readTail_succ _ _ _ (by omega),hcode,readTail]
  · have hlead : (UInt8.ofNat (0xe0+code/4096)).toNat=0xe0+code/4096 := toNat_byte (by omega)
    have hcode : (code/4096*64+code/64%64)*64+code%64=code := by omega
    rw [List.cons_append,List.cons_append,List.cons_append,List.nil_append,readCode,hlead,
      if_neg (by omega),if_neg (by omega),if_pos (by omega),Nat.add_sub_cancel_left,
      readTail_succ _ _ _ (by omega),readTail_succ _ _ _ (by omega),hcode,readTail]
  · have hlead : (UInt8.ofNat (0xf0+code/262144)).toNat=0xf0+code/262144 := toNat_byte (by omega)
    have hcode : ((code/262144*64+code/4096%64)*64+code/64%64)*64+code%64=code := by omega
    rw [List.cons_append,List.cons_append,List.cons_append,List.cons_append,List.nil_append,
      readCode,hlead,if_neg (by omega),if_neg (by omega),if_neg (by omega),
      Nat.add_sub_cancel_left,readTail_succ _ _ _ (by omega),readTail_succ _ _ _ (by omega),
      readTail_succ _ _ _ (by omega),hcode,readTail]

/-- The bytes of code points determine the code points. -/
theorem flatMap_bytesOf_injective {codes others : List ℕ} (hcodes : ∀ code ∈ codes,code < 0x110000)
    (hothers : ∀ code ∈ others,code < 0x110000)
    (h : codes.flatMap bytesOf=others.flatMap bytesOf) : codes=others := by
  induction codes generalizing others with
  | nil =>
    cases others with
    | nil => rfl
    | cons other more =>
      have hread := readCode_bytesOf (hothers other List.mem_cons_self) (more.flatMap bytesOf)
      rw [←List.flatMap_cons,←h] at hread
      exact absurd hread.symm (Option.some_ne_none _)
  | cons code rest ih =>
    have hread := readCode_bytesOf (hcodes code List.mem_cons_self) (rest.flatMap bytesOf)
    rw [←List.flatMap_cons,h] at hread
    cases others with
    | nil => exact absurd hread.symm (Option.some_ne_none _)
    | cons other more =>
      have hother := readCode_bytesOf (hothers other List.mem_cons_self) (more.flatMap bytesOf)
      rw [←List.flatMap_cons,hread,Option.some.injEq,Prod.mk.injEq] at hother
      have hmore := ih (fun c hc => hcodes c (List.mem_cons_of_mem _ hc))
        (fun c hc => hothers c (List.mem_cons_of_mem _ hc)) hother.2
      rw [hother.1,hmore]

/-- A text encodes as its code points do. -/
theorem flatMap_utf8EncodeChar (text : List Char) :
    text.flatMap String.utf8EncodeChar=(text.map Char.toNat).flatMap bytesOf := by
  rw [List.flatMap_map]
  exact List.flatMap_congr fun c _ => (bytesOf_toNat c).symm

/-- Scalar values are code points of a text. -/
theorem exists_text {codes : List ℕ} (h : ∀ code ∈ codes,code.isValidChar) :
    ∃ text : List Char,text.map Char.toNat=codes := by
  refine ⟨codes.map Char.ofNat,?_⟩
  rw [List.map_map]
  refine (List.map_congr_left fun code hcode => ?_).trans (List.map_id codes)
  rw [Function.comp_apply,Char.toNat_ofNat,if_pos (h code hcode),id]

/-- The bytes of code points are UTF-8 exactly when all of them are scalar
values. -/
theorem wellFormedUtf8_flatMap {codes : List ℕ} (h : ∀ code ∈ codes,code < 0x110000) :
    WellFormedUtf8 (codes.flatMap bytesOf) ↔ ∀ code ∈ codes,code.isValidChar := by
  constructor
  · rintro ⟨text,htext⟩
    rw [flatMap_utf8EncodeChar] at htext
    have hchars : ∀ code ∈ text.map Char.toNat,code < 0x110000 := by
      intro code hcode
      obtain ⟨c,-,rfl⟩ := List.mem_map.mp hcode
      exact char_lt c
    rw [flatMap_bytesOf_injective h hchars htext]
    intro code hcode
    obtain ⟨c,-,rfl⟩ := List.mem_map.mp hcode
    exact c.valid
  · intro hall
    obtain ⟨text,rfl⟩ := exists_text hall
    exact ⟨text,(flatMap_utf8EncodeChar text).symm⟩

end Bytes

section Units

/-- The first unit of a pair. -/
def HighSurrogate (unit : ℕ) : Prop := 0xd800 ≤ unit ∧ unit ≤ 0xdbff

/-- The second unit of a pair. -/
def LowSurrogate (unit : ℕ) : Prop := 0xdc00 ≤ unit ∧ unit ≤ 0xdfff

instance (unit : ℕ) : Decidable (HighSurrogate unit) := inferInstanceAs (Decidable (_ ∧ _))

instance (unit : ℕ) : Decidable (LowSurrogate unit) := inferInstanceAs (Decidable (_ ∧ _))

/-- The code point of a pair. -/
def pairCode (high low : ℕ) : ℕ := 0x10000+(high-0xd800)*1024+(low-0xdc00)

/-- The units of a scalar value. -/
def unitsOf (c : Char) : List ℕ :=
  if c.toNat < 0x10000 then [c.toNat]
  else [0xd800+(c.toNat-0x10000)/1024,0xdc00+(c.toNat-0x10000)%1024]

/-- Units are UTF-16 when they encode some text of scalar values. -/
def WellFormedUtf16 (units : List ℕ) : Prop := ∃ text : List Char,units=text.flatMap unitsOf

/-- The code points of units; a surrogate outside a pair stands for itself. -/
def codePoints : List ℕ → List ℕ
  | [] => []
  | [unit] => [unit]
  | high::low::rest =>
    if HighSurrogate high ∧ LowSurrogate low then pairCode high low::codePoints rest
    else high::codePoints (low::rest)

/-- A pair is one code point. -/
theorem codePoints_pair {high low : ℕ} (hhigh : HighSurrogate high) (hlow : LowSurrogate low)
    (rest : List ℕ) : codePoints (high::low::rest)=pairCode high low::codePoints rest := by
  rw [codePoints,if_pos ⟨hhigh,hlow⟩]

/-- A unit that no pair starts with is a code point. -/
theorem codePoints_single {unit : ℕ} {rest : List ℕ}
    (h : ∀ low ∈ rest.head?,¬(HighSurrogate unit ∧ LowSurrogate low)) :
    codePoints (unit::rest)=unit::codePoints rest := by
  cases rest with
  | nil => rfl
  | cons low rest => rw [codePoints,if_neg (h low rfl)]

/-- The units of a scalar value are read back. -/
theorem codePoints_unitsOf (c : Char) (rest : List ℕ) :
    codePoints (unitsOf c++rest)=c.toNat::codePoints rest := by
  have hvalid := c.valid
  have hlt := char_lt c
  rw [unitsOf]
  split_ifs with hplane
  · refine codePoints_single fun low _ hpair => ?_
    have hhigh : 0xd800 ≤ c.toNat ∧ c.toNat ≤ 0xdbff := hpair.1
    have hscalar : c.toNat < 0xd800 ∨ 0xdfff < c.toNat ∧ c.toNat < 0x110000 := hvalid
    omega
  · have hhigh : HighSurrogate (0xd800+(c.toNat-0x10000)/1024) := ⟨by omega,by omega⟩
    have hlow : LowSurrogate (0xdc00+(c.toNat-0x10000)%1024) := ⟨by omega,by omega⟩
    have hcode : pairCode (0xd800+(c.toNat-0x10000)/1024) (0xdc00+(c.toNat-0x10000)%1024)=
        c.toNat := by
      unfold pairCode
      omega
    rw [List.cons_append,List.cons_append,List.nil_append,codePoints_pair hhigh hlow,hcode]

/-- The code points of the units of a text are those of the text. -/
theorem codePoints_flatMap (text : List Char) :
    codePoints (text.flatMap unitsOf)=text.map Char.toNat := by
  induction text with
  | nil => rfl
  | cons c text ih => rw [List.flatMap_cons,codePoints_unitsOf,ih,List.map_cons]

/-- Code points are below the bound when the units are. -/
theorem codePoints_lt {units : List ℕ} (h : ∀ unit ∈ units,unit < 0x10000) :
    ∀ code ∈ codePoints units,code < 0x110000 := by
  induction units using codePoints.induct with
  | case1 => exact fun code hcode => absurd hcode List.not_mem_nil
  | case2 unit =>
    intro code hcode
    rw [List.mem_singleton.mp hcode]
    have hunit := h unit List.mem_cons_self
    omega
  | case3 high low rest hpair ih =>
    rw [codePoints_pair hpair.1 hpair.2]
    intro code hcode
    rcases List.mem_cons.mp hcode with heq | hrest
    · obtain ⟨⟨-,hhigh⟩,-,hlow⟩ := hpair
      rw [heq]
      unfold pairCode
      omega
    · exact ih (fun u hu => h u (List.mem_cons_of_mem _ (List.mem_cons_of_mem _ hu))) code hrest
  | case4 high low rest hpair ih =>
    rw [codePoints,if_neg hpair]
    intro code hcode
    rcases List.mem_cons.mp hcode with rfl | hrest
    · have hunit := h code List.mem_cons_self
      omega
    · exact ih (fun u hu => h u (List.mem_cons_of_mem _ hu)) code hrest

/-- A scalar value in front keeps units UTF-16. -/
theorem WellFormedUtf16.cons {units : List ℕ} (h : WellFormedUtf16 units) (c : Char) :
    WellFormedUtf16 (unitsOf c++units) := by
  obtain ⟨text,rfl⟩ := h
  exact ⟨c::text,List.flatMap_cons.symm⟩

/-- A unit that is a scalar value encodes it. -/
theorem unitsOf_unit {unit : ℕ} (h : unit.isValidChar) (hlt : unit < 0x10000) :
    unitsOf (Char.ofNat unit)=[unit] := by
  rw [unitsOf,Char.toNat_ofNat,if_pos h,if_pos hlt]

/-- A pair encodes its code point. -/
theorem unitsOf_pair {high low : ℕ} (hhigh : HighSurrogate high) (hlow : LowSurrogate low) :
    unitsOf (Char.ofNat (pairCode high low))=[high,low] := by
  obtain ⟨hh,hh'⟩ := hhigh
  obtain ⟨hl,hl'⟩ := hlow
  have hcode : pairCode high low=0x10000+(high-0xd800)*1024+(low-0xdc00) := rfl
  have hvalid : (pairCode high low).isValidChar := Or.inr ⟨by omega,by omega⟩
  have hfirst : 0xd800+(pairCode high low-0x10000)/1024=high := by omega
  have hsecond : 0xdc00+(pairCode high low-0x10000)%1024=low := by omega
  rw [unitsOf,Char.toNat_ofNat,if_pos hvalid,if_neg (by omega),hfirst,hsecond]

/-- The code points of units are scalar values exactly when the units are
UTF-16. -/
theorem codePoints_valid_iff {units : List ℕ} (h : ∀ unit ∈ units,unit < 0x10000) :
    (∀ code ∈ codePoints units,code.isValidChar) ↔ WellFormedUtf16 units := by
  constructor
  · intro hall
    induction units using codePoints.induct with
    | case1 => exact ⟨[],rfl⟩
    | case2 unit =>
      have hunit := unitsOf_unit (hall unit List.mem_cons_self) (h unit List.mem_cons_self)
      exact ⟨[Char.ofNat unit],by rw [List.flatMap_singleton,hunit]⟩
    | case3 high low rest hpair ih =>
      rw [codePoints_pair hpair.1 hpair.2] at hall
      have hrest := ih (fun u hu => h u (List.mem_cons_of_mem _ (List.mem_cons_of_mem _ hu)))
        fun code hcode => hall code (List.mem_cons_of_mem _ hcode)
      have hcons := hrest.cons (Char.ofNat (pairCode high low))
      rwa [unitsOf_pair hpair.1 hpair.2] at hcons
    | case4 high low rest hpair ih =>
      rw [codePoints,if_neg hpair] at hall
      have hrest := ih (fun u hu => h u (List.mem_cons_of_mem _ hu))
        fun code hcode => hall code (List.mem_cons_of_mem _ hcode)
      have hcons := hrest.cons (Char.ofNat high)
      rwa [unitsOf_unit (hall high List.mem_cons_self) (h high List.mem_cons_self)] at hcons
  · rintro ⟨text,rfl⟩ code hcode
    rw [codePoints_flatMap] at hcode
    obtain ⟨c,-,rfl⟩ := List.mem_map.mp hcode
    exact c.valid

end Units

end Gcad.Unicode
