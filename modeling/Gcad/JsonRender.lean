import Gcad.Json

/-!
# Texts written without escaping

A writer that copies its strings between quotes as they are produces the
text `render value`. What a reader makes of that text is settled here for
every value: it finds the written strings in the written places exactly
when no string holds a quote, a backslash, a control character or a byte
sequence that is not UTF-8.
-/

namespace Gcad.JsonRender

open Json

mutual

/-- The compact text of a value, with strings as they are. -/
def render : Value → List Char
  | .null => ['n','u','l','l']
  | .bool true => ['t','r','u','e']
  | .bool false => ['f','a','l','s','e']
  | .number text => text
  | .string text => '"'::text++['"']
  | .array [] => ['[',']']
  | .array (value::more) => '['::render value++renderElements more
  | .object [] => ['{','}']
  | .object ((key,value)::more) => '{':: '"'::key++ '"':: ':'::render value++renderMembers more

/-- The elements that are left, each behind a comma, and the bracket. -/
def renderElements : List Value → List Char
  | [] => [']']
  | value::more => ','::render value++renderElements more

/-- The members that are left, each behind a comma, and the brace. -/
def renderMembers : List (List Char×Value) → List Char
  | [] => ['}']
  | (key,value)::more => ',':: '"'::key++ '"':: ':'::render value++renderMembers more

end

/-- What a text holds besides its structure. -/
inductive Leaf where
  | key (text : List Char)
  | number (text : List Char)
  | string (text : List Char)

mutual

/-- The leaves of a value in the order of the text. -/
def leaves : Value → List Leaf
  | .null => []
  | .bool _ => []
  | .number text => [.number text]
  | .string text => [.string text]
  | .array elements => leavesElements elements
  | .object members => leavesMembers members

/-- The leaves of elements. -/
def leavesElements : List Value → List Leaf
  | [] => []
  | value::more => leaves value++leavesElements more

/-- The leaves of members. -/
def leavesMembers : List (List Char×Value) → List Leaf
  | [] => []
  | (key,value)::more => .key key::leaves value++leavesMembers more

end

/-- Decimal digits of a natural number. -/
def Decimal (text : List Char) : Prop := ∃ n, text=Nat.toDigits 10 n

/-- A name or number that a writer chooses and reads back unchanged. -/
def Leaf.Fixed : Leaf → Prop
  | .key text => Plain text ∧ utf8 text=true
  | .number text => Decimal text
  | .string _ => True

/-- A string that a reader finds as it was written. -/
def Leaf.Verbatim : Leaf → Prop
  | .string text => Plain text
  | _ => True

/-- A string that is UTF-8. -/
def Leaf.Utf8 : Leaf → Prop
  | .string text => utf8 text=true
  | _ => True

mutual

/-- The second value has the structure and the names of the first and the
strings of the first wherever they are not plain; its numbers are arbitrary. -/
inductive Carries : Value → Value → Prop where
  | null : Carries .null .null
  | bool (flag : Bool) : Carries (.bool flag) (.bool flag)
  | number (text other : List Char) : Carries (.number text) (.number other)
  | string {text other : List Char} (h : Plain text ∨ other=text) :
      Carries (.string text) (.string other)
  | array {elements others : List Value} (h : CarriesElements elements others) :
      Carries (.array elements) (.array others)
  | object {members others : List (List Char×Value)} (h : CarriesMembers members others) :
      Carries (.object members) (.object others)

/-- Elements are carried one by one. -/
inductive CarriesElements : List Value → List Value → Prop where
  | nil : CarriesElements [] []
  | cons {value other : Value} {more others : List Value} (h : Carries value other)
      (hmore : CarriesElements more others) : CarriesElements (value::more) (other::others)

/-- Members are carried one by one under their names. -/
inductive CarriesMembers : List (List Char×Value) → List (List Char×Value) → Prop where
  | nil : CarriesMembers [] []
  | cons (key : List Char) {value other : Value} {more others : List (List Char×Value)}
      (h : Carries value other) (hmore : CarriesMembers more others) :
      CarriesMembers ((key,value)::more) ((key,other)::others)

end

/-- A text that can follow a number. -/
def Ends (rest : List Char) : Prop :=
  ∀ c ∈ rest.head?, c.isDigit=false ∧ c ≠ '.' ∧ c ≠ 'e' ∧ c ≠ 'E'

section numbers

/-- A digit is no other character of the grammar. -/
theorem isDigit_range {c : Char} (h : c.isDigit=true) : 48 ≤ c.toNat ∧ c.toNat ≤ 57 := by
  rw [Char.isDigit,Bool.and_eq_true,decide_eq_true_iff,decide_eq_true_iff] at h
  exact ⟨UInt32.le_iff_toNat_le.mp h.1,UInt32.le_iff_toNat_le.mp h.2⟩

/-- A digit is not a character with a code outside the digits. -/
theorem isDigit_ne {c d : Char} (h : c.isDigit=true) (hd : d.isDigit=false) : c≠d := by
  rintro rfl
  rw [h] at hd
  cases hd

/-- A digit is not white space. -/
theorem isWhite_digit {c : Char} (h : c.isDigit=true) : isWhite c=false := by
  simp only [isWhite,Bool.or_eq_false_iff,decide_eq_false_iff_not]
  exact ⟨⟨⟨isDigit_ne h (by decide),isDigit_ne h (by decide)⟩,isDigit_ne h (by decide)⟩,
    isDigit_ne h (by decide)⟩

/-- Nothing is skipped in front of a token. -/
theorem skip_cons {c : Char} (h : isWhite c=false) (rest : List Char) : skip (c::rest)=c::rest := by
  rw [skip,List.dropWhile_cons_of_neg (by simp [h])]

/-- Decimal digits start with a digit. -/
theorem toDigits_eq_cons (n : ℕ) :
    ∃ c more, Nat.toDigits 10 n=c::more ∧ c.isDigit=true := by
  cases hlist : Nat.toDigits 10 n with
  | nil => exact absurd hlist Nat.toDigits_ne_nil
  | cons c more =>
    have hmem : c ∈ Nat.toDigits 10 n := by simp [hlist]
    exact ⟨c,more,rfl,Nat.isDigit_of_mem_toDigits (by norm_num) (by norm_num) hmem⟩

/-- The first digit of a positive number is not zero. -/
theorem head_toDigits_ne {n : ℕ} (hn : 0 < n) : (Nat.toDigits 10 n).head?≠some '0' := by
  induction n using Nat.strong_induction_on with
  | _ n ih =>
    rcases Nat.lt_or_ge n 10 with hsmall | hlarge
    · interval_cases n <;> decide
    · rw [Nat.toDigits_of_base_le (by norm_num) hlarge,List.head?_append]
      have hdiv := ih (n/10) (by omega) (by omega)
      cases hhead : (Nat.toDigits 10 (n/10)).head? with
      | none => exact absurd (List.head?_eq_none_iff.mp hhead) Nat.toDigits_ne_nil
      | some c =>
        rw [hhead] at hdiv
        exact hdiv

variable {rest : List Char}

/-- The digits in front of a text that ends a number. -/
theorem takeWhile_digits {digits : List Char} (h : ∀ c ∈ digits, c.isDigit=true)
    (hends : Ends rest) :
    (digits++rest).takeWhile Char.isDigit=digits ∧ (digits++rest).dropWhile Char.isDigit=rest := by
  rw [List.takeWhile_append_of_pos h,List.dropWhile_append_of_pos h]
  cases rest with
  | nil => simp
  | cons c rest =>
    have hc := (hends c rfl).1
    simp [hc]

/-- Decimal digits are read as the integer part. -/
theorem readInteger_toDigits (n : ℕ) (hends : Ends rest) :
    readInteger (Nat.toDigits 10 n++rest)=some (Nat.toDigits 10 n,rest) := by
  rcases Nat.eq_zero_or_pos n with rfl | hn
  · rfl
  · have hdigits : ∀ c ∈ Nat.toDigits 10 n, c.isDigit=true :=
      fun c hc => Nat.isDigit_of_mem_toDigits (by norm_num) (by norm_num) hc
    obtain ⟨htake,hdrop⟩ := takeWhile_digits hdigits hends
    have hhead := head_toDigits_ne hn
    have hne : Nat.toDigits 10 n≠[] := Nat.toDigits_ne_nil
    rw [readInteger]
    · rw [readDigits,htake,hdrop,if_neg hne]
    · intro other hother
      obtain ⟨c,more,hlist,-⟩ := toDigits_eq_cons n
      rw [hlist,List.cons_append,List.cons.injEq] at hother
      rw [hlist,List.head?_cons,hother.1] at hhead
      exact hhead rfl

/-- Decimal digits are read as a number. -/
theorem readNumber_toDigits (n : ℕ) (hends : Ends rest) :
    readNumber (Nat.toDigits 10 n++rest)=some (Nat.toDigits 10 n,rest) := by
  have hminus : readMinus (Nat.toDigits 10 n++rest)=([],Nat.toDigits 10 n++rest) := by
    rw [readMinus]
    intro other hother
    obtain ⟨c,more,hlist,hc⟩ := toDigits_eq_cons n
    rw [hlist,List.cons_append,List.cons.injEq] at hother
    exact isDigit_ne hc (by decide) hother.1
  have hfraction : readFraction rest=some ([],rest) := by
    rw [readFraction]
    rintro other rfl
    exact (hends '.' rfl).2.1 rfl
  have hexponent : readExponent rest=some ([],rest) := by
    cases rest with
    | nil => rfl
    | cons c rest =>
      obtain ⟨-,-,he,hE⟩ := hends c rfl
      rw [readExponent,if_neg (by simp [he,hE])]
  rw [readNumber,hminus,readInteger_toDigits n hends,Option.bind_some,hfraction,Option.bind_some,
    hexponent]
  simp

/-- Decimal digits are read as a scalar. -/
theorem readScalar_toDigits (n : ℕ) (hends : Ends rest) :
    readScalar (Nat.toDigits 10 n++rest)=some (.number (Nat.toDigits 10 n),rest) := by
  have hne : ∀ first name, Char.isDigit first=false → ¬first::name <+: Nat.toDigits 10 n++rest := by
    intro first name hfirst hstart
    obtain ⟨c,more,hlist,hc⟩ := toDigits_eq_cons n
    rw [hlist,List.cons_append,List.cons_prefix_cons] at hstart
    exact isDigit_ne hc hfirst hstart.1.symm
  rw [readScalar,if_neg (hne _ _ (by decide)),if_neg (hne _ _ (by decide)),
    if_neg (hne _ _ (by decide)),readNumber_toDigits n hends]
  rfl

/-- Decimal digits are not white space, quotes or brackets. -/
theorem readValue_toDigits (fuel n : ℕ) (hends : Ends rest) :
    readValue (fuel+1) (Nat.toDigits 10 n++rest)=some (.number (Nat.toDigits 10 n),rest) := by
  have hscalar := readScalar_toDigits n hends
  obtain ⟨c,more,hlist,hc⟩ := toDigits_eq_cons n
  have hskip : skip (Nat.toDigits 10 n++rest)=c::(more++rest) := by
    rw [hlist,List.cons_append,skip_cons (isWhite_digit hc)]
  rw [readValue,hskip]
  simp only [if_neg (isDigit_ne hc (show Char.isDigit '"'=false by decide)),
    if_neg (isDigit_ne hc (show Char.isDigit '{'=false by decide)),
    if_neg (isDigit_ne hc (show Char.isDigit '['=false by decide))]
  rw [← List.cons_append,← hlist]
  exact hscalar

end numbers

section utf8

mutual

/-- A rendered value is UTF-8 exactly when its strings are. -/
theorem utf8_render : ∀ (value : Value) (rest : List Char),
    (∀ leaf ∈ leaves value, leaf.Fixed) →
      (utf8 (render value++rest)=true ↔ (∀ leaf ∈ leaves value, leaf.Utf8) ∧ utf8 rest=true)
  | .null,rest,_ => by
    rw [render,utf8_ascii_append (by simp)]
    simp [leaves]
  | .bool true,rest,_ => by
    rw [render,utf8_ascii_append (by simp)]
    simp [leaves]
  | .bool false,rest,_ => by
    rw [render,utf8_ascii_append (by simp)]
    simp [leaves]
  | .number text,rest,hfixed => by
    obtain ⟨n,rfl⟩ := hfixed (.number text) (by simp [leaves])
    have hascii : ∀ c ∈ Nat.toDigits 10 n, c.toNat < 0x80 := by
      intro c hc
      have hrange := isDigit_range (Nat.isDigit_of_mem_toDigits (by norm_num) (by norm_num) hc)
      omega
    rw [render,utf8_ascii_append hascii]
    simp [leaves,Leaf.Utf8]
  | .string text,rest,_ => by
    rw [render,List.append_assoc,List.singleton_append,List.cons_append,
      utf8_cons_ascii _ (by decide),utf8_append_ascii _ _ (by decide),Bool.and_eq_true]
    simp [leaves,Leaf.Utf8]
  | .array [],rest,_ => by
    rw [render,utf8_ascii_append (by simp)]
    simp [leaves,leavesElements]
  | .array (value::more),rest,hfixed => by
    have h := utf8_renderElements (value::more) rest hfixed
    simp only [renderElements,List.cons_append] at h
    simp only [render,List.cons_append]
    rw [utf8_cons_ascii _ (by decide)] at h ⊢
    exact h
  | .object [],rest,_ => by
    rw [render,utf8_ascii_append (by simp)]
    simp [leaves,leavesMembers]
  | .object ((key,value)::more),rest,hfixed => by
    have h := utf8_renderMembers ((key,value)::more) rest hfixed
    simp only [renderMembers,List.cons_append] at h
    simp only [render,List.cons_append]
    rw [utf8_cons_ascii _ (by decide)] at h ⊢
    exact h

/-- Rendered elements are UTF-8 exactly when their strings are. -/
theorem utf8_renderElements : ∀ (elements : List Value) (rest : List Char),
    (∀ leaf ∈ leavesElements elements, leaf.Fixed) →
      (utf8 (renderElements elements++rest)=true ↔
        (∀ leaf ∈ leavesElements elements, leaf.Utf8) ∧ utf8 rest=true)
  | [],rest,_ => by
    rw [renderElements,utf8_ascii_append (by simp)]
    simp [leavesElements]
  | value::more,rest,hfixed => by
    simp only [leavesElements,List.forall_mem_append] at hfixed
    simp only [renderElements,leavesElements,List.cons_append,List.append_assoc,
      List.forall_mem_append]
    rw [utf8_cons_ascii _ (by decide),utf8_render value _ hfixed.1,
      utf8_renderElements more rest hfixed.2,and_assoc]

/-- Rendered members are UTF-8 exactly when their strings are. -/
theorem utf8_renderMembers : ∀ (members : List (List Char×Value)) (rest : List Char),
    (∀ leaf ∈ leavesMembers members, leaf.Fixed) →
      (utf8 (renderMembers members++rest)=true ↔
        (∀ leaf ∈ leavesMembers members, leaf.Utf8) ∧ utf8 rest=true)
  | [],rest,_ => by
    rw [renderMembers,utf8_ascii_append (by simp)]
    simp [leavesMembers]
  | (key,value)::more,rest,hfixed => by
    simp only [leavesMembers,List.cons_append,List.forall_mem_append,List.forall_mem_cons]
      at hfixed
    simp only [renderMembers,leavesMembers,List.cons_append,List.append_assoc,
      List.forall_mem_append,List.forall_mem_cons]
    rw [utf8_cons_ascii _ (by decide),utf8_cons_ascii _ (by decide),
      utf8_append_ascii _ _ (by decide),utf8_cons_ascii _ (by decide),hfixed.1.2,Bool.true_and,
      utf8_render value _ hfixed.2.1,utf8_renderMembers more rest hfixed.2.2]
    simp only [Leaf.Utf8,true_and,and_assoc]

end

end utf8

section reading

/-- A rendered value starts with a token that is not a closing bracket. -/
theorem render_eq_cons {value : Value} (h : ∀ leaf ∈ leaves value, leaf.Fixed) :
    ∃ c more, render value=c::more ∧ isWhite c=false ∧ c ≠ ']' := by
  cases value with
  | null => exact ⟨_,_,rfl,by decide,by decide⟩
  | bool flag => cases flag <;> exact ⟨_,_,rfl,by decide,by decide⟩
  | number text =>
    obtain ⟨n,rfl⟩ := h (.number text) (by simp [leaves])
    obtain ⟨c,more,hlist,hc⟩ := toDigits_eq_cons n
    exact ⟨c,more,hlist,isWhite_digit hc,isDigit_ne hc (by decide)⟩
  | string text => exact ⟨_,_,rfl,by decide,by decide⟩
  | array elements => cases elements <;> exact ⟨_,_,rfl,by decide,by decide⟩
  | object members => cases members <;> exact ⟨_,_,rfl,by decide,by decide⟩

/-- A quote opens a string. -/
theorem readValue_quote (fuel : ℕ) (text : List Char) :
    readValue (fuel+1) ('"'::text)=(scan none text).map fun read => (.string read.1,read.2) := by
  rw [readValue,skip_cons (by decide)]
  rfl

/-- A brace with a member behind it opens an object. -/
theorem readValue_brace (fuel : ℕ) (text : List Char) :
    readValue (fuel+1) ('{':: '"'::text)=
      (readMembers fuel (',':: '"'::text)).map fun read => (.object read.1,read.2) := by
  rw [readValue,skip_cons (by decide)]
  simp only [skip_cons (show isWhite '"'=false by decide)]
  rfl

/-- A bracket with a value behind it opens an array. -/
theorem readValue_bracket (fuel : ℕ) {value : Value} (h : ∀ leaf ∈ leaves value, leaf.Fixed)
    (text : List Char) : readValue (fuel+1) ('['::(render value++text))=
      (readElements fuel (','::(render value++text))).map fun read => (.array read.1,read.2) := by
  obtain ⟨c,more,hrender,hwhite,hc⟩ := render_eq_cons h
  have hhead : (c::(more++text)).head?≠some ']' := by simpa using hc
  rw [hrender,List.cons_append,readValue,skip_cons (by decide)]
  simp only [skip_cons hwhite,if_neg hhead]
  rfl

/-- A comma stands before every element. -/
theorem readElements_comma (fuel : ℕ) (text : List Char) :
    readElements (fuel+1) (','::text)=(readValue fuel text).bind fun value =>
      (readElements fuel value.2).map fun more => (value.1::more.1,more.2) := by
  rw [readElements,skip_cons (by decide)]
  rfl

/-- A comma and a name stand before the value of every member. -/
theorem readMembers_comma (fuel : ℕ) {key : List Char} (hkey : Plain key) (text : List Char) :
    readMembers (fuel+1) (',':: '"'::(key++ '"':: ':'::text))=(readValue fuel text).bind fun value =>
      (readMembers fuel value.2).map fun more => ((key,value.1)::more.1,more.2) := by
  have hread : readKey ('"'::(key++ '"':: ':'::text))=some (key,text) := by
    rw [readKey,skip_cons (by decide)]
    simp only [scan_plain hkey,Option.bind_some,skip_cons (show isWhite ':'=false by decide)]
  rw [readMembers,skip_cons (by decide)]
  simp only [hread,Option.bind_some]

/-- What follows an element ends a number. -/
theorem ends_renderElements (elements : List Value) (rest : List Char) :
    Ends (renderElements elements++rest) := by
  cases elements <;> simp [Ends,renderElements]

/-- What follows a member ends a number. -/
theorem ends_renderMembers (members : List (List Char×Value)) (rest : List Char) :
    Ends (renderMembers members++rest) := by
  cases members <;> simp [Ends,renderMembers]

mutual

/-- A value without special characters is read back. -/
theorem readValue_render : ∀ (value : Value) (fuel : ℕ) (rest : List Char),
    (∀ leaf ∈ leaves value, leaf.Fixed) → (∀ leaf ∈ leaves value, leaf.Verbatim) → Ends rest →
      2*(render value).length ≤ fuel → readValue fuel (render value++rest)=some (value,rest)
  | value,0,rest,hfixed,_,_,hfuel => by
    obtain ⟨c,more,hrender,-⟩ := render_eq_cons hfixed
    rw [hrender,List.length_cons] at hfuel
    omega
  | .null,fuel+1,rest,_,_,_,_ => by
    simp only [render,List.cons_append,List.nil_append]
    rw [readValue,skip_cons (by decide)]
    rfl
  | .bool true,fuel+1,rest,_,_,_,_ => by
    simp only [render,List.cons_append,List.nil_append]
    rw [readValue,skip_cons (by decide)]
    rfl
  | .bool false,fuel+1,rest,_,_,_,_ => by
    simp only [render,List.cons_append,List.nil_append]
    rw [readValue,skip_cons (by decide)]
    rfl
  | .number text,fuel+1,rest,hfixed,_,hends,_ => by
    obtain ⟨n,rfl⟩ := hfixed (.number text) (by simp [leaves])
    rw [render]
    exact readValue_toDigits fuel n hends
  | .string text,fuel+1,rest,_,hverbatim,_,_ => by
    have hplain : Plain text := hverbatim (.string text) (by simp [leaves])
    simp only [render,List.cons_append,List.append_assoc,List.nil_append]
    rw [readValue_quote,scan_plain hplain]
    rfl
  | .array [],fuel+1,rest,_,_,_,_ => by
    simp only [render,List.cons_append,List.nil_append]
    rw [readValue,skip_cons (by decide)]
    rfl
  | .array (value::more),fuel+1,rest,hfixed,hverbatim,_,hfuel => by
    have hvalue : ∀ leaf ∈ leaves value, leaf.Fixed :=
      fun leaf hleaf => hfixed leaf (List.mem_append_left _ hleaf)
    have hread := readElements_render (value::more) fuel rest hfixed hverbatim
      (by simp only [render,renderElements,List.cons_append,List.length_cons] at hfuel ⊢; omega)
    simp only [render,renderElements,List.cons_append,List.append_assoc] at hread ⊢
    rw [readValue_bracket fuel hvalue,hread]
    rfl
  | .object [],fuel+1,rest,_,_,_,_ => by
    simp only [render,List.cons_append,List.nil_append]
    rw [readValue,skip_cons (by decide)]
    rfl
  | .object ((key,value)::more),fuel+1,rest,hfixed,hverbatim,_,hfuel => by
    have hread := readMembers_render ((key,value)::more) fuel rest hfixed hverbatim
      (by simp only [render,renderMembers,List.cons_append,List.length_cons] at hfuel ⊢; omega)
    simp only [render,renderMembers,List.cons_append,List.append_assoc] at hread ⊢
    rw [readValue_brace,hread]
    rfl

/-- Elements without special characters are read back. -/
theorem readElements_render : ∀ (elements : List Value) (fuel : ℕ) (rest : List Char),
    (∀ leaf ∈ leavesElements elements, leaf.Fixed) →
      (∀ leaf ∈ leavesElements elements, leaf.Verbatim) →
        2*(renderElements elements).length ≤ fuel+1 →
          readElements fuel (renderElements elements++rest)=some (elements,rest)
  | elements,0,rest,_,_,hfuel => by
    cases elements <;> simp only [renderElements,List.cons_append,List.length_cons] at hfuel <;>
      omega
  | [],fuel+1,rest,_,_,_ => by
    simp only [renderElements,List.cons_append,List.nil_append]
    rw [readElements,skip_cons (by decide)]
    rfl
  | value::more,fuel+1,rest,hfixed,hverbatim,hfuel => by
    simp only [leavesElements,List.forall_mem_append] at hfixed hverbatim
    simp only [renderElements,List.length_cons,List.length_append] at hfuel
    simp only [renderElements,List.cons_append,List.append_assoc]
    rw [readElements_comma,readValue_render value fuel _ hfixed.1 hverbatim.1
      (ends_renderElements more rest) (by omega),Option.bind_some,
      readElements_render more fuel rest hfixed.2 hverbatim.2 (by omega)]
    rfl

/-- Members without special characters are read back. -/
theorem readMembers_render : ∀ (members : List (List Char×Value)) (fuel : ℕ) (rest : List Char),
    (∀ leaf ∈ leavesMembers members, leaf.Fixed) →
      (∀ leaf ∈ leavesMembers members, leaf.Verbatim) →
        2*(renderMembers members).length ≤ fuel+1 →
          readMembers fuel (renderMembers members++rest)=some (members,rest)
  | members,0,rest,_,_,hfuel => by
    rcases members with _ | ⟨⟨key,value⟩,more⟩ <;>
      simp only [renderMembers,List.cons_append,List.length_cons] at hfuel <;> omega
  | [],fuel+1,rest,_,_,_ => by
    simp only [renderMembers,List.cons_append,List.nil_append]
    rw [readMembers,skip_cons (by decide)]
    rfl
  | (key,value)::more,fuel+1,rest,hfixed,hverbatim,hfuel => by
    simp only [leavesMembers,List.cons_append,List.forall_mem_append,List.forall_mem_cons]
      at hfixed hverbatim
    simp only [renderMembers,List.length_cons,List.length_append] at hfuel
    simp only [renderMembers,List.cons_append,List.append_assoc]
    rw [readMembers_comma fuel hfixed.1.1,readValue_render value fuel _ hfixed.2.1 hverbatim.2.1
      (ends_renderMembers more rest) (by omega),Option.bind_some,
      readMembers_render more fuel rest hfixed.2.2 hverbatim.2.2 (by omega)]
    rfl

end

mutual

/-- A value that is read back with its strings in their places has no
special characters. -/
theorem verbatim_of_readValue : ∀ (value other : Value) (fuel : ℕ) (rest behind : List Char),
    (∀ leaf ∈ leaves value, leaf.Fixed) → 2*(render value).length ≤ fuel →
      readValue fuel (render value++rest)=some (other,behind) → Carries value other →
        ∀ leaf ∈ leaves value, leaf.Verbatim
  | .null,_,_,_,_,_,_,_,_ => by simp [leaves]
  | .bool _,_,_,_,_,_,_,_,_ => by simp [leaves]
  | .number text,_,_,_,_,_,_,_,_ => by simp [leaves,Leaf.Verbatim]
  | .string text,other,fuel,rest,behind,_,_,hread,hcarries => by
    cases fuel with
    | zero => cases hread
    | succ fuel =>
      simp only [render,List.cons_append,List.append_assoc,List.nil_append] at hread
      rw [readValue_quote] at hread
      obtain ⟨⟨found,tail⟩,hscan,hfound⟩ := Option.map_eq_some_iff.mp hread
      cases hfound
      cases hcarries with
      | string h =>
        rcases h with hplain | rfl
        · simpa [leaves,Leaf.Verbatim] using hplain
        · simpa [leaves,Leaf.Verbatim] using plain_of_scan hscan
  | .array [],_,_,_,_,_,_,_,_ => by simp [leaves,leavesElements]
  | .array (value::more),other,fuel,rest,behind,hfixed,hfuel,hread,hcarries => by
    cases fuel with
    | zero => cases hread
    | succ fuel =>
      have hvalue : ∀ leaf ∈ leaves value, leaf.Fixed :=
        fun leaf hleaf => hfixed leaf (List.mem_append_left _ hleaf)
      simp only [render,List.cons_append,List.append_assoc] at hread
      rw [readValue_bracket fuel hvalue] at hread
      obtain ⟨⟨found,tail⟩,helements,hfound⟩ := Option.map_eq_some_iff.mp hread
      cases hfound
      cases hcarries with
      | array h =>
        refine verbatim_of_readElements (value::more) found fuel rest tail hfixed ?_ ?_ h
        · simp only [render,renderElements,List.cons_append,List.length_cons] at hfuel ⊢
          omega
        · simp only [renderElements,List.cons_append,List.append_assoc]
          exact helements
  | .object [],_,_,_,_,_,_,_,_ => by simp [leaves,leavesMembers]
  | .object ((key,value)::more),other,fuel,rest,behind,hfixed,hfuel,hread,hcarries => by
    cases fuel with
    | zero => cases hread
    | succ fuel =>
      simp only [render,List.cons_append,List.append_assoc] at hread
      rw [readValue_brace] at hread
      obtain ⟨⟨found,tail⟩,hmembers,hfound⟩ := Option.map_eq_some_iff.mp hread
      cases hfound
      cases hcarries with
      | object h =>
        refine verbatim_of_readMembers ((key,value)::more) found fuel rest tail hfixed ?_ ?_ h
        · simp only [render,renderMembers,List.cons_append,List.length_cons] at hfuel ⊢
          omega
        · simp only [renderMembers,List.cons_append,List.append_assoc]
          exact hmembers

/-- The same for elements. -/
theorem verbatim_of_readElements : ∀ (elements others : List Value) (fuel : ℕ)
    (rest behind : List Char), (∀ leaf ∈ leavesElements elements, leaf.Fixed) →
      2*(renderElements elements).length ≤ fuel+1 →
        readElements fuel (renderElements elements++rest)=some (others,behind) →
          CarriesElements elements others → ∀ leaf ∈ leavesElements elements, leaf.Verbatim
  | [],_,_,_,_,_,_,_,_ => by simp [leavesElements]
  | value::more,others,fuel,rest,behind,hfixed,hfuel,hread,hcarries => by
    cases fuel with
    | zero => cases hread
    | succ fuel =>
      simp only [leavesElements,List.forall_mem_append] at hfixed ⊢
      simp only [renderElements,List.length_cons,List.length_append] at hfuel
      simp only [renderElements,List.cons_append,List.append_assoc] at hread
      rw [readElements_comma] at hread
      obtain ⟨⟨found,middle⟩,hvalue,htail⟩ := Option.bind_eq_some_iff.mp hread
      obtain ⟨⟨tail,last⟩,hmore,hfound⟩ := Option.map_eq_some_iff.mp htail
      cases hfound
      cases hcarries with
      | cons h hmoreCarries =>
        have hverbatim := verbatim_of_readValue value found fuel _ middle hfixed.1 (by omega)
          hvalue h
        have hrender := readValue_render value fuel _ hfixed.1 hverbatim
          (ends_renderElements more rest) (by omega)
        rw [hrender] at hvalue
        cases hvalue
        exact ⟨hverbatim,verbatim_of_readElements more tail fuel rest last hfixed.2 (by omega)
          hmore hmoreCarries⟩

/-- The same for members. -/
theorem verbatim_of_readMembers : ∀ (members others : List (List Char×Value)) (fuel : ℕ)
    (rest behind : List Char), (∀ leaf ∈ leavesMembers members, leaf.Fixed) →
      2*(renderMembers members).length ≤ fuel+1 →
        readMembers fuel (renderMembers members++rest)=some (others,behind) →
          CarriesMembers members others → ∀ leaf ∈ leavesMembers members, leaf.Verbatim
  | [],_,_,_,_,_,_,_,_ => by simp [leavesMembers]
  | (key,value)::more,others,fuel,rest,behind,hfixed,hfuel,hread,hcarries => by
    cases fuel with
    | zero => cases hread
    | succ fuel =>
      simp only [leavesMembers,List.cons_append,List.forall_mem_append,List.forall_mem_cons]
        at hfixed ⊢
      simp only [renderMembers,List.length_cons,List.length_append] at hfuel
      simp only [renderMembers,List.cons_append,List.append_assoc] at hread
      rw [readMembers_comma fuel hfixed.1.1] at hread
      obtain ⟨⟨found,middle⟩,hvalue,htail⟩ := Option.bind_eq_some_iff.mp hread
      obtain ⟨⟨tail,last⟩,hmore,hfound⟩ := Option.map_eq_some_iff.mp htail
      cases hfound
      cases hcarries with
      | cons _ h hmoreCarries =>
        have hverbatim := verbatim_of_readValue value found fuel _ middle hfixed.2.1 (by omega)
          hvalue h
        have hrender := readValue_render value fuel _ hfixed.2.1 hverbatim
          (ends_renderMembers more rest) (by omega)
        rw [hrender] at hvalue
        cases hvalue
        exact ⟨trivial,hverbatim,verbatim_of_readMembers more tail fuel rest last hfixed.2.2
          (by omega) hmore hmoreCarries⟩

end

end reading

section parsing

variable {value : Value}

/-- A value whose strings are plain and UTF-8 is what its text means. -/
theorem parse_render (hfixed : ∀ leaf ∈ leaves value, leaf.Fixed)
    (hverbatim : ∀ leaf ∈ leaves value, leaf.Verbatim) (hutf8 : ∀ leaf ∈ leaves value, leaf.Utf8) :
    parse (render value)=some value := by
  have htext : utf8 (render value)=true := by
    have h := (utf8_render value [] hfixed).mpr ⟨hutf8,rfl⟩
    rwa [List.append_nil] at h
  have hread := readValue_render value (2*(render value).length+2) [] hfixed hverbatim
    (by simp [Ends]) (by omega)
  rw [List.append_nil] at hread
  rw [parse,if_pos htext,hread]
  rfl

/-- A text that means a value with the written structure and strings has
plain UTF-8 strings only. -/
theorem verbatim_of_parse (hfixed : ∀ leaf ∈ leaves value, leaf.Fixed) {other : Value}
    (hparse : parse (render value)=some other) (hcarries : Carries value other) :
    (∀ leaf ∈ leaves value, leaf.Verbatim) ∧ ∀ leaf ∈ leaves value, leaf.Utf8 := by
  rw [parse] at hparse
  split_ifs at hparse with htext
  obtain ⟨⟨found,behind⟩,hread,hfound⟩ := Option.bind_eq_some_iff.mp hparse
  split_ifs at hfound with hskip
  cases hfound
  rw [← List.append_nil (render value)] at hread htext
  constructor
  · exact verbatim_of_readValue value found _ [] behind hfixed (by rw [List.append_nil]; omega)
      hread hcarries
  · exact ((utf8_render value [] hfixed).mp htext).1

/-- The text of one value of a family is read as some value of the family
exactly when its strings are plain and UTF-8, provided the other values of
the family carry it. -/
theorem exists_parse_iff {ι : Type*} (family : ι → Value) {i : ι}
    (hfixed : ∀ leaf ∈ leaves (family i), leaf.Fixed) (hcarries : ∀ j, Carries (family i) (family j)) :
    (∃ j, parse (render (family i))=some (family j)) ↔
      ∀ leaf ∈ leaves (family i), leaf.Verbatim ∧ leaf.Utf8 := by
  constructor
  · rintro ⟨j,hparse⟩ leaf hleaf
    obtain ⟨hverbatim,hutf8⟩ := verbatim_of_parse hfixed hparse (hcarries j)
    exact ⟨hverbatim leaf hleaf,hutf8 leaf hleaf⟩
  · intro h
    exact ⟨i,parse_render hfixed (fun leaf hleaf => (h leaf hleaf).1)
      fun leaf hleaf => (h leaf hleaf).2⟩

end parsing

end Gcad.JsonRender
