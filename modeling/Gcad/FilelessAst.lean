import Gcad.EncodedCommand
import Gcad.Replacement

/-!
# Deobfuscating PowerShell scripts

`FilelessAstEngine::deobfuscate_powershell` with its four steps: backticks
are stripped, character casts evaluated, concatenations of literals merged in
two passes, and known reversals undone. A pass merges disjoint pairs of
literals, so two passes join the literals of a sum in groups of four, and
the groups stay apart.
-/

namespace Gcad.FilelessAst

open ByteView CommandLine EncodedCommand TextSearch Replacement

/-- The character `'\\''`. -/
def apostrophe : UInt8 := 0x27

/-- The character of the backtick. -/
def backtick : UInt8 := 0x60

/-- The character `'+'`. -/
def plus : UInt8 := 0x2B

/-- The character `'['`. -/
def bracket : UInt8 := 0x5B

/-- `strip_backticks`. -/
def stripBackticks : Bytes → Bytes
  | [] => []
  | c::rest =>
    match rest with
    | [] => [c]
    | n::_ => if c=backtick ∧ isalnum n=true then stripBackticks rest else c::stripBackticks rest

/-- `std::isdigit`. -/
def isdigit (c : UInt8) : Bool := 0x30 ≤ c && c ≤ 0x39

/-- `std::isxdigit`. -/
def isxdigit (c : UInt8) : Bool :=
  isdigit c || (0x41 ≤ c && c ≤ 0x46) || (0x61 ≤ c && c ≤ 0x66)

/-- The value of a digit. -/
def digitValue (c : UInt8) : ℕ :=
  if isdigit c then c.toNat-0x30 else (tolower c).toNat-0x61+10

/-- The number that `std::stoi` reads. Where it throws, the number is too
large for a character anyway. -/
def stoi (base : ℕ) (digits : Bytes) : ℕ := digits.foldl (fun v c => v*base+digitValue c) 0

/-- The number behind a cast: its length in the text and its value. -/
def castNumber (text : Bytes) : ℕ×ℕ :=
  match text with
  | zero::x::c::rest =>
    if zero=0x30 ∧ (x=0x78 ∨ x=0x58) then
      let digits := (c::rest).takeWhile isxdigit
      (2+digits.length,stoi 16 digits)
    else
      let digits := text.takeWhile isdigit
      (digits.length,stoi 10 digits)
  | _ =>
    let digits := text.takeWhile isdigit
    (digits.length,stoi 10 digits)

/-- A cast at the start of a text: its character and what follows it. -/
def castAt (text : Bytes) : Option (UInt8×Bytes) :=
  if 6 < text.length ∧ toLowerAscii (text.take 6)=ascii "[char]" then
    let number := (text.drop 6).dropWhile fun c => c=0x20 || c=0x28
    let (length,val) := castNumber number
    if 0 < length ∧ 32 ≤ val ∧ val ≤ 126 then
      match number.drop length with
      | c::rest => if c=0x29 then some (UInt8.ofNat val,rest) else some (UInt8.ofNat val,c::rest)
      | [] => some (UInt8.ofNat val,[])
    else none
  else none

/-- A cast consumes characters. -/
theorem castAt_length {text rest : Bytes} {c : UInt8} (h : castAt text=some (c,rest)) :
    rest.length < text.length := by
  unfold castAt at h
  by_cases hcast : 6 < text.length ∧ toLowerAscii (text.take 6)=ascii "[char]"
  · rw [if_pos hcast] at h
    dsimp only at h
    have hnumber := (List.dropWhile_suffix (l:=text.drop 6) fun c => c=0x20 || c=0x28).length_le
    rw [List.length_drop] at hnumber
    have hdrop : ∀ n,(((text.drop 6).dropWhile fun c => c=0x20 || c=0x28).drop n).length <
        text.length := by
      intro n
      rw [List.length_drop]
      omega
    split at h
    · split at h
      · next d tail hbehind =>
        have hlen := hdrop (castNumber ((text.drop 6).dropWhile fun c => c=0x20 || c=0x28)).1
        rw [hbehind,List.length_cons] at hlen
        split at h
        · cases h
          omega
        · cases h
          exact hlen
      · cases h
        exact (Nat.zero_le 6).trans_lt hcast.1
    · cases h
  · rw [if_neg hcast] at h
    cases h

/-- `deobfuscate_char_casts`. -/
def deobfuscateCharCasts (text : Bytes) : Bytes :=
  match _h : castAt text with
  | some (val,rest) => val::deobfuscateCharCasts rest
  | none =>
    match text with
    | [] => []
    | c::rest => c::deobfuscateCharCasts rest
termination_by text.length
decreasing_by
  · exact castAt_length _h
  · exact Nat.lt_succ_self _

/-- `s.find(quote, start)`: the text before the next such character, and the
text behind it. -/
def findQuote (q : UInt8) : Bytes → Option (Bytes×Bytes)
  | [] => none
  | c::rest =>
    if c=q then some ([],rest) else (findQuote q rest).map fun found => (c::found.1,found.2)

/-- A literal at the start of a text: its content and what follows it. -/
def literalAt : Bytes → Option (Bytes×Bytes)
  | [] => none
  | c::rest => if c=apostrophe ∨ c=quote then findQuote c rest else none

/-- What follows a plus sign at the start of a text. -/
def plusAt : Bytes → Option Bytes
  | [] => none
  | c::rest => if c=plus then some rest else none

/-- Two literals with a plus sign between them at the start of a text: their
joined content and what follows them. -/
def mergeAt (text : Bytes) : Option (Bytes×Bytes) := do
  let (first,behind) ← literalAt text
  let operand ← plusAt (behind.dropWhile isspace)
  let (second,rest) ← literalAt (operand.dropWhile isspace)
  return (first++second,rest)

/-- The closing character is consumed. -/
theorem findQuote_length {q : UInt8} {text content rest : Bytes}
    (h : findQuote q text=some (content,rest)) : rest.length < text.length := by
  induction text generalizing content with
  | nil => cases h
  | cons c text ih =>
    unfold findQuote at h
    split at h
    · cases h
      exact Nat.lt_succ_self _
    · obtain ⟨found,hfound,heq⟩ := Option.map_eq_some_iff.mp h
      cases heq
      exact (ih hfound).trans (Nat.lt_succ_self _)

/-- A literal consumes its quotes. -/
theorem literalAt_length {text content rest : Bytes} (h : literalAt text=some (content,rest)) :
    rest.length < text.length := by
  cases text with
  | nil => cases h
  | cons c text =>
    rw [literalAt] at h
    by_cases hquote : c=apostrophe ∨ c=quote
    · rw [if_pos hquote] at h
      exact (findQuote_length h).trans (Nat.lt_succ_self _)
    · rw [if_neg hquote] at h
      cases h

/-- The plus sign is consumed. -/
theorem plusAt_length {text rest : Bytes} (h : plusAt text=some rest) :
    rest.length < text.length := by
  cases text with
  | nil => cases h
  | cons c text =>
    rw [plusAt] at h
    by_cases hplus : c=plus
    · rw [if_pos hplus] at h
      cases h
      exact Nat.lt_succ_self _
    · rw [if_neg hplus] at h
      cases h

/-- Two literals are consumed. -/
theorem mergeAt_length {text content rest : Bytes} (h : mergeAt text=some (content,rest)) :
    rest.length < text.length := by
  simp only [mergeAt,Option.bind_eq_bind,Option.bind_eq_some_iff,Option.pure_def,
    Option.some.injEq,Prod.mk.injEq] at h
  obtain ⟨⟨first,behind⟩,hfirst,operand,hplus,⟨second,last⟩,hsecond,-,hrest⟩ := h
  have hlast : last=rest := hrest
  dsimp only at hplus
  have h1 := literalAt_length hfirst
  have h2 := literalAt_length hsecond
  have h3 := (List.dropWhile_suffix (l:=behind) isspace).length_le
  have h4 := (List.dropWhile_suffix (l:=operand) isspace).length_le
  have h5 := plusAt_length hplus
  rw [←hlast]
  omega

/-- `deobfuscate_string_concat`. -/
def deobfuscateStringConcat (text : Bytes) : Bytes :=
  match _h : mergeAt text with
  | some (content,rest) => apostrophe::(content++apostrophe::deobfuscateStringConcat rest)
  | none =>
    match text with
    | [] => []
    | c::rest => c::deobfuscateStringConcat rest
termination_by text.length
decreasing_by
  · exact mergeAt_length _h
  · exact Nat.lt_succ_self _

/-- `known_reversals`. -/
def knownReversals : List (Bytes×Bytes) :=
  [(ascii "gnirtsdaolnwod",ascii "downloadstring"),(ascii "elifdaolnwod",ascii "downloadfile"),
    (ascii "ataddaolnwod",ascii "downloaddata"),
    (ascii "noisserpxe-ekovni",ascii "invoke-expression"),
    (ascii "tpeccatrap",ascii "partaccept"),(ascii "xei",ascii "iex")]

/-- The search loop for one reversal on the text and its lower case, behind so
many characters that were just written. -/
def replaceLoop (rev orig : Bytes) : ℕ → Bytes → Bytes → Bytes×Bytes
  | skip+1,_::out,_::lower => replaceLoop rev orig skip out lower
  | 0,c::out,d::lower =>
    if rev <+: d::lower then
      let behind := replaceLoop rev orig (rev.length-1) out lower
      (orig++behind.1,orig++behind.2)
    else
      let behind := replaceLoop rev orig 0 out lower
      (c::behind.1,d::behind.2)
  | _,out,lower => (out,lower)

/-- `deobfuscate_reverse_patterns`. -/
def deobfuscateReversePatterns (s : Bytes) : Bytes :=
  (knownReversals.foldl (fun text pair => replaceLoop pair.1 pair.2 0 text.1 text.2)
    (s,toLowerAscii s)).1

/-- `deobfuscate_powershell`. -/
def deobfuscatePowershell (script : Bytes) : Bytes :=
  let step1 := stripBackticks script
  let step2 := deobfuscateCharCasts step1
  let step3 := deobfuscateStringConcat step2
  let step3 := deobfuscateStringConcat step3
  deobfuscateReversePatterns step3

end Gcad.FilelessAst
