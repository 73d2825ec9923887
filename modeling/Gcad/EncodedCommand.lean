import Gcad.Base64
import Gcad.CommandLine
import Gcad.TextSearch

/-!
# Encoded PowerShell commands

`LolbinsEngine::extract_and_decode_encoded_command`. Seven flags are tried in
turn; what follows the first occurrence of a flag is decoded up to the next
white space or double quote. A token in double quotes starts with a quote, so
it is empty for this reader and the payload is not looked at.
-/

namespace Gcad.EncodedCommand

open ByteView CommandLine Base64 TextSearch

/-- `std::tolower` in the C locale. -/
def tolower (c : UInt8) : UInt8 := if 0x41 ≤ c ∧ c ≤ 0x5A then c+0x20 else c

/-- `to_lower_ascii`. -/
def toLowerAscii (s : Bytes) : Bytes := s.map tolower

/-- The bytes of an ASCII text. -/
def ascii (s : String) : Bytes := s.toList.map fun c => UInt8.ofNat c.toNat

/-- `enc_flags`. -/
def encFlags : List Bytes :=
  [ascii "-encodedcommand ",ascii "/encodedcommand ",ascii "-encoded ",ascii "/encoded ",
    ascii "-enc ",ascii "/enc ",ascii "-e "]

/-- The characters of a token. -/
def tokenChar (c : UInt8) : Bool := !isspace c && decide (c≠quote)

/-- The token behind a position: white space is skipped, then it ends at white
space or a double quote. -/
def tokenAt (cmdline : Bytes) (start : ℕ) : Bytes :=
  ((cmdline.drop start).dropWhile isspace).takeWhile tokenChar

/-- The loop over the flags. -/
def searchFlags (cmdline lower : Bytes) : List Bytes → Option Bytes
  | [] => none
  | flag::rest =>
    match findSub flag lower with
    | some pos =>
      let token := tokenAt cmdline (pos+flag.length)
      if token≠[] then decodeBase64 token else searchFlags cmdline lower rest
    | none => searchFlags cmdline lower rest

/-- `extract_and_decode_encoded_command`. -/
def extractAndDecodeEncodedCommand (cmdline : Bytes) : Option Bytes :=
  searchFlags cmdline (toLowerAscii cmdline) encFlags

/-- A command line with an encoded command: a flag in some letter case, which
ends with a blank, and behind it a Base64 token. No flag starts elsewhere. -/
structure Encoded (front flag token behind : Bytes) : Prop where
  /-- The flag is one of the recognised ones. -/
  recognised : toLowerAscii flag ∈ encFlags
  /-- The token is not empty. -/
  nonempty : token≠[]
  /-- The token has Base64 characters only. -/
  base64 : ∀ c ∈ token,c ∈ alphabet ∨ c=pad
  /-- Flags occur only there. -/
  only : ∀ other ∈ encFlags,∀ pos ≤ (front++flag++(token++behind)).length,
    other <+: (toLowerAscii (front++flag++(token++behind))).drop pos → pos=front.length

/-- The digits of a token in front of its padding. -/
def digits (token : Bytes) : Bytes :=
  (token.takeWhile fun c => decide (c≠pad)).filter fun c => decide (c ∈ alphabet)

section Decoder

/-- Every other character but the padding has no digit. -/
theorem digits_cons {c : UInt8} (hc : c≠pad) (rest : Bytes) :
    digits (c::rest)=if c ∈ alphabet then c::digits rest else digits rest := by
  unfold digits
  rw [List.takeWhile_cons_of_pos (by simpa only [decide_eq_true_eq] using hc),List.filter_cons]
  simp only [decide_eq_true_eq]

/-- The loop yields nothing as long as the digits do not fill a byte. -/
theorem decodeLoop_eq_nil_iff (token : Bytes) (val : UInt32) {bits : ℤ} (h : bits < 0) :
    decodeLoop val bits token=[] ↔ bits+6*(digits token).length < 0 := by
  induction token generalizing val bits with
  | nil => simpa [decodeLoop,digits] using h
  | cons c rest ih =>
    by_cases hpad : c=pad
    · rw [decodeLoop,if_pos hpad]
      have hnone : digits (c::rest)=[] := by
        unfold digits
        rw [List.takeWhile_cons_of_neg (by simpa using hpad),List.filter_nil]
      rw [hnone]
      simpa using h
    · rw [decodeLoop,if_neg hpad,digits_cons hpad]
      dsimp only
      by_cases hdigit : c ∈ alphabet
      · have htable := tableAt_alphabet hdigit
        rw [if_neg (by omega),if_pos hdigit,List.length_cons]
        split
        · next hfull =>
          refine ⟨fun h => (List.cons_ne_nil _ _ h).elim,fun hneg => ?_⟩
          omega
        · next hshort =>
          rw [ih _ (by omega)]
          constructor <;> intro hneg <;> omega
      · rw [if_pos (tableAt_junk ⟨hdigit,hpad⟩),if_neg hdigit,ih _ h]

/-- Nothing is decoded exactly from fewer than two digits. -/
theorem decodeBase64_eq_none_iff (token : Bytes) :
    decodeBase64 token=none ↔ (digits token).length < 2 := by
  have hloop := @decodeLoop_eq_nil_iff token 0 (-8) (by decide)
  unfold decodeBase64
  by_cases hempty : token=[]
  · subst hempty
    exact ⟨fun _ => by decide,fun _ => rfl⟩
  · rw [if_neg hempty]
    dsimp only
    by_cases hraw : decodeLoop 0 (-8) token=[]
    · rw [if_pos hraw]
      exact ⟨fun _ => by have hneg := hloop.mp hraw; omega,fun _ => rfl⟩
    · rw [if_neg hraw]
      have hmany : ¬(digits token).length < 2 := fun hfew => hraw (hloop.mpr (by omega))
      split
      · exact ⟨fun h => (nomatch h),fun h => (hmany h).elim⟩
      · exact ⟨fun h => (nomatch h),fun h => (hmany h).elim⟩

end Decoder

section Flags

/-- At one place one flag can stand, because a flag has one blank, at its
end. -/
theorem encFlags_same {flag other text : Bytes} (hflag : flag ∈ encFlags)
    (hother : other ∈ encFlags) (h : flag <+: text) (h' : other <+: text) : flag=other := by
  have hall : ∀ a ∈ encFlags,∀ b ∈ encFlags,a <+: b → a=b := by decide +kernel
  rcases List.prefix_or_prefix_of_prefix h h' with hle|hle
  · exact hall flag hflag other hother hle
  · exact (hall other hother flag hflag hle).symm

/-- No flag has a double quote. -/
theorem encFlags_quote {flag : Bytes} (h : flag ∈ encFlags) : quote ∉ flag := by
  have hall : ∀ a ∈ encFlags,quote ∉ a := by decide +kernel
  exact hall flag h

/-- One flag more to try, where only one flag is found. -/
theorem searchFlags_cons {cmdline lower flag other : Bytes} {pos : ℕ} {rest : List Bytes}
    (hfound : findSub flag lower=some pos) (hother : other≠flag → findSub other lower=none) :
    searchFlags cmdline lower (other::rest)=
      if other=flag ∧ tokenAt cmdline (pos+flag.length)≠[] then
        decodeBase64 (tokenAt cmdline (pos+flag.length))
      else searchFlags cmdline lower rest := by
  rw [searchFlags]
  by_cases heq : other=flag
  · simp only [heq,hfound,true_and]
  · simp only [heq,hother heq,false_and,if_false]

/-- Where one flag is found and no other, its token decides. -/
theorem searchFlags_eq {cmdline lower flag : Bytes} {pos : ℕ} (hfound : findSub flag lower=some pos)
    {flags : List Bytes} (hmem : flag ∈ flags)
    (hothers : ∀ other ∈ flags,other≠flag → findSub other lower=none) :
    searchFlags cmdline lower flags=
      if tokenAt cmdline (pos+flag.length)≠[] then
        decodeBase64 (tokenAt cmdline (pos+flag.length))
      else none := by
  by_cases htoken : tokenAt cmdline (pos+flag.length)=[]
  · rw [if_neg (not_not.mpr htoken)]
    clear hmem
    induction flags with
    | nil => rfl
    | cons other rest ih =>
      rw [searchFlags_cons hfound (hothers other List.mem_cons_self),if_neg fun h => h.2 htoken]
      exact ih fun o member => hothers o (List.mem_cons_of_mem _ member)
  · rw [if_pos htoken]
    induction flags with
    | nil => exact absurd hmem List.not_mem_nil
    | cons other rest ih =>
      rw [searchFlags_cons hfound (hothers other List.mem_cons_self)]
      by_cases heq : other=flag
      · rw [if_pos ⟨heq,htoken⟩]
      · rw [if_neg fun h => heq h.1]
        refine ih ?_ fun o member => hothers o (List.mem_cons_of_mem _ member)
        exact (List.mem_cons.mp hmem).resolve_left fun hsame => heq hsame.symm

/-- Base64 characters stay in a token. -/
theorem tokenChar_base64 {c : UInt8} (h : c ∈ alphabet ∨ c=pad) :
    tokenChar c=true ∧ isspace c=false := by
  have hall : ∀ n < 64,tokenChar (digit n)=true ∧ isspace (digit n)=false := by decide +kernel
  have hpad : tokenChar pad=true ∧ isspace pad=false := by decide
  rcases h with hdigit|rfl
  · obtain ⟨n,hn,rfl⟩ := alphabet_digit hdigit
    exact hall n hn
  · exact hpad

end Flags

section Quoting

variable {front flag token behind : Bytes}

/-- The command line with the token in double quotes. -/
def quoted (front flag token behind : Bytes) : Bytes :=
  front++flag++(quote::(token++quote::behind))

/-- Lower case keeps the length. -/
theorem toLowerAscii_length (s : Bytes) : (toLowerAscii s).length=s.length := List.length_map _

/-- Lower case of a text in parts. -/
theorem toLowerAscii_append (s t : Bytes) :
    toLowerAscii (s++t)=toLowerAscii s++toLowerAscii t := List.map_append

/-- Lower case of the quoted line. -/
theorem toLowerAscii_quoted : toLowerAscii (quoted front flag token behind)=
    toLowerAscii (front++flag)++quote::(toLowerAscii token++quote::toLowerAscii behind) := by
  have hquote : tolower quote=quote := by decide
  rw [quoted,toLowerAscii_append]
  congr 1
  rw [toLowerAscii,List.map_cons,List.map_append,List.map_cons,hquote]
  rfl

/-- The flag is found behind the prefix, whatever follows it. -/
theorem Encoded.found (h : Encoded front flag token behind) (more : Bytes) :
    findSub (toLowerAscii flag) (toLowerAscii (front++flag)++more)=some front.length := by
  have hwithin : toLowerAscii flag <:+: toLowerAscii (front++flag) := by
    rw [toLowerAscii_append]
    exact (List.suffix_append _ _).isInfix
  rw [findSub_append hwithin,←findSub_append hwithin (toLowerAscii (token++behind)),
    ←toLowerAscii_append]
  cases hfind : findSub (toLowerAscii flag) (toLowerAscii (front++flag++(token++behind))) with
  | none =>
    refine (findSub_none_iff.mp hfind ?_).elim
    rw [toLowerAscii_append]
    exact hwithin.trans (List.prefix_append _ _).isInfix
  | some pos =>
    obtain ⟨hle,hstands⟩ := findSub_some hfind
    rw [toLowerAscii_length] at hle
    rw [h.only _ h.recognised pos hle hstands]

/-- No other flag is part of the line. -/
theorem Encoded.others (h : Encoded front flag token behind) {other : Bytes}
    (hother : other ∈ encFlags) (hne : other≠toLowerAscii flag) :
    ¬other <:+: toLowerAscii (front++flag++(token++behind)) := by
  intro hwithin
  cases hfind : findSub other (toLowerAscii (front++flag++(token++behind))) with
  | none => exact findSub_none_iff.mp hfind hwithin
  | some pos =>
    obtain ⟨hle,hstands⟩ := findSub_some hfind
    rw [toLowerAscii_length] at hle
    rw [h.only other hother pos hle hstands] at hstands
    have hflag : toLowerAscii flag <+:
        (toLowerAscii (front++flag++(token++behind))).drop front.length := by
      rw [toLowerAscii_append,toLowerAscii_append,List.append_assoc,
        ←toLowerAscii_length front,List.drop_left]
      exact List.prefix_append _ _
    exact hne (encFlags_same hother h.recognised hstands hflag)

/-- No other flag is part of the quoted line. -/
theorem Encoded.others_quoted (h : Encoded front flag token behind) {other : Bytes}
    (hother : other ∈ encFlags) (hne : other≠toLowerAscii flag) :
    ¬other <:+: toLowerAscii (quoted front flag token behind) := by
  have hnot := h.others hother hne
  rw [toLowerAscii_append,toLowerAscii_append token] at hnot
  rw [toLowerAscii_quoted]
  intro hwithin
  rcases infix_separated (encFlags_quote hother) hwithin with hhead|hwithin
  · exact hnot (hhead.trans (List.prefix_append _ _).isInfix)
  · rcases infix_separated (encFlags_quote hother) hwithin with htoken|hbehind
    · exact hnot ((htoken.trans (List.prefix_append _ _).isInfix).trans
        (List.suffix_append _ _).isInfix)
    · exact hnot ((hbehind.trans (List.suffix_append _ _).isInfix).trans
        (List.suffix_append _ _).isInfix)

/-- The token behind the flag. -/
theorem Encoded.token_eq (h : Encoded front flag token behind) :
    tokenAt (front++flag++(token++behind)) (front.length+(toLowerAscii flag).length)=
      token++behind.takeWhile tokenChar := by
  have hdrop : (front++flag++(token++behind)).drop (front.length+(toLowerAscii flag).length)=
      token++behind := by
    rw [toLowerAscii_length,←List.length_append,List.drop_left]
  have hall : ∀ c ∈ token,tokenChar c=true :=
    fun c member => (tokenChar_base64 (h.base64 c member)).1
  obtain ⟨c,rest,rfl⟩ := List.exists_cons_of_ne_nil h.nonempty
  have hspace := (tokenChar_base64 (h.base64 c List.mem_cons_self)).2
  rw [tokenAt,hdrop,List.cons_append,List.dropWhile_cons_of_neg (by rw [hspace]; exact nofun),
    ←List.cons_append,List.takeWhile_append_of_pos hall]

/-- The token behind the flag of the quoted line. -/
theorem token_quoted :
    tokenAt (quoted front flag token behind) (front.length+(toLowerAscii flag).length)=[] := by
  have hspace : ¬isspace quote=true := by decide
  have htoken : ¬tokenChar quote=true := by decide
  rw [tokenAt,quoted,toLowerAscii_length,←List.length_append,List.drop_left,
    List.dropWhile_cons_of_neg hspace,List.takeWhile_cons_of_neg htoken]

/-- What is decoded from the line without quotes. -/
theorem Encoded.extract_eq (h : Encoded front flag token behind) :
    extractAndDecodeEncodedCommand (front++flag++(token++behind))=
      decodeBase64 (token++behind.takeWhile tokenChar) := by
  have hfound := h.found (toLowerAscii (token++behind))
  rw [←toLowerAscii_append] at hfound
  have hne : token++behind.takeWhile tokenChar≠[] :=
    fun hempty => h.nonempty (List.append_eq_nil_iff.mp hempty).1
  rw [extractAndDecodeEncodedCommand,searchFlags_eq hfound h.recognised fun other hother hne =>
    findSub_none_iff.mpr (h.others hother hne),h.token_eq,if_pos hne]

/-- Nothing is decoded from the quoted line. -/
theorem Encoded.extract_quoted (h : Encoded front flag token behind) :
    extractAndDecodeEncodedCommand (quoted front flag token behind)=none := by
  have hfound := h.found (quote::(toLowerAscii token++quote::toLowerAscii behind))
  rw [←toLowerAscii_quoted] at hfound
  rw [extractAndDecodeEncodedCommand,searchFlags_eq hfound h.recognised fun other hother hne =>
    findSub_none_iff.mpr (h.others_quoted hother hne),token_quoted,if_neg (not_not.mpr rfl)]

/-- The payload is seen through quotes exactly where there is none: the token
has fewer than two digits in front of its padding. -/
theorem extract_quoted_iff (h : Encoded front flag token behind) :
    extractAndDecodeEncodedCommand (quoted front flag token behind)=
        extractAndDecodeEncodedCommand (front++flag++(token++behind)) ↔
      (digits (token++behind.takeWhile tokenChar)).length < 2 := by
  rw [h.extract_quoted,h.extract_eq,←decodeBase64_eq_none_iff]
  exact eq_comm

/-- A short encoded command. -/
theorem encoded_hi : Encoded (ascii "powershell ") (ascii "-Enc ") (ascii "aABpAA==") [] :=
  ⟨by decide +kernel,by decide +kernel,by decide +kernel,by decide +kernel⟩

/-- The condition for the short command. -/
theorem extract_quoted_hi :
    extractAndDecodeEncodedCommand
        (quoted (ascii "powershell ") (ascii "-Enc ") (ascii "aABpAA==") [])=
        extractAndDecodeEncodedCommand
          (ascii "powershell "++ascii "-Enc "++(ascii "aABpAA=="++[])) ↔
      (digits (ascii "aABpAA=="++([] : Bytes).takeWhile tokenChar)).length < 2 :=
  extract_quoted_iff encoded_hi

/-- The short command decodes to `hi`, and in quotes to nothing. -/
theorem extract_quoted_missed :
    Encoded (ascii "powershell ") (ascii "-Enc ") (ascii "aABpAA==") [] ∧
      extractAndDecodeEncodedCommand (ascii "powershell -Enc aABpAA==")=some (ascii "hi") ∧
      extractAndDecodeEncodedCommand
        (quoted (ascii "powershell ") (ascii "-Enc ") (ascii "aABpAA==") [])=none :=
  ⟨encoded_hi,by decide +kernel,by decide +kernel⟩

end Quoting

end Gcad.EncodedCommand
