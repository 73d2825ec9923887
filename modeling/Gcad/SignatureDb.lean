import Gcad.ByteView
import Gcad.LedgerText
import Gcad.Threat

/-!
# The signature database

`SignatureDB` of signature_db.cpp. `scan` stops at the first signature that
matches and `scan_all` collects one match of every signature. The first
compares a signature with a fixed offset byte for byte, the second leaves out
the bytes that the mask clears, so they agree exactly when the first match of
the second is a whole one. A database file has one signature on each line;
the numeric conversions of a line may throw, which ends the loading, or read
only the front of their text.
-/

namespace Gcad.SignatureDb

open Common ByteView DelimitedText LedgerText Threat

/-- `Signature`. -/
structure Signature where
  /-- The name it is reported under. -/
  name : Str
  /-- Underlying value of `level`. -/
  level : UInt8
  /-- The kind of threat. -/
  category : ThreatCategory
  /-- The bytes it looks for. -/
  pattern : Bytes
  /-- A zero byte leaves out the pattern byte at its index. -/
  mask : Bytes := []
  /-- Where the pattern has to stand, negative for anywhere. -/
  offset : ℤ := -1
  /-- What it is about. -/
  description : Str
  deriving DecidableEq

/-- `MatchResult`, with the position of the signature for the pointer to it. -/
structure MatchResult where
  /-- Position of the signature in the list. -/
  sig : ℕ
  /-- Where it was found. -/
  offset : ℕ
  deriving DecidableEq

section Scanners

/-- The byte is left out of the comparison. -/
def Signature.skips (sig : Signature) (j : ℕ) : Bool :=
  sig.mask≠[] && sig.mask[j]?=some 0

/-- The loop that compares the pattern with the bytes at an index. -/
def matchesAt (data : Bytes) (sig : Signature) (i : ℕ) : Bool :=
  (List.range sig.pattern.length).all fun j => sig.skips j || data[i+j]?=sig.pattern[j]?

/-- The body of the loop of `scan`: where the signature matches. -/
def scanSignature (data : Bytes) (sig : Signature) : Option ℕ :=
  if sig.pattern=[] ∨ data.length < sig.pattern.length then none
  else if 0 ≤ sig.offset then
    let off := sig.offset.toNat
    if data.length < off+sig.pattern.length then none
    else if slice data off sig.pattern.length=sig.pattern then some off
    else none
  else (List.range (data.length-sig.pattern.length+1)).find? (matchesAt data sig)

/-- `scan`. -/
def scan (signatures : List Signature) (data : Bytes) : Option MatchResult :=
  signatures.zipIdx.findSome? fun sig => (scanSignature data sig.1).map (MatchResult.mk sig.2)

/-- The body of the loop of `scan_all`: where the signature matches. The inner
loop ends at the first index whose pattern would leave the buffer. -/
def scanAllSignature (data : Bytes) (sig : Signature) : Option ℕ :=
  if sig.pattern=[] ∨ data.length < sig.pattern.length then none
  else
    let start := if 0 ≤ sig.offset then sig.offset.toNat else 0
    let stop := if 0 ≤ sig.offset then start+1 else data.length-sig.pattern.length+1
    ((List.range' start (stop-start)).takeWhile fun i =>
      i+sig.pattern.length ≤ data.length).find? (matchesAt data sig)

/-- `scan_all`. -/
def scanAll (signatures : List Signature) (data : Bytes) : List MatchResult :=
  signatures.zipIdx.filterMap fun sig =>
    (scanAllSignature data sig.1).map (MatchResult.mk sig.2)

/-- The signature has an index where the bytes that are not masked agree. -/
def Occurs (data : Bytes) (sig : Signature) : Prop :=
  sig.pattern≠[] ∧ ∃ i : ℕ,(0 ≤ sig.offset → sig.offset=i) ∧
    i+sig.pattern.length ≤ data.length ∧ matchesAt data sig i=true

/-- The bytes at the fixed offset of a signature are its whole pattern. -/
def Whole (data : Bytes) (sig : Signature) : Prop :=
  0 ≤ sig.offset → slice data sig.offset.toNat sig.pattern.length=sig.pattern

/-- The first signature of the list that occurs is whole. -/
def FirstWhole (signatures : List Signature) (data : Bytes) : Prop :=
  ∀ first sig rest,signatures=first++sig::rest → (∀ other ∈ first,¬Occurs data other) →
    Occurs data sig → Whole data sig

variable {data : Bytes} {sig : Signature}

/-- A whole pattern matches under every mask. -/
theorem matchesAt_of_slice {i : ℕ} (h : slice data i sig.pattern.length=sig.pattern) :
    matchesAt data sig i=true := by
  unfold matchesAt
  rw [List.all_eq_true]
  intro j hj
  have hget := slice_getElem? data i sig.pattern.length j
  rw [h,if_pos (List.mem_range.mp hj)] at hget
  rw [hget,decide_eq_true rfl,Bool.or_true]

/-- A signature that is too long for the buffer, or empty, is not found. -/
theorem scan_misfit (h : sig.pattern=[] ∨ data.length < sig.pattern.length) :
    scanSignature data sig=none ∧ scanAllSignature data sig=none :=
  ⟨if_pos h,if_pos h⟩

/-- A signature with a fixed offset, in both scanners. -/
theorem scan_fixed (hfit : ¬(sig.pattern=[] ∨ data.length < sig.pattern.length))
    (hfixed : 0 ≤ sig.offset) :
    scanSignature data sig=(if data.length < sig.offset.toNat+sig.pattern.length then none
      else if slice data sig.offset.toNat sig.pattern.length=sig.pattern
        then some sig.offset.toNat else none) ∧
    scanAllSignature data sig=(if data.length < sig.offset.toNat+sig.pattern.length then none
      else if matchesAt data sig sig.offset.toNat then some sig.offset.toNat else none) := by
  unfold scanSignature scanAllSignature
  rw [if_neg hfit,if_neg hfit,if_pos hfixed]
  refine ⟨rfl,?_⟩
  dsimp only
  rw [if_pos hfixed,if_pos hfixed,Nat.add_sub_cancel_left,List.range'_one]
  by_cases hroom : data.length < sig.offset.toNat+sig.pattern.length
  · have hout : ¬decide (sig.offset.toNat+sig.pattern.length ≤ data.length)=true := by
      rw [decide_eq_true_iff]
      omega
    rw [if_pos hroom,List.takeWhile_cons,if_neg hout]
    rfl
  · have hin : decide (sig.offset.toNat+sig.pattern.length ≤ data.length)=true := by
      rw [decide_eq_true_iff]
      omega
    rw [if_neg hroom,List.takeWhile_cons,if_pos hin,List.takeWhile_nil,List.find?_singleton]

/-- A signature that may stand anywhere, in both scanners. -/
theorem scan_floating (hfit : ¬(sig.pattern=[] ∨ data.length < sig.pattern.length))
    (hfloating : ¬0 ≤ sig.offset) :
    scanSignature data sig=
        (List.range (data.length-sig.pattern.length+1)).find? (matchesAt data sig) ∧
      scanAllSignature data sig=
        (List.range (data.length-sig.pattern.length+1)).find? (matchesAt data sig) := by
  have hroom : sig.pattern.length ≤ data.length := Nat.not_lt.mp (not_or.mp hfit).2
  unfold scanSignature scanAllSignature
  rw [if_neg hfit,if_neg hfit,if_neg hfloating]
  refine ⟨rfl,?_⟩
  dsimp only
  rw [if_neg hfloating,if_neg hfloating,Nat.sub_zero,← List.range_eq_range']
  refine congrArg (List.find? (matchesAt data sig)) (List.takeWhile_eq_self_iff.mpr ?_)
  intro i hi
  rw [decide_eq_true_iff]
  have hlt := List.mem_range.mp hi
  omega

/-- What `scan_all` finds of a signature. -/
theorem scanAllSignature_isSome : (scanAllSignature data sig).isSome=true ↔ Occurs data sig := by
  unfold Occurs
  by_cases hfit : sig.pattern=[] ∨ data.length < sig.pattern.length
  · rw [(scan_misfit hfit).2]
    refine iff_of_false nofun ?_
    rintro ⟨hne,i,-,hroom,-⟩
    rcases hfit with hnil | hlong
    · exact hne hnil
    · omega
  · obtain ⟨hne,hlong⟩ := not_or.mp hfit
    by_cases hfixed : 0 ≤ sig.offset
    · rw [(scan_fixed hfit hfixed).2]
      constructor
      · intro h
        split_ifs at h with hout hmatch
        · cases h
        · exact ⟨hne,sig.offset.toNat,fun _ => (Int.toNat_of_nonneg hfixed).symm,
            Nat.not_lt.mp hout,hmatch⟩
        · cases h
      · rintro ⟨-,i,hi,hroom,hmatch⟩
        have hnat : sig.offset.toNat=i := by
          rw [hi hfixed]
          rfl
        rw [hnat,if_neg (Nat.not_lt.mpr hroom),if_pos hmatch]
        rfl
    · rw [(scan_floating hfit hfixed).2,List.find?_isSome]
      constructor
      · rintro ⟨i,hi,hmatch⟩
        have hlt := List.mem_range.mp hi
        exact ⟨hne,i,fun h => absurd h hfixed,by omega,hmatch⟩
      · rintro ⟨-,i,-,hroom,hmatch⟩
        exact ⟨i,List.mem_range.mpr (by omega),hmatch⟩

/-- Both scanners agree on a whole signature. -/
theorem scanSignature_whole (h : Whole data sig) :
    scanSignature data sig=scanAllSignature data sig := by
  by_cases hfit : sig.pattern=[] ∨ data.length < sig.pattern.length
  · rw [(scan_misfit hfit).1,(scan_misfit hfit).2]
  · by_cases hfixed : 0 ≤ sig.offset
    · have hslice := h hfixed
      rw [(scan_fixed hfit hfixed).1,(scan_fixed hfit hfixed).2,if_pos hslice,
        if_pos (matchesAt_of_slice hslice)]
    · rw [(scan_floating hfit hfixed).1,(scan_floating hfit hfixed).2]

/-- `scan` does not find a signature that is not whole. -/
theorem scanSignature_not_whole (h : ¬Whole data sig) : scanSignature data sig=none := by
  obtain ⟨hfixed,hslice⟩ := Classical.not_imp.mp h
  by_cases hfit : sig.pattern=[] ∨ data.length < sig.pattern.length
  · exact (scan_misfit hfit).1
  · rw [(scan_fixed hfit hfixed).1,if_neg hslice,ite_self]

/-- The results of `scan` on the rest of a list name its positions. -/
theorem le_of_findSome {signatures : List Signature} {n : ℕ} {result : MatchResult}
    (h : (signatures.zipIdx n).findSome? (fun sig =>
      (scanSignature data sig.1).map (MatchResult.mk sig.2))=some result) : n ≤ result.sig := by
  obtain ⟨before,⟨sig,i⟩,after,hlist,hfound,-⟩ := List.findSome?_eq_some_iff.mp h
  have hmem : (sig,i) ∈ signatures.zipIdx n := by
    rw [hlist]
    exact List.mem_append_right _ List.mem_cons_self
  obtain ⟨off,-,rfl⟩ := Option.map_eq_some_iff.mp hfound
  exact List.le_snd_of_mem_zipIdx hmem

/-- The first signature decides, or those after it. -/
theorem firstWhole_cons {signatures : List Signature} :
    FirstWhole (sig::signatures) data ↔ (Occurs data sig → Whole data sig) ∧
      (¬Occurs data sig → FirstWhole signatures data) := by
  constructor
  · intro h
    refine ⟨h [] sig signatures rfl nofun,fun hnot first other rest hlist hfirst => ?_⟩
    refine h (sig::first) other rest (by rw [hlist]; rfl) fun before member => ?_
    rcases List.mem_cons.mp member with rfl | member
    · exact hnot
    · exact hfirst before member
  · rintro ⟨hhead,htail⟩ first other rest hlist hfirst hoccurs
    rcases first with _ | ⟨before,first⟩
    · obtain ⟨rfl,-⟩ := List.cons.inj hlist
      exact hhead hoccurs
    · obtain ⟨rfl,hrest⟩ := List.cons.inj hlist
      exact htail (hfirst _ List.mem_cons_self) first other rest hrest
        (fun before member => hfirst before (List.mem_cons_of_mem _ member)) hoccurs

/-- The two loops from a position on. -/
theorem findSome_eq_head_iff (signatures : List Signature) (n : ℕ) :
    (signatures.zipIdx n).findSome? (fun sig =>
        (scanSignature data sig.1).map (MatchResult.mk sig.2))=
      (signatures.zipIdx n).findSome? (fun sig =>
        (scanAllSignature data sig.1).map (MatchResult.mk sig.2)) ↔
      FirstWhole signatures data := by
  induction signatures generalizing n with
  | nil =>
    refine iff_of_true rfl fun first sig rest h => ?_
    exact absurd h.symm (List.append_ne_nil_of_right_ne_nil _ (List.cons_ne_nil _ _))
  | cons sig rest ih =>
    rw [List.zipIdx_cons,List.findSome?_cons,List.findSome?_cons,firstWhole_cons]
    dsimp only
    by_cases hoccurs : Occurs data sig
    · obtain ⟨off,hoff⟩ := Option.isSome_iff_exists.mp (scanAllSignature_isSome.mpr hoccurs)
      rw [hoff]
      by_cases hwhole : Whole data sig
      · rw [scanSignature_whole hwhole,hoff]
        exact iff_of_true rfl ⟨fun _ => hwhole,fun h => absurd hoccurs h⟩
      · rw [scanSignature_not_whole hwhole]
        refine iff_of_false (fun h => ?_) fun h => hwhole (h.1 hoccurs)
        have hle := le_of_findSome h
        dsimp only at hle
        omega
    · have hnone := Option.not_isSome_iff_eq_none.mp (mt scanAllSignature_isSome.mp hoccurs)
      have hscan : scanSignature data sig=none := by
        by_cases hwhole : Whole data sig
        · rw [scanSignature_whole hwhole,hnone]
        · exact scanSignature_not_whole hwhole
      rw [hnone,hscan]
      exact (ih (n+1)).trans ⟨fun h => ⟨fun ho => absurd ho hoccurs,fun _ => h⟩,
        fun h => h.2 hoccurs⟩

/-- For every list of signatures and every buffer: `scan` returns the first
result of `scan_all`, or nothing where there is none, if and only if the
first signature that occurs under its mask is whole. -/
theorem scanners_agree_iff (signatures : List Signature) (data : Bytes) :
    scan signatures data=(scanAll signatures data).head? ↔ FirstWhole signatures data := by
  unfold scan scanAll
  rw [List.head?_filterMap]
  exact findSome_eq_head_iff signatures 0

/-- A pattern of two bytes at the start of a buffer, the second one masked. -/
def maskedHeader : Signature :=
  { name := [],level := 0,category := .none,pattern := [1,2],mask := [0xFF,0],offset := 0
    description := [] }

/-- `scan_all` honours the mask at a fixed offset and `scan` does not. -/
theorem scanners_disagree :
    scan [maskedHeader] [1,3]=none ∧ scanAll [maskedHeader] [1,3]=[⟨0,0⟩] := by decide

end Scanners

section Files

/-- A hexadecimal digit and its value. -/
def hexDigit (c : Char) : Option ℕ :=
  if c.isDigit then some (c.toNat- '0'.toNat)
  else if 'a' ≤ c ∧ c ≤ 'f' then some (c.toNat- 'a'.toNat+10)
  else if 'A' ≤ c ∧ c ≤ 'F' then some (c.toNat- 'A'.toNat+10)
  else none

/-- Value of a text of hexadecimal digits. -/
def hexValue (digits : Str) : ℕ :=
  digits.foldl (fun value c => 16*value+(hexDigit c).getD 0) 0

/-- The optional `0x` in front of hexadecimal digits. -/
def dropHexPrefix : Str → Str
  | '0'::x::c::rest =>
    if (x = 'x' ∨ x = 'X') ∧ (hexDigit c).isSome then c::rest else '0'::x::c::rest
  | text => text

/-- `std::stoul` with base sixteen on a text that is too short to overflow, before the value
wraps; nothing is returned where it throws. -/
def stoulHex (text : Str) : Option ℤ :=
  let signed := readSign (text.dropWhile isSpace)
  let digits := (dropHexPrefix signed.2).takeWhile fun c => (hexDigit c).isSome
  if digits=[] then none
  else some (if signed.1 then -(hexValue digits : ℤ) else hexValue digits)

/-- The loop over the hexadecimal field: two characters give a byte and a
last single character is ignored. -/
def hexBytes : Str → Option Bytes
  | c::d::rest =>
    (stoulHex [c,d]).bind fun value => (hexBytes rest).map fun bytes => UInt8.ofInt value::bytes
  | _ => some []

/-- The four fields of a line. -/
structure SignatureLine where
  /-- Up to the first separator. -/
  name : Str
  /-- Up to the second separator. -/
  level : Str
  /-- Up to the third separator. -/
  hex : Str
  /-- The rest. -/
  description : Str
  deriving DecidableEq

/-- The fields of a line that is not skipped: it is no comment and has at
least three separators. -/
def fieldsOf (text : Str) : Option SignatureLine :=
  if text=[] ∨ text.head?=some '#' then none
  else
    (cutFirst '|' text).bind fun first => (cutFirst '|' first.2).bind fun second =>
      (cutFirst '|' second.2).map fun third => ⟨first.1,second.1,third.1,third.2⟩

/-- The signature that `load_from_file` makes of the fields, or `none` where
a conversion throws. -/
def readSignature (fields : SignatureLine) : Option Signature :=
  (stoi fields.level).bind fun level => (hexBytes fields.hex).map fun pattern =>
    { name := fields.name,level := UInt8.ofInt level,category := .suspiciousBinary
      pattern := pattern,description := fields.description }

/-- The loop of `load_from_file`: the signatures afterwards, and whether an
exception has ended it. -/
def loadLines (signatures : List Signature) : List Str → List Signature×Bool
  | [] => (signatures,false)
  | text::rest =>
    match fieldsOf text with
    | none => loadLines signatures rest
    | some fields =>
      match readSignature fields with
      | none => (signatures,true)
      | some sig => loadLines (signatures++[sig]) rest

/-- `load_from_file`; the file may be impossible to open. -/
def loadFromFile (signatures : List Signature) (file : Option Str) : List Signature×Bool :=
  match file with
  | none => (signatures,false)
  | some content => loadLines signatures (pieces '\n' content)

/-- A decimal number with an optional sign and nothing else. -/
def decimal (text : Str) : Option ℤ :=
  let signed := readSign text
  if signed.2≠[] ∧ signed.2.all Char.isDigit then
    some (if signed.1 then -(Nat.ofDigitChars 10 signed.2 0 : ℤ) else Nat.ofDigitChars 10 signed.2 0)
  else none

/-- The bytes of an even number of hexadecimal digits. -/
def hexPairs : Str → Option Bytes
  | [] => some []
  | [_] => none
  | c::d::rest =>
    (hexDigit c).bind fun high => (hexDigit d).bind fun low =>
      (hexPairs rest).map fun bytes => UInt8.ofNat (16*high+low)::bytes

/-- The signature that well-formed fields describe. -/
def describedBy (fields : SignatureLine) : Option Signature :=
  (decimal fields.level).bind fun level => (hexPairs fields.hex).map fun pattern =>
    { name := fields.name,level := UInt8.ofInt level,category := .suspiciousBinary
      pattern := pattern,description := fields.description }

/-- A line that is no comment and has at least three bars. Its first three
fields hold no bar, the last one is the rest. -/
structure SplitsInto (text : Str) (fields : SignatureLine) : Prop where
  /-- No `#` stands in front. -/
  noComment : text.head?≠some '#'
  /-- The fields and the bars between them. -/
  line : text=fields.name++ '|'::(fields.level++ '|'::(fields.hex++ '|'::fields.description))
  /-- The name ends at the first bar. -/
  name : '|' ∉ fields.name
  /-- The level ends at the second bar. -/
  level : '|' ∉ fields.level
  /-- The digits end at the third bar. -/
  hex : '|' ∉ fields.hex

/-- What a line is to add: a signature if it has the fields of one. -/
def Adds (text : Str) (added : Option Signature) : Prop :=
  ∀ sig,added=some sig ↔ ∃ fields,SplitsInto text fields ∧ describedBy fields=some sig

/-- The file is loaded without an exception, and what its lines are to add is
added in their order. -/
def Robust (signatures : List Signature) (content : Str) : Prop :=
  ∃ added,List.Forall₂ Adds (pieces '\n' content) added ∧
    loadFromFile signatures (some content)=(signatures++added.reduceOption,false)

/-- A line that is not skipped is well-formed: a decimal level that an `int`
holds and an even number of hexadecimal digits. -/
structure WellFormed (fields : SignatureLine) : Prop where
  /-- A decimal number that an `int` holds. -/
  level : ∃ level,decimal fields.level=some level ∧ -2^31 ≤ level ∧ level < 2^31
  /-- The digits come in pairs. -/
  even : Even fields.hex.length
  /-- They are hexadecimal. -/
  digits : ∀ c ∈ fields.hex,(hexDigit c).isSome=true

/-- Hexadecimal digits in pairs. -/
theorem hexPairs_isSome {hex : Str} : (hexPairs hex).isSome=true ↔
    Even hex.length ∧ ∀ c ∈ hex,(hexDigit c).isSome=true := by
  induction hex using hexPairs.induct with
  | case1 => exact iff_of_true rfl ⟨Even.zero,nofun⟩
  | case2 c => exact iff_of_false nofun fun h => absurd h.1 Nat.not_even_one
  | case3 c d rest ih =>
    have heven : Even (c::d::rest).length ↔ Even rest.length := by
      rw [List.length_cons,List.length_cons,Nat.add_assoc,Nat.even_add]
      exact iff_true_right even_two
    rw [heven,List.forall_mem_cons,List.forall_mem_cons,hexPairs]
    cases hexDigit c with
    | none => exact iff_of_false nofun fun h => absurd h.2.1 nofun
    | some high =>
      cases hexDigit d with
      | none => exact iff_of_false nofun fun h => absurd h.2.2.1 nofun
      | some low =>
        rw [Option.bind_some,Option.bind_some,Option.isSome_map,ih]
        simp only [Option.isSome_some,true_and]

/-- A hexadecimal digit is neither a blank nor a sign. -/
theorem hexDigit_plain {c : Char} (h : (hexDigit c).isSome=true) :
    isSpace c=false ∧ c ≠ '-' ∧ c ≠ '+' := by
  refine ⟨?_,?_,?_⟩
  · by_contra hs
    simp only [isSpace,Bool.not_eq_false,Bool.or_eq_true,Bool.and_eq_true,decide_eq_true_eq] at hs
    rcases hs with rfl | hs
    · exact absurd h (by decide)
    · have hrange : 48 ≤ c.toNat := by
        unfold hexDigit at h
        split_ifs at h with hd ha hA
        · exact (Char.isDigit_iff_toNat.mp hd).1
        · exact le_trans (by decide) (UInt32.le_iff_toNat_le.mp (Char.le_def.mp ha.1))
        · exact le_trans (by decide) (UInt32.le_iff_toNat_le.mp (Char.le_def.mp hA.1))
        · cases h
      omega
  all_goals
    rintro rfl
    exact absurd h (by decide)

/-- Two hexadecimal digits convert to their value. -/
theorem stoulHex_pair {c d : Char} {high low : ℕ} (hc : hexDigit c=some high)
    (hd : hexDigit d=some low) : stoulHex [c,d]=some ((16*high+low : ℕ) : ℤ) := by
  obtain ⟨hspace,hminus,hplus⟩ := hexDigit_plain (Option.isSome_of_eq_some hc)
  have hdrop : [c,d].dropWhile isSpace=[c,d] := by
    rw [List.dropWhile_cons,hspace]
    rfl
  have hsign : readSign [c,d]=(false,[c,d]) := readSign_plain hminus hplus
  have hbody : dropHexPrefix [c,d]=[c,d] := by
    unfold dropHexPrefix
    split
    · next heq => exact absurd (congrArg List.length heq) (by simp)
    · rfl
  have htake : [c,d].takeWhile (fun c => (hexDigit c).isSome)=[c,d] := by
    rw [List.takeWhile_cons_of_pos (by rw [hc]; rfl),List.takeWhile_cons_of_pos (by rw [hd]; rfl)]
    rfl
  have hvalue : hexValue [c,d]=16*high+low := by
    simp only [hexValue,List.foldl_cons,List.foldl_nil,hc,hd,Option.getD_some]
    omega
  unfold stoulHex
  dsimp only
  rw [hdrop,hsign]
  dsimp only
  rw [hbody,htake,if_neg (List.cons_ne_nil _ _),hvalue]
  rfl

/-- A cast to a byte keeps the low eight bits. -/
theorem ofInt_natCast (n : ℕ) : UInt8.ofInt (n : ℤ)=UInt8.ofNat n := by
  have hmod : ((n : ℤ)%2^8).toNat=n%2^8 := by omega
  rw [UInt8.ofInt,hmod]
  exact UInt8.ofNat_mod_size

/-- Pairs of digits give the same bytes in the loop. -/
theorem hexBytes_of_pairs {hex : Str} {bytes : Bytes} (h : hexPairs hex=some bytes) :
    hexBytes hex=some bytes := by
  induction hex using hexPairs.induct generalizing bytes with
  | case1 => exact h
  | case2 c => cases h
  | case3 c d rest ih =>
    rw [hexPairs] at h
    obtain ⟨high,hc,h⟩ := Option.bind_eq_some_iff.mp h
    obtain ⟨low,hd,h⟩ := Option.bind_eq_some_iff.mp h
    obtain ⟨tail,htail,rfl⟩ := Option.map_eq_some_iff.mp h
    rw [hexBytes,stoulHex_pair hc hd,Option.bind_some,ih htail,ofInt_natCast]
    rfl

/-- A decimal number does not begin with a blank. -/
theorem dropWhile_of_decimal {text : Str} (h : (decimal text).isSome=true) :
    text.dropWhile isSpace=text := by
  cases text with
  | nil => rfl
  | cons c rest =>
    have hspace : isSpace c=false := by
      by_contra hs
      have hminus : c ≠ '-' := fun hc => hs (by rw [hc]; decide)
      have hplus : c ≠ '+' := fun hc => hs (by rw [hc]; decide)
      unfold decimal at h
      rw [readSign_plain hminus hplus] at h
      dsimp only at h
      by_cases hdigits : c::rest≠[] ∧ (c::rest).all Char.isDigit=true
      · exact hs (isDigit_plain (List.all_eq_true.mp hdigits.2 c List.mem_cons_self)).1
      · rw [if_neg hdigits] at h
        cases h
    rw [List.dropWhile_cons,hspace]
    rfl

/-- A decimal number converts to itself when it fits an `int`. -/
theorem stoi_of_decimal {text : Str} {level : ℤ} (h : decimal text=some level) :
    stoi text=if level < -2^31 ∨ 2^31 ≤ level then none else some level := by
  have hdrop := dropWhile_of_decimal (Option.isSome_of_eq_some h)
  unfold decimal at h
  dsimp only at h
  by_cases hdigits : (readSign text).2≠[] ∧ (readSign text).2.all Char.isDigit=true
  · have htake : (readSign text).2.takeWhile Char.isDigit=(readSign text).2 :=
      List.takeWhile_eq_self_iff.mpr (List.all_eq_true.mp hdigits.2)
    have hscan : scanInteger text=
        some ((readSign text).1,Nat.ofDigitChars 10 (readSign text).2 0) := by
      unfold scanInteger
      dsimp only
      rw [hdrop,htake,if_neg hdigits.1]
    rw [if_pos hdigits] at h
    unfold stoi
    rw [hscan,Option.bind_some]
    dsimp only
    rw [Option.some.inj h]
  · rw [if_neg hdigits] at h
    cases h

/-- Well-formed fields are read as what they describe, and read at all only
if the level fits an `int`. -/
theorem readSignature_of_described {fields : SignatureLine} {sig : Signature}
    (h : describedBy fields=some sig) :
    (WellFormed fields → readSignature fields=some sig) ∧
      ((readSignature fields).isSome=true → WellFormed fields) := by
  obtain ⟨level,hlevel,h⟩ := Option.bind_eq_some_iff.mp h
  obtain ⟨pattern,hpattern,rfl⟩ := Option.map_eq_some_iff.mp h
  obtain ⟨heven,hdigits⟩ := hexPairs_isSome.mp (Option.isSome_of_eq_some hpattern)
  unfold readSignature
  rw [stoi_of_decimal hlevel,hexBytes_of_pairs hpattern]
  constructor
  · rintro ⟨⟨level',hlevel',hlow,hhigh⟩,-,-⟩
    obtain rfl := Option.some.inj (hlevel.symm.trans hlevel')
    rw [if_neg (by omega)]
    rfl
  · intro hread
    refine ⟨⟨level,hlevel,?_⟩,heven,hdigits⟩
    by_contra hout
    rw [if_pos (by omega)] at hread
    cases hread

/-- Well-formed fields describe a signature. -/
theorem WellFormed.described {fields : SignatureLine} (h : WellFormed fields) :
    ∃ sig,describedBy fields=some sig := by
  obtain ⟨level,hlevel,-,-⟩ := h.level
  obtain ⟨pattern,hpattern⟩ := Option.isSome_iff_exists.mp (hexPairs_isSome.mpr ⟨h.even,h.digits⟩)
  unfold describedBy
  rw [hlevel,hpattern]
  exact ⟨_,rfl⟩

/-- Of two selections from a list, the larger one is not larger when it has
the same number of members. -/
theorem isSome_of_length_eq {α β γ : Type*} {f : α → Option β} {g : α → Option γ} {l : List α}
    (hsub : ∀ x ∈ l,(g x).isSome=true → (f x).isSome=true)
    (hlength : (l.filterMap f).length=(l.filterMap g).length) :
    ∀ x ∈ l,(f x).isSome=true → (g x).isSome=true := by
  rw [List.length_filterMap_eq_countP,List.length_filterMap_eq_countP] at hlength
  induction l with
  | nil => exact nofun
  | cons a rest ih =>
    have hrest : ∀ x ∈ rest,(g x).isSome=true → (f x).isSome=true :=
      fun x member => hsub x (List.mem_cons_of_mem _ member)
    have hle := List.countP_mono_left hrest
    have hhead := hsub a List.mem_cons_self
    rw [List.countP_cons,List.countP_cons] at hlength
    cases hg : (g a).isSome with
    | true =>
      rw [hg,hhead hg] at hlength
      intro x member hx
      rcases List.mem_cons.mp member with rfl | member
      · exact hg
      · exact ih hrest (by omega) x member hx
    | false =>
      rw [hg] at hlength
      cases hf : (f a).isSome with
      | true =>
        rw [hf,if_pos rfl,if_neg Bool.false_ne_true] at hlength
        omega
      | false =>
        rw [hf] at hlength
        intro x member hx
        rcases List.mem_cons.mp member with rfl | member
        · rw [hf] at hx
          cases hx
        · exact ih hrest (by omega) x member hx

/-- The signature that a line adds. -/
def addedBy (text : Str) : Option Signature := (fieldsOf text).bind readSignature

/-- No conversion throws on a line that is not skipped. -/
def Readable (lines : List Str) : Prop :=
  ∀ text ∈ lines,∀ fields,fieldsOf text=some fields → (readSignature fields).isSome=true

/-- Lines whose conversions all succeed add their signatures. -/
theorem loadLines_readable {lines : List Str} (h : Readable lines) (signatures : List Signature) :
    loadLines signatures lines=(signatures++lines.filterMap addedBy,false) := by
  induction lines generalizing signatures with
  | nil => rw [loadLines,List.filterMap_nil,List.append_nil]
  | cons text rest ih =>
    have hrest : Readable rest := fun other member => h other (List.mem_cons_of_mem _ member)
    unfold loadLines
    cases hfields : fieldsOf text with
    | none =>
      have hnone : addedBy text=none := by rw [addedBy,hfields]; rfl
      rw [List.filterMap_cons_none hnone]
      exact ih hrest signatures
    | some fields =>
      obtain ⟨sig,hsig⟩ := Option.isSome_iff_exists.mp (h text List.mem_cons_self fields hfields)
      have hsome : addedBy text=some sig := by rw [addedBy,hfields]; exact hsig
      dsimp only
      rw [hsig,List.filterMap_cons_some hsome]
      dsimp only
      rw [ih hrest,List.append_assoc]
      rfl

/-- A file that is loaded to its end has lines whose conversions succeed. -/
theorem readable_of_loadLines {lines : List Str} {signatures : List Signature}
    (h : (loadLines signatures lines).2=false) : Readable lines := by
  induction lines generalizing signatures with
  | nil => exact nofun
  | cons text rest ih =>
    unfold loadLines at h
    intro other member fields hfields
    cases htext : fieldsOf text with
    | none =>
      rw [htext] at h
      rcases List.mem_cons.mp member with rfl | member
      · rw [htext] at hfields
        cases hfields
      · exact ih h other member fields hfields
    | some found =>
      rw [htext] at h
      dsimp only at h
      cases hsig : readSignature found with
      | none =>
        rw [hsig] at h
        cases h
      | some sig =>
        rw [hsig] at h
        rcases List.mem_cons.mp member with rfl | member
        · rw [htext] at hfields
          rw [← Option.some.inj hfields,hsig]
          rfl
        · exact ih h other member fields hfields

/-- The loader cuts the lines that have the fields of a signature, and cuts
them into these. -/
theorem fieldsOf_iff {text : Str} {fields : SignatureLine} :
    fieldsOf text=some fields ↔ SplitsInto text fields := by
  unfold fieldsOf
  constructor
  · intro h
    split_ifs at h with hskip
    simp only [Option.bind_eq_some_iff,Option.map_eq_some_iff,Prod.exists] at h
    obtain ⟨name,rest,hfirst,level,rest,hsecond,hex,description,hthird,rfl⟩ := h
    obtain ⟨rfl,hname⟩ := cutFirst_eq_some_iff.mp hfirst
    obtain ⟨rfl,hlevel⟩ := cutFirst_eq_some_iff.mp hsecond
    obtain ⟨rfl,hhex⟩ := cutFirst_eq_some_iff.mp hthird
    exact ⟨(not_or.mp hskip).2,rfl,hname,hlevel,hhex⟩
  · intro splits
    have hne : text≠[] := by
      rw [splits.line]
      exact List.append_ne_nil_of_right_ne_nil _ (List.cons_ne_nil _ _)
    rw [if_neg (not_or.mpr ⟨hne,splits.noComment⟩),
      cutFirst_eq_some_iff.mpr ⟨splits.line,splits.name⟩,Option.bind_some,
      cutFirst_eq_some_iff.mpr ⟨rfl,splits.level⟩,Option.bind_some,
      cutFirst_eq_some_iff.mpr ⟨rfl,splits.hex⟩,Option.map_some]

/-- What a line is to add is what its fields describe. -/
theorem adds_iff {text : Str} {added : Option Signature} :
    Adds text added ↔ added=(fieldsOf text).bind describedBy := by
  unfold Adds
  constructor
  · intro h
    refine Option.ext fun sig => (h sig).trans ?_
    simp only [Option.bind_eq_some_iff,fieldsOf_iff]
  · rintro rfl sig
    simp only [Option.bind_eq_some_iff,fieldsOf_iff]

/-- What the lines of a file are to add is determined by them. -/
theorem robust_iff (signatures : List Signature) (content : Str) :
    Robust signatures content ↔ loadLines signatures (pieces '\n' content)=
      (signatures++(pieces '\n' content).filterMap fun text =>
        (fieldsOf text).bind describedBy,false) := by
  have hadds : Adds=fun text added => added=(fieldsOf text).bind describedBy := by
    funext text added
    exact propext adds_iff
  have hadded : ∀ added,List.Forall₂ Adds (pieces '\n' content) added ↔
      (pieces '\n' content).map (fun text => (fieldsOf text).bind describedBy)=added := by
    intro added
    rw [hadds,← List.forall₂_eq_eq_eq,List.forall₂_map_left_iff]
    simp only [eq_comm]
  unfold Robust
  simp only [hadded,exists_eq_left',List.reduceOption,List.filterMap_map,Function.id_comp]
  exact Iff.rfl

/-- For every list of signatures and every file content: the file is loaded
without an exception and adds exactly the signatures of its well-formed
lines, if and only if every line with three bars that is no comment is
well-formed. -/
theorem load_robust_iff (signatures : List Signature) (content : Str) :
    Robust signatures content ↔
      ∀ text ∈ pieces '\n' content,∀ fields,SplitsInto text fields → WellFormed fields := by
  rw [robust_iff]
  simp only [← fieldsOf_iff]
  constructor
  · intro h
    have hread := readable_of_loadLines (congrArg Prod.snd h)
    rw [loadLines_readable hread,Prod.mk.injEq,List.append_cancel_left_eq] at h
    have hsub : ∀ text ∈ pieces '\n' content,((fieldsOf text).bind describedBy).isSome=true →
        (addedBy text).isSome=true := by
      intro text member hsome
      obtain ⟨sig,hsig⟩ := Option.isSome_iff_exists.mp hsome
      obtain ⟨fields,hfields,-⟩ := Option.bind_eq_some_iff.mp hsig
      rw [addedBy,hfields]
      exact hread text member fields hfields
    have hall := isSome_of_length_eq hsub (congrArg List.length h.1)
    intro text member fields hfields
    have hadded : (addedBy text).isSome=true := by
      rw [addedBy,hfields]
      exact hread text member fields hfields
    have hdescribed := hall text member hadded
    rw [hfields,Option.bind_some] at hdescribed
    obtain ⟨sig,hsig⟩ := Option.isSome_iff_exists.mp hdescribed
    exact (readSignature_of_described hsig).2 (hread text member fields hfields)
  · intro h
    have hsame : ∀ text ∈ pieces '\n' content,
        addedBy text=(fieldsOf text).bind describedBy := by
      intro text member
      unfold addedBy
      cases hfields : fieldsOf text with
      | none => rfl
      | some fields =>
        have hwell := h text member fields hfields
        obtain ⟨sig,hsig⟩ := hwell.described
        rw [Option.bind_some,Option.bind_some,hsig]
        exact (readSignature_of_described hsig).1 hwell
    have hread : Readable (pieces '\n' content) := by
      intro text member fields hfields
      have hwell := h text member fields hfields
      obtain ⟨sig,hsig⟩ := hwell.described
      rw [(readSignature_of_described hsig).1 hwell]
      rfl
    rw [loadLines_readable hread,List.filterMap_congr hsame]

/-- A level that is not a number ends the loading: the good line after it is
lost. -/
theorem load_not_robust :
    ¬∀ (signatures : List Signature) (content : Str),Robust signatures content := by
  intro h
  obtain ⟨added,-,hload⟩ := h [] "a|high|90|x\nb|3|90|y".toList
  have hthrown : (loadFromFile [] (some "a|high|90|x\nb|3|90|y".toList)).2=true := by
    decide +kernel
  rw [hload] at hthrown
  cases hthrown

end Files

end Gcad.SignatureDb
