import Gcad.DerSafety
import Gcad.Authenticode
import Gcad.LedgerText

/-!
# Aliases of object identifiers

The text `oid_to_string` returns determines the first content byte and the
arcs modulo `2^64`, but not the bytes of an arc: a leading `0x80` byte adds
nothing to its value. So every accepted identifier with an arc of its own
bytes has other encodings with the same text; among the minimal encodings
with arcs below `2^64` there is only one.
-/

namespace Gcad.OidAliases

open Common ByteView Asn1 X509 DerSafety Authenticode LedgerText

/-- The arcs after the first content byte, or nothing if the last one is
open: the loop of `oid_to_string` without its text. -/
def decodeArcs : Bytes → ℕ → Bool → Option (List ℕ)
  | [],_,midArc => if midArc then none else some []
  | b::rest,value,_ =>
    let next := (value <<< 7 ||| b.toNat &&& 0x7f)%2^64
    if b.toNat &&& 0x80=0 then (decodeArcs rest 0 false).map fun arcs => next::arcs
    else decodeArcs rest next true

/-- The two arcs of the first content byte. -/
def firstArcs (first : UInt8) : ℕ×ℕ :=
  if 2 < first.toNat/40 then (2,first.toNat-80) else (first.toNat/40,first.toNat%40)

/-- Arcs with dots between them. -/
def dotted (arcs : List ℕ) : Str := List.intercalate ['.'] (arcs.map toDecimal)

section Text

/-- A list of texts joined by a separator. -/
theorem intercalate_cons_eq (sep : Char) (first : Str) (rest : List Str) :
    List.intercalate [sep] (first::rest)=first++rest.flatMap fun text => sep::text := by
  induction rest generalizing first with
  | nil => simp
  | cons second rest ih =>
    rw [List.intercalate_cons_cons,ih,List.flatMap_cons]
    simp

/-- The arc loop appends the arcs it decodes. -/
theorem oidArcs_eq (bytes : Bytes) (out : Str) (value : ℕ) (midArc : Bool) :
    oidArcs bytes out value midArc=
      match decodeArcs bytes value midArc with
      | none => []
      | some arcs => out++arcs.flatMap fun arc => '.'::toDecimal arc := by
  induction bytes generalizing out value midArc with
  | nil => cases midArc <;> simp [oidArcs,decodeArcs]
  | cons b rest ih =>
    rw [oidArcs,decodeArcs]
    split
    · rw [ih]
      cases decodeArcs rest 0 false with
      | none => rfl
      | some arcs => simp
    · exact ih out _ true

/-- The text of an identifier is the dotted form of its arcs. -/
theorem oidString_cons (first : UInt8) (rest : Bytes) :
    oidString (first::rest)=
      match decodeArcs rest 0 false with
      | none => []
      | some arcs => dotted ((firstArcs first).1::(firstArcs first).2::arcs) := by
  have htext : ∀ a b : ℕ, ∀ arcs : List ℕ, dotted (a::b::arcs)=
      toDecimal a++".".toList++toDecimal b++arcs.flatMap fun arc => '.'::toDecimal arc := by
    intro a b arcs
    unfold dotted
    rw [List.map_cons,List.map_cons,intercalate_cons_eq,List.flatMap_cons,List.flatMap_map]
    simp
  unfold oidString firstArcs
  dsimp only
  split <;> rw [oidArcs_eq] <;> cases decodeArcs rest 0 false <;> simp [htext]

/-- The arcs are read back from their dotted form. -/
theorem dotted_injective {arcs others : List ℕ} (hne : arcs≠[]) (hne' : others≠[])
    (h : dotted arcs=dotted others) : arcs=others := by
  have hplain : ∀ (list : List ℕ), ∀ text ∈ list.map toDecimal, '.' ∉ text := by
    intro list text htext hdot
    obtain ⟨arc,-,rfl⟩ := List.mem_map.mp htext
    have hdigit := isDigit_of_mem_toDecimal hdot
    revert hdigit
    decide
  have hsplit := congrArg (List.splitOn '.') h
  unfold dotted at hsplit
  rw [List.splitOn_intercalate '.' (hplain arcs) (by simpa using hne),
    List.splitOn_intercalate '.' (hplain others) (by simpa using hne')] at hsplit
  have hinjective : Function.Injective toDecimal := fun _ _ => toDecimal_injective
  exact hinjective.list_map hsplit

/-- A dotted form of two or more arcs is not empty. -/
theorem dotted_ne_nil (a : ℕ) (arcs : List ℕ) : dotted (a::arcs)≠[] := by
  unfold dotted
  rw [List.map_cons,intercalate_cons_eq]
  intro hnil
  exact toDecimal_ne_nil a (List.append_eq_nil_iff.mp hnil).1

/-- The first content byte is read back from its two arcs. -/
theorem firstArcs_injective {first other : UInt8} (h : firstArcs first=firstArcs other) :
    first=other := by
  have hfirst := UInt8.toNat_lt first
  have hother := UInt8.toNat_lt other
  apply UInt8.toNat_inj.mp
  unfold firstArcs at h
  split at h <;> split at h <;> rw [Prod.mk.injEq] at h <;> omega

/-- Identifiers have the same nonempty text exactly when they have the same
first byte and decode to the same arcs. -/
theorem oidString_eq_iff {content other : Bytes} (hne : oidString content≠[]) :
    oidString content=oidString other ↔
      ∃ first rest rest' arcs, content=first::rest ∧ other=first::rest' ∧
        decodeArcs rest 0 false=some arcs ∧ decodeArcs rest' 0 false=some arcs := by
  constructor
  · intro h
    cases content with
    | nil => exact absurd rfl hne
    | cons first rest =>
      cases other with
      | nil => exact absurd h hne
      | cons first' rest' =>
        rw [oidString_cons] at hne
        rw [oidString_cons,oidString_cons] at h
        cases harcs : decodeArcs rest 0 false with
        | none =>
          rw [harcs] at hne
          exact absurd rfl hne
        | some arcs =>
          rw [harcs] at h
          cases harcs' : decodeArcs rest' 0 false with
          | none =>
            rw [harcs'] at h
            exact absurd h (dotted_ne_nil _ _)
          | some arcs' =>
            rw [harcs'] at h
            have hlist := dotted_injective (List.cons_ne_nil _ _) (List.cons_ne_nil _ _) h
            obtain ⟨hfst,htail⟩ := List.cons.inj hlist
            obtain ⟨hsnd,rfl⟩ := List.cons.inj htail
            have hfirst : first=first' := firstArcs_injective (Prod.ext hfst hsnd)
            subst hfirst
            exact ⟨first,rest,rest',arcs,rfl,rfl,harcs,harcs'⟩
  · rintro ⟨first,rest,rest',arcs,rfl,rfl,harcs,harcs'⟩
    rw [oidString_cons,oidString_cons,harcs,harcs']

end Text

section Arcs

/-- Only the empty byte string has no arcs. -/
theorem eq_nil_of_decodeArcs_nil {bytes : Bytes} {value : ℕ} {midArc : Bool}
    (h : decodeArcs bytes value midArc=some []) : bytes=[] := by
  induction bytes generalizing value midArc with
  | nil => rfl
  | cons b rest ih =>
    rw [decodeArcs] at h
    split at h
    · obtain ⟨arcs,-,harcs⟩ := Option.map_eq_some_iff.mp h
      cases harcs
    · have hrest := ih h
      subst hrest
      cases h

/-- The loop ends inside an arc exactly when the last byte continues. -/
theorem decodeArcs_eq_none_iff (bytes : Bytes) (value : ℕ) (midArc : Bool) :
    decodeArcs bytes value midArc=none ↔
      bytes=[] ∧ midArc=true ∨ ∃ last, bytes.getLast?=some last ∧ last.toNat &&& 0x80≠0 := by
  induction bytes generalizing value midArc with
  | nil => cases midArc <;> simp [decodeArcs]
  | cons b rest ih =>
    rw [decodeArcs]
    split
    · next hb =>
      rw [Option.map_eq_none_iff,ih]
      cases rest with
      | nil => simp [hb]
      | cons c rest => simp [List.getLast?_cons_cons]
    · next hb =>
      rw [ih]
      cases rest with
      | nil => simp [hb]
      | cons c rest => simp [List.getLast?_cons_cons]

/-- Whether an arc is open does not matter when another byte follows. -/
theorem decodeArcs_midArc {bytes : Bytes} (h : bytes≠[]) (value : ℕ) (midArc other : Bool) :
    decodeArcs bytes value midArc=decodeArcs bytes value other := by
  cases bytes with
  | nil => exact absurd rfl h
  | cons b rest => rfl

/-- A leading byte `0x80` adds nothing to the arcs. -/
theorem decodeArcs_padded {bytes : Bytes} (h : bytes≠[]) :
    decodeArcs (0x80::bytes) 0 false=decodeArcs bytes 0 false := by
  have hbyte : decodeArcs (0x80::bytes) 0 false=decodeArcs bytes 0 true := rfl
  rw [hbyte]
  exact decodeArcs_midArc h 0 true false

/-- The minimal base-128 encoding of an arc. -/
def encodeArc (arc : ℕ) : Bytes :=
  ((Nat.digits 128 (arc/128)).reverse.map fun digit => UInt8.ofNat (digit+128))++
    [UInt8.ofNat (arc%128)]

/-- The low seven bits. -/
theorem and_low_bits (n : ℕ) : n &&& 0x7f=n%128 := Nat.and_two_pow_sub_one_eq_mod n 7

/-- The continuation bit. -/
theorem and_high_bit (n : ℕ) : n &&& 0x80=n/128%2*128 := by
  have hbit := Nat.and_two_pow n 7
  rw [Nat.toNat_testBit] at hbit
  exact hbit

/-- The value of an arc after one more byte, in 64-bit arithmetic. -/
theorem arc_step (value : ℕ) {digit : ℕ} (hdigit : digit < 128) :
    ((value%2^64) <<< 7 ||| digit)%2^64=(value*128+digit)%2^64 := by
  rw [Nat.or_comm,or_shift 7 hdigit]
  omega

/-- The continuing bytes of an arc build up its value modulo `2^64`. -/
theorem decodeArcs_digits (value : ℕ) {bytes : Bytes} (h : bytes≠[]) :
    decodeArcs (((Nat.digits 128 value).reverse.map fun digit => UInt8.ofNat (digit+128))++bytes)
      0 false=decodeArcs bytes (value%2^64) false := by
  induction value using Nat.strong_induction_on generalizing bytes with
  | h value ih =>
    rcases Nat.eq_zero_or_pos value with rfl | hpos
    · rfl
    · have hdigit : value%128 < 128 := Nat.mod_lt _ (by decide)
      have hbyte : (UInt8.ofNat (value%128+128)).toNat=value%128+128 := by
        rw [UInt8.toNat_ofNat']
        omega
      have hlow : value%128+128 &&& 0x7f=value%128 := by
        rw [and_low_bits]
        omega
      have hhigh : value%128+128 &&& 0x80≠0 := by
        rw [and_high_bit]
        omega
      rw [Nat.digits_def' (by decide) hpos,List.reverse_cons,List.map_append,List.append_assoc]
      rw [List.map_singleton,List.singleton_append,
        ih (value/128) (by omega) (List.cons_ne_nil _ _),decodeArcs]
      rw [hbyte,if_neg hhigh,hlow,arc_step _ hdigit]
      have hsum : value/128*128+value%128=value := by omega
      rw [hsum]
      exact decodeArcs_midArc h _ true false

/-- An encoded arc is decoded modulo `2^64` before the rest. -/
theorem decodeArcs_encodeArc (arc : ℕ) (bytes : Bytes) :
    decodeArcs (encodeArc arc++bytes) 0 false=
      (decodeArcs bytes 0 false).map fun arcs => arc%2^64::arcs := by
  have hdigit : arc%128 < 128 := Nat.mod_lt _ (by decide)
  have hbyte : (UInt8.ofNat (arc%128)).toNat=arc%128 := by
    rw [UInt8.toNat_ofNat']
    omega
  have hlow : arc%128 &&& 0x7f=arc%128 := by
    rw [and_low_bits]
    omega
  have hhigh : arc%128 &&& 0x80=0 := by
    rw [and_high_bit]
    omega
  unfold encodeArc
  rw [List.append_assoc,decodeArcs_digits _ (by simp),List.singleton_append,decodeArcs]
  rw [hbyte,if_pos hhigh,hlow,arc_step _ hdigit]
  have hsum : arc/128*128+arc%128=arc := by omega
  rw [hsum]

/-- Encoded arcs are decoded modulo `2^64`. -/
theorem decodeArcs_flatMap (arcs : List ℕ) :
    decodeArcs (arcs.flatMap encodeArc) 0 false=some (arcs.map fun arc => arc%2^64) := by
  induction arcs with
  | nil => rfl
  | cons arc arcs ih =>
    rw [List.flatMap_cons,decodeArcs_encodeArc,ih]
    rfl

/-- Arcs below `2^64`, and only those, are kept. -/
theorem map_mod_eq_self_iff (arcs : List ℕ) :
    arcs.map (fun arc => arc%2^64)=arcs ↔ ∀ arc ∈ arcs, arc < 2^64 := by
  have hself : arcs.map (fun arc => arc%2^64)=arcs.map id ↔ ∀ arc ∈ arcs, arc%2^64=id arc :=
    List.map_inj_left
  rw [List.map_id] at hself
  rw [hself]
  refine forall₂_congr fun arc _ => ?_
  rw [id_eq]
  omega

end Arcs

section Elements

/-- The last byte of the content continues an arc. -/
def endsInsideArc (content : Bytes) : Bool :=
  content.getLast?.any fun last => decide (last.toNat &&& 0x80≠0)

/-- The minimal encodings with arcs below `2^64`. -/
def Standard (content : Bytes) : Prop :=
  ∃ (first : UInt8) (arcs : List ℕ), content=first::arcs.flatMap encodeArc ∧
    ∀ arc ∈ arcs, arc < 2^64

/-- The content bytes of an element. -/
def contentOf (data : Bytes) (el : Element) : Bytes :=
  slice data el.contentOffset el.contentLength

/-- The text of an identifier depends on its content bytes only. -/
theorem oidToString_eq {data : Bytes} {el : Element}
    (hoid : el.isUniversal .objectIdentifier=true) (hel : Within data el) :
    oidToString data el=.ok (oidString (contentOf data el)) := by
  unfold oidToString contentOf
  rw [hoid]
  by_cases hempty : el.contentLength=0
  · rw [hempty]
    unfold slice
    rw [List.take_zero]
    rfl
  · rw [decide_eq_false hempty]
    have hcontent : contentBytes data el=.ok (slice data el.contentOffset el.contentLength) :=
      readSlice_eq_ok.mpr ⟨hel,rfl⟩
    rw [if_neg (by decide),hcontent]
    rfl

/-- A text is empty for an open last arc. -/
theorem oidString_eq_nil_iff (first : UInt8) {rest : Bytes} (hrest : rest≠[]) :
    oidString (first::rest)=[] ↔ endsInsideArc (first::rest)=true := by
  have hnone := decodeArcs_eq_none_iff rest 0 false
  have hlast : endsInsideArc (first::rest)=true ↔
      ∃ last, rest.getLast?=some last ∧ last.toNat &&& 0x80≠0 := by
    unfold endsInsideArc
    obtain ⟨second,others,rfl⟩ := List.exists_cons_of_ne_nil hrest
    rw [List.getLast?_cons_cons,Option.any_eq_true_iff_get]
    constructor
    · rintro ⟨hsome,hbit⟩
      exact ⟨_,Option.eq_some_of_isSome hsome,of_decide_eq_true hbit⟩
    · rintro ⟨last,hsome,hbit⟩
      rw [hsome]
      exact ⟨rfl,decide_eq_true hbit⟩
  rw [hlast,oidString_cons]
  cases harcs : decodeArcs rest 0 false with
  | none =>
    rw [harcs] at hnone
    rcases hnone.mp rfl with ⟨hnil,-⟩ | hopen
    · exact absurd hnil hrest
    · exact iff_of_true rfl hopen
  | some arcs =>
    rw [harcs] at hnone
    refine iff_of_false (dotted_ne_nil _ _) fun hopen => ?_
    cases hnone.mpr (Or.inr hopen)

/-- A content with more than its first byte has an alias. -/
theorem exists_alias (first : UInt8) {rest : Bytes} (hrest : rest≠[]) :
    oidString (first::0x80::rest)=oidString (first::rest) ∧ first::0x80::rest≠first::rest := by
  constructor
  · rw [oidString_cons,oidString_cons,decodeArcs_padded hrest]
  · intro hsame
    have hlength := congrArg List.length hsame
    simp at hlength

/-- A content of one byte has no alias. -/
theorem eq_of_oidString_eq_single {first : UInt8} {other : Bytes}
    (h : oidString other=oidString [first]) (hne : oidString [first]≠[]) : other=[first] := by
  obtain ⟨_,rest,rest',arcs,hcontent,rfl,harcs,harcs'⟩ := (oidString_eq_iff hne).mp h.symm
  obtain ⟨rfl,rfl⟩ := List.cons.inj hcontent
  cases harcs
  rw [eq_nil_of_decodeArcs_nil harcs']

/-- Standard encodings with one text are the same. -/
theorem standard_injective {content other : Bytes} (hcontent : Standard content)
    (hother : Standard other) (h : oidString other=oidString content)
    (hne : oidString content≠[]) : other=content := by
  obtain ⟨_,rest,rest',arcs,rfl,rfl,harcs,harcs'⟩ := (oidString_eq_iff hne).mp h.symm
  obtain ⟨first,known,hknown,hsmall⟩ := hcontent
  obtain ⟨first',known',hknown',hsmall'⟩ := hother
  obtain ⟨rfl,rfl⟩ := List.cons.inj hknown
  obtain ⟨-,rfl⟩ := List.cons.inj hknown'
  rw [decodeArcs_flatMap,(map_mod_eq_self_iff _).mpr hsmall] at harcs
  rw [decodeArcs_flatMap,(map_mod_eq_self_iff _).mpr hsmall'] at harcs'
  cases harcs
  cases harcs'
  rfl

end Elements

/-- A content of at least two bytes shares its text with the other content of
some element. -/
theorem exists_element_alias (first second : UInt8) (rest : Bytes) :
    ∃ (other : Bytes) (el' : Element),el'.isUniversal .objectIdentifier=true ∧
      Within other el' ∧ oidToString other el'=.ok (oidString (first::second::rest)) ∧
      contentOf other el'≠first::second::rest := by
  obtain ⟨hsame,hdiffer⟩ := exists_alias first (List.cons_ne_nil second rest)
  have hwithin : Within (first::0x80::second::rest)
      ⟨.universal,false,6,0,(first::0x80::second::rest).length,
        (first::0x80::second::rest).length⟩ := by
    unfold Within
    exact (Nat.zero_add _).le
  have hcontent : contentOf (first::0x80::second::rest)
      ⟨.universal,false,6,0,(first::0x80::second::rest).length,
        (first::0x80::second::rest).length⟩=first::0x80::second::rest := by
    unfold contentOf slice
    exact List.take_length
  have htext := oidToString_eq rfl hwithin
  rw [hcontent,hsame] at htext
  refine ⟨_,_,rfl,hwithin,htext,?_⟩
  rw [hcontent]
  exact hdiffer

/-- The text of an identifier determines its content bytes exactly when the
content has at most its first byte or is cut off inside an arc, where there
is no text. Among the standard encodings the text always determines the
content. -/
theorem oid_injective_at_iff (data : Bytes) (el : Element)
    (hoid : el.isUniversal .objectIdentifier=true) (hel : Within data el) :
    ((∀ (other : Bytes) (el' : Element), el'.isUniversal .objectIdentifier=true →
        Within other el' → oidToString other el'=oidToString data el →
        oidToString data el≠.ok [] → contentOf other el'=contentOf data el) ↔
      (contentOf data el).length ≤ 1 ∨ endsInsideArc (contentOf data el)=true) ∧
    (∀ (other : Bytes) (el' : Element), el'.isUniversal .objectIdentifier=true →
        Within other el' → oidToString other el'=oidToString data el →
        oidToString data el≠.ok [] → Standard (contentOf data el) →
        Standard (contentOf other el') → contentOf other el'=contentOf data el) := by
  rw [oidToString_eq hoid hel]
  generalize contentOf data el=content
  refine ⟨⟨?_,?_⟩,?_⟩
  · intro hinjective
    by_contra hcase
    rw [not_or] at hcase
    obtain ⟨hlong,hopen⟩ := hcase
    match content with
    | [] => exact hlong (Nat.zero_le 1)
    | [_] => exact hlong le_rfl
    | first::second::rest =>
      have hne : oidString (first::second::rest)≠[] := by
        rw [Ne,oidString_eq_nil_iff first (List.cons_ne_nil _ _)]
        exact hopen
      obtain ⟨other,el',hoid',hel',htext,hdiffer⟩ := exists_element_alias first second rest
      exact hdiffer (hinjective other el' hoid' hel' htext fun h => hne (Except.ok.inj h))
  · intro hcase other el' hoid' hel' htext hne
    rw [oidToString_eq hoid' hel'] at htext
    have hsame := Except.ok.inj htext
    have hne' : oidString content≠[] := fun hnil => hne (congrArg Except.ok hnil)
    match content with
    | [] => exact absurd rfl hne'
    | [first] => exact eq_of_oidString_eq_single hsame hne'
    | first::second::rest =>
      rcases hcase with hshort | hopen
      · exact absurd hshort (by simp)
      · exact absurd ((oidString_eq_nil_iff first (List.cons_ne_nil _ _)).mpr hopen) hne'
  · intro other el' hoid' hel' htext hne hstandard hstandard'
    rw [oidToString_eq hoid' hel'] at htext
    have hne' : oidString content≠[] := fun hnil => hne (congrArg Except.ok hnil)
    exact standard_injective hstandard hstandard' (Except.ok.inj htext) hne'

section Fixture

/-- The standard encoding of the identifier of SHA-256 with RSA. -/
def fixtureOid : Bytes := [0x06,0x09,0x2a,0x86,0x48,0x86,0xf7,0x0d,0x01,0x01,0x0b]

/-- The same with a byte `0x80` in front of the last arc. -/
def fixtureAlias : Bytes := [0x06,0x0a,0x2a,0x86,0x48,0x86,0xf7,0x0d,0x01,0x01,0x80,0x0b]

/-- The element of the standard encoding. -/
def fixtureOidElement : Element := ⟨.universal,false,6,2,9,11⟩

/-- The element of the alias. -/
def fixtureAliasElement : Element := ⟨.universal,false,6,2,10,12⟩

/-- The identifier of SHA-256 with RSA is not determined by its text. -/
theorem oid_injective_at_fixture :
    ¬∀ (other : Bytes) (el' : Element), el'.isUniversal .objectIdentifier=true →
      Within other el' → oidToString other el'=oidToString fixtureOid fixtureOidElement →
      oidToString fixtureOid fixtureOidElement≠.ok [] →
      contentOf other el'=contentOf fixtureOid fixtureOidElement := by
  intro h
  have hcase := (oid_injective_at_iff fixtureOid fixtureOidElement rfl
    (by unfold Within; decide)).1.mp h
  revert hcase
  decide

/-- The parsed alias has the text the certificate check compares with, and
other content bytes than the standard encoding. -/
theorem oid_alias_accepted :
    ¬∀ (data other : Bytes) (el el' : Element),
      parseElement data data.length 0=.ok el → parseElement other other.length 0=.ok el' →
      el.isUniversal .objectIdentifier=true → el'.isUniversal .objectIdentifier=true →
      oidToString other el'=oidToString data el → oidToString data el=.ok sha256WithRsaOid →
      contentOf other el'=contentOf data el := by
  intro h
  have hsame := h fixtureOid fixtureAlias fixtureOidElement fixtureAliasElement
    (by decide +kernel) (by decide +kernel) rfl rfl (by decide +kernel) (by decide +kernel)
  revert hsame
  decide

end Fixture

end Gcad.OidAliases
