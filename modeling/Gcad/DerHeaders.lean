import Gcad.OidAliases
import Gcad.BignumBytes

/-!
# Identifier and length octets

What the octets in front of the content of an element spell out, and what
`parse_element` makes of them. A high tag number is a base-128 number of
any size that is read into 32 bits. A length has exactly one canonical
spelling, which the encoder of SET values writes, but the reader also
accepts longer ones.
-/

namespace Gcad.DerHeaders

open Common ByteView Digits Bignum Asn1 Pkcs7 DerSafety OidAliases

/-- The base-128 digits up to the first byte that does not continue. -/
def highTagDigits : Bytes → List ℕ
  | [] => []
  | b::rest => if b.toNat < 128 then [b.toNat] else (b.toNat-128)::highTagDigits rest

/-- The number that digits in base 128 add up to, after a first part. -/
def appendDigits (value : ℕ) (digits : List ℕ) : ℕ :=
  digits.foldl (fun value digit => value*128+digit) value

/-- One digit after the other. -/
theorem appendDigits_cons (value digit : ℕ) (digits : List ℕ) :
    appendDigits value (digit::digits)=appendDigits (value*128+digit) digits := rfl

/-- The tag number that the identifier octets at an offset encode. -/
def encodedTag (data : Bytes) (offset : ℕ) : ℕ :=
  if byteAt data offset%32=31 then appendDigits 0 (highTagDigits (data.drop (offset+1)))
  else byteAt data offset%32

/-- The number of identifier octets at an offset. -/
def identifierLength (data : Bytes) (offset : ℕ) : ℕ :=
  if byteAt data offset%32=31 then 1+(highTagDigits (data.drop (offset+1))).length else 1

/-- The canonical length octets of a length. -/
def derLengthOctets (length : ℕ) : Bytes :=
  if length < 128 then [UInt8.ofNat length]
  else
    let octets := (Nat.digits 256 length).reverse.map UInt8.ofNat
    UInt8.ofNat (128+octets.length)::octets

/-- The length octets of an element: what stands between its identifier
octets and its content. -/
def lengthOctets (data : Bytes) (offset : ℕ) (el : Element) : Bytes :=
  slice data (offset+identifierLength data offset)
    (el.contentOffset-(offset+identifierLength data offset))

section Bytes

/-- The byte at a position in front of the bytes after it. -/
theorem drop_eq_cons {data : Bytes} {pos : ℕ} (h : pos < data.length) :
    ∃ b : UInt8,b.toNat=byteAt data pos ∧ data.drop pos=b::data.drop (pos+1) := by
  refine ⟨data[pos],?_,List.drop_eq_getElem_cons h⟩
  rw [byteAt,List.getElem?_eq_getElem h,Option.getD_some]

/-- The same of a range. -/
theorem slice_succ {data : Bytes} {pos : ℕ} (h : pos < data.length) (k : ℕ) :
    ∃ b : UInt8,b.toNat=byteAt data pos ∧ slice data pos (k+1)=b::slice data (pos+1) k := by
  obtain ⟨b,hb,hdrop⟩ := drop_eq_cons h
  refine ⟨b,hb,?_⟩
  rw [slice,hdrop,List.take_succ_cons]
  rfl

end Bytes

section Tags

variable {data : Bytes} {size : ℕ}

/-- The tag number after one more digit, in 32-bit arithmetic. -/
theorem tag_step (value : ℕ) {digit : ℕ} (hdigit : digit < 128) :
    ((value%2^32) <<< 7 ||| digit)%2^32=(value*128+digit)%2^32 := by
  rw [Nat.or_comm,or_shift 7 hdigit]
  omega

/-- The high-tag loop reads the encoded digits modulo `2^32`. -/
theorem parseHighTag_value {iterations pos value : ℕ} {r : ℕ×ℕ}
    (h : parseHighTag data size iterations pos (value%2^32)=.ok r) :
    r=(appendDigits value (highTagDigits (data.drop pos))%2^32,
      pos+(highTagDigits (data.drop pos)).length) := by
  induction iterations generalizing pos value with
  | zero => cases h
  | succ iterations ih =>
    unfold parseHighTag at h
    obtain ⟨_,-,h⟩ := bind_eq_ok.mp h
    obtain ⟨v,hread,h⟩ := bind_eq_ok.mp h
    obtain ⟨hpos,rfl⟩ := readByte_eq_ok.mp hread
    obtain ⟨b,hb,hdrop⟩ := drop_eq_cons hpos
    have hlow : byteAt data pos%128 < 128 := Nat.mod_lt _ (by decide)
    have hlt := byteAt_lt data pos
    rw [and_low_bits,tag_step value hlow,and_high_bit] at h
    rw [hdrop,highTagDigits,hb]
    split at h
    · next hbit =>
      rw [if_pos (by omega)]
      obtain rfl := pure_eq_ok.mp h
      have hdigit : byteAt data pos%128=byteAt data pos := by omega
      rw [hdigit]
      rfl
    · next hbit =>
      rw [if_neg (by omega)]
      have hdigit : byteAt data pos%128=byteAt data pos-128 := by omega
      rw [hdigit] at h
      rw [ih h,appendDigits_cons,List.length_cons,Nat.add_assoc,Nat.add_comm 1]

/-- The tag is read modulo `2^32`, and the length octets follow it. -/
theorem parseTag_value {offset : ℕ} {r : ℕ×ℕ×ℕ} (h : parseTag data size offset=.ok r) :
    r=(byteAt data offset,encodedTag data offset%2^32,offset+identifierLength data offset) := by
  have hmod : byteAt data offset &&& 0x1f=byteAt data offset%32 :=
    Nat.and_two_pow_sub_one_eq_mod _ 5
  unfold parseTag at h
  obtain ⟨_,-,h⟩ := bind_eq_ok.mp h
  obtain ⟨tagByte,hread,h⟩ := bind_eq_ok.mp h
  obtain ⟨-,rfl⟩ := readByte_eq_ok.mp hread
  rw [hmod] at h
  unfold encodedTag identifierLength
  split at h
  · next hhigh =>
    obtain ⟨⟨tagNumber,pos⟩,hloop,h⟩ := bind_eq_ok.mp h
    obtain rfl := pure_eq_ok.mp h
    have hvalue := @parseHighTag_value data size 5 (offset+1) 0 _ hloop
    rw [if_pos hhigh,if_pos hhigh,(Prod.mk.inj hvalue).1,(Prod.mk.inj hvalue).2,Nat.add_assoc]
  · next hlow =>
    obtain rfl := pure_eq_ok.mp h
    rw [if_neg hlow,if_neg hlow]
    have hsmall : byteAt data offset%32%2^32=byteAt data offset%32 := by omega
    rw [hsmall]

/-- An accepted element: its tag and the reading of its length. -/
theorem parseElement_header {offset : ℕ} {el : Element}
    (h : parseElement data size offset=.ok el) :
    el.tagNumber=encodedTag data offset%2^32 ∧
      parseLength data size (offset+identifierLength data offset)=
        .ok (el.contentLength,el.contentOffset) := by
  unfold parseElement at h
  obtain ⟨⟨tagByte,tagNumber,lengthPos⟩,htag,h⟩ := bind_eq_ok.mp h
  obtain ⟨⟨contentLength,pos⟩,hlength,h⟩ := bind_eq_ok.mp h
  obtain ⟨_,-,h⟩ := bind_eq_ok.mp h
  obtain rfl := pure_eq_ok.mp h
  have hvalue := Prod.mk.inj (parseTag_value htag)
  have hrest := Prod.mk.inj hvalue.2
  refine ⟨hrest.1,?_⟩
  rw [←hrest.2]
  exact hlength

/-- The reported tag is the encoded one, also where it decides the universal
type of the element. -/
structure FaithfulTag (data : Bytes) (offset : ℕ) (el : Element) : Prop where
  /-- The number. -/
  number : el.tagNumber=encodedTag data offset
  /-- The universal types. -/
  universal : ∀ tag,el.isUniversal tag=true → encodedTag data offset=tag.number

end Tags

/-- An accepted element reports the tag that its identifier octets encode
exactly when that number is below `2^32`. -/
theorem tag_faithful_iff {data : Bytes} {size offset : ℕ} {el : Element}
    (h : parseElement data size offset=.ok el) :
    FaithfulTag data offset el ↔ encodedTag data offset < 2^32 := by
  obtain ⟨htag,-⟩ := parseElement_header h
  constructor
  · intro hfaithful
    rw [←hfaithful.number,htag]
    exact Nat.mod_lt _ (by decide)
  · intro hsmall
    rw [Nat.mod_eq_of_lt hsmall] at htag
    refine ⟨htag,?_⟩
    intro tag huniversal
    unfold Element.isUniversal at huniversal
    rw [←htag]
    exact of_decide_eq_true (Bool.and_eq_true_iff.mp huniversal).2

/-- An element with the tag number 300 in two digits. -/
theorem tag_faithful_fixture : FaithfulTag [0x1f,0x82,0x2c,0x00] 0 ⟨.universal,false,300,4,0,4⟩ :=
  (@tag_faithful_iff [0x1f,0x82,0x2c,0x00] 4 0 ⟨.universal,false,300,4,0,4⟩ (by decide)).mpr
    (by decide)

/-- The tag number `2^32+16` is reported as a SEQUENCE. -/
theorem tag_misread :
    ¬∀ (data : Bytes) (size offset : ℕ) (el : Element),
      parseElement data size offset=.ok el → FaithfulTag data offset el := by
  intro h
  have hcase := h [0x3f,0x90,0x80,0x80,0x80,0x10,0x00] 7 0 ⟨.universal,true,16,7,0,7⟩ (by decide)
  have hsequence := hcase.universal .sequence (by decide)
  revert hsequence
  decide

section Lengths

variable {data : Bytes} {size : ℕ}

/-- The length loop reads a big-endian number that fits in 64 bits. -/
theorem parseLengthBytes_eq {remaining pos value : ℕ} (hroom : pos+remaining ≤ data.length)
    (hfit : value*256^remaining+beValue (slice data pos remaining) < 2^64) :
    parseLengthBytes data remaining pos value=
      .ok (value*256^remaining+beValue (slice data pos remaining),pos+remaining) := by
  induction remaining generalizing pos value with
  | zero =>
    have hempty : slice data pos 0=[] := List.take_zero
    rw [hempty]
    have hvalue : value*256^0+beValue []=value := by
      rw [pow_zero,mul_one]
      rfl
    rw [hvalue]
    rfl
  | succ remaining ih =>
    have hpos : pos < data.length := by omega
    obtain ⟨b,hb,hslice⟩ := slice_succ hpos remaining
    have hrest : (slice data (pos+1) remaining).length=remaining := slice_length (by omega)
    have htotal : value*256^(remaining+1)+beValue (slice data pos (remaining+1))=
        (value*256+b.toNat)*256^remaining+beValue (slice data (pos+1) remaining) := by
      rw [hslice,beValue_cons,hrest]
      ring
    have hweight := Nat.le_mul_of_pos_right (value*256+b.toNat)
      (Nat.pow_pos (by decide) : 0 < 256^remaining)
    rw [htotal] at hfit ⊢
    have hbyte := UInt8.toNat_lt b
    have hstep : (value <<< 8 ||| b.toNat)%2^64=value*256+b.toNat := by
      rw [Nat.or_comm,or_shift 8 hbyte]
      omega
    have hread : readByte data pos=.ok b.toNat := readByte_eq_ok.mpr ⟨hpos,hb.symm⟩
    have hloop : parseLengthBytes data (remaining+1) pos value=
        parseLengthBytes data remaining (pos+1) ((value <<< 8 ||| b.toNat)%2^64) := by
      rw [parseLengthBytes,hread]
      rfl
    rw [hloop,hstep,ih (by omega) hfit,Nat.add_assoc,Nat.add_comm 1]

/-- The length loop stays in the buffer. -/
theorem parseLengthBytes_room {remaining pos value : ℕ} {r : ℕ×ℕ}
    (h : parseLengthBytes data (remaining+1) pos value=.ok r) :
    pos+(remaining+1) ≤ data.length := by
  induction remaining generalizing pos value with
  | zero =>
    unfold parseLengthBytes at h
    obtain ⟨b,hread,-⟩ := bind_eq_ok.mp h
    exact (readByte_eq_ok.mp hread).1
  | succ remaining ih =>
    unfold parseLengthBytes at h
    obtain ⟨b,-,h⟩ := bind_eq_ok.mp h
    have hrest := ih h
    omega

/-- The value of up to eight octets fits in 64 bits. -/
theorem beValue_slice_lt {pos k : ℕ} (h : k ≤ 8) : beValue (slice data pos k) < 2^64 := by
  have hlength : (slice data pos k).length ≤ 8 := (List.length_take_le _ _).trans h
  calc beValue (slice data pos k) < 256^(slice data pos k).length := beValue_lt _
    _ ≤ 256^8 := Nat.pow_le_pow_right (by decide) hlength
    _ =2^64 := by decide

/-- An accepted length is one octet in the short form, or one to eight
octets after their count. -/
theorem parseLength_cases {pos : ℕ} {r : ℕ×ℕ} (h : parseLength data size pos=.ok r) :
    pos < data.length ∧ (byteAt data pos < 128 ∧ r=(byteAt data pos,pos+1) ∨
      ∃ k,byteAt data pos=128+(k+1) ∧ k < 8 ∧ pos+1+(k+1) ≤ data.length ∧
        r=(beValue (slice data (pos+1) (k+1)),pos+1+(k+1))) := by
  unfold parseLength at h
  obtain ⟨_,-,h⟩ := bind_eq_ok.mp h
  obtain ⟨lenByte,hread,h⟩ := bind_eq_ok.mp h
  obtain ⟨hpos,rfl⟩ := readByte_eq_ok.mp hread
  have hlt := byteAt_lt data pos
  rw [and_high_bit,and_low_bits] at h
  refine ⟨hpos,?_⟩
  split at h
  · next hshort =>
    obtain rfl := pure_eq_ok.mp h
    exact .inl ⟨by omega,rfl⟩
  · next hlong =>
    obtain ⟨_,hsome,h⟩ := bind_eq_ok.mp h
    obtain ⟨_,hcount,h⟩ := bind_eq_ok.mp h
    obtain ⟨_,-,h⟩ := bind_eq_ok.mp h
    have hsome := require_eq_ok.mp hsome
    have hcount := require_eq_ok.mp hcount
    obtain ⟨k,hk⟩ := Nat.exists_eq_succ_of_ne_zero hsome
    rw [hk] at h
    have hroom := parseLengthBytes_room h
    have hfit : 0*256^(k+1)+beValue (slice data (pos+1) (k+1)) < 2^64 := by
      rw [zero_mul,zero_add]
      exact beValue_slice_lt (by omega)
    rw [Nat.succ_eq_add_one,parseLengthBytes_eq hroom hfit,zero_mul,zero_add] at h
    exact .inr ⟨k,by omega,by omega,hroom,(Except.ok.inj h).symm⟩

/-- Bytes are read back from their values. -/
theorem map_ofNat_byteDigits (bytes : Bytes) : (byteDigits bytes).map UInt8.ofNat=bytes := by
  have hbyte : ∀ b ∈ bytes,(UInt8.ofNat ∘ UInt8.toNat) b=b := fun b _ => UInt8.ofNat_toNat
  rw [byteDigits,List.map_map,List.map_congr_left hbyte,List.map_id']

/-- Octets without a leading zero are written from the digits of their value. -/
theorem map_ofNat_digits {bytes : Bytes} (h : bytes.head?≠some 0) :
    (Nat.digits 256 (beValue bytes)).reverse.map UInt8.ofNat=bytes := by
  have hreverse : (byteDigits bytes.reverse).reverse=byteDigits bytes := by
    rw [byteDigits,byteDigits,List.map_reverse,List.reverse_reverse]
  rw [digits_beValue h,hreverse,map_ofNat_byteDigits]

/-- The digits of a number have no leading zero. -/
theorem head_digits_ne_zero (n : ℕ) :
    ((Nat.digits 256 n).reverse.map UInt8.ofNat).head?≠some 0 := by
  rw [List.head?_map,List.head?_reverse]
  intro hzero
  obtain ⟨digit,hdigit,hvalue⟩ := Option.map_eq_some_iff.mp hzero
  have hlt : digit < 256 := Nat.digits_lt_base (by decide) (List.mem_of_getLast? hdigit)
  have hnat := congrArg UInt8.toNat hvalue
  rw [UInt8.toNat_ofNat',UInt8.toNat_zero] at hnat
  have hne : Nat.digits 256 n≠[] := by
    intro hnil
    rw [hnil] at hdigit
    cases hdigit
  have hn : n≠0 := fun hn => hne (by rw [hn]; rfl)
  have htop := Nat.getLast_digit_ne_zero 256 hn
  rw [List.getLast?_eq_getLast_of_ne_nil hne] at hdigit
  have heq := Option.some.inj hdigit
  omega

/-- A long form is canonical exactly when its first octet is not zero and its
value is too large for the short form. -/
theorem long_form_iff {bytes : Bytes} (hne : bytes≠[]) :
    UInt8.ofNat (128+bytes.length)::bytes=derLengthOctets (beValue bytes) ↔
      bytes.head?≠some 0 ∧ 128 ≤ beValue bytes := by
  constructor
  · intro h
    unfold derLengthOctets at h
    split at h
    · exact absurd (List.cons.inj h).2 hne
    · next hlarge =>
      rw [(List.cons.inj h).2]
      exact ⟨head_digits_ne_zero _,by rw [←(List.cons.inj h).2]; omega⟩
  · rintro ⟨hhead,hlarge⟩
    unfold derLengthOctets
    dsimp only
    rw [if_neg (by omega),map_ofNat_digits hhead]

/-- A value with a leading octet that is not zero needs the long form exactly
when there is another octet or the only one is at least 128. -/
theorem long_value_iff {b : UInt8} {rest : Bytes} (hb : b≠0) :
    128 ≤ beValue (b::rest) ↔ (rest=[] → 128 ≤ b.toNat) := by
  rw [beValue_cons]
  cases rest with
  | nil =>
    have hvalue : beValue []+256^([] : Bytes).length*b.toNat=b.toNat := by
      rw [List.length_nil,pow_zero,one_mul]
      exact Nat.zero_add _
    rw [hvalue]
    simp
  | cons c rest =>
    have hpos : 0 < b.toNat := Nat.pos_of_ne_zero fun hzero => hb (UInt8.toNat_inj.mp hzero)
    have hweight : 256 ≤ 256^(c::rest).length*b.toNat := by
      rw [List.length_cons,pow_succ,mul_assoc]
      calc 256=1*(256*1) := by decide
        _ ≤ 256^rest.length*(256*b.toNat) :=
          Nat.mul_le_mul (Nat.pow_pos (by decide)) (Nat.mul_le_mul_left _ hpos)
    refine iff_of_true (by omega) fun hnil => absurd hnil (List.cons_ne_nil _ _)

end Lengths

/-- The length octets at a position are minimal: in the long form the first
octet after the count is not zero, and at least 128 where it is the only one. -/
def MinimalAt (data : Bytes) (pos : ℕ) : Prop :=
  128 ≤ byteAt data pos →
    byteAt data (pos+1)≠0 ∧ (byteAt data pos=129 → 128 ≤ byteAt data (pos+1))

/-- The length octets of an accepted element are the canonical ones of its
content length exactly when they are minimal. -/
theorem length_canonical_iff {data : Bytes} {size offset : ℕ} {el : Element}
    (h : parseElement data size offset=.ok el) :
    lengthOctets data offset el=derLengthOctets el.contentLength ↔
      MinimalAt data (offset+identifierLength data offset) := by
  obtain ⟨-,hlength⟩ := parseElement_header h
  unfold lengthOctets
  generalize offset+identifierLength data offset=pos at hlength ⊢
  obtain ⟨hpos,hcases⟩ := parseLength_cases hlength
  obtain ⟨b,hb,hslice⟩ := slice_succ hpos 0
  rcases hcases with ⟨hshort,hr⟩ | ⟨k,hcount,hk,hroom,hr⟩
  · obtain ⟨hvalue,hnext⟩ := Prod.mk.inj hr
    have hone : el.contentOffset-pos=0+1 := by omega
    have hempty : slice data (pos+1) 0=[] := List.take_zero
    refine iff_of_true ?_ fun hlong => absurd hlong (by omega)
    rw [hone,hslice,hempty,hvalue,derLengthOctets,if_pos hshort,←hb,UInt8.ofNat_toNat]
  · obtain ⟨hvalue,hnext⟩ := Prod.mk.inj hr
    have htotal : el.contentOffset-pos=k+1+1 := by omega
    have hsize : (slice data (pos+1) (k+1)).length=k+1 := slice_length hroom
    obtain ⟨first,hfirst,hrest⟩ := slice_succ hpos (k+1)
    obtain ⟨top,htop,hoctets⟩ := slice_succ (by omega : pos+1 < data.length) k
    have hlead : first=UInt8.ofNat (128+(slice data (pos+1) (k+1)).length) := by
      rw [hsize,←hcount,←hfirst,UInt8.ofNat_toNat]
    have hzero : top=0 ↔ byteAt data (pos+1)=0 := by
      rw [←htop]
      exact ⟨fun heq => by rw [heq]; rfl,fun heq => UInt8.toNat_inj.mp heq⟩
    have hsingle : slice data (pos+1+1) k=[] ↔ k=0 := by
      rw [←List.length_eq_zero_iff,slice_length (by omega)]
    rw [htotal,hrest,hvalue,hlead,hoctets,
      long_form_iff (List.cons_ne_nil _ _),List.head?_cons]
    unfold MinimalAt
    rw [imp_iff_right (by omega : 128 ≤ byteAt data pos),ne_eq,Option.some.injEq,hzero]
    refine and_congr_right fun hne => ?_
    rw [long_value_iff (fun heq => hne (hzero.mp heq)),hsingle,htop]
    have hkone : k=0 ↔ byteAt data pos=129 := by omega
    rw [hkone]

/-- A length of 128 in one octet after its count. -/
theorem length_canonical_fixture :
    lengthOctets (0x04::0x81::0x80::List.replicate 128 0) 0 ⟨.universal,false,4,3,128,131⟩=
      derLengthOctets 128 := by
  have hparse : parseElement (0x04::0x81::0x80::List.replicate 128 0) 131 0=
      .ok ⟨.universal,false,4,3,128,131⟩ := by decide +kernel
  exact (length_canonical_iff hparse).mpr fun _ => ⟨by decide,fun _ => by decide⟩

/-- The length five is also accepted in the long form. -/
theorem length_not_canonical :
    ¬∀ (data : Bytes) (size offset : ℕ) (el : Element),parseElement data size offset=.ok el →
      lengthOctets data offset el=derLengthOctets el.contentLength := by
  intro h
  have hcase := h [0x04,0x81,0x05,1,2,3,4,5] 8 0 ⟨.universal,false,4,3,5,8⟩ (by decide)
  revert hcase
  decide

section Encoder

/-- The encoder collects the base-256 digits of a length. -/
theorem lengthBytes_eq {room n : ℕ} (h : n < 256^room) :
    lengthBytes room n=(Nat.digits 256 n).reverse.map UInt8.ofNat := by
  induction room generalizing n with
  | zero =>
    have hn : n=0 := by omega
    subst hn
    rfl
  | succ room ih =>
    rw [lengthBytes]
    split
    · next hn =>
      subst hn
      rfl
    · next hn =>
      have hdiv : n/256 < 256^room := by
        rw [Nat.div_lt_iff_lt_mul (by decide),←pow_succ]
        exact h
      have hbyte : UInt8.ofNat n=UInt8.ofNat (n%256) := by
        apply UInt8.toNat_inj.mp
        rw [UInt8.toNat_ofNat',UInt8.toNat_ofNat']
        omega
      rw [ih hdiv,Nat.digits_def' (by decide) (Nat.pos_of_ne_zero hn),List.reverse_cons,
        List.map_append,List.map_singleton,hbyte]

/-- A 64-bit length has at most eight digits. -/
theorem digits_length_le {n : ℕ} (h : n < 2^64) : (Nat.digits 256 n).length ≤ 8 := by
  have hpow : n < 256^8 := h
  exact (Nat.digits_length_le_iff (by decide) n).mpr hpow

/-- An encoded element is its tag, its canonical length octets and its
content. -/
theorem derEncode_eq (tag : UInt8) {content : Bytes} (h : content.length < 2^64) :
    derEncode tag content=tag::(derLengthOctets content.length++content) := by
  have hbytes : lengthBytes 8 content.length=
      (Nat.digits 256 content.length).reverse.map UInt8.ofNat := lengthBytes_eq h
  unfold derEncode derLengthOctets
  split
  · rfl
  · dsimp only
    have hcount : ((Nat.digits 256 content.length).reverse.map UInt8.ofNat).length < 2^7 := by
      have hdigits := digits_length_le h
      rw [List.length_map,List.length_reverse]
      omega
    have hor := @or_shift 7 _ 1 hcount
    rw [Nat.or_comm,Nat.add_comm] at hor
    rw [hbytes,List.cons_append]
    exact congrArg (fun count => tag::UInt8.ofNat count::_) hor

/-- A length in the short form is read. -/
theorem parseLength_short {data : Bytes} {pos : ℕ} (hpos : pos < data.length)
    (hshort : byteAt data pos < 128) :
    parseLength data data.length pos=.ok (byteAt data pos,pos+1) := by
  have hread : readByte data pos=.ok (byteAt data pos) := readByte_eq_ok.mpr ⟨hpos,rfl⟩
  have hbit : byteAt data pos &&& 0x80=0 := by
    rw [and_high_bit]
    omega
  unfold parseLength
  refine bind_eq_ok.mpr ⟨(),require_eq_ok.mpr hpos,bind_eq_ok.mpr ⟨_,hread,?_⟩⟩
  rw [if_pos hbit]
  rfl

/-- A length in the long form is read. -/
theorem parseLength_long {data : Bytes} {pos k : ℕ} (hcount : byteAt data pos=128+(k+1))
    (hk : k < 8) (hroom : pos+1+(k+1) ≤ data.length) :
    parseLength data data.length pos=.ok (beValue (slice data (pos+1) (k+1)),pos+1+(k+1)) := by
  have hpos : pos < data.length := by omega
  have hread : readByte data pos=.ok (byteAt data pos) := readByte_eq_ok.mpr ⟨hpos,rfl⟩
  have hbit : byteAt data pos &&& 0x80≠0 := by
    rw [and_high_bit]
    omega
  have hnumber : byteAt data pos &&& 0x7f=k+1 := by
    rw [and_low_bits]
    omega
  have hfit : 0*256^(k+1)+beValue (slice data (pos+1) (k+1)) < 2^64 := by
    rw [zero_mul,zero_add]
    exact beValue_slice_lt hk
  unfold parseLength
  refine bind_eq_ok.mpr ⟨(),require_eq_ok.mpr hpos,bind_eq_ok.mpr ⟨_,hread,?_⟩⟩
  rw [if_neg hbit,hnumber]
  refine bind_eq_ok.mpr ⟨(),require_eq_ok.mpr (Nat.succ_ne_zero k),?_⟩
  refine bind_eq_ok.mpr ⟨(),require_eq_ok.mpr hk,?_⟩
  refine bind_eq_ok.mpr ⟨(),require_eq_ok.mpr hroom,?_⟩
  rw [parseLengthBytes_eq hroom hfit,zero_mul,zero_add]

/-- The digits of a number have its value. -/
theorem beValue_digits (n : ℕ) : beValue ((Nat.digits 256 n).reverse.map UInt8.ofNat)=n := by
  have hdigit : ∀ digit ∈ Nat.digits 256 n,(UInt8.toNat ∘ UInt8.ofNat) digit=digit := by
    intro digit hdigit
    have hlt : digit < 256 := Nat.digits_lt_base (by decide) hdigit
    rw [Function.comp_apply,UInt8.toNat_ofNat']
    omega
  have hreverse : ((Nat.digits 256 n).reverse.map UInt8.ofNat).reverse=
      (Nat.digits 256 n).map UInt8.ofNat := by
    rw [List.map_reverse,List.reverse_reverse]
  rw [beValue,leValue,byteDigits,hreverse,List.map_map,List.map_congr_left hdigit,List.map_id',
    Nat.ofDigits_digits]

/-- The canonical octets of a 64-bit length are read back. -/
theorem parseLength_derLengthOctets (tag : UInt8) {n : ℕ} (h : n < 2^64) (rest : Bytes) :
    parseLength (tag::(derLengthOctets n++rest)) (tag::(derLengthOctets n++rest)).length 1=
      .ok (n,1+(derLengthOctets n).length) := by
  unfold derLengthOctets
  split
  · next hshort =>
    have hbyte : byteAt (tag::([UInt8.ofNat n]++rest)) 1=n := by
      have hvalue : byteAt (tag::([UInt8.ofNat n]++rest)) 1=(UInt8.ofNat n).toNat := rfl
      rw [hvalue,UInt8.toNat_ofNat']
      omega
    rw [parseLength_short (by simp) (by omega),hbyte]
    rfl
  · next hlong =>
    dsimp only
    have hdigits := digits_length_le h
    have hne : (Nat.digits 256 n).length≠0 := by
      rw [ne_eq,List.length_eq_zero_iff,Nat.digits_eq_nil_iff_eq_zero]
      omega
    have hvalue := beValue_digits n
    have hlength : ((Nat.digits 256 n).reverse.map UInt8.ofNat).length=(Nat.digits 256 n).length := by
      rw [List.length_map,List.length_reverse]
    generalize (Nat.digits 256 n).reverse.map UInt8.ofNat=octets at hvalue hlength ⊢
    obtain ⟨k,hk⟩ := Nat.exists_eq_succ_of_ne_zero hne
    rw [hk] at hlength
    have hcount : byteAt (tag::(UInt8.ofNat (128+octets.length)::octets++rest)) 1=128+(k+1) := by
      have hvalue : byteAt (tag::(UInt8.ofNat (128+octets.length)::octets++rest)) 1=
        (UInt8.ofNat (128+octets.length)).toNat := rfl
      rw [hvalue,UInt8.toNat_ofNat']
      omega
    have hslice : slice (tag::(UInt8.ofNat (128+octets.length)::octets++rest)) 2 (k+1)=octets := by
      have hdrop : (tag::(UInt8.ofNat (128+octets.length)::octets++rest)).drop 2=octets++rest := rfl
      rw [slice,hdrop,List.take_append_of_le_length hlength.ge,List.take_of_length_le hlength.le]
    have hroom : 1+1+(k+1) ≤ (tag::(UInt8.ofNat (128+octets.length)::octets++rest)).length := by
      simp only [List.length_cons,List.cons_append,List.length_append]
      omega
    rw [parseLength_long hcount (by omega) hroom,hslice,hvalue,List.length_cons,hlength]
    exact congrArg (fun pos => Except.ok (n,pos)) (by omega)

end Encoder

/-- Every SET that the encoder writes is read back as a constructed SET with
exactly its content, over its whole length and with canonical length octets. -/
theorem der_encode_set_round_trip {content : Bytes} (h : content.length < 2^64) :
    ∃ el,parseElement (derEncodeSet content) (derEncodeSet content).length 0=.ok el ∧
      el.isUniversal .set=true ∧ el.constructed=true ∧
      contentBytes (derEncodeSet content) el=.ok content ∧
      el.totalLength=(derEncodeSet content).length ∧
      lengthOctets (derEncodeSet content) 0 el=derLengthOctets content.length := by
  have hlength := parseLength_derLengthOctets 0x31 h content
  rw [derEncodeSet,derEncode_eq 0x31 h]
  have hsize : (0x31::(derLengthOctets content.length++content)).length=
      1+(derLengthOctets content.length).length+content.length := by
    simp only [List.length_cons,List.length_append]
    omega
  have hread : readByte (0x31::(derLengthOctets content.length++content)) 0=.ok 0x31 :=
    readByte_eq_ok.mpr ⟨Nat.succ_pos _,rfl⟩
  have htag : parseTag (0x31::(derLengthOctets content.length++content))
      (0x31::(derLengthOctets content.length++content)).length 0=.ok (0x31,17,1) := by
    unfold parseTag
    exact bind_eq_ok.mpr ⟨(),require_eq_ok.mpr (Nat.succ_pos _),bind_eq_ok.mpr ⟨_,hread,rfl⟩⟩
  have hlow : byteAt (0x31::(derLengthOctets content.length++content)) 0=0x31 := rfl
  have hidentifier : identifierLength (0x31::(derLengthOctets content.length++content)) 0=1 := by
    rw [identifierLength,hlow]
    rfl
  refine ⟨⟨.universal,true,17,1+(derLengthOctets content.length).length,content.length,
    1+(derLengthOctets content.length).length+content.length⟩,?_,rfl,rfl,?_,hsize.symm,?_⟩
  · unfold parseElement
    refine bind_eq_ok.mpr ⟨_,htag,bind_eq_ok.mpr ⟨_,hlength,?_⟩⟩
    refine bind_eq_ok.mpr ⟨(),require_eq_ok.mpr ?_,rfl⟩
    rw [hsize]
    omega
  · refine readSlice_eq_ok.mpr ⟨hsize.ge,?_⟩
    dsimp only
    rw [slice,Nat.add_comm 1,List.drop_succ_cons,List.drop_left,List.take_length]
  · rw [lengthOctets,hidentifier,Nat.zero_add]
    dsimp only
    rw [slice,Nat.add_sub_cancel_left,List.drop_succ_cons,List.drop_zero,
      List.take_left]

/-- The attributes of a signer of three bytes. -/
theorem der_encode_set_fixture :
    ∃ el,parseElement (derEncodeSet [0x02,0x01,0x05]) (derEncodeSet [0x02,0x01,0x05]).length 0=
        .ok el ∧ el.isUniversal .set=true ∧ el.constructed=true ∧
      contentBytes (derEncodeSet [0x02,0x01,0x05]) el=.ok [0x02,0x01,0x05] ∧
      el.totalLength=(derEncodeSet [0x02,0x01,0x05]).length ∧
      lengthOctets (derEncodeSet [0x02,0x01,0x05]) 0 el=derLengthOctets 3 :=
  der_encode_set_round_trip (by decide)

end Gcad.DerHeaders
