import Gcad.Unicode
import Gcad.X509

/-!
# Names decoded from events and certificates

`utf16le_to_utf8` and `decode_process_start` of the process event decoder, and
`bmp_string_to_utf8` of the certificate parser. Both converters copy the code
points they read. Text comes back as its UTF-8 encoding; a surrogate outside a
pair, or any surrogate in a certificate, comes out as three bytes that are not
UTF-8.
-/

namespace Gcad.DecodedNames

open ByteView Unicode

/-- The bytes that `utf16le_to_utf8` appends for a code point. -/
def utf8OfCodePoint (cp : ℕ) : Bytes :=
  if cp ≤ 0x7f then [UInt8.ofNat cp]
  else if cp ≤ 0x7ff then [UInt8.ofNat (0xc0 ||| cp >>> 6),UInt8.ofNat (0x80 ||| cp &&& 0x3f)]
  else if cp ≤ 0xffff then
    [UInt8.ofNat (0xe0 ||| cp >>> 12),UInt8.ofNat (0x80 ||| cp >>> 6 &&& 0x3f),
      UInt8.ofNat (0x80 ||| cp &&& 0x3f)]
  else
    [UInt8.ofNat (0xf0 ||| cp >>> 18),UInt8.ofNat (0x80 ||| cp >>> 12 &&& 0x3f),
      UInt8.ofNat (0x80 ||| cp >>> 6 &&& 0x3f),UInt8.ofNat (0x80 ||| cp &&& 0x3f)]

/-- `utf16le_to_utf8`. -/
def utf16leToUtf8 : Bytes → Bytes
  | first::second::rest =>
    let unit := first.toNat ||| second.toNat <<< 8
    if unit=0 then []
    else
      match rest with
      | third::fourth::more =>
        let low := third.toNat ||| fourth.toNat <<< 8
        if (0xd800 ≤ unit ∧ unit ≤ 0xdbff) ∧ 0xdc00 ≤ low ∧ low ≤ 0xdfff then
          utf8OfCodePoint (0x10000+((unit-0xd800) <<< 10)+(low-0xdc00))++utf16leToUtf8 more
        else utf8OfCodePoint unit++utf16leToUtf8 (third::fourth::more)
      | short => utf8OfCodePoint unit++utf16leToUtf8 short
  | _ => []

/-- `memcpy` of bytes into an integer of a little-endian machine. -/
def leValue : Bytes → ℕ
  | [] => 0
  | b::rest => b.toNat+256*leValue rest

/-- `read_u32le`. -/
def readU32le (data : Bytes) (offset : ℕ) : UInt32 := UInt32.ofNat (leValue (slice data offset 4))

/-- `read_u64le`. -/
def readU64le (data : Bytes) (offset : ℕ) : UInt64 := UInt64.ofNat (leValue (slice data offset 8))

/-- `DecodedProcessStart`. -/
structure DecodedProcessStart where
  /-- The new process. -/
  pid : UInt32
  /-- Its parent. -/
  parentPid : UInt32
  /-- When it was created. -/
  createTimeFiletime : UInt64
  /-- The path of the program it runs, in UTF-8. -/
  imageName : Bytes
  deriving DecidableEq

/-- `kProcessStartFixedPrefixSize`. -/
def processStartFixedPrefixSize : ℕ := 4+8+8+4+8+4+4

/-- `decode_process_start`, of a null pointer or of the bytes behind one. -/
def decodeProcessStart (data : Option Bytes) : Option DecodedProcessStart :=
  match data with
  | none => none
  | some data =>
    if data.length < processStartFixedPrefixSize then none
    else if readU32le data 0=0 then none
    else
      some
        { pid := readU32le data 0
          createTimeFiletime := readU64le data 12
          parentPid := readU32le data 20
          imageName :=
            if processStartFixedPrefixSize < data.length then
              utf16leToUtf8 (data.drop processStartFixedPrefixSize)
            else [] }

section Conversion

/-- The units that a reader of byte pairs sees, the low byte first. -/
def unitsLe : Bytes → List ℕ
  | [] => []
  | [_] => []
  | first::second::rest => (first.toNat ||| second.toNat <<< 8)::unitsLe rest

/-- The units that a reader of byte pairs sees, the high byte first. -/
def unitsBe : Bytes → List ℕ
  | [] => []
  | [_] => []
  | first::second::rest => (first.toNat <<< 8 ||| second.toNat)::unitsBe rest

/-- The units in front of the first zero unit. -/
def untilNul (units : List ℕ) : List ℕ := units.takeWhile fun unit => unit≠0

/-- A continuation byte as a sum. -/
theorem continuation_bits (n : ℕ) : 0x80 ||| n &&& 0x3f=0x80+n%64 := by
  have hmod : n &&& 0x3f=n%64 := Nat.and_two_pow_sub_one_eq_mod n 6
  have hlt : n%64 < 2^7 := by omega
  rw [hmod]
  exact (Nat.two_pow_add_eq_or_of_lt hlt 1).symm

/-- A leading byte as a sum. -/
theorem lead_bits {k : ℕ} (a : ℕ) {n : ℕ} (h : n < 2^k) : 2^k*a ||| n=2^k*a+n :=
  (Nat.two_pow_add_eq_or_of_lt h a).symm

/-- The bytes that are appended are those of the code point. -/
theorem utf8OfCodePoint_eq {cp : ℕ} (h : cp < 0x110000) : utf8OfCodePoint cp=bytesOf cp := by
  have h6 : cp >>> 6=cp/64 := Nat.shiftRight_eq_div_pow cp 6
  have h12 : cp >>> 12=cp/4096 := Nat.shiftRight_eq_div_pow cp 12
  have h18 : cp >>> 18=cp/262144 := Nat.shiftRight_eq_div_pow cp 18
  rw [utf8OfCodePoint,bytesOf,h6,h12,h18,continuation_bits,continuation_bits,continuation_bits]
  by_cases h1 : cp < 0x80
  · rw [if_pos h1,if_pos (Nat.le_of_lt_succ h1)]
  · have h1' : ¬cp ≤ 0x7f := by omega
    rw [if_neg h1,if_neg h1']
    by_cases h2 : cp < 0x800
    · have hlead : 0xc0 ||| cp/64=0xc0+cp/64 := lead_bits (k:=6) 3 (by omega)
      rw [if_pos h2,if_pos (Nat.le_of_lt_succ h2),hlead]
    · have h2' : ¬cp ≤ 0x7ff := by omega
      rw [if_neg h2,if_neg h2']
      by_cases h3 : cp < 0x10000
      · have hlead : 0xe0 ||| cp/4096=0xe0+cp/4096 := lead_bits (k:=5) 7 (by omega)
        rw [if_pos h3,if_pos (Nat.le_of_lt_succ h3),hlead]
      · have h3' : ¬cp ≤ 0xffff := by omega
        have hlead : 0xf0 ||| cp/262144=0xf0+cp/262144 := lead_bits (k:=4) 15 (by omega)
        rw [if_neg h3,if_neg h3',hlead]

/-- Both converters append the same bytes for a code point of the basic
plane. -/
theorem basicPlane_eq {cp : ℕ} (h : cp < 0x10000) : X509.utf8OfCodePoint cp=bytesOf cp := by
  rw [←utf8OfCodePoint_eq (by omega : cp < 0x110000),X509.utf8OfCodePoint,utf8OfCodePoint]
  have hplane : cp ≤ 0xffff := Nat.le_of_lt_succ h
  rw [if_pos hplane]

/-- A unit as a sum. -/
theorem unit_eq (low high : UInt8) : low.toNat ||| high.toNat <<< 8=low.toNat+high.toNat*256 :=
  or_shift 8 low.toNat_lt

/-- Two bytes make a number of 16 bits. -/
theorem unit_lt (low high : UInt8) : low.toNat ||| high.toNat <<< 8 < 0x10000 := by
  have hlow := low.toNat_lt
  have hhigh := high.toNat_lt
  rw [unit_eq]
  omega

/-- Units are numbers of 16 bits. -/
theorem unitsLe_lt (data : Bytes) : ∀ unit ∈ unitsLe data,unit < 0x10000 := by
  induction data using unitsLe.induct with
  | case1 => exact fun unit hunit => absurd hunit List.not_mem_nil
  | case2 => exact fun unit hunit => absurd hunit List.not_mem_nil
  | case3 first second rest ih =>
    intro unit hunit
    rcases List.mem_cons.mp hunit with heq | hrest
    · rw [heq]
      exact unit_lt first second
    · exact ih unit hrest

/-- So are those of the other order. -/
theorem unitsBe_lt (data : Bytes) : ∀ unit ∈ unitsBe data,unit < 0x10000 := by
  induction data using unitsBe.induct with
  | case1 => exact fun unit hunit => absurd hunit List.not_mem_nil
  | case2 => exact fun unit hunit => absurd hunit List.not_mem_nil
  | case3 first second rest ih =>
    intro unit hunit
    rcases List.mem_cons.mp hunit with heq | hrest
    · rw [heq,Nat.lor_comm]
      exact unit_lt second first
    · exact ih unit hrest

/-- A unit that is not zero stands in front of the first zero unit. -/
theorem untilNul_cons {unit : ℕ} (h : unit≠0) (rest : List ℕ) :
    untilNul (unit::rest)=unit::untilNul rest :=
  List.takeWhile_cons_of_pos (decide_eq_true h)

/-- Nothing stands in front of a zero unit. -/
theorem untilNul_zero (rest : List ℕ) : untilNul (0::rest)=[] := rfl

/-- No unit stands in less than two bytes. -/
theorem unitsLe_short {data : Bytes} (h : data.length < 2) : unitsLe data=[] := by
  rcases data with _ | ⟨first,_ | ⟨second,rest⟩⟩
  · rfl
  · rfl
  · rw [List.length_cons,List.length_cons] at h
    omega

/-- A unit with less than two bytes behind it. -/
theorem utf16leToUtf8_last {first second : UInt8} {rest : Bytes}
    (hunit : first.toNat ||| second.toNat <<< 8≠0) (h : rest.length < 2) :
    utf16leToUtf8 (first::second::rest)=
      utf8OfCodePoint (first.toNat ||| second.toNat <<< 8)++utf16leToUtf8 rest := by
  rw [utf16leToUtf8.eq_def]
  dsimp only
  rw [if_neg hunit]
  rcases rest with _ | ⟨third,_ | ⟨fourth,more⟩⟩
  · rfl
  · rfl
  · rw [List.length_cons,List.length_cons] at h
    omega

/-- Bytes that do not start with two have a length below two. -/
theorem length_lt_two {data : Bytes}
    (h : ∀ first second rest,data=first::second::rest → False) : data.length < 2 := by
  rcases data with _ | ⟨first,_ | ⟨second,rest⟩⟩
  · exact Nat.zero_lt_two
  · exact Nat.one_lt_two
  · exact (h first second rest rfl).elim

/-- The process event converter copies the code points of the units in front
of the first zero unit. -/
theorem utf16leToUtf8_eq (data : Bytes) :
    utf16leToUtf8 data=(codePoints (untilNul (unitsLe data))).flatMap utf8OfCodePoint := by
  induction data using utf16leToUtf8.induct with
  | case1 first second rest unit hzero =>
    have hunit : first.toNat ||| second.toNat <<< 8=0 := hzero
    rw [utf16leToUtf8.eq_def,unitsLe]
    dsimp only
    rw [if_pos hunit,hunit,untilNul_zero]
    rfl
  | case2 first second unit hzero third fourth more low hpair ih =>
    have hlow : low≠0 := fun h => absurd (h ▸ hpair.2.1) (by decide)
    have hcode : pairCode unit low=0x10000+((unit-0xd800) <<< 10)+(low-0xdc00) := by
      have hshift : (unit-0xd800) <<< 10=(unit-0xd800)*1024 := Nat.shiftLeft_eq _ 10
      unfold pairCode
      omega
    rw [utf16leToUtf8.eq_def,unitsLe,unitsLe]
    dsimp only
    rw [if_neg hzero,if_pos hpair,untilNul_cons hzero,untilNul_cons hlow,
      codePoints_pair hpair.1 hpair.2,List.flatMap_cons,ih,hcode]
  | case3 first second unit hzero third fourth more low hpair ih =>
    have hfront : ∀ next ∈ (untilNul (unitsLe (third::fourth::more))).head?,
        ¬(HighSurrogate unit ∧ LowSurrogate next) := by
      intro next hnext
      rw [unitsLe] at hnext
      by_cases hlow : low=0
      · change next ∈ (untilNul (low::unitsLe more)).head? at hnext
        rw [hlow,untilNul_zero] at hnext
        exact absurd hnext.symm (Option.some_ne_none _)
      · change next ∈ (untilNul (low::unitsLe more)).head? at hnext
        rw [untilNul_cons hlow] at hnext
        rw [←Option.some.inj hnext]
        exact hpair
    rw [utf16leToUtf8.eq_def,unitsLe]
    dsimp only
    rw [if_neg hzero,if_neg hpair,untilNul_cons hzero,codePoints_single hfront,List.flatMap_cons,ih]
  | case4 first second unit hzero rest hshort ih =>
    have hlength := length_lt_two hshort
    rw [utf16leToUtf8_last hzero hlength,ih,unitsLe,unitsLe_short hlength,untilNul_cons hzero]
    exact List.flatMap_cons.symm
  | case5 data hshort =>
    have hnone := unitsLe_short (length_lt_two hshort)
    rw [utf16leToUtf8.eq_def,hnone]
    rcases data with _ | ⟨first,_ | ⟨second,rest⟩⟩
    · rfl
    · rfl
    · exact (hshort first second rest rfl).elim

/-- The certificate converter copies every unit. -/
theorem bmpStringToUtf8_eq (data : Bytes) :
    X509.bmpStringToUtf8 data=(unitsBe data).flatMap X509.utf8OfCodePoint := by
  induction data using unitsBe.induct with
  | case1 => rfl
  | case2 => rfl
  | case3 first second rest ih => rw [X509.bmpStringToUtf8,unitsBe,List.flatMap_cons,ih]

/-- The units in front of the first zero unit are numbers of 16 bits. -/
theorem untilNul_lt (data : Bytes) : ∀ unit ∈ untilNul (unitsLe data),unit < 0x10000 :=
  fun unit hunit => unitsLe_lt data unit ((List.takeWhile_prefix _).mem hunit)

/-- The code points that are copied have bytes. -/
theorem utf16leToUtf8_bytes (data : Bytes) :
    utf16leToUtf8 data=(codePoints (untilNul (unitsLe data))).flatMap bytesOf := by
  rw [utf16leToUtf8_eq]
  exact List.flatMap_congr fun code hcode =>
    utf8OfCodePoint_eq (codePoints_lt (untilNul_lt data) code hcode)

/-- So have the units of a certificate. -/
theorem bmpStringToUtf8_bytes (data : Bytes) :
    X509.bmpStringToUtf8 data=(unitsBe data).flatMap bytesOf := by
  rw [bmpStringToUtf8_eq]
  exact List.flatMap_congr fun unit hunit => basicPlane_eq (unitsBe_lt data unit hunit)

/-- A unit is a scalar value unless it is a surrogate. -/
theorem unit_valid_iff {unit : ℕ} (h : unit < 0x10000) :
    unit.isValidChar ↔ ¬(HighSurrogate unit ∨ LowSurrogate unit) := by
  unfold Nat.isValidChar HighSurrogate LowSurrogate
  omega

/-- A decoded image name is UTF-8 exactly when the units in front of the first
zero unit are UTF-16: every surrogate among them belongs to a pair. A decoded
common name is UTF-8 exactly when no unit is a surrogate. -/
theorem decoded_names_utf8_iff (data : Bytes) :
    (WellFormedUtf8 (utf16leToUtf8 data) ↔ WellFormedUtf16 (untilNul (unitsLe data))) ∧
      (WellFormedUtf8 (X509.bmpStringToUtf8 data) ↔
        ∀ unit ∈ unitsBe data,¬(HighSurrogate unit ∨ LowSurrogate unit)) := by
  constructor
  · rw [utf16leToUtf8_bytes,wellFormedUtf8_flatMap (codePoints_lt (untilNul_lt data)),
      codePoints_valid_iff (untilNul_lt data)]
  · have hbelow : ∀ unit ∈ unitsBe data,unit < 0x110000 := fun unit hunit =>
      (unitsBe_lt data unit hunit).trans (by decide)
    rw [bmpStringToUtf8_bytes,wellFormedUtf8_flatMap hbelow]
    exact forall₂_congr fun unit hunit => unit_valid_iff (unitsBe_lt data unit hunit)

/-- A surrogate alone comes out of both converters as it is. -/
theorem lone_surrogate_copied :
    ¬WellFormedUtf8 (utf16leToUtf8 [0x00,0xd8]) ∧
      ¬WellFormedUtf8 (X509.bmpStringToUtf8 [0xd8,0x00]) := by
  have hlone : ¬WellFormedUtf8 ([0xd800].flatMap bytesOf) := by
    rw [wellFormedUtf8_flatMap (by decide)]
    exact fun h => absurd (h 0xd800 List.mem_cons_self) (by decide)
  exact ⟨hlone,hlone⟩

end Conversion

section Prefix

/-- The fields in front of the image name, in the documented order. -/
structure ProcessStartPrefix where
  /-- ProcessID. -/
  processId : UInt32
  /-- ProcessSequenceNumber. -/
  processSequenceNumber : UInt64
  /-- CreateTime. -/
  createTime : UInt64
  /-- ParentProcessID. -/
  parentProcessId : UInt32
  /-- ParentProcessSequenceNumber. -/
  parentProcessSequenceNumber : UInt64
  /-- SessionID. -/
  sessionId : UInt32
  /-- Flags. -/
  flags : UInt32

/-- The bytes of the fields. -/
def ProcessStartPrefix.bytes (p : ProcessStartPrefix) : Bytes :=
  leBytes 4 p.processId.toNat++leBytes 8 p.processSequenceNumber.toNat++
    leBytes 8 p.createTime.toNat++leBytes 4 p.parentProcessId.toNat++
    leBytes 8 p.parentProcessSequenceNumber.toNat++leBytes 4 p.sessionId.toNat++
    leBytes 4 p.flags.toNat

/-- There are 40 of them. -/
theorem ProcessStartPrefix.length_bytes (p : ProcessStartPrefix) :
    p.bytes.length=processStartFixedPrefixSize := by
  unfold bytes
  simp only [List.length_append,leBytes_length]
  rfl

/-- A number that fits is read back from its bytes. -/
theorem leValue_leBytes {width value : ℕ} (h : value < 256^width) :
    leValue (leBytes width value)=value := by
  induction width generalizing value with
  | zero =>
    rw [pow_zero,Nat.lt_one_iff] at h
    rw [h]
    rfl
  | succ width ih =>
    have hrest : value/256 < 256^width := by
      rw [Nat.div_lt_iff_lt_mul (by decide),←pow_succ]
      exact h
    rw [leBytes,leValue,ih hrest,UInt8.toNat_ofNat']
    omega

/-- The bytes of the value of bytes are these bytes. -/
theorem leBytes_leValue (data : Bytes) : leBytes data.length (leValue data)=data := by
  induction data with
  | nil => rfl
  | cons b rest ih =>
    have hb := b.toNat_lt
    have hrest : (b.toNat+256*leValue rest)/256=leValue rest := by omega
    have hbyte : UInt8.ofNat (b.toNat+256*leValue rest)=b := by
      apply UInt8.toNat_inj.mp
      rw [UInt8.toNat_ofNat']
      omega
    rw [List.length_cons,leValue,leBytes,hrest,ih,hbyte]

/-- The value of bytes fits. -/
theorem leValue_lt (data : Bytes) : leValue data < 256^data.length := by
  induction data with
  | nil => exact Nat.one_pos
  | cons b rest ih =>
    have hb := b.toNat_lt
    rw [leValue,List.length_cons,pow_succ]
    omega

/-- Four bytes are those of a 32-bit number. -/
theorem exists_u32 {data : Bytes} (h : data.length=4) : ∃ v : UInt32,leBytes 4 v.toNat=data := by
  have hlt := leValue_lt data
  rw [h] at hlt
  refine ⟨UInt32.ofNat (leValue data),?_⟩
  rw [UInt32.toNat_ofNat_of_lt' (by omega),←h]
  exact leBytes_leValue data

/-- Eight bytes are those of a 64-bit number. -/
theorem exists_u64 {data : Bytes} (h : data.length=8) : ∃ v : UInt64,leBytes 8 v.toNat=data := by
  have hlt := leValue_lt data
  rw [h] at hlt
  refine ⟨UInt64.ofNat (leValue data),?_⟩
  rw [UInt64.toNat_ofNat_of_lt' (by omega),←h]
  exact leBytes_leValue data

/-- Bytes can be cut after a number of them. -/
theorem exists_cut {data : Bytes} {n m : ℕ} (h : data.length=n+m) :
    ∃ front back,data=front++back ∧ front.length=n ∧ back.length=m :=
  ⟨data.take n,data.drop n,(List.take_append_drop n data).symm,
    by rw [List.length_take]; omega,by rw [List.length_drop]; omega⟩

/-- Every 40 bytes are the bytes of some fields. -/
theorem exists_fields {front : Bytes} (h : front.length=processStartFixedPrefixSize) :
    ∃ p : ProcessStartPrefix,p.bytes=front := by
  obtain ⟨a,rest,rfl,ha,hrest⟩ := exists_cut (n:=4) (m:=36) h
  obtain ⟨b,rest,rfl,hb,hrest⟩ := exists_cut (n:=8) (m:=28) hrest
  obtain ⟨c,rest,rfl,hc,hrest⟩ := exists_cut (n:=8) (m:=20) hrest
  obtain ⟨d,rest,rfl,hd,hrest⟩ := exists_cut (n:=4) (m:=16) hrest
  obtain ⟨e,rest,rfl,he,hrest⟩ := exists_cut (n:=8) (m:=8) hrest
  obtain ⟨f,g,rfl,hf,hg⟩ := exists_cut (n:=4) (m:=4) hrest
  obtain ⟨pid,rfl⟩ := exists_u32 ha
  obtain ⟨sequence,rfl⟩ := exists_u64 hb
  obtain ⟨created,rfl⟩ := exists_u64 hc
  obtain ⟨parent,rfl⟩ := exists_u32 hd
  obtain ⟨parentSequence,rfl⟩ := exists_u64 he
  obtain ⟨session,rfl⟩ := exists_u32 hf
  obtain ⟨flags,rfl⟩ := exists_u32 hg
  refine ⟨⟨pid,sequence,created,parent,parentSequence,session,flags⟩,?_⟩
  unfold ProcessStartPrefix.bytes
  simp only [List.append_assoc]

/-- A part of bytes is found at its place. -/
theorem slice_part {front part back : Bytes} {offset length : ℕ} (hfront : front.length=offset)
    (hpart : part.length=length) : slice (front++(part++back)) offset length=part := by
  rw [slice,List.drop_left' hfront,List.take_left' hpart]

/-- A 32-bit field is read back. -/
theorem readU32le_part {front back : Bytes} {offset : ℕ} {value : UInt32}
    (hfront : front.length=offset) :
    readU32le (front++(leBytes 4 value.toNat++back)) offset=value := by
  rw [readU32le,slice_part hfront (leBytes_length 4 _),leValue_leBytes value.toNat_lt,
    UInt32.ofNat_toNat]

/-- A 64-bit field is read back. -/
theorem readU64le_part {front back : Bytes} {offset : ℕ} {value : UInt64}
    (hfront : front.length=offset) :
    readU64le (front++(leBytes 8 value.toNat++back)) offset=value := by
  rw [readU64le,slice_part hfront (leBytes_length 8 _),leValue_leBytes value.toNat_lt,
    UInt64.ofNat_toNat]

/-- The process number of a prefix is read back. -/
theorem readU32le_processId (p : ProcessStartPrefix) (rest : Bytes) :
    readU32le (p.bytes++rest) 0=p.processId := by
  unfold ProcessStartPrefix.bytes
  simp only [List.append_assoc]
  exact @readU32le_part [] _ _ _ rfl

/-- So is its creation time. -/
theorem readU64le_createTime (p : ProcessStartPrefix) (rest : Bytes) :
    readU64le (p.bytes++rest) 12=p.createTime := by
  unfold ProcessStartPrefix.bytes
  simp only [List.append_assoc]
  rw [←List.append_assoc]
  refine readU64le_part ?_
  rw [List.length_append,leBytes_length,leBytes_length]

/-- So is the number of its parent. -/
theorem readU32le_parentProcessId (p : ProcessStartPrefix) (rest : Bytes) :
    readU32le (p.bytes++rest) 20=p.parentProcessId := by
  unfold ProcessStartPrefix.bytes
  simp only [List.append_assoc]
  rw [←List.append_assoc,←List.append_assoc]
  refine readU32le_part ?_
  rw [List.length_append,List.length_append,leBytes_length,leBytes_length,leBytes_length]

/-- The fields of an event are decoded unless its process number is zero, and
the name is what is converted of the bytes behind them. -/
theorem decodeProcessStart_bytes (p : ProcessStartPrefix) (rest : Bytes) :
    decodeProcessStart (some (p.bytes++rest))=
      if p.processId=0 then none
      else some ⟨p.processId,p.parentProcessId,p.createTime,utf16leToUtf8 rest⟩ := by
  have hlength := p.length_bytes
  have hlong : ¬(p.bytes++rest).length < processStartFixedPrefixSize := by
    rw [List.length_append]
    omega
  have hname : (if processStartFixedPrefixSize < (p.bytes++rest).length then
      utf16leToUtf8 ((p.bytes++rest).drop processStartFixedPrefixSize) else [])=
      utf16leToUtf8 rest := by
    rw [List.drop_left' hlength,List.length_append,hlength]
    split_ifs with hmore
    · rfl
    · have hnil : rest=[] := List.eq_nil_of_length_eq_zero (by omega)
      rw [hnil]
      rfl
  rw [decodeProcessStart,if_neg hlong,hname,readU32le_processId,readU64le_createTime,
    readU32le_parentProcessId]

end Prefix

section Text

/-- The UTF-16LE encoding of a text. -/
def utf16le (text : List Char) : Bytes := (text.flatMap unitsOf).flatMap (leBytes 2)

/-- A name ends with its buffer or with a zero unit. -/
def Ending (tail : Bytes) : Prop := tail=[] ∨ ∃ more,tail=0::0::more

/-- Units are read back from their bytes. -/
theorem unitsLe_leBytes {units : List ℕ} (h : ∀ unit ∈ units,unit < 0x10000) (tail : Bytes) :
    unitsLe (units.flatMap (leBytes 2)++tail)=units++unitsLe tail := by
  induction units with
  | nil => rfl
  | cons unit rest ih =>
    have hunit := h unit List.mem_cons_self
    have hread : (UInt8.ofNat unit).toNat ||| (UInt8.ofNat (unit/256)).toNat <<< 8=unit := by
      rw [unit_eq,UInt8.toNat_ofNat',UInt8.toNat_ofNat']
      omega
    have hbytes : (unit::rest).flatMap (leBytes 2)++tail=
        UInt8.ofNat unit::UInt8.ofNat (unit/256)::(rest.flatMap (leBytes 2)++tail) := rfl
    rw [hbytes,unitsLe,hread,ih fun u hu => h u (List.mem_cons_of_mem _ hu),List.cons_append]

/-- The units of a scalar value are numbers of 16 bits, none of them zero
unless the value is. -/
theorem unitsOf_bounds {c : Char} (h : c.toNat≠0) : ∀ unit ∈ unitsOf c,unit < 0x10000 ∧ unit≠0 := by
  have hlt := char_lt c
  intro unit hunit
  rw [unitsOf] at hunit
  split_ifs at hunit with hplane
  · rw [List.mem_singleton.mp hunit]
    exact ⟨hplane,h⟩
  · rcases List.mem_cons.mp hunit with heq | hlast
    · omega
    · have heq := List.mem_singleton.mp hlast
      omega

/-- Nothing is read of an ending. -/
theorem untilNul_ending {tail : Bytes} (h : Ending tail) : untilNul (unitsLe tail)=[] := by
  rcases h with rfl | ⟨more,rfl⟩
  · rfl
  · exact untilNul_zero _

/-- A text without a zero character is converted to its UTF-8 encoding. -/
theorem utf16leToUtf8_utf16le {text : List Char} (htext : ∀ c ∈ text,c.toNat≠0) {tail : Bytes}
    (htail : Ending tail) :
    utf16leToUtf8 (utf16le text++tail)=text.flatMap String.utf8EncodeChar := by
  have hunits : ∀ unit ∈ text.flatMap unitsOf,unit < 0x10000 ∧ unit≠0 := by
    intro unit hunit
    obtain ⟨c,hc,hin⟩ := List.mem_flatMap.mp hunit
    exact unitsOf_bounds (htext c hc) unit hin
  have hkept : untilNul (text.flatMap unitsOf++unitsLe tail)=text.flatMap unitsOf := by
    have hending := untilNul_ending htail
    rw [untilNul] at hending ⊢
    rw [List.takeWhile_append_of_pos fun unit hunit => decide_eq_true (hunits unit hunit).2,
      hending,List.append_nil]
  rw [utf16leToUtf8_bytes,utf16le,unitsLe_leBytes fun unit hunit => (hunits unit hunit).1,hkept,
    codePoints_flatMap,flatMap_utf8EncodeChar]

/-- The encoding of a text without a zero character is converted to its UTF-8
encoding, whatever follows a zero unit, and behind the fields of an event it is
the decoded name together with the fields, unless the process number is zero. -/
theorem decode_text {text : List Char} (htext : ∀ c ∈ text,c.toNat≠0) {tail : Bytes}
    (htail : Ending tail) (p : ProcessStartPrefix) :
    utf16leToUtf8 (utf16le text++tail)=text.flatMap String.utf8EncodeChar ∧
      decodeProcessStart (some (p.bytes++(utf16le text++tail)))=
        if p.processId=0 then none
        else some ⟨p.processId,p.parentProcessId,p.createTime,
          text.flatMap String.utf8EncodeChar⟩ := by
  have hname := utf16leToUtf8_utf16le htext htail
  refine ⟨hname,?_⟩
  rw [decodeProcessStart_bytes,hname]

/-- A text with characters of one, two and four bytes. -/
def threeLengths : List Char := [Char.ofNat 0x61,Char.ofNat 0xe9,Char.ofNat 0x1d11e]

/-- It has no zero character. -/
theorem threeLengths_ne_zero : ∀ c ∈ threeLengths,c.toNat≠0 := by
  intro c hc
  rw [threeLengths] at hc
  simp only [List.mem_cons,List.not_mem_nil,or_false] at hc
  rcases hc with rfl | rfl | rfl
  · decide
  · decide
  · decide

/-- Such a text behind the fields of a process, with more behind its end. -/
theorem decode_three_lengths :
    utf16leToUtf8 (utf16le threeLengths++[0,0,7])=threeLengths.flatMap String.utf8EncodeChar ∧
      decodeProcessStart (some ((⟨4242,1,100000000,9999,2,1,0⟩ : ProcessStartPrefix).bytes++
        (utf16le threeLengths++[0,0,7])))=
        if (4242 : UInt32)=0 then none
        else some ⟨4242,9999,100000000,threeLengths.flatMap String.utf8EncodeChar⟩ :=
  decode_text threeLengths_ne_zero (.inr ⟨[7],rfl⟩) ⟨4242,1,100000000,9999,2,1,0⟩

/-- An event of process zero is refused. -/
theorem process_zero_refused :
    decodeProcessStart (some ((⟨0,1,100000000,9999,2,1,0⟩ : ProcessStartPrefix).bytes++
      utf16le threeLengths))=none := by
  rw [decodeProcessStart_bytes]
  rfl

end Text

end Gcad.DecodedNames
