import Gcad.BignumBytes
import Gcad.X509

/-!
# RSA signatures with PKCS#1 v1.5 padding

`verify_pkcs1v15` recovers the encoded message with the public key and
compares it piece by piece. The pieces cover the whole message: the length
equation leaves no byte between the padding and the end that is not
compared, so exactly one message is accepted for a key and a digest.
-/

namespace Gcad.RsaPkcs1

open ByteView CheckedLoop Bignum X509

/-- A byte array of a fixed size. -/
abbrev FixedBytes (size : ℕ) := {bytes : Bytes // bytes.length=size}

/-- `kSha256DigestInfoPrefix`. -/
def sha256DigestInfoPrefix : FixedBytes 19 :=
  ⟨[0x30,0x31,0x30,0x0d,0x06,0x09,0x60,0x86,0x48,0x01,
    0x65,0x03,0x04,0x02,0x01,0x05,0x00,0x04,0x20],rfl⟩

/-- `kSha384DigestInfoPrefix`. -/
def sha384DigestInfoPrefix : FixedBytes 19 :=
  ⟨[0x30,0x41,0x30,0x0d,0x06,0x09,0x60,0x86,0x48,0x01,
    0x65,0x03,0x04,0x02,0x02,0x05,0x00,0x04,0x30],rfl⟩

/-- The scan of the padding bytes from index 2 on. -/
def paddingLength (em : Bytes) : ℕ :=
  ((em.drop 2).takeWhile fun byte => decide (byte=0xFF)).length

/-- The comparison of the recovered message with what the key size, the
digest algorithm and the digest ask for. -/
def checkEncoding (em : Bytes) (modulusSize : ℕ) (digest digestInfo : Bytes) : Checked Bool :=
  if em.length≠modulusSize then .ok false
  else if em.length < 11 then .ok false
  else do
    let first ← load em 0
    let second ← load em 1
    if first≠0x00 ∨ second≠0x01 then return false
    else
      let i := 2+paddingLength em
      if paddingLength em < 8 then return false
      else if em.length ≤ i then return false
      else
        let separator ← load em i
        if separator≠0x00 then return false
        else if em.length-(i+1)≠digestInfo.length+digest.length then return false
        else
          let info ← readSlice em (i+1) digestInfo.length
          if info≠digestInfo then return false
          else
            let rest ← readSlice em (i+1+digestInfo.length) digest.length
            return decide (rest=digest)

/-- `verify_pkcs1v15`. -/
def verifyPkcs1v15 {size : ℕ} (signature : Bytes) (key : RsaPublicKey) (digest : FixedBytes size)
    (digestInfo : FixedBytes 19) : Checked Bool :=
  if signature=[] ∨ key.modulus=[] ∨ key.exponent=[] then .ok false
  else do
    let n ← fromBytesBe key.modulus
    let e ← fromBytesBe key.exponent
    let sig ← fromBytesBe signature
    if isZero n || isZero e || isZero sig then return false
    else
      let order ← compare sig n
      if 0 ≤ order then return false
      else
        let decoded ← modPow sig e n
        let em ← toBytesBe decoded key.modulus.length
        checkEncoding em key.modulus.length digest.1 digestInfo.1

/-- `verify_pkcs1v15_sha256`. -/
def verifyPkcs1v15Sha256 (signature : Bytes) (key : RsaPublicKey) (digest : FixedBytes 32) :
    Checked Bool := verifyPkcs1v15 signature key digest sha256DigestInfoPrefix

/-- `verify_pkcs1v15_sha384`. -/
def verifyPkcs1v15Sha384 (signature : Bytes) (key : RsaPublicKey) (digest : FixedBytes 48) :
    Checked Bool := verifyPkcs1v15 signature key digest sha384DigestInfoPrefix

section Encoding

/-- The message with a given number of padding bytes. -/
def encodedMessage (padding : ℕ) (digestInfo digest : Bytes) : Bytes :=
  [0x00,0x01]++List.replicate padding 0xFF++[0x00]++digestInfo++digest

/-- Big-endian encoding in a given number of bytes. -/
def bigEndian (width value : ℕ) : Bytes := (leBytes width value).reverse

variable {em digestInfo digest : Bytes} {modulusSize padding : ℕ}

/-- The padding scan counts the padding bytes of an encoded message. -/
theorem paddingLength_encodedMessage (padding : ℕ) (digestInfo digest : Bytes) :
    paddingLength (encodedMessage padding digestInfo digest)=padding := by
  have hscan : ∀ (n : ℕ) (rest : Bytes),
      ((List.replicate n 0xFF++0x00::rest).takeWhile fun byte => decide (byte=0xFF)).length=n := by
    intro n rest
    induction n with
    | zero => rfl
    | succ n ih =>
      rw [List.replicate_succ,List.cons_append,List.takeWhile_cons_of_pos (by decide),
        List.length_cons,ih]
  have hdrop : (encodedMessage padding digestInfo digest).drop 2=
      List.replicate padding 0xFF++0x00::(digestInfo++digest) := by
    simp [encodedMessage]
  unfold paddingLength
  rw [hdrop]
  exact hscan padding _

/-- The length of an encoded message. -/
theorem encodedMessage_length (padding : ℕ) (digestInfo digest : Bytes) :
    (encodedMessage padding digestInfo digest).length=
      padding+3+digestInfo.length+digest.length := by
  simp [encodedMessage]
  omega

/-- The bytes of the parts of an encoded message. -/
theorem encodedMessage_parts (padding : ℕ) (digestInfo digest : Bytes) :
    (encodedMessage padding digestInfo digest)[2+padding]?=some 0x00 ∧
    slice (encodedMessage padding digestInfo digest) (2+padding+1) digestInfo.length=digestInfo ∧
    slice (encodedMessage padding digestInfo digest) (2+padding+1+digestInfo.length)
      digest.length=digest := by
  have hfront : ([0x00,0x01]++List.replicate padding 0xFF : Bytes).length=2+padding := by
    simp
    omega
  have hinfo : ([0x00,0x01]++List.replicate padding 0xFF++[0x00] : Bytes).length=2+padding+1 := by
    rw [List.length_append,hfront]
    rfl
  have hdigest : ([0x00,0x01]++List.replicate padding 0xFF++[0x00]++digestInfo : Bytes).length=
      2+padding+1+digestInfo.length := by
    rw [List.length_append,hinfo]
  refine ⟨?_,?_,?_⟩
  · unfold encodedMessage
    rw [List.append_assoc,List.append_assoc,List.getElem?_append_right hfront.le,hfront,
      Nat.sub_self]
    rfl
  · unfold slice encodedMessage
    rw [List.append_assoc,List.drop_left' hinfo]
    exact List.take_left
  · unfold slice encodedMessage
    rw [List.drop_left' hdigest]
    exact List.take_length

/-- The comparison accepts the encoded message of the key size. -/
theorem checkEncoding_encodedMessage (hpadding : 8 ≤ padding) :
    checkEncoding (encodedMessage padding digestInfo digest)
      (padding+3+digestInfo.length+digest.length) digest digestInfo=.ok true := by
  have hlength := encodedMessage_length padding digestInfo digest
  have hscan := paddingLength_encodedMessage padding digestInfo digest
  obtain ⟨hseparator,hinfo,hdigest⟩ := encodedMessage_parts padding digestInfo digest
  have hload : load (encodedMessage padding digestInfo digest) (2+padding)=.ok 0x00 := by
    unfold load
    rw [hseparator]
  unfold checkEncoding
  rw [if_neg (not_not.mpr hlength),if_neg (by omega)]
  have hfirst : load (encodedMessage padding digestInfo digest) 0=.ok 0x00 := rfl
  have hsecond : load (encodedMessage padding digestInfo digest) 1=.ok 0x01 := rfl
  rw [bind_of_ok hfirst,bind_of_ok hsecond,if_neg (by decide)]
  dsimp only
  rw [hscan,if_neg (by omega),if_neg (by omega),bind_of_ok hload,if_neg (by decide),
    if_neg (by omega)]
  rw [bind_of_ok (readSlice_eq_ok.mpr ⟨by omega,hinfo⟩),if_neg (not_not.mpr rfl),
    bind_of_ok (readSlice_eq_ok.mpr ⟨by omega,hdigest⟩)]
  exact congrArg Except.ok (decide_eq_true rfl)

/-- A message with the two leading bytes is its padding and the bytes after
the scan. -/
theorem eq_scan (hfirst : em[0]?=some 0x00) (hsecond : em[1]?=some 0x01) :
    em=[0x00,0x01]++List.replicate (paddingLength em) 0xFF++em.drop (2+paddingLength em) := by
  match em with
  | [] => cases hfirst
  | [_] => cases hsecond
  | first::second::rest =>
    cases hfirst
    cases hsecond
    unfold paddingLength
    rw [List.drop_succ_cons,List.drop_succ_cons,List.drop_zero]
    have hpadding : rest.takeWhile (fun byte => decide (byte=0xFF))=
        List.replicate (rest.takeWhile fun byte => decide (byte=0xFF)).length 0xFF := by
      apply List.eq_replicate_of_mem
      intro byte hbyte
      have hscanned := List.mem_takeWhile_imp (p := fun byte : UInt8 => decide (byte=0xFF)) hbyte
      exact of_decide_eq_true hscanned
    have hsplit := List.prefix_iff_eq_append.mp
      (List.takeWhile_prefix (l := rest) fun byte => decide (byte=0xFF))
    rw [Nat.add_comm 2,List.drop_succ_cons,List.drop_succ_cons,← hpadding,List.append_assoc,hsplit]
    rfl

/-- A check that did not refuse. -/
theorem refuse_eq_true {p : Prop} [Decidable p] {x : Checked Bool} :
    (if p then (.ok false) else x)=.ok true ↔ ¬p ∧ x=.ok true := by
  by_cases hp : p
  · rw [if_pos hp]
    exact iff_of_false nofun (fun h => h.1 hp)
  · rw [if_neg hp]
    exact ⟨fun h => ⟨hp,h⟩,fun h => h.2⟩

/-- A cell that was read. -/
theorem getElem?_of_load {i : ℕ} {byte : UInt8} (h : load em i=.ok byte) : em[i]?=some byte := by
  unfold load at h
  split at h
  · next cell hcell =>
    cases h
    exact hcell
  · cases h

/-- Two slices that reach the end of a buffer are all that follows. -/
theorem drop_eq_of_slices {data first second : Bytes} {start : ℕ}
    (hfirst : slice data start first.length=first)
    (hsecond : slice data (start+first.length) second.length=second)
    (hend : data.length ≤ start+first.length+second.length) : data.drop start=first++second := by
  unfold slice at hfirst hsecond
  rw [← List.drop_drop] at hsecond
  have hlast : ((data.drop start).drop first.length).take second.length=
      (data.drop start).drop first.length := by
    apply List.take_of_length_le
    rw [List.length_drop,List.length_drop]
    omega
  rw [← List.take_append_drop first.length (data.drop start),hfirst,← hlast,hsecond]

/-- What the comparison accepts is the encoded message of the key size. -/
theorem eq_encodedMessage_of_check (h : checkEncoding em modulusSize digest digestInfo=.ok true) :
    8 ≤ paddingLength em ∧ modulusSize=paddingLength em+3+digestInfo.length+digest.length ∧
      em=encodedMessage (paddingLength em) digestInfo digest := by
  obtain ⟨hsize,h⟩ := refuse_eq_true.mp h
  obtain ⟨-,h⟩ := refuse_eq_true.mp h
  obtain ⟨first,hfirst,h⟩ := bind_eq_ok.mp h
  obtain ⟨second,hsecond,h⟩ := bind_eq_ok.mp h
  obtain ⟨hlead,h⟩ := refuse_eq_true.mp h
  rw [not_or,not_not,not_not] at hlead
  rw [hlead.1] at hfirst
  rw [hlead.2] at hsecond
  obtain ⟨hpadding,h⟩ := refuse_eq_true.mp h
  obtain ⟨hinside,h⟩ := refuse_eq_true.mp h
  obtain ⟨separator,hseparator,h⟩ := bind_eq_ok.mp h
  obtain ⟨hzero,h⟩ := refuse_eq_true.mp h
  obtain ⟨hrest,h⟩ := refuse_eq_true.mp h
  obtain ⟨info,hinfo,h⟩ := bind_eq_ok.mp h
  obtain ⟨hsame,h⟩ := refuse_eq_true.mp h
  obtain ⟨tail,htail,h⟩ := bind_eq_ok.mp h
  have hdigest : tail=digest := of_decide_eq_true (Except.ok.inj h)
  have hscan := eq_scan (getElem?_of_load hfirst) (getElem?_of_load hsecond)
  have hinfo' := (readSlice_eq_ok.mp hinfo).2
  have htail' := (readSlice_eq_ok.mp htail).2
  have hseparator' := getElem?_of_load hseparator
  rw [not_not.mp hzero] at hseparator'
  rw [not_not.mp hsame] at hinfo'
  rw [hdigest] at htail'
  have hcons : em.drop (2+paddingLength em)=0x00::em.drop (2+paddingLength em+1) := by
    rw [List.drop_eq_getElem?_toList_append,hseparator']
    rfl
  have hwhole := drop_eq_of_slices hinfo' htail' (by omega)
  have hafter : em.drop (2+paddingLength em)=0x00::(digestInfo++digest) := by
    rw [hcons,hwhole]
  refine ⟨by omega,by omega,?_⟩
  rw [hafter] at hscan
  unfold encodedMessage
  rw [List.append_assoc,List.append_assoc,List.append_assoc]
  rw [List.append_assoc] at hscan
  exact hscan

/-- A check that refuses or goes on returns when what follows returns. -/
theorem refuse_returns {p : Prop} [Decidable p] {x : Checked Bool} (h : ¬p → ∃ b, x=.ok b) :
    ∃ b, (if p then (.ok false) else x)=.ok b := by
  by_cases hp : p
  · exact ⟨false,if_pos hp⟩
  · rw [if_neg hp]
    exact h hp

/-- The comparison stays inside the message. -/
theorem checkEncoding_returns (em : Bytes) (modulusSize : ℕ) (digest digestInfo : Bytes) :
    ∃ accepted, checkEncoding em modulusSize digest digestInfo=.ok accepted := by
  refine refuse_returns fun _ => refuse_returns fun hshort => ?_
  rw [bind_of_ok (load_eq (by omega) 0),bind_of_ok (load_eq (by omega) 0)]
  refine refuse_returns fun _ => refuse_returns fun _ => refuse_returns fun hinside => ?_
  rw [bind_of_ok (load_eq (by omega) 0)]
  refine refuse_returns fun _ => refuse_returns fun hrest => ?_
  rw [bind_of_ok (readSlice_eq_ok.mpr ⟨by omega,rfl⟩)]
  refine refuse_returns fun _ => ?_
  rw [bind_of_ok (readSlice_eq_ok.mpr ⟨by omega,rfl⟩)]
  exact ⟨_,rfl⟩

/-- The comparison accepts exactly one message. -/
theorem checkEncoding_iff (em : Bytes) (modulusSize : ℕ) (digest digestInfo : Bytes) :
    checkEncoding em modulusSize digest digestInfo=.ok true ↔
      8 ≤ modulusSize-(3+digestInfo.length+digest.length) ∧
        em=encodedMessage (modulusSize-(3+digestInfo.length+digest.length)) digestInfo digest := by
  constructor
  · intro h
    obtain ⟨hpadding,hsize,hem⟩ := eq_encodedMessage_of_check h
    have hlength : modulusSize-(3+digestInfo.length+digest.length)=paddingLength em := by omega
    rw [hlength]
    exact ⟨hpadding,hem⟩
  · rintro ⟨hpadding,rfl⟩
    have hcheck := @checkEncoding_encodedMessage digestInfo digest _ hpadding
    have hsize : modulusSize-(3+digestInfo.length+digest.length)+3+digestInfo.length+
        digest.length=modulusSize := by omega
    rw [hsize] at hcheck
    exact hcheck

/-- The value of a fixed-width encoding. -/
theorem beValue_bigEndian {width value : ℕ} (h : value < 256^width) :
    beValue (bigEndian width value)=value := by
  unfold beValue bigEndian
  rw [List.reverse_reverse]
  induction width generalizing value with
  | zero =>
    have hzero : value=0 := by omega
    rw [hzero]
    rfl
  | succ width ih =>
    have hlt : value/256 < 256^width := by
      rw [pow_succ] at h
      omega
    have hrest := ih hlt
    unfold leValue byteDigits at hrest ⊢
    rw [leBytes,List.map_cons,Nat.ofDigits_cons,hrest,UInt8.toNat_ofNat']
    omega

/-- Byte strings of one length with one value are the same. -/
theorem eq_of_beValue_eq {bytes other : Bytes} (hlength : bytes.length=other.length)
    (hvalue : beValue bytes=beValue other) : bytes=other := by
  have hdigits : byteDigits bytes.reverse=byteDigits other.reverse := by
    apply Nat.ofDigits_inj_of_len_eq (by decide) _ (byteDigits_lt _) (byteDigits_lt _) hvalue
    unfold byteDigits
    rw [List.length_map,List.length_map,List.length_reverse,List.length_reverse,hlength]
  have hinjective : Function.Injective UInt8.toNat := fun _ _ => UInt8.toNat_inj.mp
  exact List.reverse_injective (hinjective.list_map hdigits)

/-- A byte string is the encoding of its value. -/
theorem bigEndian_beValue (bytes : Bytes) : bigEndian bytes.length (beValue bytes)=bytes := by
  apply eq_of_beValue_eq
  · unfold bigEndian
    rw [List.length_reverse,leBytes_length]
  · exact beValue_bigEndian (beValue_lt bytes)

/-- A number that fits is written in its fixed-width encoding. -/
theorem toBytesBe_eq {a : BigUInt} {width : ℕ} (h : a.value < 256^width) :
    toBytesBe a width=.ok (bigEndian width a.value) := by
  obtain ⟨bytes,hwrite,hvalue,hlength⟩ := toBytesBe_spec a width
  have hfit : byteLength a.value ≤ width := (Nat.digits_length_le_iff (by decide) _).mpr h
  have hwidth : (bigEndian width a.value).length=width := by
    unfold bigEndian
    rw [List.length_reverse,leBytes_length]
  have hsame : bytes=bigEndian width a.value := by
    apply eq_of_beValue_eq
    · rw [hlength,hwidth]
      omega
    · rw [hvalue,beValue_bigEndian h]
  rw [hwrite,hsame]

end Encoding

section Acceptance

/-- The signatures a key is meant to accept for a digest: with the integers
read from the byte strings, the recovered integer encodes the one message
of the modulus size. -/
@[mk_iff accepted_iff]
structure Accepted (signature : Bytes) (key : RsaPublicKey) (digestInfo digest : Bytes) :
    Prop where
  /-- The modulus is positive. -/
  modulus : 0 < beValue key.modulus
  /-- The exponent is positive. -/
  exponent : 0 < beValue key.exponent
  /-- The signature is positive. -/
  positive : 0 < beValue signature
  /-- The signature is below the modulus. -/
  below : beValue signature < beValue key.modulus
  /-- There are at least eight padding bytes. -/
  padding : 8 ≤ key.modulus.length-(3+digestInfo.length+digest.length)
  /-- The recovered bytes are the encoded message. -/
  message : bigEndian key.modulus.length
      (beValue signature^beValue key.exponent%beValue key.modulus)=
    encodedMessage (key.modulus.length-(3+digestInfo.length+digest.length)) digestInfo digest

/-- Nothing about an accepted signature is empty. -/
theorem Accepted.nonempty {signature digestInfo digest : Bytes} {key : RsaPublicKey}
    (h : Accepted signature key digestInfo digest) :
    ¬(signature=[] ∨ key.modulus=[] ∨ key.exponent=[]) := by
  have hpositive : ∀ {bytes : Bytes},0 < beValue bytes → bytes≠[] := by
    rintro bytes hlt rfl
    exact Nat.lt_irrefl 0 hlt
  rintro (hsig | hn | he)
  · exact hpositive h.positive hsig
  · exact hpositive h.modulus hn
  · exact hpositive h.exponent he

/-- The verification returns, and accepts exactly the intended signatures. -/
theorem verifyPkcs1v15_accepts {size : ℕ} (signature : Bytes) (key : RsaPublicKey)
    (digest : FixedBytes size) (digestInfo : FixedBytes 19) :
    ∃ accepted, verifyPkcs1v15 signature key digest digestInfo=.ok accepted ∧
      (accepted=true ↔ Accepted signature key digestInfo.1 digest.1) := by
  unfold verifyPkcs1v15
  by_cases hempty : signature=[] ∨ key.modulus=[] ∨ key.exponent=[]
  · rw [if_pos hempty]
    exact ⟨false,rfl,iff_of_false nofun fun h => h.nonempty hempty⟩
  rw [if_neg hempty]
  obtain ⟨n,hn,-,hnv⟩ := fromBytesBe_denotes key.modulus
  obtain ⟨e,he,-,hev⟩ := fromBytesBe_denotes key.exponent
  obtain ⟨sig,hsig,-,hsigv⟩ := fromBytesBe_denotes signature
  rw [bind_of_ok hn,bind_of_ok he,bind_of_ok hsig]
  by_cases hzero : (isZero n || isZero e || isZero sig)=true
  · rw [if_pos hzero]
    refine ⟨false,rfl,iff_of_false nofun ?_⟩
    intro h
    have hmodulus := h.modulus
    have hexponent := h.exponent
    have hpositive := h.positive
    rw [Bool.or_eq_true_iff,Bool.or_eq_true_iff,isZero_iff,isZero_iff,isZero_iff] at hzero
    omega
  rw [if_neg hzero,bind_of_ok (compare_eq sig n)]
  rw [Bool.or_eq_true_iff,Bool.or_eq_true_iff,isZero_iff,isZero_iff,isZero_iff] at hzero
  by_cases horder : 0 ≤ Int.sign ((sig.value : ℤ)-n.value)
  · rw [if_pos horder]
    refine ⟨false,rfl,iff_of_false nofun ?_⟩
    intro h
    have hbelow := h.below
    rw [Int.sign_nonneg_iff] at horder
    omega
  rw [if_neg horder]
  rw [Int.sign_nonneg_iff] at horder
  obtain ⟨decoded,hdecoded,-,hvalue⟩ := modPow_returns sig e n (by omega)
  rw [if_neg (by omega),hsigv,hev,hnv] at hvalue
  have hfit : decoded.value < 256^key.modulus.length := by
    rw [hvalue]
    exact (Nat.mod_lt _ (by omega)).trans (beValue_lt key.modulus)
  rw [bind_of_ok hdecoded,bind_of_ok (toBytesBe_eq hfit),hvalue]
  obtain ⟨accepted,hcheck⟩ := checkEncoding_returns (bigEndian key.modulus.length
    (beValue signature^beValue key.exponent%beValue key.modulus)) key.modulus.length digest.1
    digestInfo.1
  have hiff := checkEncoding_iff (bigEndian key.modulus.length
    (beValue signature^beValue key.exponent%beValue key.modulus)) key.modulus.length digest.1
    digestInfo.1
  rw [hcheck,Except.ok.injEq] at hiff
  refine ⟨accepted,hcheck,hiff.trans ?_⟩
  constructor
  · rintro ⟨hpadding,hmessage⟩
    exact ⟨by omega,by omega,by omega,by omega,hpadding,hmessage⟩
  · intro h
    exact ⟨h.padding,h.message⟩

/-- Under the exponent one the encoded message is its own signature. -/
theorem accepted_exponent_one {modulus digestInfo digest : Bytes} {padding : ℕ}
    (hsize : modulus.length=padding+3+digestInfo.length+digest.length) (hpadding : 8 ≤ padding)
    (hbelow : beValue (encodedMessage padding digestInfo digest) < beValue modulus) :
    Accepted (encodedMessage padding digestInfo digest) ⟨modulus,[1]⟩ digestInfo digest := by
  have hmessage := bigEndian_beValue (encodedMessage padding digestInfo digest)
  rw [encodedMessage_length,← hsize] at hmessage
  have hlength : modulus.length-(3+digestInfo.length+digest.length)=padding := by omega
  have hpositive : 0 < beValue (encodedMessage padding digestInfo digest) := by
    unfold encodedMessage
    rw [List.append_assoc,List.append_assoc,List.append_assoc,List.cons_append,
      beValue_zero_cons,List.cons_append,beValue_cons]
    have hweight : ∀ n, 0 < 256^n*(1 : UInt8).toNat := by
      intro n
      exact Nat.mul_pos (Nat.pow_pos (by decide)) (by decide)
    exact Nat.add_pos_right _ (hweight _)
  refine ⟨Nat.zero_lt_of_lt hbelow,Nat.one_pos,hpositive,hbelow,?_,?_⟩
  · dsimp only
    omega
  · have hexponent : beValue [1]=1 := rfl
    dsimp only
    rw [hexponent,pow_one,Nat.mod_eq_of_lt hbelow,hmessage,hlength]

end Acceptance

/-- Acceptance is exact for both digest algorithms: a signature is accepted
if and only if the integers of the byte strings satisfy `n, e > 0` and
`0 < s < n` and the `k`-byte encoding of `s^e mod n` is `00 01`, then
`k-22-h` bytes `FF`, at least eight, then `00`, the DigestInfo prefix and
the digest. -/
theorem verify_pkcs1v15_exact (signature : Bytes) (key : RsaPublicKey) :
    (∀ digest : FixedBytes 32, ∃ accepted,
      verifyPkcs1v15Sha256 signature key digest=.ok accepted ∧
      (accepted=true ↔
        0 < beValue key.modulus ∧ 0 < beValue key.exponent ∧ 0 < beValue signature ∧
        beValue signature < beValue key.modulus ∧ 8 ≤ key.modulus.length-22-32 ∧
        bigEndian key.modulus.length
            (beValue signature^beValue key.exponent%beValue key.modulus)=
          [0x00,0x01]++List.replicate (key.modulus.length-22-32) 0xFF++[0x00]++
            sha256DigestInfoPrefix.1++digest.1)) ∧
    (∀ digest : FixedBytes 48, ∃ accepted,
      verifyPkcs1v15Sha384 signature key digest=.ok accepted ∧
      (accepted=true ↔
        0 < beValue key.modulus ∧ 0 < beValue key.exponent ∧ 0 < beValue signature ∧
        beValue signature < beValue key.modulus ∧ 8 ≤ key.modulus.length-22-48 ∧
        bigEndian key.modulus.length
            (beValue signature^beValue key.exponent%beValue key.modulus)=
          [0x00,0x01]++List.replicate (key.modulus.length-22-48) 0xFF++[0x00]++
            sha384DigestInfoPrefix.1++digest.1)) := by
  constructor
  · intro digest
    obtain ⟨accepted,hverify,hiff⟩ :=
      verifyPkcs1v15_accepts signature key digest sha256DigestInfoPrefix
    refine ⟨accepted,hverify,hiff.trans ?_⟩
    have hpadding : key.modulus.length-(3+sha256DigestInfoPrefix.1.length+digest.1.length)=
        key.modulus.length-22-32 := by
      rw [sha256DigestInfoPrefix.2,digest.2]
      omega
    rw [accepted_iff,hpadding]
    rfl
  · intro digest
    obtain ⟨accepted,hverify,hiff⟩ :=
      verifyPkcs1v15_accepts signature key digest sha384DigestInfoPrefix
    refine ⟨accepted,hverify,hiff.trans ?_⟩
    have hpadding : key.modulus.length-(3+sha384DigestInfoPrefix.1.length+digest.1.length)=
        key.modulus.length-22-48 := by
      rw [sha384DigestInfoPrefix.2,digest.2]
      omega
    rw [accepted_iff,hpadding]
    rfl

end Gcad.RsaPkcs1
