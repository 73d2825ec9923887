import Gcad.BignumReduction

/-!
# Byte strings as numbers

Reading a number from big-endian bytes and writing it back with a minimal
length. Both directions keep the value of the byte string, and with the
arithmetic the class refines the natural numbers.
-/

namespace Gcad.Bignum

open ByteView CheckedLoop Digits

section Values

/-- The digits of a byte string, first byte first. -/
def byteDigits (bytes : Bytes) : List ℕ := bytes.map UInt8.toNat

/-- Value of a little-endian byte string. -/
def leValue (bytes : Bytes) : ℕ := Nat.ofDigits 256 (byteDigits bytes)

/-- Value of a big-endian byte string. -/
def beValue (bytes : Bytes) : ℕ := leValue bytes.reverse

/-- Number of bytes of a number, without leading zeros. -/
def byteLength (n : ℕ) : ℕ := (Nat.digits 256 n).length

/-- Bytes are digits. -/
theorem byteDigits_lt (bytes : Bytes) : ∀ digit ∈ byteDigits bytes, digit < 256 := by
  intro digit hdigit
  obtain ⟨byte,-,rfl⟩ := List.mem_map.mp hdigit
  exact UInt8.toNat_lt byte

/-- A first byte has the top weight. -/
theorem beValue_cons (byte : UInt8) (bytes : Bytes) :
    beValue (byte::bytes)=beValue bytes+256^bytes.length*byte.toNat := by
  unfold beValue leValue byteDigits
  rw [List.reverse_cons,List.map_append,Nat.ofDigits_append,List.length_map,List.length_reverse]
  congr 2

/-- A leading zero does not change the value. -/
theorem beValue_zero_cons (bytes : Bytes) : beValue (0::bytes)=beValue bytes := by
  rw [beValue_cons]
  exact Nat.add_zero _

/-- Leading zeros do not change the value. -/
theorem beValue_replicate_append (n : ℕ) (bytes : Bytes) :
    beValue (List.replicate n 0++bytes)=beValue bytes := by
  induction n with
  | zero => rfl
  | succ n ih =>
    rw [List.replicate_succ,List.cons_append,beValue_zero_cons]
    exact ih

/-- The value stays below the weight of the length. -/
theorem beValue_lt (bytes : Bytes) : beValue bytes < 256^bytes.length := by
  have hbound := Nat.ofDigits_lt_base_pow_length (by decide) (byteDigits_lt bytes.reverse)
  unfold byteDigits at hbound
  rw [List.length_map,List.length_reverse] at hbound
  exact hbound

/-- The digits of a byte string without a leading zero are those of its
value. -/
theorem digits_beValue {bytes : Bytes} (h : bytes.head?≠some 0) :
    Nat.digits 256 (beValue bytes)=byteDigits bytes.reverse := by
  have hlast : (byteDigits bytes.reverse).getLast?≠some 0 := by
    unfold byteDigits
    rw [List.getLast?_map,List.getLast?_reverse]
    intro hzero
    obtain ⟨byte,hbyte,hvalue⟩ := Option.map_eq_some_iff.mp hzero
    have hbyteZero : byte=0 := UInt8.toNat_inj.mp hvalue
    subst hbyteZero
    exact h hbyte
  unfold beValue leValue
  exact eq_digits (by decide) (byteDigits_lt _) hlast

/-- A byte string without a leading zero has the length of its value. -/
theorem length_eq_byteLength {bytes : Bytes} (h : bytes.head?≠some 0) :
    bytes.length=byteLength (beValue bytes) := by
  unfold byteLength
  rw [digits_beValue h]
  unfold byteDigits
  rw [List.length_map,List.length_reverse]

end Values

section Read

/-- The bytes of a string from the last to the first. -/
theorem load_reversed {data : Bytes} {i : ℕ} (hi : i < data.length) :
    ∃ byte, load data (data.length-1-i)=.ok byte ∧
      byte.toNat=digitAt (byteDigits data.reverse) i := by
  refine ⟨data[data.length-1-i]?.getD 0,load_eq (by omega) 0,?_⟩
  unfold digitAt byteDigits
  rw [List.getElem?_map,List.getElem?_reverse hi]
  cases data[data.length-1-i]? <;> rfl

/-- Adding a byte to a limb that is still clear from that byte on. -/
theorem or_byte {limb : UInt32} {byte : UInt8} {r : ℕ} (hr : r < 4) (h : limb.toNat < 256^r) :
    (limb ||| UInt32.ofNat byte.toNat <<< UInt32.ofNat (r*8)).toNat=
      limb.toNat+byte.toNat*256^r := by
  have hbyte := UInt8.toNat_lt byte
  have hpow : 256^r=2^(r*8) := by
    rw [mul_comm r 8,pow_mul]
    rfl
  have hcount : (UInt32.ofNat (r*8)).toNat%32=r*8 := by
    rw [UInt32.toNat_ofNat']
    omega
  have hvalue : (UInt32.ofNat byte.toNat).toNat=byte.toNat := by
    rw [UInt32.toNat_ofNat']
    omega
  have hfit : byte.toNat*2^(r*8) < 2^32 := by
    have hle : 2^(r*8) ≤ 2^24 := Nat.pow_le_pow_right Nat.two_pos (by omega)
    calc byte.toNat*2^(r*8) ≤ 255*2^24 := Nat.mul_le_mul (by omega) hle
      _ < 2^32 := by decide
  rw [hpow] at h ⊢
  rw [UInt32.toNat_or,UInt32.toNat_shiftLeft,hcount,hvalue,Nat.shiftLeft_eq,
    Nat.mod_eq_of_lt hfit,← Nat.shiftLeft_eq,or_shift (r*8) h,Nat.shiftLeft_eq]

/-- The reading loop before byte `i`, counted from the last one. -/
structure ReadInv (data : Bytes) (n i : ℕ) (limbs : Limbs) : Prop where
  /-- The limb vector keeps its size. -/
  length : limbs.length=(n+3)/4
  /-- The limbs hold the last bytes so far. -/
  value : limbValue limbs=low 256 (byteDigits data.reverse) i

/-- One round of the reading loop. -/
theorem fromBytesStep_inv {data : Bytes} {start n i : ℕ} {limbs : Limbs}
    (hn : start+n=data.length) (hi : i < n) (h : ReadInv data n i limbs) :
    ∃ next, fromBytesStep data start n i limbs=.ok next ∧ ReadInv data n (i+1) next := by
  obtain ⟨hlength,hvalue⟩ := h
  have hindex : 4*(i/4)+i%4=i := Nat.div_add_mod i 4
  have hr : i%4 < 4 := Nat.mod_lt i (by omega)
  have hinside : i/4 < limbs.length := by omega
  have hi : i < data.length := by omega
  obtain ⟨byte,hload,hbyte⟩ := load_reversed hi
  obtain ⟨limb,hloadLimb,hlimb⟩ := load_limb hinside
  have hweight : radix^(i/4)=256^(4*(i/4)) := by
    rw [pow_mul]
    rfl
  have hsmall : limb.toNat < 256^(i%4) := by
    have hbound := low_lt (by decide) (byteDigits_lt data.reverse) i
    rw [← hvalue] at hbound
    rw [hlimb,limbAt_eq_div_mod,hweight]
    apply (Nat.mod_le _ _).trans_lt
    apply Nat.div_lt_of_lt_mul
    rw [← pow_add,hindex]
    exact hbound
  have hset := limbValue_set hinside
    (limb ||| UInt32.ofNat byte.toNat <<< UInt32.ofNat (i%4*8))
  rw [or_byte hr hsmall,← hlimb] at hset
  have hpow : 256^i=256^(i%4)*radix^(i/4) := by
    rw [hweight,← pow_add,Nat.add_comm,hindex]
  refine ⟨limbs.set (i/4) (limb ||| UInt32.ofNat byte.toNat <<< UInt32.ofNat (i%4*8)),?_,?_,?_⟩
  · unfold fromBytesStep
    rw [hn,bind_of_ok hload,bind_of_ok hloadLimb]
    exact store_eq hinside _
  · rw [List.length_set]
    exact hlength
  · rw [low_succ,← hvalue,← hbyte,hpow]
    linear_combination hset

/-- The zeros at the front leave the value to the other bytes. -/
theorem low_reverse_eq (data : Bytes) :
    low 256 (byteDigits data.reverse)
        (data.length-(data.takeWhile fun byte => decide (byte=0)).length)=beValue data := by
  have hsplit := List.takeWhile_append_dropWhile
    (p := fun byte : UInt8 => decide (byte=0)) (l := data)
  have hzeros : data.takeWhile (fun byte => decide (byte=0))=
      List.replicate (data.takeWhile fun byte => decide (byte=0)).length 0 := by
    apply List.eq_replicate_of_mem
    intro byte hbyte
    have hzero := List.mem_takeWhile_imp (p := fun byte : UInt8 => decide (byte=0)) hbyte
    exact of_decide_eq_true hzero
  generalize hzero : data.takeWhile (fun byte => decide (byte=0))=zeros at hsplit hzeros
  generalize hrest : data.dropWhile (fun byte => decide (byte=0))=rest at hsplit
  have hcount : data.length-zeros.length=rest.length := by
    rw [← hsplit,List.length_append]
    omega
  rw [hcount,← hsplit,hzeros,beValue_replicate_append]
  unfold low beValue leValue byteDigits
  rw [List.reverse_append,List.map_append,List.take_left' (by simp)]

/-- `from_bytes_be` denotes the big-endian value of its bytes. -/
theorem fromBytesBe_denotes (data : Bytes) : Denotes (fromBytesBe data) (beValue data) := by
  have hvalue := low_reverse_eq data
  have hprefix : (data.takeWhile fun byte => decide (byte=0)).length ≤ data.length :=
    (List.takeWhile_prefix _).length_le
  unfold fromBytesBe
  dsimp only
  split
  · next hn =>
    rw [hn] at hvalue
    rw [← hvalue]
    exact denotes_ok zero
  · generalize hstart : (data.takeWhile fun byte => decide (byte=0)).length=start at *
    have hinit : ReadInv data (data.length-start) 0
        (List.replicate ((data.length-start+3)/4) 0) :=
      ⟨List.length_replicate,limbValue_replicate _⟩
    have hstep : ∀ i limbs, 0 ≤ i → i < 0+(data.length-start) →
        ReadInv data (data.length-start) i limbs →
        ∃ next, fromBytesStep data start (data.length-start) i limbs=.ok next ∧
          ReadInv data (data.length-start) (i+1) next := by
      intro i limbs _ hi
      exact fromBytesStep_inv (by omega) (by omega)
    obtain ⟨limbs,hloop,-,hresult⟩ := forUp_invariant _ hinit hstep
    rw [zero_add,hvalue] at hresult
    rw [bind_of_ok hloop]
    exact denotes_trim hresult

end Read

section Write

/-- The writing loop: a buffer with the given value, clear from a cell on. -/
structure WriteInv (size value k : ℕ) (bytes : Bytes) : Prop where
  /-- The buffer keeps its size. -/
  length : bytes.length=size
  /-- The cells from `k` on are still clear. -/
  clear : ∀ j, k ≤ j → digitAt (byteDigits bytes) j=0
  /-- The buffer holds the value. -/
  value : leValue bytes=value

/-- Writing one byte into the first clear cell. -/
theorem writeInv_store {size value k : ℕ} {bytes : Bytes} (hk : k < size)
    (h : WriteInv size value k bytes) (byte : UInt8) :
    store bytes k byte=.ok (bytes.set k byte) ∧
      WriteInv size (value+byte.toNat*256^k) (k+1) (bytes.set k byte) := by
  obtain ⟨hlength,hclear,hvalue⟩ := h
  have hinside : k < bytes.length := by rw [hlength]; exact hk
  have hdigits : byteDigits (bytes.set k byte)=(byteDigits bytes).set k byte.toNat := List.map_set
  have hinside' : k < (byteDigits bytes).length := by
    unfold byteDigits
    rw [List.length_map]
    exact hinside
  have hset := ofDigits_set (b := 256) hinside' byte.toNat
  rw [hclear k le_rfl,Nat.zero_mul,Nat.add_zero,← hdigits] at hset
  refine ⟨store_eq hinside byte,?_,?_,?_⟩
  · rw [List.length_set]
    exact hlength
  · intro j hj
    rw [hdigits,digitAt_set hinside',if_neg (by omega)]
    exact hclear j (by omega)
  · rw [← hvalue]
    exact hset

/-- The four bytes of a limb add up to it. -/
theorem limb_bytes (limb : UInt32) :
    (UInt8.ofNat limb.toNat).toNat+(UInt8.ofNat (limb.toNat >>> 8)).toNat*256+
        (UInt8.ofNat (limb.toNat >>> 16)).toNat*256^2+
        (UInt8.ofNat (limb.toNat >>> 24)).toNat*256^3=limb.toNat := by
  have hlimb := UInt32.toNat_lt limb
  simp only [UInt8.toNat_ofNat',Nat.shiftRight_eq_div_pow]
  omega

/-- One round of the writing loop. -/
theorem toBytesStep_inv {limbs : Limbs} {i : ℕ} {bytes : Bytes} (hi : i < limbs.length)
    (h : WriteInv (limbs.length*4) (lowValue limbs i) (i*4) bytes) :
    ∃ next, toBytesStep limbs i bytes=.ok next ∧
      WriteInv (limbs.length*4) (lowValue limbs (i+1)) ((i+1)*4) next := by
  obtain ⟨limb,hload,hlimb⟩ := load_limb hi
  obtain ⟨hstore0,h0⟩ := writeInv_store (by omega) h (UInt8.ofNat limb.toNat)
  obtain ⟨hstore1,h1⟩ := writeInv_store (by omega) h0 (UInt8.ofNat (limb.toNat >>> 8))
  obtain ⟨hstore2,h2⟩ := writeInv_store (by omega) h1 (UInt8.ofNat (limb.toNat >>> 16))
  obtain ⟨hstore3,h3⟩ := writeInv_store (by omega) h2 (UInt8.ofNat (limb.toNat >>> 24))
  have hweight : radix^i=256^(i*4) := by
    rw [mul_comm,pow_mul]
    rfl
  have hsum := limb_bytes limb
  refine ⟨_,?_,h3.length,?_,?_⟩
  · unfold toBytesStep
    rw [bind_of_ok hload,Nat.add_zero,bind_of_ok hstore0,bind_of_ok hstore1,bind_of_ok hstore2]
    exact hstore3
  · intro j hj
    exact h3.clear j (by omega)
  · rw [h3.value,lowValue_succ,← hlimb,hweight]
    linear_combination 256^(i*4)*hsum

/-- The bytes kept by the scan have the value of all bytes. -/
theorem beValue_drop_firstNonzero (bytes : Bytes) :
    beValue (bytes.drop (firstNonzero bytes))=beValue bytes := by
  fun_induction firstNonzero bytes with
  | case1 second rest ih =>
    rw [List.drop_succ_cons,ih,beValue_zero_cons]
  | case2 first second rest hne => rfl
  | case3 bytes _ => rfl

/-- The scan stops at a nonzero byte or at the last byte. -/
theorem head?_drop_firstNonzero (bytes : Bytes) :
    (bytes.drop (firstNonzero bytes)).head?≠some 0 ∨ bytes.drop (firstNonzero bytes)=[0] := by
  fun_induction firstNonzero bytes with
  | case1 second rest ih =>
    rw [List.drop_succ_cons]
    exact ih
  | case2 first second rest hne =>
    left
    intro hzero
    exact hne (Option.some.inj hzero)
  | case3 bytes hshort =>
    match bytes with
    | [] => exact Or.inl nofun
    | [byte] =>
      by_cases hzero : byte=0
      · right
        rw [hzero]
        rfl
      · left
        intro hhead
        exact hzero (Option.some.inj hhead)
    | first::second::rest => exact absurd rfl (hshort first second rest)

/-- The trimmed bytes have the length of the value. -/
theorem trimmed_length {bytes : Bytes} (h : beValue bytes≠0 ∨ bytes=[]) :
    (bytes.drop (firstNonzero bytes)).length=byteLength (beValue bytes) := by
  have hvalue := beValue_drop_firstNonzero bytes
  rcases h with hne | hnil
  · rw [← hvalue] at hne ⊢
    rcases head?_drop_firstNonzero bytes with hhead | hsingle
    · exact length_eq_byteLength hhead
    · rw [hsingle] at hne
      exact absurd rfl hne
  · rw [hnil]
    rfl

/-- The loop of `to_bytes_be` writes the value, least significant byte
first, in four bytes for every limb. -/
theorem toBytesLoop_spec (a : BigUInt) :
    ∃ littleEndian, forUp (toBytesStep a.limbs) 0 a.limbs.length
        (List.replicate (a.limbs.length*4) 0)=.ok littleEndian ∧
      littleEndian.length=a.limbs.length*4 ∧ beValue littleEndian.reverse=a.value := by
  have hstart : WriteInv (a.limbs.length*4) (lowValue a.limbs 0) (0*4)
      (List.replicate (a.limbs.length*4) 0) := by
    refine ⟨List.length_replicate,?_,?_⟩
    · intro j _
      unfold digitAt byteDigits
      rw [List.map_replicate,List.getElem?_replicate]
      split <;> rfl
    · unfold leValue byteDigits
      rw [List.map_replicate]
      exact Nat.ofDigits_replicate_zero
  have hstep : ∀ i bytes, 0 ≤ i → i < 0+a.limbs.length →
      WriteInv (a.limbs.length*4) (lowValue a.limbs i) (i*4) bytes →
      ∃ next, toBytesStep a.limbs i bytes=.ok next ∧
        WriteInv (a.limbs.length*4) (lowValue a.limbs (i+1)) ((i+1)*4) next := by
    intro i bytes _ hi
    exact toBytesStep_inv (by omega)
  obtain ⟨littleEndian,hloop,hlength,-,hvalue⟩ := forUp_invariant
    (fun i bytes => WriteInv (a.limbs.length*4) (lowValue a.limbs i) (i*4) bytes) hstart hstep
  rw [zero_add,lowValue_of_length_le le_rfl] at hvalue
  refine ⟨littleEndian,hloop,hlength,?_⟩
  unfold beValue
  rw [List.reverse_reverse]
  exact hvalue

/-- `to_bytes_be` writes the value, padded to the length asked for. -/
theorem toBytesBe_spec (a : BigUInt) (minLen : ℕ) :
    ∃ bytes, toBytesBe a minLen=.ok bytes ∧ beValue bytes=a.value ∧
      bytes.length=max minLen (byteLength a.value) := by
  obtain ⟨littleEndian,hloop,hlength,hbig⟩ := toBytesLoop_spec a
  have hcase : beValue littleEndian.reverse≠0 ∨ littleEndian.reverse=[] := by
    rw [hbig]
    by_cases hzero : a.value=0
    · right
      have hempty : a.limbs=[] := List.isEmpty_iff.mp ((isZero_iff a).mpr hzero)
      rw [hempty] at hlength
      rw [List.eq_nil_of_length_eq_zero hlength]
      rfl
    · exact Or.inl hzero
  have hsize := trimmed_length hcase
  have hkept := beValue_drop_firstNonzero littleEndian.reverse
  rw [hbig] at hsize hkept
  unfold toBytesBe
  rw [bind_of_ok hloop]
  dsimp only
  generalize littleEndian.reverse.drop (firstNonzero littleEndian.reverse)=trimmed at hsize hkept ⊢
  have hnotZero : ¬(trimmed=[0] ∧ minLen=0) := by
    rintro ⟨hsingle,-⟩
    rw [hsingle] at hkept hsize
    rw [← hkept] at hsize
    revert hsize
    decide
  rw [if_neg hnotZero]
  split
  · next hpad =>
    refine ⟨_,rfl,?_,?_⟩
    · rw [beValue_replicate_append]
      exact hkept
    · rw [List.length_append,List.length_replicate]
      omega
  · next hlong => exact ⟨trimmed,rfl,hkept,by omega⟩

end Write

/-- Reading back what was written gives the same number. -/
theorem toBytesBe_fromBytesBe (a : BigUInt) (minLen : ℕ) :
    ∃ bytes, toBytesBe a minLen=.ok bytes ∧
      bytes.length=max minLen (byteLength a.value) ∧ fromBytesBe bytes=.ok a := by
  obtain ⟨bytes,hwrite,hvalue,hlength⟩ := toBytesBe_spec a minLen
  obtain ⟨other,hread,-,hother⟩ := fromBytesBe_denotes bytes
  have hsame : other=a := eq_of_value_eq (hother.trans hvalue)
  rw [hsame] at hread
  exact ⟨bytes,hwrite,hlength,hread⟩

/-- The class refines the natural numbers: every operation returns, without
leaving a vector, a normalised number with the value of the corresponding
operation, and the byte conversions are inverse to each other. -/
theorem bigUInt_refines_nat :
    (∀ data, Denotes (fromBytesBe data) (beValue data)) ∧
    (∀ value, Denotes (.ok (fromSmall value)) value.toNat) ∧
    (∀ a b, Denotes (add a b) (a.value+b.value)) ∧
    (∀ a b, Denotes (multiply a b) (a.value*b.value)) ∧
    (∀ a, Denotes (shiftLeftOneBit a) (2*a.value)) ∧
    (∀ a b, b.value ≤ a.value → Denotes (subtract a b) (a.value-b.value)) ∧
    (∀ a b, ∃ n, Denotes (subtract a b) n) ∧
    (∀ a m, 0 < m.value → Denotes (mod a m) (a.value%m.value)) ∧
    (∀ a m, ∃ n, Denotes (mod a m) n) ∧
    (∀ a b, compare a b=.ok (Int.sign ((a.value : ℤ)-b.value))) ∧
    (∀ a, bitLength a=.ok (Nat.size a.value)) ∧
    (∀ a index, getBit a index=.ok (a.value.testBit index)) ∧
    ∀ a minLen, ∃ bytes, toBytesBe a minLen=.ok bytes ∧
      bytes.length=max minLen (byteLength a.value) ∧ fromBytesBe bytes=.ok a := by
  refine ⟨fromBytesBe_denotes,fun value => ?_,add_denotes,multiply_denotes,
    shiftLeftOneBit_denotes,subtract_denotes,subtract_returns,mod_denotes,fun a m => ?_,
    compare_eq,bitLength_eq,getBit_eq,toBytesBe_fromBytesBe⟩
  · rw [← fromSmall_value]
    exact denotes_ok _
  · rcases Nat.eq_zero_or_pos m.value with hzero | hpos
    · unfold mod
      rw [if_pos ((isZero_iff m).mpr hzero)]
      exact ⟨_,denotes_ok zero⟩
    · exact ⟨_,mod_denotes a m hpos⟩

/-- A difference and a remainder of small numbers. -/
theorem bigUInt_refines_nat_fixture :
    Denotes (subtract (fromSmall 7) (fromSmall 5)) 2 ∧ Denotes (mod (fromSmall 7) (fromSmall 5)) 2 :=
  ⟨bigUInt_refines_nat.2.2.2.2.2.1 (fromSmall 7) (fromSmall 5) (by decide),
    bigUInt_refines_nat.2.2.2.2.2.2.2.1 (fromSmall 7) (fromSmall 5) (by decide)⟩

end Gcad.Bignum
