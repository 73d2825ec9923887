import Mathlib

/-!
# The SHA-2 family of FIPS 180-4

The standard over words of `w` bits: padding, parsing into blocks, the
message schedule, the rounds and the digest. The round constants and the
initial hash values are not tabulated. They are the leading fractional bits
of the cube and square roots of consecutive primes, as the standard defines
them, and a table is compared with them through integer inequalities.
-/

namespace Gcad.Sha2

/-- The eight words of a hash value, also the working variables of a block. -/
@[ext]
structure Words (w : ℕ) where
  /-- Word zero, or working variable a. -/
  a : BitVec w
  /-- Word one, or working variable b. -/
  b : BitVec w
  /-- Word two, or working variable c. -/
  c : BitVec w
  /-- Word three, or working variable d. -/
  d : BitVec w
  /-- Word four, or working variable e. -/
  e : BitVec w
  /-- Word five, or working variable f. -/
  f : BitVec w
  /-- Word six, or working variable g. -/
  g : BitVec w
  /-- Word seven, or working variable h. -/
  h : BitVec w
  deriving DecidableEq

/-- The words in order. -/
def Words.toList {w : ℕ} (x : Words w) : List (BitVec w) := [x.a,x.b,x.c,x.d,x.e,x.f,x.g,x.h]

/-- Wordwise addition modulo `2^w`. -/
def Words.add {w : ℕ} (x y : Words w) : Words w :=
  ⟨x.a+y.a,x.b+y.b,x.c+y.c,x.d+y.d,x.e+y.e,x.f+y.f,x.g+y.g,x.h+y.h⟩

/-- What the standard fixes for one member of the family. -/
structure Standard (w : ℕ) where
  /-- How many bytes one word takes. -/
  wordBytes : ℕ
  /-- Bytes of a message block. -/
  blockBytes : ℕ
  /-- Bytes of the appended message length. -/
  lengthBytes : ℕ
  /-- Rounds of the compression function. -/
  rounds : ℕ
  /-- Round constants. -/
  constant : ℕ → BitVec w
  /-- First mixing function of the rounds. -/
  bigSigma0 : BitVec w → BitVec w
  /-- Second mixing function of the rounds. -/
  bigSigma1 : BitVec w → BitVec w
  /-- First mixing function of the schedule. -/
  smallSigma0 : BitVec w → BitVec w
  /-- Second mixing function of the schedule. -/
  smallSigma1 : BitVec w → BitVec w
  /-- Initial hash value. -/
  initial : Words w
  /-- Words of the hash value that form the digest. -/
  digestWords : ℕ

/-- Big-endian rendering of a number in `width` bytes. -/
def beBytes (width value : ℕ) : List UInt8 :=
  (List.range width).map fun i => UInt8.ofNat (value/256^(width-1-i))

/-- Number with the given big-endian bytes. -/
def beNat (bytes : List UInt8) : ℕ := bytes.foldl (fun value byte => 256*value+byte.toNat) 0

/-- The choice function. -/
def choice {w : ℕ} (x y z : BitVec w) : BitVec w := (x &&& y) ^^^ (~~~x &&& z)

/-- The majority function. -/
def majority {w : ℕ} (x y z : BitVec w) : BitVec w := (x &&& y) ^^^ (x &&& z) ^^^ (y &&& z)

section Hash

variable {w : ℕ} (S : Standard w)

/-- The smallest number of zero bytes that completes a block after a message
of `n` bytes, the marker byte and the length field. -/
noncomputable def Standard.padZeros (n : ℕ) : ℕ := sInf {k | S.blockBytes ∣ n+1+k+S.lengthBytes}

/-- The padded message. -/
noncomputable def Standard.pad (message : List UInt8) : List UInt8 :=
  message++0x80::(List.replicate (S.padZeros message.length) 0++
    beBytes S.lengthBytes (8*message.length))

/-- The complete blocks of a padded message, in order. -/
def blocks (n : ℕ) (message : List UInt8) : List (List UInt8) :=
  (List.range (message.length/n)).map fun i => (message.drop (i*n)).take n

/-- Word `t` of a block. -/
def Standard.blockWord (block : List UInt8) (t : ℕ) : BitVec w :=
  BitVec.ofNat w (beNat ((block.drop (t*S.wordBytes)).take S.wordBytes))

/-- The message schedule of a block. -/
def Standard.schedule (block : List UInt8) (t : ℕ) : BitVec w :=
  if t < 16 then S.blockWord block t
  else S.smallSigma1 (Standard.schedule block (t-2))+Standard.schedule block (t-7)+
    S.smallSigma0 (Standard.schedule block (t-15))+Standard.schedule block (t-16)
termination_by t

/-- Round `t` on the working variables. -/
def Standard.round (block : List UInt8) (x : Words w) (t : ℕ) : Words w :=
  let t1 := x.h+S.bigSigma1 x.e+choice x.e x.f x.g+S.constant t+S.schedule block t
  let t2 := S.bigSigma0 x.a+majority x.a x.b x.c
  ⟨t1+t2,x.a,x.b,x.c,x.d+t1,x.e,x.f,x.g⟩

/-- Intermediate hash value after one block. -/
def Standard.compress (value : Words w) (block : List UInt8) : Words w :=
  Words.add value ((List.range S.rounds).foldl (S.round block) value)

/-- Hash value after all complete blocks of a byte string. -/
def Standard.absorb (message : List UInt8) : Words w :=
  (blocks S.blockBytes message).foldl S.compress S.initial

/-- Bytes of a hash value that form the digest. -/
def Standard.output (value : Words w) : List UInt8 :=
  (value.toList.take S.digestWords).flatMap fun x => beBytes S.wordBytes x.toNat

/-- The digest of a message. -/
noncomputable def Standard.hash (message : List UInt8) : List UInt8 :=
  S.output (S.absorb (S.pad message))

end Hash

/-- The first `w` bits of the fractional part of a real number. -/
noncomputable def fractionBits (w : ℕ) (x : ℝ) : BitVec w := BitVec.ofNat w ⌊Int.fract x*2^w⌋₊

/-- Fractional bits of the cube root of prime number `t`, counted from zero. -/
noncomputable def cubeRootBits (w t : ℕ) : BitVec w :=
  fractionBits w ((Nat.nth Nat.Prime t : ℝ)^((3 : ℝ)⁻¹))

/-- Fractional bits of the square root of prime number `t`, counted from zero. -/
noncomputable def squareRootBits (w t : ℕ) : BitVec w :=
  fractionBits w ((Nat.nth Nat.Prime t : ℝ)^((2 : ℝ)⁻¹))

/-- Eight consecutive square roots starting with prime number `t`. -/
noncomputable def squareRootWords (w t : ℕ) : Words w :=
  ⟨squareRootBits w t,squareRootBits w (t+1),squareRootBits w (t+2),squareRootBits w (t+3),
    squareRootBits w (t+4),squareRootBits w (t+5),squareRootBits w (t+6),squareRootBits w (t+7)⟩

/-- SHA-256. -/
noncomputable def sha256Standard : Standard 32 where
  wordBytes := 4
  blockBytes := 64
  lengthBytes := 8
  rounds := 64
  constant := cubeRootBits 32
  bigSigma0 x := x.rotateRight 2 ^^^ x.rotateRight 13 ^^^ x.rotateRight 22
  bigSigma1 x := x.rotateRight 6 ^^^ x.rotateRight 11 ^^^ x.rotateRight 25
  smallSigma0 x := x.rotateRight 7 ^^^ x.rotateRight 18 ^^^ x >>> 3
  smallSigma1 x := x.rotateRight 17 ^^^ x.rotateRight 19 ^^^ x >>> 10
  initial := squareRootWords 32 0
  digestWords := 8

/-- SHA-384: the functions of SHA-512 with the square roots of the ninth to
sixteenth prime and a digest of six words. -/
noncomputable def sha384Standard : Standard 64 where
  wordBytes := 8
  blockBytes := 128
  lengthBytes := 16
  rounds := 80
  constant := cubeRootBits 64
  bigSigma0 x := x.rotateRight 28 ^^^ x.rotateRight 34 ^^^ x.rotateRight 39
  bigSigma1 x := x.rotateRight 14 ^^^ x.rotateRight 18 ^^^ x.rotateRight 41
  smallSigma0 x := x.rotateRight 1 ^^^ x.rotateRight 8 ^^^ x >>> 7
  smallSigma1 x := x.rotateRight 19 ^^^ x.rotateRight 61 ^^^ x >>> 6
  initial := squareRootWords 64 8
  digestWords := 6

/-- The fractional bits are the low bits of the floor of the scaled number. -/
theorem fractionBits_eq {w c : ℕ} {x : ℝ} (hl : (c : ℝ) ≤ x*2^w) (hu : x*2^w < c+1) :
    fractionBits w x=BitVec.ofNat w c := by
  have hpow : (0 : ℝ) < 2^w := by positivity
  have hx : 0 ≤ x := by
    by_contra hneg
    have hprod : x*2^w < 0 := mul_neg_of_neg_of_pos (not_le.1 hneg) hpow
    have hc : (0 : ℝ) ≤ c := Nat.cast_nonneg c
    linarith
  have hfract : Int.fract x*2^w=x*2^w-((⌊x⌋₊*2^w : ℕ) : ℝ) := by
    rw [Int.fract,←natCast_floor_eq_intCast_floor hx]
    push_cast
    ring
  have hnonneg : 0 ≤ Int.fract x*2^w := mul_nonneg (Int.fract_nonneg x) hpow.le
  have hle : ⌊x⌋₊*2^w ≤ c := by
    have hreal : ((⌊x⌋₊*2^w : ℕ) : ℝ) < ((c+1 : ℕ) : ℝ) := by
      push_cast at hfract ⊢
      linarith
    exact Nat.lt_succ_iff.1 (Nat.cast_lt.1 hreal)
  have hfloor : ⌊Int.fract x*2^w⌋₊=c-⌊x⌋₊*2^w := by
    rw [Nat.floor_eq_iff hnonneg,Nat.cast_sub hle,hfract]
    constructor <;> linarith
  apply BitVec.eq_of_toNat_eq
  rw [fractionBits,hfloor,BitVec.toNat_ofNat,BitVec.toNat_ofNat]
  have hmod := Nat.sub_mul_mod (x:=c) (n:=2^w) (k:=⌊x⌋₊)
    (by rw [Nat.mul_comm]; exact hle)
  rw [Nat.mul_comm] at hmod
  exact hmod

/-- Integer inequalities that make a word the fractional bits of the `k`-th
root of a number below `8^k`. -/
def IsRootBits (k w n : ℕ) (word : BitVec w) : Prop :=
  ∃ i < 8,(i*2^w+word.toNat)^k ≤ n*2^(k*w) ∧ n*2^(k*w) < (i*2^w+word.toNat+1)^k

instance (k w n : ℕ) (word : BitVec w) : Decidable (IsRootBits k w n word) :=
  inferInstanceAs (Decidable (∃ i < 8,_ ∧ _))

/-- A word that satisfies the inequalities is the root's fractional part. -/
theorem fractionBits_root {k w n : ℕ} {word : BitVec w} (hk : k≠0) (h : IsRootBits k w n word) :
    fractionBits w ((n : ℝ)^((k : ℝ)⁻¹))=word := by
  obtain ⟨i,-,hl,hu⟩ := h
  have hroot : ((n : ℝ)^((k : ℝ)⁻¹))^k=n := Real.rpow_inv_natCast_pow (Nat.cast_nonneg n) hk
  have hscaled : ((n : ℝ)^((k : ℝ)⁻¹)*2^w)^k=((n*2^(k*w) : ℕ) : ℝ) := by
    rw [mul_pow,hroot,←pow_mul,Nat.mul_comm w k]
    push_cast
    rfl
  have hbase : (0 : ℝ) ≤ (n : ℝ)^((k : ℝ)⁻¹)*2^w := by positivity
  have hlow : ((i*2^w+word.toNat : ℕ) : ℝ) ≤ (n : ℝ)^((k : ℝ)⁻¹)*2^w := by
    rw [←pow_le_pow_iff_left₀ (Nat.cast_nonneg _) hbase hk,hscaled]
    exact_mod_cast hl
  have hhigh : (n : ℝ)^((k : ℝ)⁻¹)*2^w < ((i*2^w+word.toNat : ℕ) : ℝ)+1 := by
    rw [←pow_lt_pow_iff_left₀ hbase (by positivity) hk,hscaled]
    exact_mod_cast hu
  rw [fractionBits_eq hlow hhigh]
  apply BitVec.eq_of_toNat_eq
  rw [BitVec.toNat_ofNat,Nat.mul_add_mod_self_right,Nat.mod_eq_of_lt word.isLt]

/-- Filtering an initial segment lists the first numbers with a property. -/
theorem nth_of_filter_range {p : ℕ → Prop} [DecidablePred p] (n : ℕ) {t m : ℕ}
    (h : ((List.range n).filter p)[t]?=some m) : Nat.nth p t=m := by
  induction n with
  | zero => simp at h
  | succ n ih =>
    rw [List.range_succ,List.filter_append] at h
    have hlen : ((List.range n).filter p).length=Nat.count p n := by
      rw [Nat.count,List.countP_eq_length_filter]
    by_cases hn : p n
    · rw [List.filter_singleton,decide_eq_true hn,List.getElem?_append] at h
      by_cases ht : t < ((List.range n).filter p).length
      · rw [if_pos ht] at h
        exact ih h
      · rw [if_neg ht] at h
        obtain ⟨hsub,hm⟩ : t-((List.range n).filter p).length=0 ∧ n=m := by
          simpa [List.getElem?_cons] using h
        have htc : t=Nat.count p n := by omega
        rw [htc,Nat.nth_count hn,hm]
    · rw [List.filter_singleton,decide_eq_false hn] at h
      exact ih (by simpa using h)

/-- Trial division, exact below `21^2`. -/
def SmallPrime (n : ℕ) : Prop := 2 ≤ n ∧ ∀ d < 21,2 ≤ d → d < n → ¬d ∣ n

instance : DecidablePred SmallPrime := fun n =>
  inferInstanceAs (Decidable (2 ≤ n ∧ ∀ d < 21,2 ≤ d → d < n → ¬d ∣ n))

/-- Trial division by the numbers up to twenty decides primality. -/
theorem smallPrime_iff {n : ℕ} (h : n < 441) : SmallPrime n ↔ Nat.Prime n := by
  rw [Nat.prime_def_le_sqrt]
  constructor
  · rintro ⟨htwo,hd⟩
    refine ⟨htwo,fun d h2 hs => ?_⟩
    have hsq : d*d ≤ n := Nat.le_sqrt.1 hs
    have hlt : d < 21 := by nlinarith
    have hdn : d < n := by nlinarith
    exact hd d hlt h2 hdn
  · rintro ⟨htwo,hd⟩
    have hprime : Nat.Prime n := Nat.prime_def_le_sqrt.2 ⟨htwo,hd⟩
    refine ⟨htwo,fun d _ h2 hdn hdvd => ?_⟩
    have hcases := (Nat.dvd_prime hprime).1 hdvd
    omega

/-- The primes below 410, of which there are eighty. -/
def smallPrimes : List ℕ := (List.range 410).filter SmallPrime

/-- The listed primes are the first ones. -/
theorem nth_prime_of_smallPrimes {t p : ℕ} (h : smallPrimes[t]?=some p) :
    Nat.nth Nat.Prime t=p := by
  have hfilter : (List.range 410).filter Nat.Prime=smallPrimes := by
    apply List.filter_congr
    intro n hn
    have hrange := List.mem_range.1 hn
    exact decide_eq_decide.2 (smallPrime_iff (by omega)).symm
  apply nth_of_filter_range 410
  rw [hfilter]
  exact h

/-- A table of words compared with the roots of the primes from number `t`. -/
def IsRootTable (k w t : ℕ) (table : List (BitVec w)) : Prop :=
  ∀ pair ∈ (smallPrimes.drop t).zip table,IsRootBits k w pair.1 pair.2

instance (k w t : ℕ) (table : List (BitVec w)) : Decidable (IsRootTable k w t table) :=
  inferInstanceAs (Decidable (∀ pair ∈ _,_))

/-- Every entry of a checked table is the fractional part of its root. -/
theorem rootTable_entry {k w t i : ℕ} {table : List (BitVec w)} {word : BitVec w} (hk : k≠0)
    (h : IsRootTable k w t table) (hlen : t+table.length ≤ smallPrimes.length)
    (hi : table[i]?=some word) :
    fractionBits w ((Nat.nth Nat.Prime (t+i) : ℝ)^((k : ℝ)⁻¹))=word := by
  have hil : i < table.length := (List.getElem?_eq_some_iff.1 hi).1
  have hp : ∃ p,smallPrimes[t+i]?=some p := ⟨_,List.getElem?_eq_getElem (by omega)⟩
  obtain ⟨p,hp⟩ := hp
  rw [nth_prime_of_smallPrimes hp]
  apply fractionBits_root hk
  apply h (p,word)
  rw [List.mem_iff_getElem?]
  refine ⟨i,?_⟩
  rw [List.getElem?_zip_eq_some,List.getElem?_drop]
  exact ⟨hp,hi⟩

/-- The most significant byte comes first. -/
theorem beBytes_succ (width value : ℕ) :
    beBytes (width+1) value=UInt8.ofNat (value/256^width)::beBytes width value := by
  simp only [beBytes,List.range_succ_eq_map,List.map_cons,List.map_map]
  congr 1
  apply List.map_congr_left
  intro i _
  simp only [Function.comp_apply]
  congr 3
  omega

/-- A rendering has the requested width. -/
theorem beBytes_length (width value : ℕ) : (beBytes width value).length=width := by
  simp only [beBytes,List.length_map,List.length_range]

/-- Extra width is filled with zero bytes. -/
theorem beBytes_extra {width value : ℕ} (extra : ℕ) (h : value < 256^width) :
    beBytes (extra+width) value=List.replicate extra 0++beBytes width value := by
  induction extra with
  | zero => simp only [Nat.zero_add,List.replicate_zero,List.nil_append]
  | succ extra ih =>
    have hle : 256^width ≤ 256^(extra+width) := Nat.pow_le_pow_right (by omega) (by omega)
    rw [Nat.add_right_comm,beBytes_succ,ih,Nat.div_eq_of_lt (by omega)]
    rfl

/-- One more complete block extends the list of blocks by one. -/
theorem blocks_append {n k : ℕ} {full block : List UInt8} (hn : 0 < n)
    (hfull : full.length=k*n) (hblock : block.length=n) :
    blocks n (full++block)=blocks n full++[block] := by
  have hcount : (full++block).length/n=k+1 := by
    rw [List.length_append,hfull,hblock,Nat.add_div_right _ hn,Nat.mul_div_cancel _ hn]
  have hcount' : full.length/n=k := by rw [hfull,Nat.mul_div_cancel _ hn]
  rw [blocks,blocks,hcount,hcount',List.range_succ,List.map_append]
  congr 1
  · apply List.map_congr_left
    intro i hi
    have hin : (i+1)*n ≤ k*n := Nat.mul_le_mul_right n (List.mem_range.1 hi)
    have hsucc : (i+1)*n=i*n+n := Nat.succ_mul i n
    rw [List.drop_append_of_le_length (by omega),List.take_append_of_le_length]
    rw [List.length_drop]
    omega
  · rw [List.map_singleton,←hfull,List.drop_left,←hblock,List.take_length]

section Padding

variable {w : ℕ} {S : Standard w}

/-- Some number of zero bytes completes a block, so the smallest one does. -/
theorem Standard.padZeros_isLeast (S : Standard w) (hpos : 0 < S.blockBytes) (n : ℕ) :
    IsLeast {k | S.blockBytes ∣ n+1+k+S.lengthBytes} (S.padZeros n) := by
  have hsome : (n+1+S.lengthBytes)*(S.blockBytes-1) ∈ {k | S.blockBytes ∣ n+1+k+S.lengthBytes} := by
    refine ⟨n+1+S.lengthBytes,?_⟩
    obtain ⟨m,hm⟩ : ∃ m,S.blockBytes=m+1 := ⟨S.blockBytes-1,by omega⟩
    rw [hm,Nat.add_sub_cancel]
    ring
  exact ⟨Nat.sInf_mem ⟨_,hsome⟩,fun k hk => Nat.sInf_le hk⟩

/-- The least completion is characterised by reaching a block boundary
within one block. -/
theorem Standard.padZeros_eq {n k : ℕ} (hdvd : S.blockBytes ∣ n+1+k+S.lengthBytes)
    (hk : k < S.blockBytes) : S.padZeros n=k := by
  have hleast : IsLeast {j | S.blockBytes ∣ n+1+j+S.lengthBytes} k := by
    refine ⟨hdvd,fun j hj => ?_⟩
    by_contra hlt
    have hsub : S.blockBytes ∣ k-j := by
      have hdiff := Nat.dvd_sub hdvd hj
      have heq : n+1+k+S.lengthBytes-(n+1+j+S.lengthBytes)=k-j := by omega
      rwa [heq] at hdiff
    have hle := Nat.le_of_dvd (by omega) hsub
    omega
  exact hleast.csInf_eq

/-- Absorbing one more block. -/
theorem Standard.absorb_append {k : ℕ} {full block : List UInt8} (hn : 0 < S.blockBytes)
    (hfull : full.length=k*S.blockBytes) (hblock : block.length=S.blockBytes) :
    S.absorb (full++block)=S.compress (S.absorb full) block := by
  rw [Standard.absorb,blocks_append hn hfull hblock,List.foldl_append]
  rfl

end Padding

end Gcad.Sha2
