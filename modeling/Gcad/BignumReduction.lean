import Gcad.BignumArithmetic

/-!
# Bits, comparison, reduction and modular powers

The order and the bits of the denoted numbers, the bit-serial remainder and
the square-and-multiply loop. The loop reduces its result only when it
multiplies, so an exponent of zero returns one for every modulus, also for
the modulus one.
-/

namespace Gcad.Bignum

open ByteView CheckedLoop Digits

section Bits

/-- Weights of limbs are weights of bits. -/
theorem radix_pow (i : ℕ) : radix^i=2^(32*i) := by
  unfold radix
  rw [pow_mul]

/-- `get_bit` reads a bit of the value. -/
theorem getBit_eq (a : BigUInt) (index : ℕ) : getBit a index=.ok (a.value.testBit index) := by
  have hindex : 32*(index/32)+index%32=index := Nat.div_add_mod index 32
  unfold getBit
  split
  · next h =>
    have hlt : a.value < 2^index :=
      calc a.value < radix^a.limbs.length := limbValue_lt a.limbs
        _=2^(32*a.limbs.length) := radix_pow _
        _ ≤ 2^index := Nat.pow_le_pow_right Nat.two_pos (by omega)
    rw [Nat.testBit_lt_two_pow hlt]
  · next h =>
    obtain ⟨limb,hload,hlimb⟩ := load_limb (Nat.lt_of_not_le h)
    have hbit : a.value.testBit index=limb.toNat.testBit (index%32) := by
      rw [hlimb,limbAt_eq_div_mod,radix_pow]
      unfold radix
      rw [Nat.testBit_mod_two_pow,Nat.testBit_div_two_pow,Nat.add_comm (index%32),hindex]
      have hsmall : index%32 < 32 := Nat.mod_lt _ (by omega)
      rw [decide_eq_true hsmall,Bool.true_and]
      rfl
    rw [bind_of_ok hload,hbit]
    unfold Nat.testBit
    rw [Nat.and_comm]
    rfl

/-- The shift loop counts the bits of a value that fits its rounds. -/
theorem shiftCount_le_iff {rounds top : ℕ} (h : top < 2^rounds) (k : ℕ) :
    shiftCount rounds top ≤ k ↔ top < 2^k := by
  induction rounds generalizing top k with
  | zero =>
    have hzero : top=0 := by omega
    rw [hzero]
    exact iff_of_true (Nat.zero_le k) (Nat.two_pow_pos k)
  | succ rounds ih =>
    unfold shiftCount
    split
    · next hzero =>
      rw [hzero]
      exact iff_of_true (Nat.zero_le k) (Nat.two_pow_pos k)
    · next hne =>
      rw [Nat.shiftRight_one]
      cases k with
      | zero =>
        rw [pow_zero]
        omega
      | succ k =>
        have hlt : top/2 < 2^rounds := by
          rw [pow_succ] at h
          omega
        have hhalf := ih hlt k
        rw [Nat.add_le_add_iff_right,hhalf,pow_succ]
        omega

/-- `bit_length` is the number of bits of the value. -/
theorem bitLength_eq (a : BigUInt) : bitLength a=.ok (Nat.size a.value) := by
  unfold bitLength
  split
  · next h =>
    unfold BigUInt.value
    rw [h]
    rfl
  · next h =>
    have hpos : 0 < a.limbs.length := List.length_pos_iff.mpr h
    have hlast : a.limbs.length-1 < a.limbs.length := by omega
    obtain ⟨top,hload,htop⟩ := load_limb hlast
    have hbound : a.value < radix*radix^(a.limbs.length-1) := by
      rw [← pow_succ',Nat.sub_add_cancel hpos]
      exact limbValue_lt a.limbs
    have hquotient : top.toNat=a.value/radix^(a.limbs.length-1) := by
      rw [htop,limbAt_eq_div_mod]
      exact Nat.mod_eq_of_lt (Nat.div_lt_of_lt_mul (by rw [mul_comm]; exact hbound))
    have hlow := radix_pow_le_value a h
    rw [bind_of_ok hload]
    apply congrArg Except.ok
    apply eq_of_forall_ge_iff
    intro k
    rw [Nat.size_le]
    rw [radix_pow] at hquotient hlow
    rcases Nat.lt_or_ge k ((a.limbs.length-1)*32) with hk | hk
    · have hpow : 2^k ≤ 2^(32*(a.limbs.length-1)) := Nat.pow_le_pow_right Nat.two_pos (by omega)
      exact iff_of_false (by omega) (by omega)
    · obtain ⟨j,rfl⟩ := Nat.exists_eq_add_of_le hk
      rw [Nat.add_le_add_iff_left,shiftCount_le_iff (UInt32.toNat_lt top),hquotient,
        Nat.div_lt_iff_lt_mul (Nat.two_pow_pos _),← pow_add]
      have hexponent : j+32*(a.limbs.length-1)=(a.limbs.length-1)*32+j := by omega
      rw [hexponent]

end Bits

section Compare

/-- The scan below an index orders the values of the limbs below it. -/
theorem compareFrom_eq {a b : Limbs} {i : ℕ} (ha : i ≤ a.length) (hb : i ≤ b.length) :
    compareFrom a b i=.ok (Int.sign ((lowValue a i : ℤ)-lowValue b i)) := by
  induction i with
  | zero => rfl
  | succ i ih =>
    obtain ⟨ai,hloadA,hai⟩ := load_limb (Nat.lt_of_succ_le ha)
    obtain ⟨bi,hloadB,hbi⟩ := load_limb (Nat.lt_of_succ_le hb)
    have hlowA := lowValue_lt a i
    have hlowB := lowValue_lt b i
    unfold compareFrom
    rw [bind_of_ok hloadA,bind_of_ok hloadB,lowValue_succ,lowValue_succ,← hai,← hbi]
    split
    · next hne =>
      split
      · next hlt =>
        have hstep : (ai.toNat+1)*radix^i ≤ bi.toNat*radix^i :=
          Nat.mul_le_mul_right _ (UInt32.lt_iff_toNat_lt.mp hlt)
        rw [Nat.add_mul,Nat.one_mul] at hstep
        rw [Int.sign_eq_neg_one_of_neg (by omega)]
        rfl
      · next hge =>
        have hnat : ai.toNat≠bi.toNat := fun h => hne (UInt32.toNat_inj.mp h)
        have horder : ¬ai.toNat < bi.toNat := fun h => hge (UInt32.lt_iff_toNat_lt.mpr h)
        have hstep : (bi.toNat+1)*radix^i ≤ ai.toNat*radix^i :=
          Nat.mul_le_mul_right _ (by omega)
        rw [Nat.add_mul,Nat.one_mul] at hstep
        rw [Int.sign_eq_one_of_pos (by omega)]
        rfl
    · next heq =>
      have hsame : ai=bi := not_not.mp heq
      rw [ih (by omega) (by omega),hsame]
      congr 2
      push_cast
      ring

/-- `compare` is the sign of the difference of the values. -/
theorem compare_eq (a b : BigUInt) :
    compare a b=.ok (Int.sign ((a.value : ℤ)-b.value)) := by
  unfold compare
  split
  · next h =>
    split
    · next hlt =>
      have horder : ¬b.value ≤ a.value := fun hle => by
        have := length_le_of_value_le hle
        omega
      rw [Int.sign_eq_neg_one_of_neg (by omega)]
    · next hge =>
      have horder : ¬a.value ≤ b.value := fun hle => by
        have := length_le_of_value_le hle
        omega
      rw [Int.sign_eq_one_of_pos (by omega)]
  · next h =>
    have hlength : a.limbs.length=b.limbs.length := not_not.mp h
    rw [compareFrom_eq le_rfl hlength.le,lowValue_of_length_le le_rfl,
      lowValue_of_length_le hlength.ge]
    rfl

end Compare

section Mod

/-- Doubling a remainder and adding a bit. -/
theorem double_mod {q r bit m : ℕ} (hr : r=q%m) : (2*r+bit)%m=(2*q+bit)%m := by
  rw [hr,Nat.add_mod,Nat.mul_mod_mod,← Nat.add_mod]

/-- The value above a bit position, by its next bit. -/
theorem div_two_pow (n i : ℕ) : n/2^i=2*(n/2^(i+1))+(n.testBit i).toNat := by
  rw [Nat.toNat_testBit,pow_succ,← Nat.div_div_eq_div_mul]
  omega

/-- The conditional increment. -/
theorem addBit_denotes (bit : Bool) (a : BigUInt) : Denotes (addBit bit a) (a.value+bit.toNat) := by
  cases bit with
  | false => exact denotes_ok a
  | true =>
    have hadd := add_denotes a (fromSmall 1)
    rw [fromSmall_value] at hadd
    exact hadd

/-- One round of the remainder. -/
theorem modStep_value {a m remainder : BigUInt} {idx : ℕ} (hm : 0 < m.value)
    (h : remainder.value=a.value/2^(idx+1)%m.value) :
    ∃ next, modStep a m idx remainder=.ok next ∧ next.value=a.value/2^idx%m.value := by
  have hbound : remainder.value < m.value := by
    rw [h]
    exact Nat.mod_lt _ hm
  obtain ⟨shifted,hshifted,-,hdouble⟩ := shiftLeftOneBit_denotes remainder
  obtain ⟨grown,hgrown,-,hvalue⟩ := addBit_denotes (a.value.testBit idx) shifted
  rw [hdouble] at hvalue
  have hbit : (a.value.testBit idx).toNat ≤ 1 := Bool.toNat_le _
  have htarget : grown.value%m.value=a.value/2^idx%m.value := by
    rw [hvalue,div_two_pow a.value idx]
    exact double_mod h
  unfold modStep
  rw [bind_of_ok hshifted,bind_of_ok (getBit_eq a idx),bind_of_ok hgrown,
    bind_of_ok (compare_eq grown m)]
  split
  · next horder =>
    have hle : m.value ≤ grown.value := by
      rw [Int.sign_nonneg_iff] at horder
      omega
    obtain ⟨next,hnext,-,hdifference⟩ := subtract_denotes grown m hle
    refine ⟨next,hnext,?_⟩
    rw [hdifference,← htarget,Nat.mod_eq_sub_mod hle]
    exact (Nat.mod_eq_of_lt (by omega)).symm
  · next horder =>
    have hlt : grown.value < m.value := by
      rw [Int.sign_nonneg_iff] at horder
      omega
    refine ⟨grown,rfl,?_⟩
    rw [← htarget]
    exact (Nat.mod_eq_of_lt hlt).symm

/-- `mod` denotes the remainder for a positive modulus. -/
theorem mod_denotes (a m : BigUInt) (hm : 0 < m.value) : Denotes (mod a m) (a.value%m.value) := by
  have hzero : ¬isZero m=true := by
    rw [isZero_iff]
    omega
  unfold mod
  rw [if_neg hzero,bind_of_ok (compare_eq a m)]
  split
  · next horder =>
    rw [Int.sign_neg_iff] at horder
    refine ⟨a,rfl,a.normalised,?_⟩
    exact (Nat.mod_eq_of_lt (by omega)).symm
  · have hstart : zero.value=a.value/2^Nat.size a.value%m.value := by
      rw [Nat.div_eq_of_lt (Nat.lt_size_self a.value),Nat.zero_mod]
      rfl
    obtain ⟨last,hloop,hvalue⟩ := forDown_invariant
      (fun i (remainder : BigUInt) => remainder.value=a.value/2^i%m.value) hstart
      (fun i remainder _ h => modStep_value hm h)
    rw [bind_of_ok (bitLength_eq a)]
    rw [pow_zero,Nat.div_one] at hvalue
    exact ⟨last,hloop,last.normalised,hvalue⟩

/-- A reduced product. -/
theorem multiplyMod_denotes (a b m : BigUInt) (hm : 0 < m.value) :
    Denotes (multiplyMod a b m) (a.value*b.value%m.value) := by
  obtain ⟨product,hproduct,-,hvalue⟩ := multiply_denotes a b
  unfold multiplyMod
  rw [bind_of_ok hproduct,← hvalue]
  exact mod_denotes product m hm

end Mod

section Power

/-- The square-and-multiply loop before bit `i`. The result is reduced as
soon as one bit of the exponent has been set. -/
structure PowerInv (base exp m : ℕ) (i : ℕ) (s : BigUInt × BigUInt) : Prop where
  /-- The result is the power by the bits so far. -/
  result : s.1.value ≡ base^(exp%2^i) [MOD m]
  /-- It is reduced, or it is still the initial one. -/
  reduced : s.1.value < m ∨ exp%2^i=0 ∧ s.1.value=1
  /-- The base has been squared once for every bit. -/
  square : s.2.value=base^2^i%m

/-- The bits of a number up to a position, by the last of them. -/
theorem mod_two_pow_succ (n i : ℕ) : n%2^(i+1)=n%2^i+2^i*(n.testBit i).toNat := by
  rw [Nat.toNat_testBit,pow_succ,Nat.mod_mul]

/-- One round of the power loop. -/
theorem modPowStep_inv {base i : ℕ} {exp m : BigUInt} {s : BigUInt × BigUInt} (hm : 0 < m.value)
    (h : PowerInv base exp.value m.value i s) :
    ∃ next, modPowStep exp m i s=.ok next ∧ PowerInv base exp.value m.value (i+1) next := by
  obtain ⟨hresult,hreduced,hsquare⟩ := h
  obtain ⟨square,hmultiply,-,hnext⟩ := multiplyMod_denotes s.2 s.2 m hm
  have hbase : square.value=base^2^(i+1)%m.value := by
    rw [hnext,hsquare,← Nat.mul_mod,← pow_add,pow_succ]
    congr 2
    omega
  have hbits := mod_two_pow_succ exp.value i
  unfold modPowStep
  rw [bind_of_ok (getBit_eq exp i)]
  cases hbit : exp.value.testBit i with
  | false =>
    rw [hbit,Bool.toNat_false,Nat.mul_zero,Nat.add_zero] at hbits
    refine ⟨(s.1,square),?_,?_,?_,hbase⟩
    · have hsame : multiplyBit false s.1 s.2 m=.ok s.1 := rfl
      rw [bind_of_ok hsame,bind_of_ok hmultiply]
      rfl
    · rw [hbits]
      exact hresult
    · rw [hbits]
      exact hreduced
  | true =>
    rw [hbit,Bool.toNat_true,Nat.mul_one] at hbits
    obtain ⟨result,hproduct,-,hvalue⟩ := multiplyMod_denotes s.1 s.2 m hm
    have hsquare' : s.2.value ≡ base^2^i [MOD m.value] := by
      rw [hsquare]
      exact Nat.mod_modEq _ _
    refine ⟨(result,square),?_,?_,?_,hbase⟩
    · have hset : multiplyBit true s.1 s.2 m=.ok result := hproduct
      rw [bind_of_ok hset,bind_of_ok hmultiply]
      rfl
    · rw [hbits,pow_add,hvalue]
      exact (Nat.mod_modEq _ _).trans (hresult.mul hsquare')
    · left
      rw [hvalue]
      exact Nat.mod_lt _ hm

/-- What `mod_pow` returns for a positive modulus: the power, reduced unless
the exponent is zero. -/
theorem modPow_returns (base exp m : BigUInt) (hm : 0 < m.value) :
    Denotes (modPow base exp m)
      (if exp.value=0 then 1 else base.value^exp.value%m.value) := by
  have hzero : ¬isZero m=true := by
    rw [isZero_iff]
    omega
  obtain ⟨reduced,hmod,-,hvalue⟩ := mod_denotes base m hm
  have hstart : PowerInv base.value exp.value m.value 0 (fromSmall 1,reduced) := by
    refine ⟨?_,?_,?_⟩
    · rw [fromSmall_value,pow_zero,Nat.mod_one,pow_zero]
      rfl
    · exact Or.inr ⟨Nat.mod_one _,fromSmall_value 1⟩
    · rw [pow_zero,pow_one]
      exact hvalue
  obtain ⟨s,hloop,hresult,hreduced,-⟩ := forUp_invariant _ hstart
    (fun i s _ _ h => modPowStep_inv hm h)
  rw [zero_add,Nat.mod_eq_of_lt (Nat.lt_size_self exp.value)] at hresult hreduced
  have hreturn : modPow base exp m=.ok s.1 := by
    unfold modPow
    rw [if_neg hzero,bind_of_ok hmod,bind_of_ok (bitLength_eq exp),bind_of_ok hloop]
    rfl
  refine ⟨s.1,hreturn,s.1.normalised,?_⟩
  split
  · next hexp =>
    rw [hexp] at hloop
    cases hloop
    exact fromSmall_value 1
  · next hexp =>
    rcases hreduced with hlt | ⟨hexp',-⟩
    · rw [← Nat.mod_eq_of_lt hlt]
      exact hresult
    · exact absurd hexp' hexp

/-- `mod_pow` denotes the modular power for every base, exponent and
positive modulus, except for the zeroth power modulo one. -/
theorem modPow_denotes_iff (base exp m : BigUInt) (hm : 0 < m.value) :
    Denotes (modPow base exp m) (base.value^exp.value%m.value) ↔
      ¬(exp.value=0 ∧ m.value=1) := by
  obtain ⟨result,hresult,hnormal,hvalue⟩ := modPow_returns base exp m hm
  have hiff : Denotes (modPow base exp m) (base.value^exp.value%m.value) ↔
      result.value=base.value^exp.value%m.value := by
    constructor
    · rintro ⟨other,hother,-,hpower⟩
      rw [hresult] at hother
      cases hother
      exact hpower
    · intro hpower
      exact ⟨result,hresult,hnormal,hpower⟩
  rw [hiff,hvalue]
  split
  · next hexp =>
    rw [hexp,pow_zero]
    constructor
    · rintro hone ⟨-,hmone⟩
      rw [hmone] at hone
      cases hone
    · intro hne
      exact (Nat.mod_eq_of_lt (by omega)).symm
  · next hexp =>
    exact iff_of_true rfl (fun h => hexp h.1)

/-- Five to the third modulo seven. -/
theorem modPow_denotes_fixture :
    0 < (fromSmall 7).value ∧ Denotes (modPow (fromSmall 5) (fromSmall 3) (fromSmall 7)) 6 :=
  ⟨by decide,(modPow_denotes_iff (fromSmall 5) (fromSmall 3) (fromSmall 7) (by decide)).mpr
    (by decide)⟩

/-- The zeroth power modulo one is returned as one. -/
theorem modPow_zero_one :
    ¬∀ base exp m : BigUInt, 0 < m.value →
      Denotes (modPow base exp m) (base.value^exp.value%m.value) := by
  intro h
  obtain ⟨result,hresult,-,hvalue⟩ := h (fromSmall 5) zero (fromSmall 1) (by decide)
  obtain ⟨other,hother,-,hone⟩ := modPow_returns (fromSmall 5) zero (fromSmall 1) (by decide)
  rw [hresult] at hother
  cases hother
  rw [hvalue] at hone
  revert hone
  decide

end Power

end Gcad.Bignum
