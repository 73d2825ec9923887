import Gcad.BignumLimbs

/-!
# Addition, subtraction, multiplication and shift

Each loop is described by what its result limbs, carry or borrow and index
satisfy. The trailing carry loop of the product starts at a limb that no
earlier row has written, so it ends after one round, inside the vector.
-/

namespace Gcad.Bignum

open ByteView CheckedLoop Digits

section Add

/-- The addition loop before index `i`. -/
structure AddInv (a b : Limbs) (n i : ℕ) (s : Limbs × ℕ) : Prop where
  /-- The result vector keeps its size. -/
  length : s.1.length=n
  /-- The carry is one bit. -/
  carry : s.2 ≤ 1
  /-- The limbs from the index on are still clear. -/
  clear : ∀ k, i ≤ k → limbAt s.1 k=0
  /-- Result and carry are the sum of the limbs below the index. -/
  sum : limbValue s.1+s.2*radix^i=lowValue a i+lowValue b i

/-- A round that stores the low half of the sum of the limbs and carries
the high half. -/
theorem addInv_write {a b limbs : Limbs} {n i carry : ℕ} (hi : i < n)
    (h : AddInv a b n i (limbs,carry)) :
    AddInv a b n (i+1) (limbs.set i (UInt32.ofNat (limbAt a i+limbAt b i+carry)),
      (limbAt a i+limbAt b i+carry) >>> 32) := by
  obtain ⟨hlength,hcarry,hclear,hsum⟩ := h
  dsimp only at hlength hcarry hclear hsum
  have hinside : i < limbs.length := by rw [hlength]; exact hi
  have ha := limbAt_lt a i
  have hb := limbAt_lt b i
  rw [radix_eq] at ha hb
  have hwrite := limbValue_carry hinside (limbAt a i+limbAt b i+carry)
  rw [hclear i le_rfl] at hwrite
  refine ⟨?_,?_,?_,?_⟩
  · rw [List.length_set]
    exact hlength
  · dsimp only
    rw [Nat.shiftRight_eq_div_pow]
    omega
  · intro k hk
    rw [limbAt_set hinside,if_neg (by omega)]
    exact hclear k (by omega)
  · dsimp only
    rw [lowValue_succ,lowValue_succ]
    linear_combination hwrite+hsum

/-- One round of the addition. -/
theorem addStep_inv {a b : Limbs} {n i : ℕ} {s : Limbs × ℕ} (hi : i < n) (h : AddInv a b n i s) :
    ∃ next, addStep a b i s=.ok next ∧ AddInv a b n (i+1) next := by
  obtain ⟨limbs,carry⟩ := s
  have hcarry : carry ≤ 1 := h.carry
  have hinside : i < limbs.length := by rw [h.length]; exact hi
  have ha := limbAt_lt a i
  have hb := limbAt_lt b i
  rw [radix_eq] at ha hb
  have hwide : (limbAt a i+limbAt b i+carry)%2^64=limbAt a i+limbAt b i+carry :=
    Nat.mod_eq_of_lt (by omega)
  refine ⟨_,?_,addInv_write hi h⟩
  unfold addStep
  rw [bind_of_ok (limbOrZero_eq a i),bind_of_ok (limbOrZero_eq b i)]
  dsimp only
  rw [hwide,bind_of_ok (store_eq hinside _)]
  rfl

/-- The cleared result vector before the first round. -/
theorem addInv_start (a b : Limbs) (n : ℕ) : AddInv a b n 0 (List.replicate n 0,0) :=
  ⟨List.length_replicate,Nat.zero_le 1,fun k _ => limbAt_replicate n k,by simp [lowValue]⟩

/-- A result vector with room for the carry holds the whole sum. -/
theorem addInv_sum {a b : Limbs} {n : ℕ} {s : Limbs × ℕ} (h : AddInv a b n n s)
    (ha : a.length < n) (hb : b.length < n) : limbValue s.1=limbValue a+limbValue b := by
  obtain ⟨-,hcarry,-,hsum⟩ := h
  rw [lowValue_of_length_le ha.le,lowValue_of_length_le hb.le] at hsum
  have hpow : radix^n=radix*radix^(n-1) := by
    rw [← pow_succ']
    congr 1
    omega
  have hlowA : limbValue a < radix^(n-1) :=
    (limbValue_lt a).trans_le (Nat.pow_le_pow_right radix_pos (by omega))
  have hlowB : limbValue b < radix^(n-1) :=
    (limbValue_lt b).trans_le (Nat.pow_le_pow_right radix_pos (by omega))
  have hzero : s.2=0 := by
    by_contra hne
    have hone : s.2=1 := by omega
    rw [hone,one_mul,hpow,radix_eq] at hsum
    rw [radix_eq] at hlowA hlowB
    omega
  rw [hzero,zero_mul,add_zero] at hsum
  exact hsum

/-- `add` denotes the sum. -/
theorem add_denotes (a b : BigUInt) : Denotes (add a b) (a.value+b.value) := by
  have hstep : ∀ i s, 0 ≤ i → i < 0+(max a.limbs.length b.limbs.length+1) →
      AddInv a.limbs b.limbs (max a.limbs.length b.limbs.length+1) i s →
      ∃ next, addStep a.limbs b.limbs i s=.ok next ∧
        AddInv a.limbs b.limbs (max a.limbs.length b.limbs.length+1) (i+1) next := by
    intro i s _ hi
    exact addStep_inv (by omega)
  obtain ⟨s,hloop,hinv⟩ := forUp_invariant _ (addInv_start a.limbs b.limbs _) hstep
  rw [zero_add] at hinv
  unfold add
  dsimp only
  rw [bind_of_ok hloop]
  exact denotes_trim (addInv_sum hinv (by omega) (by omega))

end Add

section Subtract

/-- The subtraction loop before index `i`. -/
structure SubtractInv (a b : Limbs) (i : ℕ) (s : Limbs × ℤ) : Prop where
  /-- The result vector keeps its size. -/
  length : s.1.length=a.length
  /-- The borrow is one bit. -/
  borrow : s.2=0 ∨ s.2=1
  /-- The limbs from the index on are still clear. -/
  clear : ∀ k, i ≤ k → limbAt s.1 k=0
  /-- Result and borrow are the difference of the limbs below the index. -/
  difference : (limbValue s.1 : ℤ)-s.2*radix^i=lowValue a i-lowValue b i

/-- Storing a nonnegative difference below the base. -/
theorem toNat_ofInt {x : ℤ} (hlow : 0 ≤ x) (hhigh : x < 2^32) :
    ((UInt32.ofInt x).toNat : ℤ)=x := by
  have hmod : (UInt32.ofInt x).toNat=x.toNat%2^32 := by
    unfold UInt32.ofInt
    rw [Int.emod_eq_of_lt hlow hhigh]
    exact UInt32.toNat_ofNat'
  rw [hmod]
  omega

/-- A round that stores the difference of the limbs, corrected by the base
when it borrows. -/
theorem subtractInv_write {a b limbs : Limbs} {i : ℕ} {borrow next : ℤ} {limb : UInt32}
    (hi : i < a.length) (h : SubtractInv a b i (limbs,borrow)) (hnext : next=0 ∨ next=1)
    (hlimb : (limb.toNat : ℤ)=limbAt a i-limbAt b i-borrow+next*radix) :
    SubtractInv a b (i+1) (limbs.set i limb,next) := by
  obtain ⟨hlength,-,hclear,hdifference⟩ := h
  dsimp only at hlength hclear hdifference
  have hinside : i < limbs.length := by rw [hlength]; exact hi
  have hwrite := limbValue_set hinside limb
  rw [hclear i le_rfl] at hwrite
  refine ⟨?_,hnext,?_,?_⟩
  · rw [List.length_set]
    exact hlength
  · intro k hk
    rw [limbAt_set hinside,if_neg (by omega)]
    exact hclear k (by omega)
  · dsimp only
    rw [lowValue_succ,lowValue_succ]
    have hcast := congrArg (Nat.cast : ℕ → ℤ) hwrite
    push_cast at hcast ⊢
    rw [hlimb] at hcast
    rw [pow_succ]
    linear_combination hcast+hdifference

/-- One round of the subtraction. -/
theorem subtractStep_inv {a b : Limbs} {i : ℕ} {s : Limbs × ℤ} (hi : i < a.length)
    (h : SubtractInv a b i s) :
    ∃ next, subtractStep a b i s=.ok next ∧ SubtractInv a b (i+1) next := by
  obtain ⟨limbs,borrow⟩ := s
  have hlength := h.length
  have hborrow := h.borrow
  dsimp only at hlength hborrow
  have hinside : i < limbs.length := by rw [hlength]; exact hi
  have ha := limbAt_lt a i
  have hb := limbAt_lt b i
  rw [radix_eq] at ha hb
  obtain ⟨ai,hload,hai⟩ := load_limb hi
  unfold subtractStep
  rw [bind_of_ok (limbOrZero_eq b i),bind_of_ok hload]
  dsimp only
  rw [hai]
  split
  · next hneg =>
    rw [bind_of_ok (store_eq hinside _)]
    refine ⟨_,rfl,subtractInv_write hi h (Or.inr rfl) ?_⟩
    rw [toNat_ofInt (by omega) (by omega),radix_eq]
    ring
  · next hpos =>
    rw [bind_of_ok (store_eq hinside _)]
    refine ⟨_,rfl,subtractInv_write hi h (Or.inl rfl) ?_⟩
    rw [toNat_ofInt (by omega) (by omega)]
    ring

/-- The subtraction loop returns with its invariant. -/
theorem subtract_loop (a b : BigUInt) :
    ∃ s, subtract a b=.ok (trim s.1) ∧ SubtractInv a.limbs b.limbs a.limbs.length s := by
  have hstart : SubtractInv a.limbs b.limbs 0 (List.replicate a.limbs.length 0,0) :=
    ⟨List.length_replicate,Or.inl rfl,fun k _ => limbAt_replicate _ k,by simp [lowValue]⟩
  have hstep : ∀ i s, 0 ≤ i → i < 0+a.limbs.length → SubtractInv a.limbs b.limbs i s →
      ∃ next, subtractStep a.limbs b.limbs i s=.ok next ∧
        SubtractInv a.limbs b.limbs (i+1) next := by
    intro i s _ hi
    exact subtractStep_inv (by omega)
  obtain ⟨s,hloop,hinv⟩ := forUp_invariant _ hstart hstep
  rw [zero_add] at hinv
  refine ⟨s,?_,hinv⟩
  unfold subtract
  rw [bind_of_ok hloop]
  rfl

/-- `subtract` returns also outside its precondition. -/
theorem subtract_returns (a b : BigUInt) : ∃ n, Denotes (subtract a b) n := by
  obtain ⟨s,hreturn,-⟩ := subtract_loop a b
  rw [hreturn]
  exact ⟨_,denotes_ok _⟩

/-- `subtract` denotes the difference under its precondition. -/
theorem subtract_denotes (a b : BigUInt) (h : b.value ≤ a.value) :
    Denotes (subtract a b) (a.value-b.value) := by
  obtain ⟨s,hreturn,hlength,hborrow,-,hdifference⟩ := subtract_loop a b
  have hshort := length_le_of_value_le h
  rw [lowValue_of_length_le le_rfl,lowValue_of_length_le hshort] at hdifference
  have hbound : limbValue s.1 < radix^a.limbs.length := by
    rw [← hlength]
    exact limbValue_lt s.1
  have hbound' : (limbValue s.1 : ℤ) < radix^a.limbs.length := by exact_mod_cast hbound
  unfold BigUInt.value at h ⊢
  have hzero : s.2=0 := by
    rcases hborrow with hzero | hone
    · exact hzero
    · rw [hone,one_mul] at hdifference
      omega
  rw [hzero,zero_mul] at hdifference
  rw [hreturn]
  exact denotes_trim (by omega)

end Subtract

section Shift

/-- The shifted limb with its carry is the sum of the limb with itself. -/
theorem shift_limb (limb : UInt32) {carry : UInt32} (h : carry.toNat ≤ 1) :
    limb <<< 1 ||| carry=UInt32.ofNat (limb.toNat+limb.toNat+carry.toNat) ∧
      (limb >>> 31).toNat=(limb.toNat+limb.toNat+carry.toNat) >>> 32 := by
  have hlimb := UInt32.toNat_lt limb
  have hshift : (limb <<< 1).toNat=2*(limb.toNat%2^31) := by
    rw [UInt32.toNat_shiftLeft,UInt32.toNat_one,Nat.shiftLeft_eq]
    have hcount : 2^(1%32)=2 := rfl
    rw [hcount]
    omega
  have hor : (limb <<< 1 ||| carry).toNat=2*(limb.toNat%2^31)+carry.toNat := by
    rw [UInt32.toNat_or,hshift]
    exact (Nat.two_pow_add_eq_or_of_lt (i := 1) (by omega) _).symm
  constructor
  · apply UInt32.toNat_inj.mp
    rw [hor,UInt32.toNat_ofNat']
    omega
  · rw [UInt32.toNat_shiftRight,Nat.shiftRight_eq_div_pow,Nat.shiftRight_eq_div_pow]
    have hcount : (31 : UInt32).toNat%32=31 := rfl
    rw [hcount]
    omega

/-- One round of the shift is a round of the addition to itself. -/
theorem shiftStep_inv {a : Limbs} {n i : ℕ} {s : Limbs × UInt32} (hi : i < a.length) (hn : i < n)
    (h : AddInv a a n i (s.1,s.2.toNat)) :
    ∃ next, shiftStep a i s=.ok next ∧ AddInv a a n (i+1) (next.1,next.2.toNat) := by
  have hinside : i < s.1.length := by rw [h.length]; exact hn
  obtain ⟨ai,hload,hai⟩ := load_limb hi
  obtain ⟨hlimb,hcarry⟩ := shift_limb ai h.carry
  have hwrite := addInv_write hn h
  rw [← hai,← hlimb,← hcarry] at hwrite
  refine ⟨(s.1.set i (ai <<< 1 ||| s.2),ai >>> 31),?_,hwrite⟩
  unfold shiftStep
  rw [bind_of_ok hload,bind_of_ok (store_eq hinside _)]
  rfl

/-- `shift_left_one_bit` denotes the double. -/
theorem shiftLeftOneBit_denotes (a : BigUInt) : Denotes (shiftLeftOneBit a) (2*a.value) := by
  unfold shiftLeftOneBit
  split
  · next h =>
    rw [(isZero_iff a).mp h]
    exact denotes_ok zero
  · have hstart : AddInv a.limbs a.limbs (a.limbs.length+1) 0
        (List.replicate (a.limbs.length+1) 0,(0 : UInt32).toNat) := addInv_start _ _ _
    have hstep : ∀ i (s : Limbs × UInt32), 0 ≤ i → i < 0+a.limbs.length →
        AddInv a.limbs a.limbs (a.limbs.length+1) i (s.1,s.2.toNat) →
        ∃ next, shiftStep a.limbs i s=.ok next ∧
          AddInv a.limbs a.limbs (a.limbs.length+1) (i+1) (next.1,next.2.toNat) := by
      intro i s _ hi
      exact shiftStep_inv (by omega) (by omega)
    obtain ⟨s,hloop,hinv⟩ := forUp_invariant (s := (List.replicate (a.limbs.length+1) 0,0))
      (fun i (s : Limbs × UInt32) => AddInv a.limbs a.limbs (a.limbs.length+1) i (s.1,s.2.toNat))
      hstart hstep
    rw [zero_add] at hinv
    obtain ⟨hlength,-,hclear,hsum⟩ := hinv
    dsimp only at hlength hclear hsum
    have hinside : a.limbs.length < s.1.length := by omega
    have hwrite := limbValue_set hinside s.2
    rw [hclear _ le_rfl] at hwrite
    rw [lowValue_of_length_le le_rfl] at hsum
    rw [bind_of_ok hloop,bind_of_ok (store_eq hinside _)]
    apply denotes_trim
    unfold BigUInt.value
    linear_combination hwrite+hsum

end Shift

section Multiply

/-- The inner loop of the row of limb `ai` before index `j`. -/
structure RowInv (b : Limbs) (ai before i n j : ℕ) (s : Limbs × ℕ) : Prop where
  /-- The result vector keeps its size. -/
  length : s.1.length=n
  /-- The carry is a limb. -/
  carry : s.2 < radix
  /-- The limbs beyond the row are still clear. -/
  clear : ∀ k, i+b.length ≤ k → limbAt s.1 k=0
  /-- Result and carry have grown by the product with the limbs below `j`. -/
  product : limbValue s.1+s.2*radix^(i+j)=before+ai*radix^i*lowValue b j

/-- A product of limbs with two more limbs fits the accumulator. -/
theorem accumulator_lt {x y u v : ℕ} (hx : x < radix) (hy : y < radix) (hu : u < radix)
    (hv : v < radix) : x*y+u+v < radix*radix := by
  have hxy : x*y ≤ (radix-1)*(radix-1) := Nat.mul_le_mul (by omega) (by omega)
  rw [radix_eq] at *
  omega

/-- One round of the inner loop. -/
theorem multiplyStep_inv {a b : Limbs} {before i n j : ℕ} {s : Limbs × ℕ} (hi : i < a.length)
    (hj : j < b.length) (hn : i+b.length ≤ n) (h : RowInv b (limbAt a i) before i n j s) :
    ∃ next, multiplyStep a b i j s=.ok next ∧ RowInv b (limbAt a i) before i n (j+1) next := by
  obtain ⟨limbs,carry⟩ := s
  obtain ⟨hlength,hcarry,hclear,hproduct⟩ := h
  dsimp only at hlength hcarry hclear hproduct
  have hinside : i+j < limbs.length := by omega
  obtain ⟨ai,hloadA,hai⟩ := load_limb hi
  obtain ⟨bj,hloadB,hbj⟩ := load_limb hj
  obtain ⟨limb,hload,hlimb⟩ := load_limb hinside
  have hfit := accumulator_lt (limbAt_lt a i) (limbAt_lt b j) (limbAt_lt limbs (i+j)) hcarry
  have hwide : (limbAt a i*limbAt b j+limbAt limbs (i+j)+carry)%2^64=
      limbAt a i*limbAt b j+limbAt limbs (i+j)+carry := Nat.mod_eq_of_lt hfit
  have hwrite := limbValue_carry hinside (limbAt a i*limbAt b j+limbAt limbs (i+j)+carry)
  refine ⟨(limbs.set (i+j) (UInt32.ofNat (limbAt a i*limbAt b j+limbAt limbs (i+j)+carry)),
    (limbAt a i*limbAt b j+limbAt limbs (i+j)+carry) >>> 32),?_,?_,?_,?_,?_⟩
  · unfold multiplyStep
    rw [bind_of_ok hloadA,bind_of_ok hloadB,bind_of_ok hload]
    dsimp only
    rw [hai,hbj,hlimb,hwide,bind_of_ok (store_eq hinside _)]
    rfl
  · rw [List.length_set]
    exact hlength
  · dsimp only
    rw [Nat.shiftRight_eq_div_pow]
    exact Nat.div_lt_of_lt_mul hfit
  · intro k hk
    rw [limbAt_set hinside,if_neg (by omega)]
    exact hclear k hk
  · dsimp only
    rw [lowValue_succ,← Nat.add_assoc]
    rw [pow_add] at hwrite hproduct
    linear_combination hwrite+hproduct

/-- The trailing carry loop stores its carry in a clear limb and ends. -/
theorem carryLoop_eq {limbs : Limbs} {left k carry : ℕ} (hk : k < limbs.length)
    (hleft : left=limbs.length-k) (hcarry : carry < radix) (hclear : limbAt limbs k=0) :
    ∃ last, carryLoop left k carry limbs=.ok last ∧ last.length=limbs.length ∧
      (∀ i, i≠k → limbAt last i=limbAt limbs i) ∧
      limbValue last=limbValue limbs+carry*radix^k := by
  obtain ⟨rest,hrest⟩ : ∃ rest, left=rest+1 := ⟨limbs.length-k-1,by omega⟩
  rw [hrest]
  unfold carryLoop
  split
  · next hzero => exact ⟨limbs,rfl,rfl,fun _ _ => rfl,by rw [hzero]; ring⟩
  · obtain ⟨limb,hload,hlimb⟩ := load_limb hk
    have hnat : (limb.toNat+carry)%2^64=carry := by
      rw [hlimb,hclear]
      rw [radix_eq] at hcarry
      omega
    have hshift : carry >>> 32=0 := by
      rw [Nat.shiftRight_eq_div_pow]
      exact Nat.div_eq_of_lt hcarry
    have hwrite := limbValue_carry hk carry
    rw [hclear,hshift] at hwrite
    have hdone : ∀ (left k : ℕ) (limbs : Limbs), carryLoop left k 0 limbs=.ok limbs := by
      intro left k limbs
      cases left <;> rfl
    rw [bind_of_ok hload]
    dsimp only
    rw [hnat,bind_of_ok (store_eq hk _),hshift,hdone]
    refine ⟨_,rfl,List.length_set,?_,?_⟩
    · intro i hi
      rw [limbAt_set hk,if_neg hi]
    · linear_combination hwrite

/-- The outer loop before row `i`. -/
structure ProductInv (a b : Limbs) (i : ℕ) (limbs : Limbs) : Prop where
  /-- The result vector keeps its size. -/
  length : limbs.length=a.length+b.length
  /-- The limbs beyond the rows so far are still clear. -/
  clear : ∀ k, i+b.length ≤ k → limbAt limbs k=0
  /-- The result is the product with the limbs below `i`. -/
  product : limbValue limbs=lowValue a i*limbValue b

/-- One row of the product. -/
theorem multiplyRow_inv {a b limbs : Limbs} {i : ℕ} (hi : i < a.length)
    (h : ProductInv a b i limbs) :
    ∃ next, multiplyRow a b i limbs=.ok next ∧ ProductInv a b (i+1) next := by
  obtain ⟨hlength,hclear,hproduct⟩ := h
  have hstart : RowInv b (limbAt a i) (limbValue limbs) i (a.length+b.length) 0 (limbs,0) :=
    ⟨hlength,radix_pos,hclear,by simp [lowValue]⟩
  have hstep : ∀ j s, 0 ≤ j → j < 0+b.length →
      RowInv b (limbAt a i) (limbValue limbs) i (a.length+b.length) j s →
      ∃ next, multiplyStep a b i j s=.ok next ∧
        RowInv b (limbAt a i) (limbValue limbs) i (a.length+b.length) (j+1) next := by
    intro j s _ hj
    exact multiplyStep_inv hi (by omega) (by omega)
  obtain ⟨s,hloop,hlength',hcarry,hclear',hrow⟩ := forUp_invariant _ hstart hstep
  rw [zero_add,lowValue_of_length_le le_rfl] at hrow
  have hinside : i+b.length < s.1.length := by omega
  obtain ⟨last,hlast,hsize,hother,hvalue⟩ :=
    carryLoop_eq hinside rfl hcarry (hclear' _ le_rfl)
  refine ⟨last,?_,?_,?_,?_⟩
  · unfold multiplyRow
    rw [bind_of_ok hloop]
    exact hlast
  · rw [hsize]
    exact hlength'
  · intro k hk
    rw [hother k (by omega)]
    exact hclear' k (by omega)
  · rw [hvalue,hrow,hproduct,lowValue_succ]
    ring

/-- `multiply` denotes the product. -/
theorem multiply_denotes (a b : BigUInt) : Denotes (multiply a b) (a.value*b.value) := by
  unfold multiply
  split
  · next h =>
    have hzero : a.value*b.value=0 := by
      rcases Bool.or_eq_true_iff.mp h with ha | hb
      · rw [(isZero_iff a).mp ha,Nat.zero_mul]
      · rw [(isZero_iff b).mp hb,Nat.mul_zero]
    rw [hzero]
    exact denotes_ok zero
  · have hstart : ProductInv a.limbs b.limbs 0
        (List.replicate (a.limbs.length+b.limbs.length) 0) :=
      ⟨List.length_replicate,fun k _ => limbAt_replicate _ k,by simp [lowValue]⟩
    have hstep : ∀ i limbs, 0 ≤ i → i < 0+a.limbs.length → ProductInv a.limbs b.limbs i limbs →
        ∃ next, multiplyRow a.limbs b.limbs i limbs=.ok next ∧
          ProductInv a.limbs b.limbs (i+1) next := by
      intro i limbs _ hi
      exact multiplyRow_inv (by omega)
    obtain ⟨limbs,hloop,-,-,hproduct⟩ := forUp_invariant _ hstart hstep
    rw [zero_add,lowValue_of_length_le le_rfl] at hproduct
    rw [bind_of_ok hloop]
    exact denotes_trim hproduct

end Multiply

end Gcad.Bignum
