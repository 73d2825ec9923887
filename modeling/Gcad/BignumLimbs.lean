import Gcad.Bignum

/-!
# Limb vectors as numbers

The value of a limb vector under reads, writes and trimming. Every loop of
the class keeps an equation between the value of its result limbs, the
carry at its index and the values of the limbs below the index; one lemma
describes a write with its carry for all of them.
-/

namespace Gcad.Bignum

open ByteView CheckedLoop Digits

/-- The base is positive. -/
theorem radix_pos : 0 < radix := Nat.two_pow_pos 32

/-- The base as a numeral. -/
theorem radix_eq : radix=4294967296 := rfl

section Limbs

variable {limbs : Limbs} {i : ℕ}

/-- One digit for every limb. -/
@[simp]
theorem digitsOf_length (limbs : Limbs) : (digitsOf limbs).length=limbs.length :=
  List.length_map ..

/-- The digits of a vector with one limb overwritten. -/
theorem digitsOf_set (limbs : Limbs) (i : ℕ) (limb : UInt32) :
    digitsOf (limbs.set i limb)=(digitsOf limbs).set i limb.toNat := List.map_set

/-- Limbs are digits. -/
theorem digitsOf_lt (limbs : Limbs) : ∀ digit ∈ digitsOf limbs, digit < radix := by
  intro digit hdigit
  obtain ⟨limb,-,rfl⟩ := List.mem_map.mp hdigit
  exact UInt32.toNat_lt limb

/-- A limb as it is stored. -/
theorem limbAt_eq (limbs : Limbs) (i : ℕ) : limbAt limbs i=(limbs[i]?.getD 0).toNat := by
  unfold limbAt digitAt digitsOf
  rw [List.getElem?_map]
  cases limbs[i]? <;> rfl

/-- A limb is below the base. -/
theorem limbAt_lt (limbs : Limbs) (i : ℕ) : limbAt limbs i < radix := by
  rw [limbAt_eq]
  exact UInt32.toNat_lt _

/-- Reading inside the vector. -/
theorem load_limb (h : i < limbs.length) :
    ∃ limb, load limbs i=.ok limb ∧ limb.toNat=limbAt limbs i :=
  ⟨limbs[i]?.getD 0,load_eq h 0,(limbAt_eq limbs i).symm⟩

/-- Reading with zero beyond the vector. -/
theorem limbOrZero_eq (limbs : Limbs) (i : ℕ) : limbOrZero limbs i=.ok (limbAt limbs i) := by
  unfold limbOrZero
  split
  · next h =>
    obtain ⟨limb,hload,hlimb⟩ := load_limb h
    rw [bind_of_ok hload,hlimb]
    rfl
  · next h =>
    rw [limbAt_eq,List.getElem?_eq_none (Nat.le_of_not_lt h)]
    rfl

/-- Reading after a write. -/
theorem limbAt_set (h : i < limbs.length) (limb : UInt32) (k : ℕ) :
    limbAt (limbs.set i limb) k=if k=i then limb.toNat else limbAt limbs k := by
  unfold limbAt
  rw [digitsOf_set]
  exact digitAt_set (by rw [digitsOf_length]; exact h) limb.toNat k

/-- A write exchanges the weight of a limb. -/
theorem limbValue_set (h : i < limbs.length) (limb : UInt32) :
    limbValue (limbs.set i limb)+limbAt limbs i*radix^i=limbValue limbs+limb.toNat*radix^i := by
  unfold limbValue limbAt
  rw [digitsOf_set]
  exact ofDigits_set (by rw [digitsOf_length]; exact h) limb.toNat

/-- Writing the low half of an accumulator and carrying the high half adds
the accumulator in place of the old limb. -/
theorem limbValue_carry (h : i < limbs.length) (accumulator : ℕ) :
    limbValue (limbs.set i (UInt32.ofNat accumulator))+(accumulator >>> 32)*radix^(i+1)+
        limbAt limbs i*radix^i=
      limbValue limbs+accumulator*radix^i := by
  have hset := limbValue_set h (UInt32.ofNat accumulator)
  have hlow : (UInt32.ofNat accumulator).toNat=accumulator%radix := UInt32.toNat_ofNat'
  have hhigh : accumulator >>> 32=accumulator/radix := Nat.shiftRight_eq_div_pow accumulator 32
  have hsplit := Nat.div_add_mod accumulator radix
  rw [hlow] at hset
  rw [hhigh,pow_succ]
  calc _=limbValue (limbs.set i (UInt32.ofNat accumulator))+limbAt limbs i*radix^i+
        radix*(accumulator/radix)*radix^i := by ring
    _=limbValue limbs+(radix*(accumulator/radix)+accumulator%radix)*radix^i := by
      rw [hset]
      ring
    _=_ := by rw [hsplit]

/-- One more limb adds its weight. -/
theorem lowValue_succ (limbs : Limbs) (i : ℕ) :
    lowValue limbs (i+1)=lowValue limbs i+limbAt limbs i*radix^i := low_succ _ _ _

/-- All limbs together have the whole value. -/
theorem lowValue_of_length_le (h : limbs.length ≤ i) : lowValue limbs i=limbValue limbs :=
  low_of_length_le (by rw [digitsOf_length]; exact h)

/-- The limbs below an index stay below its weight. -/
theorem lowValue_lt (limbs : Limbs) (i : ℕ) : lowValue limbs i < radix^i :=
  low_lt (by decide) (digitsOf_lt limbs) i

/-- The value of a vector stays below the weight of its length. -/
theorem limbValue_lt (limbs : Limbs) : limbValue limbs < radix^limbs.length := by
  rw [← lowValue_of_length_le (le_refl limbs.length)]
  exact lowValue_lt limbs limbs.length

/-- Every limb is read back from the value. -/
theorem limbAt_eq_div_mod (limbs : Limbs) (i : ℕ) :
    limbAt limbs i=limbValue limbs/radix^i%radix :=
  digitAt_eq radix_pos (digitsOf_lt limbs) i

/-- A cleared vector has value zero. -/
@[simp]
theorem limbValue_replicate (n : ℕ) : limbValue (List.replicate n 0)=0 := by
  unfold limbValue digitsOf
  rw [List.map_replicate]
  exact Nat.ofDigits_replicate_zero

/-- Every limb of a cleared vector is zero. -/
@[simp]
theorem limbAt_replicate (n i : ℕ) : limbAt (List.replicate n 0) i=0 := by
  rw [limbAt_eq_div_mod,limbValue_replicate,Nat.zero_div,Nat.zero_mod]

/-- Trimming keeps the value. -/
theorem limbValue_trimLimbs (limbs : Limbs) : limbValue (trimLimbs limbs)=limbValue limbs := by
  induction limbs using List.reverseRecOn with
  | nil => rfl
  | append_singleton rest limb ih =>
    unfold trimLimbs
    rw [List.rdropWhile_concat]
    by_cases hlimb : limb=0
    · rw [if_pos (decide_eq_true hlimb)]
      subst hlimb
      have hzero : limbValue (rest++[0])=limbValue rest := by
        unfold limbValue digitsOf
        rw [List.map_append]
        exact Nat.ofDigits_append_zero _
      rw [hzero]
      exact ih
    · rw [if_neg (fun h => hlimb (of_decide_eq_true h))]

/-- A trimmed number has the value of its limbs. -/
theorem trim_value (limbs : Limbs) : (trim limbs).value=limbValue limbs :=
  limbValue_trimLimbs limbs

/-- An operation that ends in a trim denotes the value of its limbs. -/
theorem denotes_trim {n : ℕ} (h : limbValue limbs=n) : Denotes (.ok (trim limbs)) n :=
  ⟨trim limbs,rfl,(trim limbs).normalised,(trim_value limbs).trans h⟩

/-- A number that is already there. -/
theorem denotes_ok (a : BigUInt) : Denotes (.ok a) a.value := ⟨a,rfl,a.normalised,rfl⟩

end Limbs

section Normalised

variable (a : BigUInt)

/-- The digits of a number have no leading zero. -/
theorem digitsOf_getLast? : (digitsOf a.limbs).getLast?≠some 0 := by
  intro hzero
  unfold digitsOf at hzero
  rw [List.getLast?_map] at hzero
  obtain ⟨limb,hlimb,hvalue⟩ := Option.map_eq_some_iff.mp hzero
  have hlimbZero : limb=0 := UInt32.toNat_inj.mp hvalue
  subst hlimbZero
  exact a.normalised hlimb

/-- Numbers with the same value are the same. -/
theorem eq_of_value_eq {a b : BigUInt} (h : a.value=b.value) : a=b := by
  have ha := eq_digits (by decide) (digitsOf_lt a.limbs) (digitsOf_getLast? a)
  have hb := eq_digits (by decide) (digitsOf_lt b.limbs) (digitsOf_getLast? b)
  have hdigits : digitsOf a.limbs=digitsOf b.limbs := by
    rw [← ha,← hb]
    exact congrArg (Nat.digits radix) h
  have hinjective : Function.Injective UInt32.toNat := fun _ _ => UInt32.toNat_inj.mp
  have hlimbs : a.limbs=b.limbs := hinjective.list_map hdigits
  cases a
  cases b
  cases hlimbs
  rfl

/-- A nonempty normalised vector reaches the weight of its top limb. -/
theorem radix_pow_le_value (h : a.limbs≠[]) : radix^(a.limbs.length-1) ≤ a.value := by
  have hlast := digitsOf_getLast? a
  have hne : digitsOf a.limbs≠[] := fun hnil => h (List.map_eq_nil_iff.mp hnil)
  have hpow := pow_le_ofDigits (b := radix) hlast hne
  rw [digitsOf_length] at hpow
  exact hpow

/-- Only the empty vector denotes zero. -/
theorem isZero_iff : isZero a=true ↔ a.value=0 := by
  constructor
  · intro h
    unfold BigUInt.value
    rw [List.isEmpty_iff.mp h]
    rfl
  · intro h
    by_contra hne
    have hlimbs : a.limbs≠[] := fun hnil => hne (List.isEmpty_iff.mpr hnil)
    have hpow := radix_pow_le_value a hlimbs
    have hpos : 0 < radix^(a.limbs.length-1) := Nat.pow_pos radix_pos
    omega

/-- A smaller number has no more limbs. -/
theorem length_le_of_value_le {a b : BigUInt} (h : b.value ≤ a.value) :
    b.limbs.length ≤ a.limbs.length := by
  by_contra hlong
  have hne : b.limbs≠[] := by
    intro hnil
    rw [hnil] at hlong
    exact hlong (Nat.zero_le _)
  have hb := radix_pow_le_value b hne
  have ha : a.value < radix^a.limbs.length := limbValue_lt a.limbs
  have hpow : radix^a.limbs.length ≤ radix^(b.limbs.length-1) :=
    Nat.pow_le_pow_right radix_pos (by omega)
  omega

/-- The empty number is zero. -/
@[simp]
theorem zero_value : zero.value=0 := rfl

/-- Small numbers denote themselves. -/
@[simp]
theorem fromSmall_value (value : UInt32) : (fromSmall value).value=value.toNat := by
  unfold fromSmall
  split
  · next h =>
    rw [h]
    rfl
  · unfold BigUInt.value limbValue digitsOf
    exact Nat.ofDigits_singleton

end Normalised

end Gcad.Bignum
