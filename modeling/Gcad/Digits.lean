import Mathlib

/-!
# Positional digits by index

Values of little-endian digit lists, as a program sees them that reads and
writes one digit at a time: the value of the first digits, the effect of
overwriting a digit, and the digit read back from the value.
-/

namespace Gcad.Digits

variable {b : ℕ}

/-- The digit at an index, zero outside the list. -/
def digitAt (digits : List ℕ) (i : ℕ) : ℕ := digits[i]?.getD 0

/-- Value of the first digits. -/
def low (b : ℕ) (digits : List ℕ) (i : ℕ) : ℕ := Nat.ofDigits b (digits.take i)

/-- No digits have value zero. -/
@[simp]
theorem low_zero (b : ℕ) (digits : List ℕ) : low b digits 0=0 := rfl

/-- One more digit adds its weight, also outside the list. -/
theorem low_succ (b : ℕ) (digits : List ℕ) (i : ℕ) :
    low b digits (i+1)=low b digits i+digitAt digits i*b^i := by
  unfold low digitAt
  rcases Nat.lt_or_ge i digits.length with hi | hi
  · rw [List.take_add_one,List.getElem?_eq_getElem hi,Nat.ofDigits_append,List.length_take,
      min_eq_left hi.le]
    simp only [Option.toList_some,Option.getD_some,Nat.ofDigits_singleton]
    ring
  · rw [List.take_of_length_le hi,List.take_of_length_le (by omega),
      List.getElem?_eq_none hi]
    simp

/-- All digits together have the whole value. -/
theorem low_of_length_le {digits : List ℕ} {i : ℕ} (h : digits.length ≤ i) :
    low b digits i=Nat.ofDigits b digits := by
  unfold low
  rw [List.take_of_length_le h]

/-- The first digits stay below the weight of the next. -/
theorem low_lt {digits : List ℕ} (hb : 1 < b) (h : ∀ digit ∈ digits, digit < b) (i : ℕ) :
    low b digits i < b^i := by
  have hdigits : ∀ digit ∈ digits.take i, digit < b := by
    intro digit hdigit
    exact h digit (List.mem_of_mem_take hdigit)
  calc low b digits i < b^(digits.take i).length := Nat.ofDigits_lt_base_pow_length hb hdigits
    _ ≤ b^i := Nat.pow_le_pow_right (by omega) (List.length_take_le i digits)

/-- Overwriting a digit exchanges its weight in the value. -/
theorem ofDigits_set {digits : List ℕ} {i : ℕ} (hi : i < digits.length) (digit : ℕ) :
    Nat.ofDigits b (digits.set i digit)+digitAt digits i*b^i=
      Nat.ofDigits b digits+digit*b^i := by
  induction digits generalizing i with
  | nil => cases hi
  | cons first rest ih =>
    cases i with
    | zero =>
      simp only [List.set_cons_zero,Nat.ofDigits_cons,digitAt,List.getElem?_cons_zero,
        Option.getD_some,pow_zero]
      omega
    | succ i =>
      have hrest := ih (Nat.lt_of_succ_lt_succ hi)
      simp only [List.set_cons_succ,Nat.ofDigits_cons,digitAt,List.getElem?_cons_succ] at hrest ⊢
      rw [pow_succ]
      linear_combination b*hrest

/-- Reading after a write. -/
theorem digitAt_set {digits : List ℕ} {i : ℕ} (hi : i < digits.length) (digit k : ℕ) :
    digitAt (digits.set i digit) k=if k=i then digit else digitAt digits k := by
  unfold digitAt
  rw [List.getElem?_set]
  by_cases h : k=i
  · rw [if_pos h.symm,if_pos hi,if_pos h,Option.getD_some]
  · rw [if_neg (Ne.symm h),if_neg h]

/-- Every digit is read back from the value. -/
theorem digitAt_eq {digits : List ℕ} (hb : 0 < b) (h : ∀ digit ∈ digits, digit < b) (i : ℕ) :
    digitAt digits i=Nat.ofDigits b digits/b^i%b := by
  rw [Nat.ofDigits_div_pow_eq_ofDigits_drop i hb digits h,Nat.ofDigits_mod_eq_head!]
  unfold digitAt
  cases hdrop : digits.drop i with
  | nil =>
    have hlength := List.drop_eq_nil_iff.mp hdrop
    rw [List.getElem?_eq_none hlength]
    rfl
  | cons first rest =>
    have hfirst : digits[i]?=some first := by
      rw [← List.head?_drop,hdrop]
      rfl
    have hmem : first ∈ digits := List.mem_of_getElem? hfirst
    rw [hfirst,Option.getD_some,List.head!_cons,Nat.mod_eq_of_lt (h first hmem)]

/-- A value with a nonzero leading digit reaches the weight of that digit. -/
theorem pow_le_ofDigits {digits : List ℕ} (hlast : digits.getLast?≠some 0) (hne : digits≠[]) :
    b^(digits.length-1) ≤ Nat.ofDigits b digits := by
  have hsplit := List.dropLast_append_getLast hne
  have htop : digits.getLast hne≠0 := by
    intro hzero
    rw [List.getLast?_eq_getLast_of_ne_nil hne,hzero] at hlast
    exact hlast rfl
  rw [← hsplit,Nat.ofDigits_append,Nat.ofDigits_singleton,hsplit,List.length_dropLast]
  have hpos : 0 < digits.getLast hne := Nat.pos_of_ne_zero htop
  calc b^(digits.length-1)=b^(digits.length-1)*1 := (mul_one _).symm
    _ ≤ b^(digits.length-1)*digits.getLast hne := Nat.mul_le_mul_left _ hpos
    _ ≤ _ := Nat.le_add_left _ _

/-- A digit list without a leading zero is the expansion of its value. -/
theorem eq_digits {digits : List ℕ} (hb : 1 < b) (h : ∀ digit ∈ digits, digit < b)
    (hlast : digits.getLast?≠some 0) : Nat.digits b (Nat.ofDigits b digits)=digits := by
  apply Nat.digits_ofDigits b hb digits h
  intro hne hzero
  rw [List.getLast?_eq_getLast_of_ne_nil hne,hzero] at hlast
  exact hlast rfl

end Gcad.Digits
