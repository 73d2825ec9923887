import Mathlib

/-!
# Shared vocabulary of the security modules

Strings are lists of character codes, as `std::string` is a sequence of
bytes. Time points are integer nanosecond counts. A double is kept as its
sign, mantissa and exponent, so the rounding of a confidence value to an
integer score contribution is computed exactly as the IEEE product and
`std::lround` compute it.
-/

namespace Gcad.Common

/-- A `std::string`: one character for every byte. -/
abbrev Str := List Char

/-- `std::to_string` of an unsigned integer. -/
def toDecimal (n : ℕ) : Str := Nat.toDigits 10 n

/-- Decimal rendering never confuses two numbers. -/
theorem toDecimal_injective {m n : ℕ} (h : toDecimal m=toDecimal n) : m=n := by
  apply Nat.repr_injective
  rw [Nat.repr,Nat.repr]
  exact congrArg String.ofList h

/-- The blanks `" \t\r\n"` that readers of lines cut off. -/
def isBlank (c : Char) : Bool := c = ' ' || c = '\t' || c = '\r' || c = '\n'

/-- A `std::chrono::system_clock` time point in nanoseconds. -/
abbrev TimePoint := ℤ

/-- `std::chrono::seconds`, in time-point units. -/
def seconds (n : ℤ) : ℤ := n*10^9

/-- `std::chrono::minutes`, in time-point units. -/
def minutes (n : ℤ) : ℤ := seconds (60*n)

/-- The `ErrorCode` enumeration of common.hpp. -/
inductive ErrorCode where
  | ok
  | errNomem
  | errInitFail
  | errEngineStart
  | errEngineStop
  | errScanIo
  | errScanAccess
  | errScanCorrupt
  | errNetSocket
  | errNetBind
  | errNetRecv
  | errCryptoHash
  | errQuarantineFull
  | errRollbackFail
  | errNotFound
  | errInvalidTransition
  | errQuarantineDenied
  | errShredFail
  | errPlatform
  | errSelfDefense
  deriving DecidableEq, Repr

/-- The `ThreatLevel` enumeration, ordered by its numeric values. -/
inductive ThreatLevel where
  | safe
  | low
  | medium
  | high
  | critical
  deriving DecidableEq, Repr

/-- The underlying `uint8_t` value that enumerator comparison uses. -/
def ThreatLevel.rank : ThreatLevel → ℕ
  | .safe => 0
  | .low => 1
  | .medium => 2
  | .high => 3
  | .critical => 4

/-- An IEEE-754 binary64 value. A finite value is mantissa times two to
the exponent, with the sign kept separately. -/
inductive Double where
  /-- Not a number. -/
  | nan
  /-- An infinity of the given sign. -/
  | infinite (negative : Bool)
  /-- A finite value; the mantissa has at most 53 bits. -/
  | finite (negative : Bool) (mantissa : ℕ) (exponent : ℤ)
      (width : mantissa < 2^53) (range : -1074 ≤ exponent ∧ exponent ≤ 971)
  deriving DecidableEq

/-- The double of a sign, a mantissa and an exponent; an infinity where no
finite double has them. -/
def Double.ofScaled (negative : Bool) (mantissa : ℕ) (exponent : ℤ) : Double :=
  if h : mantissa < 2^53 ∧ -1074 ≤ exponent ∧ exponent ≤ 971 then
    .finite negative mantissa exponent h.1 h.2
  else .infinite negative

/-- Where a finite double has them. -/
theorem Double.ofScaled_eq {negative : Bool} {mantissa : ℕ} {exponent : ℤ}
    (width : mantissa < 2^53) (range : -1074 ≤ exponent ∧ exponent ≤ 971) :
    Double.ofScaled negative mantissa exponent=.finite negative mantissa exponent width range :=
  dif_pos ⟨width,range⟩

/-- `std::isfinite`. -/
def Double.isFinite : Double → Bool
  | .finite _ _ _ _ _ => true
  | _ => false

/-- The comparison `value >= 0.0`; a negative zero passes it. -/
def Double.geZero : Double → Bool
  | .nan => false
  | .infinite negative => !negative
  | .finite negative mantissa _ _ _ => !negative || mantissa==0

/-- The comparison `value <= 1.0` on sign, mantissa and exponent. -/
def Double.leOne : Double → Bool
  | .nan => false
  | .infinite negative => negative
  | .finite negative mantissa exponent _ _ =>
    negative || decide (mantissa*2^exponent.toNat ≤ 2^(-exponent).toNat)

/-- Round a product mantissa to 53 bits, ties to even, returning the
rounded mantissa and the number of dropped bits. -/
def roundMantissa (product : ℕ) : ℕ×ℕ :=
  let dropped := Nat.size product-53
  let kept := product/2^dropped
  let rest := product%2^dropped
  (if 2^dropped < 2*rest ∨ (2*rest=2^dropped ∧ kept%2=1) then kept+1 else kept,dropped)

/-- The double nearest to a magnitude, ties to even. A mantissa that rounds
up to 54 bits gives one place to the exponent. -/
def Double.rounded (negative : Bool) (magnitude : ℕ) (exponent : ℤ) : Double :=
  let result := roundMantissa magnitude
  if result.1=2^53 then .ofScaled negative (2^52) (exponent+result.2+1)
  else .ofScaled negative result.1 (exponent+result.2)

/-- The sum of two doubles: exact at the lower exponent, then rounded. A
difference of equal values is the positive zero. -/
def Double.plus : Double → Double → Double
  | .nan,_ => .nan
  | _,.nan => .nan
  | .infinite negative,.infinite negative' =>
    if negative=negative' then .infinite negative else .nan
  | .infinite negative,.finite _ _ _ _ _ => .infinite negative
  | .finite _ _ _ _ _,.infinite negative => .infinite negative
  | .finite negative m e _ _,.finite negative' m' e' _ _ =>
    let least := min e e'
    let first := m*2^(e-least).toNat
    let second := m'*2^(e'-least).toNat
    if negative=negative' then .rounded negative (first+second) least
    else if first < second then .rounded negative' (second-first) least
    else .rounded (negative && first≠second) (first-second) least

/-- `std::lround` of mantissa times two to the exponent: the nearest
integer, halves away from zero. -/
def lroundMagnitude (mantissa : ℕ) (exponent : ℤ) : ℕ :=
  if 0 ≤ exponent then mantissa*2^exponent.toNat
  else (2*mantissa+2^(-exponent).toNat)/(2*2^(-exponent).toNat)

/-- `static_cast<unsigned>(std::lround(value * 50.0))`. The product is
rounded to a double before `lround` rounds it to an integer. The result
for a value that is not finite is unspecified in the source and never
reached, because only validated observations are scored. -/
def lround50 : Double → ℕ
  | .finite negative mantissa exponent _ _ =>
    let rounded := roundMantissa (50*mantissa)
    let magnitude := lroundMagnitude rounded.1 (exponent+rounded.2)
    if negative then (2^32-magnitude%2^32)%2^32 else magnitude%2^32
  | _ => 0

/-- Rounding up needs a nonzero dropped part, so a rounded mantissa never
passes a multiple of the dropped unit that bounds the product. -/
theorem roundMantissa_le {product bound : ℕ}
    (h : product ≤ bound*2^(roundMantissa product).2) : (roundMantissa product).1 ≤ bound := by
  have hunit : 0 < 2^(Nat.size product-53) := Nat.two_pow_pos _
  have hdiv := Nat.div_add_mod product (2^(Nat.size product-53))
  simp only [roundMantissa] at h ⊢
  split
  · next hup =>
    have hrest : 0 < product%2^(Nat.size product-53) := by omega
    by_contra hn
    have hle : bound ≤ product/2^(Nat.size product-53) := by omega
    have hm := Nat.mul_le_mul_left (2^(Nat.size product-53)) hle
    rw [Nat.mul_comm bound] at h
    omega
  · exact Nat.div_le_of_le_mul (by rw [Nat.mul_comm]; exact h)

/-- A product below two to the `n+6` drops at most `n` bits. -/
theorem roundMantissa_dropped {product n : ℕ} (h : product < 2^(n+6)) :
    (roundMantissa product).2 ≤ n := by
  have hs := Nat.size_le.mpr h
  simp only [roundMantissa]
  omega

/-- A scaled value at most an integer bound rounds to at most that bound. -/
theorem lroundMagnitude_le {mantissa bound k : ℕ} (h : mantissa ≤ bound*2^k) :
    lroundMagnitude mantissa (-(k : ℤ)) ≤ bound := by
  have hpos := Nat.two_pow_pos k
  unfold lroundMagnitude
  split
  · have hk : k=0 := by omega
    subst hk
    simpa using h
  · simp only [neg_neg,Int.toNat_natCast]
    apply Nat.lt_succ_iff.mp
    rw [Nat.div_lt_iff_lt_mul (by omega)]
    nlinarith

/-- Zero rounds to zero at every exponent. -/
theorem lroundMagnitude_zero (exponent : ℤ) : lroundMagnitude 0 exponent=0 := by
  rcases lt_or_ge exponent 0 with he | he
  · obtain ⟨n,rfl⟩ : ∃ n : ℕ, exponent= -(n : ℤ) := ⟨exponent.natAbs,by omega⟩
    exact Nat.le_zero.mp (lroundMagnitude_le (by omega))
  · simp only [lroundMagnitude,if_pos he,Nat.zero_mul]

/-- A positive value at most one keeps its fifty-fold within fifty, also
after the product has been rounded to a double. -/
theorem lroundMagnitude_product_le {mantissa : ℕ} {exponent : ℤ} (hm : 0 < mantissa)
    (h : mantissa*2^exponent.toNat ≤ 2^(-exponent).toNat) :
    lroundMagnitude (roundMantissa (50*mantissa)).1
      (exponent+(roundMantissa (50*mantissa)).2) ≤ 50 := by
  rcases lt_or_ge exponent 0 with he | he
  · obtain ⟨n,rfl⟩ : ∃ n : ℕ, exponent= -(n : ℤ) := ⟨exponent.natAbs,by omega⟩
    have hle : mantissa ≤ 2^n := by simpa using h
    have hp : 50*mantissa < 2^(n+6) := by
      rw [pow_add]
      have hn := Nat.two_pow_pos n
      omega
    obtain ⟨k,hk⟩ := Nat.exists_eq_add_of_le (roundMantissa_dropped hp)
    have hq : (roundMantissa (50*mantissa)).1 ≤ 50*2^k := by
      apply roundMantissa_le
      rw [Nat.mul_assoc,←pow_add,Nat.add_comm k,←hk]
      exact Nat.mul_le_mul_left 50 hle
    have hshift : -(n : ℤ)+((roundMantissa (50*mantissa)).2 : ℤ)= -(k : ℤ) := by omega
    rw [hshift]
    exact lroundMagnitude_le hq
  · have hexp : (-exponent).toNat=0 := by omega
    rw [hexp,pow_zero] at h
    have hpow := Nat.two_pow_pos exponent.toNat
    have hm1 : mantissa=1 := by nlinarith
    have he1 : 2^exponent.toNat=1 := by nlinarith
    have he0 : exponent=0 := by
      have := Nat.pow_eq_one.mp he1
      omega
    subst hm1 he0
    decide

/-- A confidence between zero and one contributes at most fifty points. -/
theorem lround50_le {value : Double} (h0 : value.geZero=true) (h1 : value.leOne=true) :
    lround50 value ≤ 50 := by
  cases value with
  | nan => exact Nat.zero_le _
  | infinite negative => exact Nat.zero_le _
  | finite negative mantissa exponent width range =>
    rcases Nat.eq_zero_or_pos mantissa with hz | hz
    · subst hz
      have hr : roundMantissa (50*0)=(0,0) := by decide
      simp only [lround50,hr,lroundMagnitude_zero]
      split <;> decide
    · have hneg : negative=false := by
        simpa only [Double.geZero,Bool.or_eq_true,Bool.not_eq_true',beq_iff_eq,hz.ne',
          or_false] using h0
      subst hneg
      have hone : mantissa*2^exponent.toNat ≤ 2^(-exponent).toNat := by
        simpa only [Double.leOne,Bool.false_or,decide_eq_true_eq] using h1
      simp only [lround50,Bool.false_eq_true,if_false]
      exact (Nat.mod_le _ _).trans (lroundMagnitude_product_le hz hone)

/-- A 64-bit counter after one more. -/
theorem add_ofNat_succ (start : UInt64) (n : ℕ) :
    start+UInt64.ofNat (n+1)=start+UInt64.ofNat n+1 := by
  rw [UInt64.ofNat_add,UInt64.add_assoc]
  rfl

end Gcad.Common
