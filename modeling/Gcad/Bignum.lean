import Gcad.CheckedLoop
import Gcad.Digits

/-!
# Multi-precision naturals

The class `BigUInt`: little-endian 32-bit limbs without a most significant
zero limb. Every operation runs in the checked monad, so a limb access
outside a vector would show as a bounds fault. Sizes and bit positions are
naturals; the 64-bit accumulators are reduced explicitly.
-/

namespace Gcad.Bignum

open ByteView CheckedLoop Digits

/-- A limb vector, least significant limb first. -/
abbrev Limbs := List UInt32

/-- No most significant zero limb. -/
def Normalised (limbs : Limbs) : Prop := limbs.getLast?≠some 0

/-- The class `BigUInt`. -/
structure BigUInt where
  /-- The limbs, the lowest first. -/
  limbs : Limbs
  /-- The invariant that `trim` restores. -/
  normalised : Normalised limbs

/-- The limbs `trim` keeps. -/
def trimLimbs (limbs : Limbs) : Limbs := limbs.rdropWhile fun limb => decide (limb=0)

/-- Trimmed limbs have no most significant zero. -/
theorem trimLimbs_normalised (limbs : Limbs) : Normalised (trimLimbs limbs) := by
  intro hlast
  have hne : trimLimbs limbs≠[] := by
    intro hnil
    rw [hnil] at hlast
    cases hlast
  have hnot := List.rdropWhile_last_not (fun limb : UInt32 => decide (limb=0)) limbs hne
  rw [List.getLast?_eq_getLast_of_ne_nil hne] at hlast
  exact hnot (decide_eq_true (Option.some.inj hlast))

/-- `trim`. -/
def trim (limbs : Limbs) : BigUInt := ⟨trimLimbs limbs,trimLimbs_normalised limbs⟩

/-- The value zero. -/
def zero : BigUInt := ⟨[],nofun⟩

/-- `is_zero`. -/
def isZero (a : BigUInt) : Bool := a.limbs.isEmpty

/-- `from_small`. -/
def fromSmall (value : UInt32) : BigUInt :=
  if h : value=0 then zero else ⟨[value],fun hlast => h (Option.some.inj hlast)⟩

/-- The loop body of `from_bytes_be`, for the byte string from `start` on. -/
def fromBytesStep (data : Bytes) (start n i : ℕ) (limbs : Limbs) : Checked Limbs := do
  let byte ← load data (start+n-1-i)
  let limb ← load limbs (i/4)
  store limbs (i/4) (limb ||| UInt32.ofNat byte.toNat <<< UInt32.ofNat (i%4*8))

/-- `from_bytes_be`. -/
def fromBytesBe (data : Bytes) : Checked BigUInt := do
  let start := (data.takeWhile fun byte => decide (byte=0)).length
  let n := data.length-start
  if n=0 then return zero
  else
    let limbs ← forUp (fromBytesStep data start n) 0 n (List.replicate ((n+3)/4) 0)
    return trim limbs

/-- The loop body of `to_bytes_be`. -/
def toBytesStep (limbs : Limbs) (i : ℕ) (littleEndian : Bytes) : Checked Bytes := do
  let limb ← load limbs i
  let bytes ← store littleEndian (i*4+0) (UInt8.ofNat limb.toNat)
  let bytes ← store bytes (i*4+1) (UInt8.ofNat (limb.toNat >>> 8))
  let bytes ← store bytes (i*4+2) (UInt8.ofNat (limb.toNat >>> 16))
  store bytes (i*4+3) (UInt8.ofNat (limb.toNat >>> 24))

/-- The scan for the first byte to keep: leading zeros, but never the last
byte. -/
def firstNonzero : Bytes → ℕ
  | first::second::rest => if first=0 then firstNonzero (second::rest)+1 else 0
  | _ => 0

/-- `to_bytes_be`. -/
def toBytesBe (a : BigUInt) (minLen : ℕ) : Checked Bytes := do
  let littleEndian ← forUp (toBytesStep a.limbs) 0 a.limbs.length
    (List.replicate (a.limbs.length*4) 0)
  let bigEndian := littleEndian.reverse
  let trimmed := bigEndian.drop (firstNonzero bigEndian)
  if trimmed=[0] ∧ minLen=0 then return []
  else if trimmed.length < minLen then
    return List.replicate (minLen-trimmed.length) 0++trimmed
  else return trimmed

/-- The shift loop of `bit_length`; a 32-bit value leaves at most 32 rounds. -/
def shiftCount : ℕ → ℕ → ℕ
  | 0,_ => 0
  | rounds+1,top => if top=0 then 0 else shiftCount rounds (top >>> 1)+1

/-- `bit_length`. -/
def bitLength (a : BigUInt) : Checked ℕ :=
  if a.limbs=[] then .ok 0
  else do
    let top ← load a.limbs (a.limbs.length-1)
    return (a.limbs.length-1)*32+shiftCount 32 top.toNat

/-- `get_bit`. -/
def getBit (a : BigUInt) (index : ℕ) : Checked Bool :=
  if a.limbs.length ≤ index/32 then .ok false
  else do
    let limb ← load a.limbs (index/32)
    return limb.toNat >>> (index%32) &&& 1 != 0

/-- The limb scan of `compare`, from the most significant limb down. -/
def compareFrom (a b : Limbs) : ℕ → Checked ℤ
  | 0 => .ok 0
  | i+1 => do
    let ai ← load a i
    let bi ← load b i
    if ai≠bi then return (if ai < bi then -1 else 1) else compareFrom a b i

/-- `compare`. -/
def compare (a b : BigUInt) : Checked ℤ :=
  if a.limbs.length≠b.limbs.length then
    .ok (if a.limbs.length < b.limbs.length then -1 else 1)
  else compareFrom a.limbs b.limbs a.limbs.length

/-- A limb, or zero beyond the vector. -/
def limbOrZero (limbs : Limbs) (i : ℕ) : Checked ℕ :=
  if i < limbs.length then do
    let limb ← load limbs i
    return limb.toNat
  else .ok 0

/-- The loop body of `add`, on the result limbs and the carry. -/
def addStep (a b : Limbs) (i : ℕ) (s : Limbs × ℕ) : Checked (Limbs × ℕ) := do
  let ai ← limbOrZero a i
  let bi ← limbOrZero b i
  let sum := (ai+bi+s.2)%2^64
  let limbs ← store s.1 i (UInt32.ofNat sum)
  return (limbs,sum >>> 32)

/-- `add`. -/
def add (a b : BigUInt) : Checked BigUInt := do
  let n := max a.limbs.length b.limbs.length+1
  let s ← forUp (addStep a.limbs b.limbs) 0 n (List.replicate n 0,0)
  return trim s.1

/-- The loop body of `subtract`, on the result limbs and the borrow. -/
def subtractStep (a b : Limbs) (i : ℕ) (s : Limbs × ℤ) : Checked (Limbs × ℤ) := do
  let bi ← limbOrZero b i
  let ai ← load a i
  let diff : ℤ := ai.toNat-bi-s.2
  if diff < 0 then do
    let limbs ← store s.1 i (UInt32.ofInt (diff+2^32))
    return (limbs,1)
  else do
    let limbs ← store s.1 i (UInt32.ofInt diff)
    return (limbs,0)

/-- `subtract`. -/
def subtract (a b : BigUInt) : Checked BigUInt := do
  let s ← forUp (subtractStep a.limbs b.limbs) 0 a.limbs.length
    (List.replicate a.limbs.length 0,0)
  return trim s.1

/-- The inner loop body of `multiply`, on the result limbs and the carry. -/
def multiplyStep (a b : Limbs) (i j : ℕ) (s : Limbs × ℕ) : Checked (Limbs × ℕ) := do
  let ai ← load a i
  let bj ← load b j
  let limb ← load s.1 (i+j)
  let prod := (ai.toNat*bj.toNat+limb.toNat+s.2)%2^64
  let limbs ← store s.1 (i+j) (UInt32.ofNat prod)
  return (limbs,prod >>> 32)

/-- The trailing carry loop of `multiply` at cell `k`, with the number of
cells left in the vector: a carry beyond the last cell leaves the vector. -/
def carryLoop : ℕ → ℕ → ℕ → Limbs → Checked Limbs
  | 0,_,carry,limbs => if carry=0 then .ok limbs else .error .outOfBounds
  | left+1,k,carry,limbs =>
    if carry=0 then .ok limbs
    else do
      let limb ← load limbs k
      let sum := (limb.toNat+carry)%2^64
      let limbs ← store limbs k (UInt32.ofNat sum)
      carryLoop left (k+1) (sum >>> 32) limbs

/-- The outer loop body of `multiply`. -/
def multiplyRow (a b : Limbs) (i : ℕ) (limbs : Limbs) : Checked Limbs := do
  let s ← forUp (multiplyStep a b i) 0 b.length (limbs,0)
  let k := i+b.length
  carryLoop (s.1.length-k) k s.2 s.1

/-- `multiply`. -/
def multiply (a b : BigUInt) : Checked BigUInt :=
  if isZero a || isZero b then .ok zero
  else do
    let limbs ← forUp (multiplyRow a.limbs b.limbs) 0 a.limbs.length
      (List.replicate (a.limbs.length+b.limbs.length) 0)
    return trim limbs

/-- The loop body of `shift_left_one_bit`, on the result limbs and the carry. -/
def shiftStep (a : Limbs) (i : ℕ) (s : Limbs × UInt32) : Checked (Limbs × UInt32) := do
  let ai ← load a i
  let limbs ← store s.1 i (ai <<< 1 ||| s.2)
  return (limbs,ai >>> 31)

/-- `shift_left_one_bit`. -/
def shiftLeftOneBit (a : BigUInt) : Checked BigUInt :=
  if isZero a then .ok zero
  else do
    let s ← forUp (shiftStep a.limbs) 0 a.limbs.length
      (List.replicate (a.limbs.length+1) 0,0)
    let limbs ← store s.1 a.limbs.length s.2
    return trim limbs

/-- The increment of `mod` when its bit is set. -/
def addBit (bit : Bool) (a : BigUInt) : Checked BigUInt :=
  if bit then add a (fromSmall 1) else .ok a

/-- The loop body of `mod`. -/
def modStep (a m : BigUInt) (idx : ℕ) (remainder : BigUInt) : Checked BigUInt := do
  let shifted ← shiftLeftOneBit remainder
  let bit ← getBit a idx
  let grown ← addBit bit shifted
  let order ← compare grown m
  if 0 ≤ order then subtract grown m else return grown

/-- `mod`. -/
def mod (a m : BigUInt) : Checked BigUInt :=
  if isZero m then .ok zero
  else do
    let order ← compare a m
    if order < 0 then return a
    else
      let totalBits ← bitLength a
      forDown (modStep a m) totalBits zero

/-- A product reduced by the modulus. -/
def multiplyMod (a b m : BigUInt) : Checked BigUInt := do
  let product ← multiply a b
  mod product m

/-- The product of `mod_pow` when its bit is set. -/
def multiplyBit (bit : Bool) (result base m : BigUInt) : Checked BigUInt :=
  if bit then multiplyMod result base m else .ok result

/-- The loop body of `mod_pow`, on the result and the running square. -/
def modPowStep (exp m : BigUInt) (i : ℕ) (s : BigUInt × BigUInt) :
    Checked (BigUInt × BigUInt) := do
  let bit ← getBit exp i
  let result ← multiplyBit bit s.1 s.2 m
  let base ← multiplyMod s.2 s.2 m
  return (result,base)

/-- `mod_pow`. -/
def modPow (baseIn exp m : BigUInt) : Checked BigUInt :=
  if isZero m then .ok zero
  else do
    let base ← mod baseIn m
    let bits ← bitLength exp
    let s ← forUp (modPowStep exp m) 0 bits (fromSmall 1,base)
    return s.1

section Value

/-- The digits of a limb vector. -/
def digitsOf (limbs : Limbs) : List ℕ := limbs.map UInt32.toNat

/-- The base of the limbs. -/
def radix : ℕ := 2^32

/-- The natural number a limb vector denotes. -/
def limbValue (limbs : Limbs) : ℕ := Nat.ofDigits radix (digitsOf limbs)

/-- The natural number a `BigUInt` denotes. -/
def BigUInt.value (a : BigUInt) : ℕ := limbValue a.limbs

/-- The limb at an index as a natural, zero outside the vector. -/
def limbAt (limbs : Limbs) (i : ℕ) : ℕ := digitAt (digitsOf limbs) i

/-- The value of the limbs below an index. -/
def lowValue (limbs : Limbs) (i : ℕ) : ℕ := low radix (digitsOf limbs) i

/-- An operation returns a normalised number with the given value, without
leaving a vector. -/
def Denotes (result : Checked BigUInt) (n : ℕ) : Prop :=
  ∃ a, result=.ok a ∧ Normalised a.limbs ∧ a.value=n

end Value

end Gcad.Bignum
