import Gcad.ByteView
import Gcad.Sha2
import Gcad.SineTable

/-!
# The MD5 message digest of RFC 1321

Padding, the sixty-four operations on the registers A, B, C and D, and the
digest. The registers keep their names: an operation overwrites one of them
and the next operation has the roles shifted by one. The additive constants
are not tabulated; they are integer parts of scaled sines, as the document
defines them, and a table is compared with them by a certified computation.
-/

namespace Gcad.Rfc1321

open ByteView

/-- The registers A, B, C and D. -/
abbrev Registers := Fin 4 → UInt32

/-- The number with the given bytes, low-order byte first. -/
def leNat : Bytes → ℕ
  | [] => 0
  | b::rest => b.toNat+256*leNat rest

/-- Initial values of the registers, in the byte order of the document. -/
def initial : Registers :=
  ![UInt32.ofNat (leNat [0x01,0x23,0x45,0x67]),UInt32.ofNat (leNat [0x89,0xab,0xcd,0xef]),
    UInt32.ofNat (leNat [0xfe,0xdc,0xba,0x98]),UInt32.ofNat (leNat [0x76,0x54,0x32,0x10])]

/-- The least number of zero bytes that leaves eight bytes of a block for the
length of a message of `n` bytes. -/
noncomputable def padZeros (n : ℕ) : ℕ := sInf {k | (n+1+k)%64=56}

/-- The padded message: a one bit, zero bits and the low-order 64 bits of the
length in bits. -/
noncomputable def pad (message : Bytes) : Bytes :=
  message++0x80::(List.replicate (padZeros message.length) 0++
    leBytes 8 (8*message.length%2^64))

/-- Word `t` of a block. -/
def blockWord (block : Bytes) (t : ℕ) : UInt32 :=
  UInt32.ofNat (leNat ((block.drop (4*t)).take 4))

/-- The auxiliary function of a round. -/
def auxiliary (r : ℕ) (x y z : UInt32) : UInt32 :=
  match r with
  | 0 => (x &&& y) ||| (~~~x &&& z)
  | 1 => (x &&& z) ||| (y &&& ~~~z)
  | 2 => x ^^^ y ^^^ z
  | _ => y ^^^ (x ||| ~~~z)

/-- The word of the block that operation `i` adds. -/
def wordIndex (i : ℕ) : ℕ :=
  match i/16 with
  | 0 => i%16
  | 1 => (5*i+1)%16
  | 2 => (3*i+5)%16
  | _ => 7*i%16

/-- The four shifts of a round. -/
def shifts (r : ℕ) : List ℕ :=
  match r with
  | 0 => [7,12,17,22]
  | 1 => [5,9,14,20]
  | 2 => [4,11,16,23]
  | _ => [6,10,15,21]

/-- The shift of operation `i`. -/
def shift (i : ℕ) : ℕ := (shifts (i/16)).getD (i%4) 0

/-- Element `i` of the table: the integer part of `2^32` times the absolute
value of the sine of `i` radians. -/
noncomputable def sine (i : ℕ) : UInt32 := UInt32.ofNat ⌊((2^32 : ℕ) : ℝ)*|Real.sin i|⌋₊

/-- Circular shift to the left. -/
def rotateLeft (x : UInt32) (s : ℕ) : UInt32 := ⟨x.toBitVec.rotateLeft s⟩

/-- The register in role `j` of operation `i`: the operations of a round run
through [ABCD], [DABC], [CDAB] and [BCDA]. -/
def role (i j : ℕ) : Fin 4 := Fin.ofNat 4 (j+3*i)

/-- Operation `i`, `a = b + ((a + f(b,c,d) + X[k] + T[i]) <<< s)`, with the
operations counted from zero. -/
noncomputable def operation (x : ℕ → UInt32) (r : Registers) (i : ℕ) : Registers :=
  let a := r (role i 0)
  let b := r (role i 1)
  let c := r (role i 2)
  let d := r (role i 3)
  Function.update r (role i 0)
    (b+rotateLeft (a+auxiliary (i/16) b c d+x (wordIndex i)+sine (i+1)) (shift i))

/-- The registers after one block. -/
noncomputable def compress (r : Registers) (block : Bytes) : Registers :=
  fun k => r k+(List.range 64).foldl (operation (blockWord block)) r k

/-- The registers after all complete blocks of a byte string. -/
noncomputable def absorb (message : Bytes) : Registers :=
  (Sha2.blocks 64 message).foldl compress initial

/-- The digest: the registers in order, low-order byte first. -/
def output (r : Registers) : Bytes :=
  (List.finRange 4).flatMap fun k => leBytes 4 (r k).toNat

/-- The message digest. -/
noncomputable def md5 (message : Bytes) : Bytes := output (absorb (pad message))

/-- Two lower-case hexadecimal digits for every byte. -/
def hexText (bytes : Bytes) : List Char :=
  bytes.flatMap fun b => [Nat.digitChar (b.toNat/16),Nat.digitChar (b.toNat%16)]

/-- The least number of zero bytes is the one within a block. -/
theorem padZeros_eq {n k : ℕ} (h : (n+1+k)%64=56) (hk : k < 64) : padZeros n=k := by
  have hleast : IsLeast {j | (n+1+j)%64=56} k := by
    refine ⟨h,fun j hj => ?_⟩
    have hj' : (n+1+j)%64=56 := hj
    omega
  exact hleast.csInf_eq

/-- Absorbing one more block. -/
theorem absorb_append {k : ℕ} {full block : Bytes} (hfull : full.length=k*64)
    (hblock : block.length=64) : absorb (full++block)=compress (absorb full) block := by
  rw [absorb,Sha2.blocks_append (by omega) hfull hblock,List.foldl_append]
  rfl

section Constants

open SineTable

/-- The certified computation for a table of the sixty-four constants. -/
def checkTable (table : List ℕ) : Bool :=
  certify (2^256) (2^224) (start (2^256) 1 32) 2 (start (2^256) 1 32) 2 table

/-- A checked table holds the constants. -/
theorem checkTable_sine {table : List ℕ} (h : checkTable table=true) {i t : ℕ}
    (hi : table[i]?=some t) : sine (i+1)=UInt32.ofNat t := by
  have hbound : ((2^256 : ℕ) : ℚ)*slack (2*32) ≤ 1 := by decide +kernel
  have hnear := start_near (by norm_num : |(1 : ℚ)| ≤ 1) (by omega : 0 < 32) hbound
  have hscale : 2^256=2^32*2^224 := by norm_num
  have hfloor := certify_floor (by positivity) (by positivity) hscale hnear hnear h hi
  have hangle : ((1 : ℚ) : ℝ)+i*((1 : ℚ) : ℝ)=(i+1 : ℕ) := by
    push_cast
    ring
  rw [hangle] at hfloor
  rw [sine,hfloor]

end Constants

end Gcad.Rfc1321
