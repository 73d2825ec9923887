import Gcad.ByteView
import Gcad.Sha2

/-!
# The streaming hash classes

`SHA256` and `SHA384` of common.hpp. Both classes have one shape: a fixed
buffer filled byte by byte, a transform of the full buffer, a bit counter
advanced once for every block, and a finalisation that pads in place. The
shape is written once over the words of the class, and each class supplies
its own constants and its own way of loading and storing a word.
-/

namespace Gcad.ShaStream

open ByteView Sha2

/-- Members of one hash class. -/
structure ShaClass (w : ℕ) where
  /-- Size of `buffer_`. -/
  bufferSize : ℕ
  /-- Bits added to `bitcount_` for every transformed buffer. -/
  blockBits : UInt64
  /-- The table `K`; its length is the number of rounds. -/
  K : List (BitVec w)
  /-- The function `ep0`. -/
  ep0 : BitVec w → BitVec w
  /-- The function `ep1`. -/
  ep1 : BitVec w → BitVec w
  /-- The function `sig0`. -/
  sig0 : BitVec w → BitVec w
  /-- The function `sig1`. -/
  sig1 : BitVec w → BitVec w
  /-- Word `i` of a block, as the first loop of `transform` assembles it. -/
  loadWord : Bytes → ℕ → BitVec w
  /-- The state that `reset` installs. -/
  initial : Words w
  /-- Buffer position at which the length field starts. -/
  lengthAt : ℕ
  /-- Zero bytes written before the 64-bit length. -/
  highZeros : ℕ
  /-- State words that `finalize` returns. -/
  outputWords : ℕ
  /-- Bytes of one returned word, as the last loop of `finalize` writes them. -/
  storeWord : BitVec w → Bytes

/-- The private members of a hash object. -/
structure Context (w : ℕ) where
  /-- Intermediate hash value. -/
  state : Words w
  /-- Block under construction. -/
  buffer : Bytes
  /-- Bits of the transformed blocks, modulo `2^64`. -/
  bitcount : UInt64
  /-- Bytes in use at the front of the buffer. -/
  buflen : ℕ

/-- `rotr`. -/
def rotr {w : ℕ} (x : BitVec w) (n : ℕ) : BitVec w := (x >>> n) ||| (x <<< (w-n))

/-- `ch`. -/
def ch {w : ℕ} (x y z : BitVec w) : BitVec w := (x &&& y) ^^^ (~~~x &&& z)

/-- `maj`. -/
def maj {w : ℕ} (x y z : BitVec w) : BitVec w := (x &&& y) ^^^ (x &&& z) ^^^ (y &&& z)

/-- Byte of a block as an unsigned word. -/
def blockByte (w : ℕ) (block : Bytes) (i : ℕ) : BitVec w := BitVec.ofNat w (byteAt block i)

section Transform

variable {w : ℕ} (sha : ShaClass w)

/-- Entry of the schedule array. -/
def entry (words : List (BitVec w)) (i : ℕ) : BitVec w := words[i]?.getD 0

/-- One iteration of the second loop of `transform`. -/
def ShaClass.extend (words : List (BitVec w)) (i : ℕ) : List (BitVec w) :=
  words++[sha.sig1 (entry words (i-2))+entry words (i-7)+sha.sig0 (entry words (i-15))+
    entry words (i-16)]

/-- The array `w` after both loops. -/
def ShaClass.expand (block : Bytes) : List (BitVec w) :=
  (List.range' 16 (sha.K.length-16)).foldl sha.extend ((List.range 16).map (sha.loadWord block))

/-- One iteration of the round loop. -/
def ShaClass.roundStep (words : List (BitVec w)) (x : Words w) (i : ℕ) : Words w :=
  let t1 := x.h+sha.ep1 x.e+ch x.e x.f x.g+entry sha.K i+entry words i
  let t2 := sha.ep0 x.a+maj x.a x.b x.c
  ⟨t1+t2,x.a,x.b,x.c,x.d+t1,x.e,x.f,x.g⟩

/-- `transform`: the state after one block. -/
def ShaClass.transform (state : Words w) (block : Bytes) : Words w :=
  Words.add state ((List.range sha.K.length).foldl (sha.roundStep (sha.expand block)) state)

/-- `reset`. -/
def ShaClass.reset : Context w := ⟨sha.initial,List.replicate sha.bufferSize 0,0,0⟩

/-- `buffer_[buflen_++] = byte`. -/
def Context.push (ctx : Context w) (byte : UInt8) : Context w :=
  { ctx with buffer := ctx.buffer.set ctx.buflen byte,buflen := ctx.buflen+1 }

/-- Several consecutive writes to the buffer. -/
def Context.pushAll (ctx : Context w) (bytes : Bytes) : Context w := bytes.foldl Context.push ctx

/-- `while (buflen_ < limit) buffer_[buflen_++] = 0`. -/
def Context.fill (ctx : Context w) (limit : ℕ) : Context w :=
  ctx.pushAll (List.replicate (limit-ctx.buflen) 0)

/-- `transform(buffer_)`. -/
def ShaClass.transformBuffer (ctx : Context w) : Context w :=
  { ctx with state := sha.transform ctx.state ctx.buffer }

/-- One iteration of the loop of `update`. -/
def ShaClass.updateByte (ctx : Context w) (byte : UInt8) : Context w :=
  let ctx := ctx.push byte
  if ctx.buflen=sha.bufferSize then
    { sha.transformBuffer ctx with bitcount := ctx.bitcount+sha.blockBits,buflen := 0 }
  else ctx

/-- `update`. -/
def ShaClass.update (ctx : Context w) (data : Bytes) : Context w := data.foldl sha.updateByte ctx

/-- The eight bytes `uint8_t(bits >> (i * 8))` for `i` from seven down to zero. -/
def lengthField (bits : UInt64) : Bytes :=
  (List.range 8).reverse.map fun i => (bits >>> UInt64.ofNat (i*8)).toUInt8

/-- The padding branch of `finalize` that spills into a further block. -/
def ShaClass.spill (ctx : Context w) : Context w :=
  if sha.lengthAt < ctx.buflen then
    { sha.transformBuffer (ctx.fill sha.bufferSize) with buflen := 0 }
  else ctx

/-- `finalize`. -/
def ShaClass.finalize (ctx : Context w) : Bytes :=
  let bits := ctx.bitcount+UInt64.ofNat ctx.buflen*8
  let ctx := sha.spill (ctx.push 0x80)
  let ctx := (ctx.fill sha.lengthAt).pushAll (List.replicate sha.highZeros 0)
  let ctx := sha.transformBuffer (ctx.pushAll (lengthField bits))
  (ctx.state.toList.take sha.outputWords).flatMap sha.storeWord

/-- The hash object as the parsers use it. -/
def ShaClass.context : HashContext (Context w) Bytes where
  initial := sha.reset
  update := sha.update
  finalize := sha.finalize

end Transform

/-- `SHA256`. -/
def SHA256 : ShaClass 32 where
  bufferSize := 64
  blockBits := 512
  K :=
    [0x428a2f98,0x71374491,0xb5c0fbcf,0xe9b5dba5,0x3956c25b,0x59f111f1,0x923f82a4,0xab1c5ed5,
     0xd807aa98,0x12835b01,0x243185be,0x550c7dc3,0x72be5d74,0x80deb1fe,0x9bdc06a7,0xc19bf174,
     0xe49b69c1,0xefbe4786,0x0fc19dc6,0x240ca1cc,0x2de92c6f,0x4a7484aa,0x5cb0a9dc,0x76f988da,
     0x983e5152,0xa831c66d,0xb00327c8,0xbf597fc7,0xc6e00bf3,0xd5a79147,0x06ca6351,0x14292967,
     0x27b70a85,0x2e1b2138,0x4d2c6dfc,0x53380d13,0x650a7354,0x766a0abb,0x81c2c92e,0x92722c85,
     0xa2bfe8a1,0xa81a664b,0xc24b8b70,0xc76c51a3,0xd192e819,0xd6990624,0xf40e3585,0x106aa070,
     0x19a4c116,0x1e376c08,0x2748774c,0x34b0bcb5,0x391c0cb3,0x4ed8aa4a,0x5b9cca4f,0x682e6ff3,
     0x748f82ee,0x78a5636f,0x84c87814,0x8cc70208,0x90befffa,0xa4506ceb,0xbef9a3f7,0xc67178f2]
  ep0 x := rotr x 2 ^^^ rotr x 13 ^^^ rotr x 22
  ep1 x := rotr x 6 ^^^ rotr x 11 ^^^ rotr x 25
  sig0 x := rotr x 7 ^^^ rotr x 18 ^^^ (x >>> 3)
  sig1 x := rotr x 17 ^^^ rotr x 19 ^^^ (x >>> 10)
  loadWord block i := (blockByte 32 block (i*4) <<< 24) ||| (blockByte 32 block (i*4+1) <<< 16) |||
    (blockByte 32 block (i*4+2) <<< 8) ||| blockByte 32 block (i*4+3)
  initial := ⟨0x6a09e667,0xbb67ae85,0x3c6ef372,0xa54ff53a,
    0x510e527f,0x9b05688c,0x1f83d9ab,0x5be0cd19⟩
  lengthAt := 56
  highZeros := 0
  outputWords := 8
  storeWord x := [UInt8.ofNat (x >>> 24).toNat,UInt8.ofNat (x >>> 16).toNat,
    UInt8.ofNat (x >>> 8).toNat,UInt8.ofNat x.toNat]

/-- `SHA384`. -/
def SHA384 : ShaClass 64 where
  bufferSize := 128
  blockBits := 1024
  K :=
    [0x428a2f98d728ae22,0x7137449123ef65cd,0xb5c0fbcfec4d3b2f,0xe9b5dba58189dbbc,
     0x3956c25bf348b538,0x59f111f1b605d019,0x923f82a4af194f9b,0xab1c5ed5da6d8118,
     0xd807aa98a3030242,0x12835b0145706fbe,0x243185be4ee4b28c,0x550c7dc3d5ffb4e2,
     0x72be5d74f27b896f,0x80deb1fe3b1696b1,0x9bdc06a725c71235,0xc19bf174cf692694,
     0xe49b69c19ef14ad2,0xefbe4786384f25e3,0x0fc19dc68b8cd5b5,0x240ca1cc77ac9c65,
     0x2de92c6f592b0275,0x4a7484aa6ea6e483,0x5cb0a9dcbd41fbd4,0x76f988da831153b5,
     0x983e5152ee66dfab,0xa831c66d2db43210,0xb00327c898fb213f,0xbf597fc7beef0ee4,
     0xc6e00bf33da88fc2,0xd5a79147930aa725,0x06ca6351e003826f,0x142929670a0e6e70,
     0x27b70a8546d22ffc,0x2e1b21385c26c926,0x4d2c6dfc5ac42aed,0x53380d139d95b3df,
     0x650a73548baf63de,0x766a0abb3c77b2a8,0x81c2c92e47edaee6,0x92722c851482353b,
     0xa2bfe8a14cf10364,0xa81a664bbc423001,0xc24b8b70d0f89791,0xc76c51a30654be30,
     0xd192e819d6ef5218,0xd69906245565a910,0xf40e35855771202a,0x106aa07032bbd1b8,
     0x19a4c116b8d2d0c8,0x1e376c085141ab53,0x2748774cdf8eeb99,0x34b0bcb5e19b48a8,
     0x391c0cb3c5c95a63,0x4ed8aa4ae3418acb,0x5b9cca4f7763e373,0x682e6ff3d6b2b8a3,
     0x748f82ee5defb2fc,0x78a5636f43172f60,0x84c87814a1f0ab72,0x8cc702081a6439ec,
     0x90befffa23631e28,0xa4506cebde82bde9,0xbef9a3f7b2c67915,0xc67178f2e372532b,
     0xca273eceea26619c,0xd186b8c721c0c207,0xeada7dd6cde0eb1e,0xf57d4f7fee6ed178,
     0x06f067aa72176fba,0x0a637dc5a2c898a6,0x113f9804bef90dae,0x1b710b35131c471b,
     0x28db77f523047d84,0x32caab7b40c72493,0x3c9ebe0a15c9bebc,0x431d67c49c100d4c,
     0x4cc5d4becb3e42b6,0x597f299cfc657e2a,0x5fcb6fab3ad6faec,0x6c44198c4a475817]
  ep0 x := rotr x 28 ^^^ rotr x 34 ^^^ rotr x 39
  ep1 x := rotr x 14 ^^^ rotr x 18 ^^^ rotr x 41
  sig0 x := rotr x 1 ^^^ rotr x 8 ^^^ (x >>> 7)
  sig1 x := rotr x 19 ^^^ rotr x 61 ^^^ (x >>> 6)
  loadWord block i := (List.range 8).foldl
    (fun word b => (word <<< 8) ||| blockByte 64 block (i*8+b)) 0
  initial := ⟨0xcbbb9d5dc1059ed8,0x629a292a367cd507,0x9159015a3070dd17,0x152fecd8f70e5939,
    0x67332667ffc00b31,0x8eb44a8768581511,0xdb0c2e0d64f98fa7,0x47b5481dbefa4fa4⟩
  lengthAt := 112
  highZeros := 8
  outputWords := 6
  storeWord x := (List.range 8).map fun b => UInt8.ofNat (x >>> ((7-b)*8)).toNat

end Gcad.ShaStream
