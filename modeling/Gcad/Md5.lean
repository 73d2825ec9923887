import Gcad.CheckedLogic
import Gcad.Common

/-!
# The MD5 context

`Md5Context` of pe_static_analysis_engine.cpp. The copies into the buffer,
the reads of the input and the subtractions of the buffer arithmetic are
checked operations. The macros of the four rounds rotate the names of the
state words; here the words rotate.
-/

namespace Gcad.Md5

open Common ByteView CheckedLogic CheckedLoop

/-- The four state words. -/
structure Words where
  /-- The word that a step overwrites. -/
  a : UInt32
  /-- The word that is added last. -/
  b : UInt32
  /-- Third word. -/
  c : UInt32
  /-- Fourth word. -/
  d : UInt32
  deriving DecidableEq

/-- `Md5Context`. -/
structure Md5Context where
  /-- The four chaining words. -/
  state : Words
  /-- `count_`, a 64-bit number of bits. -/
  count : ℕ
  /-- The block that is being filled. -/
  buffer : Bytes

/-- `reset`. -/
def reset : Md5Context :=
  ⟨⟨0x67452301,0xefcdab89,0x98badcfe,0x10325476⟩,0,List.replicate 64 0⟩

/-- The function `F` of round 1. -/
def roundF (x y z : UInt32) : UInt32 := (x &&& y) ||| (~~~x &&& z)

/-- The function `G` of round 2. -/
def roundG (x y z : UInt32) : UInt32 := (x &&& z) ||| (y &&& ~~~z)

/-- The function `H` of round 3. -/
def roundH (x y z : UInt32) : UInt32 := x ^^^ y ^^^ z

/-- The function `I` of round 4. -/
def roundI (x y z : UInt32) : UInt32 := y ^^^ (x ||| ~~~z)

/-- `rotl`. -/
def rotl (x n : UInt32) : UInt32 := (x <<< n) ||| (x >>> (32-n))

/-- One macro call: the index of the word, the shift and the constant. -/
structure Operation where
  /-- Index into the sixteen words of the block. -/
  k : ℕ
  /-- Rotation. -/
  s : UInt32
  /-- Additive constant. -/
  t : UInt32

/-- The calls of `FF`. -/
def round1 : List Operation :=
  [⟨0,7,0xd76aa478⟩,⟨1,12,0xe8c7b756⟩,⟨2,17,0x242070db⟩,⟨3,22,0xc1bdceee⟩,
    ⟨4,7,0xf57c0faf⟩,⟨5,12,0x4787c62a⟩,⟨6,17,0xa8304613⟩,⟨7,22,0xfd469501⟩,
    ⟨8,7,0x698098d8⟩,⟨9,12,0x8b44f7af⟩,⟨10,17,0xffff5bb1⟩,⟨11,22,0x895cd7be⟩,
    ⟨12,7,0x6b901122⟩,⟨13,12,0xfd987193⟩,⟨14,17,0xa679438e⟩,⟨15,22,0x49b40821⟩]

/-- The calls of `GG`. -/
def round2 : List Operation :=
  [⟨1,5,0xf61e2562⟩,⟨6,9,0xc040b340⟩,⟨11,14,0x265e5a51⟩,⟨0,20,0xe9b6c7aa⟩,
    ⟨5,5,0xd62f105d⟩,⟨10,9,0x02441453⟩,⟨15,14,0xd8a1e681⟩,⟨4,20,0xe7d3fbc8⟩,
    ⟨9,5,0x21e1cde6⟩,⟨14,9,0xc33707d6⟩,⟨3,14,0xf4d50d87⟩,⟨8,20,0x455a14ed⟩,
    ⟨13,5,0xa9e3e905⟩,⟨2,9,0xfcefa3f8⟩,⟨7,14,0x676f02d9⟩,⟨12,20,0x8d2a4c8a⟩]

/-- The calls of `HH`. -/
def round3 : List Operation :=
  [⟨5,4,0xfffa3942⟩,⟨8,11,0x8771f681⟩,⟨11,16,0x6d9d6122⟩,⟨14,23,0xfde5380c⟩,
    ⟨1,4,0xa4beea44⟩,⟨4,11,0x4bdecfa9⟩,⟨7,16,0xf6bb4b60⟩,⟨10,23,0xbebfbc70⟩,
    ⟨13,4,0x289b7ec6⟩,⟨0,11,0xeaa127fa⟩,⟨3,16,0xd4ef3085⟩,⟨6,23,0x04881d05⟩,
    ⟨9,4,0xd9d4d039⟩,⟨12,11,0xe6db99e5⟩,⟨15,16,0x1fa27cf8⟩,⟨2,23,0xc4ac5665⟩]

/-- The calls of `II`. -/
def round4 : List Operation :=
  [⟨0,6,0xf4292244⟩,⟨7,10,0x432aff97⟩,⟨14,15,0xab9423a7⟩,⟨5,21,0xfc93a039⟩,
    ⟨12,6,0x655b59c3⟩,⟨3,10,0x8f0ccc92⟩,⟨10,15,0xffeff47d⟩,⟨1,21,0x85845dd1⟩,
    ⟨8,6,0x6fa87e4f⟩,⟨15,10,0xfe2ce6e0⟩,⟨6,15,0xa3014314⟩,⟨13,21,0x4e0811a1⟩,
    ⟨4,6,0xf7537e82⟩,⟨11,10,0xbd3af235⟩,⟨2,15,0x2ad7d2bb⟩,⟨9,21,0xeb86d391⟩]

/-- One round: every call overwrites the first word and the words rotate. -/
def round (f : UInt32 → UInt32 → UInt32 → UInt32) (x : List UInt32) :
    List Operation → Words → Checked Words
  | [],w => .ok w
  | op::rest,w => do
    let word ← load x op.k
    round f x rest ⟨w.d,w.b+rotl (w.a+f w.b w.c w.d+word+op.t) op.s,w.b,w.c⟩

/-- The sixteen words of a block. -/
def blockWords (block : Bytes) : Checked (List UInt32) :=
  forUp (fun i x => do
    let word ← readU32 block (i*4)
    return x++[UInt32.ofNat word]) 0 16 []

/-- `transform` of a block. -/
def transform (state : Words) (block : Bytes) : Checked Words := do
  let x ← blockWords block
  let w1 ← round roundF x round1 state
  let w2 ← round roundG x round2 w1
  let w3 ← round roundH x round3 w2
  let w4 ← round roundI x round4 w3
  return ⟨state.a+w4.a,state.b+w4.b,state.c+w4.c,state.d+w4.d⟩

/-- The loop of `update` over whole blocks of the input, from an index on. -/
def transformBlocks (input : Bytes) (length i : ℕ) (state : Words) : Checked (ℕ×Words) :=
  if i+63 < length then do
    let block ← readSlice input i 64
    let next ← transform state block
    transformBlocks input length (i+64) next
  else return (i,state)
termination_by length-i

/-- `update` with the first `length` bytes of an array. -/
def update (ctx : Md5Context) (input : Bytes) (length : ℕ) : Checked Md5Context := do
  let index := ctx.count >>> 3 &&& 0x3F
  let count := (ctx.count+length <<< 3)%2^64
  let partLen ← subtract 64 index
  if partLen ≤ length then do
    let head ← readSlice input 0 partLen
    let buffer ← writeSlice ctx.buffer index head
    let first ← transform ctx.state buffer
    let (i,state) ← transformBlocks input length partLen first
    if i < length then do
      let remaining ← subtract length i
      let tail ← readSlice input i remaining
      let buffer ← writeSlice buffer 0 tail
      return ⟨state,count,buffer⟩
    else return ⟨state,count,buffer⟩
  else if 0 < length then do
    let tail ← readSlice input 0 length
    let buffer ← writeSlice ctx.buffer index tail
    return ⟨ctx.state,count,buffer⟩
  else return ⟨ctx.state,count,ctx.buffer⟩

/-- The array `padding` of `finalize`. -/
def padding : Bytes := 0x80::List.replicate 63 0

/-- The four bytes of a state word. -/
def wordBytes (w : UInt32) : Bytes := leBytes 4 w.toNat

/-- The choice of `pad_len`. -/
def padLength (index : ℕ) : Checked ℕ :=
  if index < 56 then subtract 56 index else subtract 120 index

/-- `finalize`. -/
def finalize (ctx : Md5Context) : Checked Bytes := do
  let bits := leBytes 8 ctx.count
  let index := ctx.count >>> 3 &&& 0x3F
  let padLen ← padLength index
  let padded ← update ctx padding padLen
  let last ← update padded bits 8
  return wordBytes last.state.a++wordBytes last.state.b++wordBytes last.state.c++
    wordBytes last.state.d

/-- The table `hex_chars`. -/
def hexChars : Str := "0123456789abcdef".toList

/-- `to_hex`. -/
def toHex : Bytes → Checked Str
  | [] => .ok []
  | b::rest => do
    let high ← load hexChars (b.toNat >>> 4 &&& 0x0F)
    let low ← load hexChars (b.toNat &&& 0x0F)
    let hex ← toHex rest
    return high::low::hex

/-- `calculate_md5`. -/
def calculateMd5 (data : Bytes) : Checked Str :=
  if 0 < data.length then do
    let ctx ← update reset data data.length
    let digest ← finalize ctx
    toHex digest
  else do
    let digest ← finalize reset
    toHex digest

/-- The words of every round are among the sixteen of the block. -/
theorem rounds_inside : ∀ op ∈ round1++round2++round3++round4,op.k < 16 := by decide

/-- A round reads words of the block only. -/
theorem round_returns (f : UInt32 → UInt32 → UInt32 → UInt32) {x : List UInt32}
    {ops : List Operation} (h : ∀ op ∈ ops,op.k < x.length) (w : Words) :
    Returns (round f x ops w) fun _ => True := by
  induction ops generalizing w with
  | nil => exact returns_pure trivial
  | cons op rest ih =>
    refine (load_returns (h op List.mem_cons_self)).bind fun word _ => ?_
    exact ih (fun op' member => h op' (List.mem_cons_of_mem _ member)) _

/-- A block has sixteen words. -/
theorem blockWords_returns {block : Bytes} (h : block.length=64) :
    Returns (blockWords block) fun x => x.length=16 := by
  have hloop := @forUp_returns _ (fun i (x : List UInt32) => do
    let word ← readU32 block (i*4)
    return x++[UInt32.ofNat word]) (fun i x => x.length=i) 0 16 [] rfl
  refine hloop ?_
  intro i x _ hi hx
  refine (readU32_returns (by omega)).bind fun word _ => returns_pure ?_
  rw [List.length_append,hx]
  rfl

/-- `transform` reads a full block. -/
theorem transform_returns {block : Bytes} (h : block.length=64) (state : Words) :
    Returns (transform state block) fun _ => True := by
  refine (blockWords_returns h).bind fun x hx => ?_
  have hinside : ∀ op ∈ round1++round2++round3++round4,op.k < x.length := hx ▸ rounds_inside
  simp only [List.forall_mem_append] at hinside
  obtain ⟨⟨⟨h1,h2⟩,h3⟩,h4⟩ := hinside
  refine (round_returns roundF h1 state).bind fun w1 _ => ?_
  refine (round_returns roundG h2 w1).bind fun w2 _ => ?_
  refine (round_returns roundH h3 w2).bind fun w3 _ => ?_
  refine (round_returns roundI h4 w3).bind fun w4 _ => ?_
  exact returns_pure trivial

/-- The block loop stops less than a block before the end. -/
theorem transformBlocks_returns {input : Bytes} {length : ℕ} (h : length ≤ input.length) {i : ℕ}
    (hi : i ≤ length) (state : Words) : Returns (transformBlocks input length i state)
      fun result => result.1 ≤ length ∧ length < result.1+64 := by
  induction hn : length-i using Nat.strong_induction_on generalizing i state with
  | _ n ih =>
    rw [transformBlocks]
    refine returns_ite (fun hmore => ?_) (fun hdone => ?_)
    · refine (readSlice_returns (by omega)).bind fun block hblock => ?_
      refine (transform_returns hblock state).bind fun next _ => ?_
      exact ih (length-(i+64)) (by omega) (by omega) next rfl
    · exact returns_pure ⟨hi,by omega⟩

/-- `update` stays inside its input and its buffer. -/
theorem update_returns {ctx : Md5Context} (hbuffer : ctx.buffer.length=64) {input : Bytes}
    {length : ℕ} (h : length ≤ input.length) :
    Returns (update ctx input length) fun next => next.buffer.length=64 := by
  have hindex : ctx.count >>> 3 &&& 0x3F ≤ 0x3F := Nat.and_le_right
  rw [update]
  refine (subtract_returns (by omega)).bind fun partLen hpart => ?_
  refine returns_ite (fun hfull => ?_) (fun hshort => ?_)
  · refine (readSlice_returns (by omega)).bind fun head hhead => ?_
    refine (writeSlice_returns (by omega)).bind fun buffer hwritten => ?_
    refine (transform_returns (hwritten.trans hbuffer) ctx.state).bind fun first _ => ?_
    refine (transformBlocks_returns h hfull first).bind fun result hresult => ?_
    refine returns_ite (fun hrest => ?_) (fun _ => returns_pure (hwritten.trans hbuffer))
    refine (subtract_returns hrest.le).bind fun remaining hremaining => ?_
    refine (readSlice_returns (by omega)).bind fun tail htail => ?_
    refine (writeSlice_returns (by omega)).bind fun last hlast => ?_
    exact returns_pure (hlast.trans (hwritten.trans hbuffer))
  · refine returns_ite (fun _ => ?_) (fun _ => returns_pure hbuffer)
    refine (readSlice_returns (by omega)).bind fun tail htail => ?_
    refine (writeSlice_returns (by omega)).bind fun last hlast => ?_
    exact returns_pure (hlast.trans hbuffer)

/-- The padding is at most a block. -/
theorem padLength_returns {index : ℕ} (h : index ≤ 0x3F) :
    Returns (padLength index) fun padLen => padLen ≤ 64 := by
  refine returns_ite (fun hlow => ?_) (fun hhigh => ?_)
  · exact (subtract_returns (by omega)).mono fun padLen hlen => by omega
  · exact (subtract_returns (by omega)).mono fun padLen hlen => by omega

/-- `finalize` pads inside its arrays. -/
theorem finalize_returns {ctx : Md5Context} (hbuffer : ctx.buffer.length=64) :
    Returns (finalize ctx) fun _ => True := by
  have hindex : ctx.count >>> 3 &&& 0x3F ≤ 0x3F := Nat.and_le_right
  refine (padLength_returns hindex).bind fun padLen hlen => ?_
  refine (update_returns hbuffer hlen).bind fun padded hpadded => ?_
  refine (update_returns hpadded (leBytes_length 8 ctx.count).ge).bind fun last _ => ?_
  exact returns_pure trivial

/-- `to_hex` reads inside its table. -/
theorem toHex_returns (digest : Bytes) : Returns (toHex digest) fun _ => True := by
  induction digest with
  | nil => exact returns_pure trivial
  | cons b rest ih =>
    have hhigh : b.toNat >>> 4 &&& 0x0F < hexChars.length := Nat.lt_succ_of_le Nat.and_le_right
    have hlow : b.toNat &&& 0x0F < hexChars.length := Nat.lt_succ_of_le Nat.and_le_right
    refine (load_returns hhigh).bind fun high _ => ?_
    refine (load_returns hlow).bind fun low _ => ?_
    exact ih.bind fun hex _ => returns_pure trivial

/-- `calculate_md5` returns for every input. -/
theorem calculateMd5_returns (data : Bytes) : Returns (calculateMd5 data) fun _ => True := by
  have hreset : reset.buffer.length=64 := List.length_replicate
  refine returns_ite (fun _ => ?_) (fun _ => ?_)
  · refine (update_returns hreset le_rfl).bind fun ctx hbuffer => ?_
    refine (finalize_returns hbuffer).bind fun digest _ => ?_
    exact toHex_returns digest
  · refine (finalize_returns hreset).bind fun digest _ => ?_
    exact toHex_returns digest

end Gcad.Md5
