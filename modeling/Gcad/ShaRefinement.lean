import Gcad.QuarantineVault
import Gcad.ShaStream

/-!
# The streaming classes compute the standard's digests

A class implements a standard when its constants, mixing functions, word
loads and stores and field positions are the standard's. Then every
`transform` is the standard's compression, a context that has been fed a
message holds the hash value of its complete blocks and the unprocessed
rest, and the in-place padding of `finalize` completes exactly the blocks
of the padded message. Both classes implement their standard.
-/

namespace Gcad.ShaRefinement

open ByteView Sha2 ShaStream

/-- Agreement of a class with a standard, part by part. -/
structure Implements {w : ℕ} (sha : ShaClass w) (S : Standard w) : Prop where
  /-- The buffer holds one block. -/
  buffer : sha.bufferSize=S.blockBytes
  /-- The counter advances by the bits of a block. -/
  bits : sha.blockBits.toNat=8*S.blockBytes
  /-- There is one table entry for every round. -/
  rounds : sha.K.length=S.rounds
  /-- The rounds cover the words of a block. -/
  sixteen : 16 ≤ S.rounds
  /-- The table holds the round constants. -/
  constants : ∀ t < S.rounds,entry sha.K t=S.constant t
  /-- First round function. -/
  ep0 : sha.ep0=S.bigSigma0
  /-- Second round function. -/
  ep1 : sha.ep1=S.bigSigma1
  /-- First schedule function. -/
  sig0 : sha.sig0=S.smallSigma0
  /-- Second schedule function. -/
  sig1 : sha.sig1=S.smallSigma1
  /-- Words are loaded big-endian. -/
  load : ∀ block : Bytes,block.length=S.blockBytes → ∀ t < 16,
    sha.loadWord block t=S.blockWord block t
  /-- The initial hash value. -/
  initial : sha.initial=S.initial
  /-- The length field ends the block. -/
  field : sha.lengthAt+S.lengthBytes=S.blockBytes
  /-- The length field is the zero bytes and a 64-bit number. -/
  high : sha.highZeros+8=S.lengthBytes
  /-- The number of digest words. -/
  output : sha.outputWords=S.digestWords
  /-- Words are stored big-endian. -/
  store : sha.storeWord=fun x => beBytes S.wordBytes x.toNat

section Transform

variable {w : ℕ} {sha : ShaClass w} {S : Standard w}

/-- Entries of an array that has grown by one word. -/
theorem entry_append (words : List (BitVec w)) (word : BitVec w) (i : ℕ) :
    entry (words++[word]) i=if i=words.length then word else entry words i := by
  unfold entry
  by_cases hi : i=words.length
  · rw [if_pos hi,hi,List.getElem?_concat_length,Option.getD_some]
  · rw [if_neg hi]
    by_cases hlt : i < words.length
    · rw [List.getElem?_append_left hlt]
    · rw [List.getElem?_eq_none (by rw [List.length_append,List.length_singleton]; omega),
        List.getElem?_eq_none (by omega)]

/-- The schedule loop computes the schedule up to the index it has reached. -/
theorem expand_words (himpl : Implements sha S) {block : Bytes}
    (hblock : block.length=S.blockBytes) (n : ℕ) :
    ((List.range' 16 n).foldl sha.extend ((List.range 16).map (sha.loadWord block))).length=16+n ∧
    ∀ t < 16+n,
      entry ((List.range' 16 n).foldl sha.extend ((List.range 16).map (sha.loadWord block))) t=
        S.schedule block t := by
  induction n with
  | zero =>
    refine ⟨by rw [List.range'_zero,List.foldl_nil,List.length_map,List.length_range],?_⟩
    intro t ht
    have hlt : t < 16 := by omega
    have hget : ((List.range 16).map (sha.loadWord block))[t]?=some (sha.loadWord block t) := by
      rw [List.getElem?_map,List.getElem?_range hlt,Option.map_some]
    rw [List.range'_zero,List.foldl_nil,entry,hget,Option.getD_some,himpl.load block hblock t hlt,
      Standard.schedule,if_pos hlt]
  | succ n ih =>
    obtain ⟨hlen,hentries⟩ := ih
    rw [List.range'_concat,List.foldl_append,Nat.one_mul,List.foldl_cons,List.foldl_nil]
    refine ⟨by rw [ShaClass.extend,List.length_append,hlen,List.length_singleton]; omega,?_⟩
    intro t ht
    rw [ShaClass.extend,entry_append,hlen]
    by_cases heq : t=16+n
    · rw [if_pos heq,hentries _ (by omega),hentries _ (by omega),hentries _ (by omega),
        hentries _ (by omega),himpl.sig0,himpl.sig1,heq]
      conv_rhs => rw [Standard.schedule,if_neg (by omega)]
    · rw [if_neg heq]
      exact hentries t (by omega)

/-- The array `w` holds the schedule of the block. -/
theorem expand_entry (himpl : Implements sha S) {block : Bytes}
    (hblock : block.length=S.blockBytes) {t : ℕ} (ht : t < S.rounds) :
    entry (sha.expand block) t=S.schedule block t := by
  have hsixteen := himpl.sixteen
  rw [ShaClass.expand,himpl.rounds]
  exact (expand_words himpl hblock (S.rounds-16)).2 t (by omega)

/-- `transform` is the standard's compression of one block. -/
theorem transform_eq (himpl : Implements sha S) (state : Words w) {block : Bytes}
    (hblock : block.length=S.blockBytes) : sha.transform state block=S.compress state block := by
  rw [ShaClass.transform,Standard.compress,himpl.rounds]
  congr 1
  apply List.foldl_ext
  intro x t ht
  have hlt := List.mem_range.1 ht
  simp only [ShaClass.roundStep,Standard.round,himpl.ep0,himpl.ep1,himpl.constants t hlt,
    expand_entry himpl hblock hlt,ch,maj,choice,majority]

end Transform

section Buffer

variable {w : ℕ} {ctx : Context w} {n : ℕ} {bytes : Bytes}

/-- The bytes at the front of a buffer of `n` bytes. -/
structure Filled (ctx : Context w) (n : ℕ) (bytes : Bytes) : Prop where
  /-- Size of the buffer. -/
  size : ctx.buffer.length=n
  /-- Number of bytes in use. -/
  used : ctx.buflen=bytes.length
  /-- Content of the used part. -/
  content : ctx.buffer.take bytes.length=bytes

/-- One write within the buffer. -/
theorem push_filled (h : Filled ctx n bytes) (hlt : bytes.length < n) (byte : UInt8) :
    Filled (ctx.push byte) n (bytes++[byte]) := by
  refine ⟨by rw [Context.push,List.length_set,h.size],?_,?_⟩
  · rw [Context.push,List.length_append,List.length_singleton,h.used]
  · rw [Context.push,List.length_append,List.length_singleton,h.used,
      List.take_succ_eq_append_getElem (by rw [List.length_set,h.size]; exact hlt),
      List.getElem_set_self,List.take_set_of_le (le_refl _),h.content]

/-- Several writes within the buffer. -/
theorem pushAll_filled (h : Filled ctx n bytes) (more : Bytes)
    (hle : bytes.length+more.length ≤ n) : Filled (ctx.pushAll more) n (bytes++more) := by
  induction more generalizing ctx bytes with
  | nil =>
    rw [List.append_nil]
    exact h
  | cons byte more ih =>
    rw [List.length_cons] at hle
    have hnext := ih (push_filled h (by omega) byte)
      (by rw [List.length_append,List.length_singleton]; omega)
    rwa [List.append_assoc] at hnext

/-- Writes leave the hash value alone. -/
theorem pushAll_state (ctx : Context w) (more : Bytes) : (ctx.pushAll more).state=ctx.state := by
  induction more generalizing ctx with
  | nil => rfl
  | cons byte more ih => exact ih (ctx.push byte)

/-- A full buffer is its content. -/
theorem filled_full (h : Filled ctx n bytes) (hn : bytes.length=n) : ctx.buffer=bytes := by
  rw [←h.content,hn,←h.size,List.take_length]

end Buffer

section Stream

variable {w : ℕ} {sha : ShaClass w} {S : Standard w} {ctx : Context w} {full rest : Bytes}

/-- A context fed with `full++rest`: complete blocks are compressed and the
rest waits in the buffer. -/
structure Absorbed (S : Standard w) (ctx : Context w) (full rest : Bytes) : Prop where
  /-- The compressed part consists of complete blocks. -/
  whole : ∃ k,full.length=k*S.blockBytes
  /-- The rest is shorter than a block. -/
  short : rest.length < S.blockBytes
  /-- The rest is in the buffer. -/
  filled : Filled ctx S.blockBytes rest
  /-- The hash value of the complete blocks. -/
  state : ctx.state=S.absorb full
  /-- The counted bits, modulo `2^64`. -/
  counted : ctx.bitcount.toNat=8*full.length%2^64

/-- A fresh context has absorbed the empty message. -/
theorem reset_absorbed (himpl : Implements sha S) (hpos : 0 < S.blockBytes) :
    Absorbed S sha.reset [] [] := by
  refine ⟨⟨0,by rw [Nat.zero_mul,List.length_nil]⟩,hpos,⟨?_,rfl,rfl⟩,?_,rfl⟩
  · rw [ShaClass.reset,List.length_replicate,himpl.buffer]
  · rw [ShaClass.reset,himpl.initial,Standard.absorb,blocks,List.length_nil,Nat.zero_div,
      List.range_zero,List.map_nil,List.foldl_nil]

/-- Compressing a full buffer completes one more block. -/
theorem transform_filled (himpl : Implements sha S) {block : Bytes} {k : ℕ}
    (hfull : full.length=k*S.blockBytes) (hstate : ctx.state=S.absorb full)
    (hfilled : Filled ctx S.blockBytes block) (hblock : block.length=S.blockBytes)
    (hpos : 0 < S.blockBytes) : (sha.transformBuffer ctx).state=S.absorb (full++block) := by
  rw [ShaClass.transformBuffer,filled_full hfilled hblock,transform_eq himpl _ hblock,hstate,
    Standard.absorb_append hpos hfull hblock]

/-- One byte more: it joins the rest or completes a block. -/
theorem updateByte_absorbed (himpl : Implements sha S) (h : Absorbed S ctx full rest)
    (byte : UInt8) :
    ∃ full' rest',full'++rest'=full++rest++[byte] ∧
      Absorbed S (sha.updateByte ctx byte) full' rest' := by
  have hpush := push_filled h.filled h.short byte
  have hlen : (rest++[byte]).length=rest.length+1 := by
    rw [List.length_append,List.length_singleton]
  have hpos : 0 < S.blockBytes := by have hs := h.short; omega
  unfold ShaClass.updateByte
  by_cases hend : (ctx.push byte).buflen=sha.bufferSize
  · obtain ⟨k,hk⟩ := h.whole
    have hblock : (rest++[byte]).length=S.blockBytes := by
      rw [←hpush.used,hend,himpl.buffer]
    have hcount : (full++(rest++[byte])).length=full.length+S.blockBytes := by
      rw [List.length_append,hblock]
    rw [if_pos hend]
    refine ⟨full++(rest++[byte]),[],by rw [List.append_nil,List.append_assoc],?_⟩
    refine ⟨⟨k+1,by rw [hcount,hk,Nat.succ_mul]⟩,hpos,⟨hpush.size,rfl,rfl⟩,?_,?_⟩
    · exact transform_filled himpl hk h.state hpush hblock hpos
    · rw [UInt64.toNat_add,himpl.bits,hcount,Context.push,h.counted]
      omega
  · rw [if_neg hend]
    refine ⟨full,rest++[byte],by rw [List.append_assoc],h.whole,?_,hpush,h.state,h.counted⟩
    rw [hpush.used,himpl.buffer] at hend
    have hs := h.short
    omega

/-- `update` absorbs all the bytes it is given. -/
theorem update_absorbed (himpl : Implements sha S) (data : Bytes) (h : Absorbed S ctx full rest) :
    ∃ full' rest',full'++rest'=full++rest++data ∧ Absorbed S (sha.update ctx data) full' rest' := by
  induction data generalizing ctx full rest with
  | nil => exact ⟨full,rest,by rw [List.append_nil],h⟩
  | cons byte data ih =>
    obtain ⟨full₁,rest₁,heq₁,h₁⟩ := updateByte_absorbed himpl h byte
    obtain ⟨full₂,rest₂,heq₂,h₂⟩ := ih h₁
    refine ⟨full₂,rest₂,?_,h₂⟩
    rw [heq₂,heq₁,List.append_assoc,List.singleton_append]

/-- Any sequence of updates absorbs the concatenation of its arguments. -/
theorem updates_absorbed (himpl : Implements sha S) (chunks : List Bytes)
    (h : Absorbed S ctx full rest) :
    ∃ full' rest',full'++rest'=full++rest++chunks.flatten ∧
      Absorbed S (chunks.foldl sha.update ctx) full' rest' := by
  induction chunks generalizing ctx full rest with
  | nil => exact ⟨full,rest,by rw [List.flatten_nil,List.append_nil],h⟩
  | cons data chunks ih =>
    obtain ⟨full₁,rest₁,heq₁,h₁⟩ := update_absorbed himpl data h
    obtain ⟨full₂,rest₂,heq₂,h₂⟩ := ih h₁
    refine ⟨full₂,rest₂,?_,h₂⟩
    rw [heq₂,heq₁,List.append_assoc,List.flatten_cons]

/-- The eight shifted bytes are the big-endian rendering of the counter. -/
theorem lengthField_eq (bits : UInt64) : lengthField bits=beBytes 8 bits.toNat := by
  have hrange : List.range 8=[0,1,2,3,4,5,6,7] := rfl
  have hbyte : ∀ i < 8,(bits >>> UInt64.ofNat (i*8)).toUInt8=UInt8.ofNat (bits.toNat/256^i) := by
    intro i hi
    apply UInt8.toNat_inj.1
    rw [UInt64.toNat_toUInt8,UInt64.toNat_shiftRight,UInt8.toNat_ofNat',
      UInt64.toNat_ofNat_of_lt' (by rw [UInt64.size]; omega),Nat.mod_eq_of_lt (by omega : i*8 < 64),
      Nat.shiftRight_eq_div_pow,Nat.mul_comm i 8,Nat.pow_mul]
  simp only [lengthField,beBytes,hrange,List.reverse_cons,List.reverse_nil,List.nil_append,
    List.cons_append,List.map_cons,List.map_nil]
  rw [hbyte 7 (by omega),hbyte 6 (by omega),hbyte 5 (by omega),hbyte 4 (by omega),
    hbyte 3 (by omega),hbyte 2 (by omega),hbyte 1 (by omega),hbyte 0 (by omega)]

/-- The last block: zeros up to the length field, then the field. -/
theorem lastBlock_state (himpl : Implements sha S) {bytes : Bytes} {k : ℕ} (bits : UInt64)
    (hfull : full.length=k*S.blockBytes) (hstate : ctx.state=S.absorb full)
    (hfilled : Filled ctx S.blockBytes bytes) (hle : bytes.length ≤ sha.lengthAt)
    (hpos : 0 < S.blockBytes) :
    (sha.transformBuffer (((ctx.fill sha.lengthAt).pushAll
      (List.replicate sha.highZeros 0)).pushAll (lengthField bits))).state=
    S.absorb (full++(bytes++(List.replicate (sha.lengthAt-bytes.length) 0++
      beBytes S.lengthBytes bits.toNat))) := by
  have hfield := himpl.field
  have hhigh := himpl.high
  have hrender : beBytes S.lengthBytes bits.toNat=
      List.replicate sha.highZeros 0++lengthField bits := by
    have hlt : bits.toNat < 256^8 := bits.toNat_lt
    rw [←hhigh,beBytes_extra sha.highZeros hlt,lengthField_eq]
  have hlength : (lengthField bits).length=8 := by rw [lengthField_eq,beBytes_length]
  have hzeros := pushAll_filled hfilled (List.replicate (sha.lengthAt-bytes.length) 0)
    (by rw [List.length_replicate]; omega)
  have hextra := pushAll_filled hzeros (List.replicate sha.highZeros 0)
    (by simp only [List.length_append,List.length_replicate]; omega)
  have hall := pushAll_filled hextra (lengthField bits)
    (by simp only [List.length_append,List.length_replicate,hlength]; omega)
  have hsame : bytes++List.replicate (sha.lengthAt-bytes.length) 0++
      List.replicate sha.highZeros 0++lengthField bits=
      bytes++(List.replicate (sha.lengthAt-bytes.length) 0++beBytes S.lengthBytes bits.toNat) := by
    rw [hrender,List.append_assoc,List.append_assoc]
  rw [hsame] at hall
  rw [Context.fill,hfilled.used]
  apply transform_filled himpl hfull _ hall _ hpos
  · rw [pushAll_state,pushAll_state,pushAll_state,hstate]
  · simp only [List.length_append,List.length_replicate,beBytes_length]
    omega

/-- The counter that `finalize` writes is the length of the message in bits. -/
theorem finalBits_toNat (h : Absorbed S ctx full rest) (hlen : 8*(full++rest).length < 2^64) :
    (ctx.bitcount+UInt64.ofNat ctx.buflen*8).toNat=8*(full++rest).length := by
  rw [List.length_append] at hlen ⊢
  have height : UInt64.toNat 8=8 := rfl
  rw [UInt64.toNat_add,UInt64.toNat_mul,UInt64.toNat_ofNat',h.filled.used,h.counted,height]
  omega

/-- Padding that fits into the current block. -/
theorem finalize_fits (himpl : Implements sha S) (h : Absorbed S ctx full rest)
    (hpos : 0 < S.blockBytes) (hlen : 8*(full++rest).length < 2^64)
    (hfits : rest.length+1 ≤ sha.lengthAt) : sha.finalize ctx=S.hash (full++rest) := by
  obtain ⟨k,hk⟩ := h.whole
  have hfield := himpl.field
  have hpush := push_filled h.filled h.short 0x80
  have hmark : (rest++[(0x80 : UInt8)]).length=rest.length+1 := by
    rw [List.length_append,List.length_singleton]
  have hspill : sha.spill (ctx.push 0x80)=ctx.push 0x80 := by
    rw [ShaClass.spill,hpush.used,hmark,if_neg (by omega)]
  have hzeros : S.padZeros (full++rest).length=sha.lengthAt-(rest++[(0x80 : UInt8)]).length := by
    apply Standard.padZeros_eq
    · refine ⟨k+1,?_⟩
      rw [List.length_append,hmark,hk,Nat.mul_succ,Nat.mul_comm]
      omega
    · omega
  have hpad : S.pad (full++rest)=full++(rest++[0x80]++(List.replicate
      (sha.lengthAt-(rest++[(0x80 : UInt8)]).length) 0++
      beBytes S.lengthBytes (8*(full++rest).length))) := by
    rw [Standard.pad,hzeros]
    simp only [List.append_assoc,List.singleton_append]
  have hmarked : (ctx.push 0x80).state=S.absorb full := h.state
  have hlast := lastBlock_state himpl (ctx.bitcount+UInt64.ofNat ctx.buflen*8) hk hmarked hpush
    (by rw [hmark]; exact hfits) hpos
  rw [finalBits_toNat h hlen,←hpad] at hlast
  simp only [ShaClass.finalize,hspill]
  rw [hlast,Standard.hash,Standard.output,himpl.output,himpl.store]

/-- The block that the spilling branch completes. -/
def spillBlock (S : Standard w) (rest : Bytes) : Bytes :=
  rest++[0x80]++List.replicate (S.blockBytes-(rest.length+1)) 0

/-- The spilling branch completes a block of the right size. -/
theorem spillBlock_length (hshort : rest.length < S.blockBytes) :
    (spillBlock S rest).length=S.blockBytes := by
  rw [spillBlock,List.length_append,List.length_append,List.length_singleton,List.length_replicate]
  omega

/-- After the spilling branch that block is compressed and the buffer is empty. -/
theorem spill_state (himpl : Implements sha S) (h : Absorbed S ctx full rest)
    (hspills : sha.lengthAt < rest.length+1) :
    (sha.spill (ctx.push 0x80)).state=S.absorb (full++spillBlock S rest) ∧
    Filled (sha.spill (ctx.push 0x80)) S.blockBytes [] := by
  obtain ⟨k,hk⟩ := h.whole
  have hshort := h.short
  have hpush := push_filled h.filled h.short 0x80
  have hmark : (rest++[(0x80 : UInt8)]).length=rest.length+1 := by
    rw [List.length_append,List.length_singleton]
  have hfill := pushAll_filled hpush (List.replicate (S.blockBytes-(rest.length+1)) 0)
    (by rw [hmark,List.length_replicate]; omega)
  have hstate := transform_filled himpl hk (by rw [pushAll_state]; exact h.state) hfill
    (spillBlock_length hshort) (by omega)
  rw [ShaClass.spill,hpush.used,hmark,if_pos hspills,Context.fill,hpush.used,hmark,himpl.buffer]
  exact ⟨hstate,hfill.size,rfl,List.take_zero⟩

/-- Padding that spills into a further block. -/
theorem finalize_spills (himpl : Implements sha S) (h : Absorbed S ctx full rest)
    (hlen : 8*(full++rest).length < 2^64)
    (hspills : sha.lengthAt < rest.length+1) : sha.finalize ctx=S.hash (full++rest) := by
  obtain ⟨k,hk⟩ := h.whole
  obtain ⟨hstate,hfilled⟩ := spill_state himpl h hspills
  have hfield := himpl.field
  have hshort := h.short
  have hmore : (full++spillBlock S rest).length=(k+1)*S.blockBytes := by
    rw [List.length_append,spillBlock_length hshort,hk,Nat.succ_mul]
  have hzeros : S.padZeros (full++rest).length=
      (S.blockBytes-(rest.length+1))+sha.lengthAt := by
    apply Standard.padZeros_eq
    · refine ⟨k+2,?_⟩
      rw [List.length_append,hk,Nat.mul_add,Nat.mul_comm]
      omega
    · omega
  have hpad : S.pad (full++rest)=full++spillBlock S rest++([]++(List.replicate
      (sha.lengthAt-([] : Bytes).length) 0++beBytes S.lengthBytes (8*(full++rest).length))) := by
    rw [Standard.pad,hzeros,List.replicate_add,spillBlock]
    simp only [List.append_assoc,List.cons_append,List.nil_append,List.length_nil,Nat.sub_zero]
  have hlast := lastBlock_state himpl (ctx.bitcount+UInt64.ofNat ctx.buflen*8) hmore hstate
    hfilled (Nat.zero_le _) (by omega)
  rw [finalBits_toNat h hlen,←hpad] at hlast
  simp only [ShaClass.finalize]
  rw [hlast,Standard.hash,Standard.output,himpl.output,himpl.store]

/-- `finalize` returns the digest of the absorbed message. -/
theorem finalize_absorbed (himpl : Implements sha S) (h : Absorbed S ctx full rest)
    (hlen : 8*(full++rest).length < 2^64) : sha.finalize ctx=S.hash (full++rest) := by
  have hpos : 0 < S.blockBytes := by have hs := h.short; omega
  by_cases hfits : rest.length+1 ≤ sha.lengthAt
  · exact finalize_fits himpl h hpos hlen hfits
  · exact finalize_spills himpl h hlen (by omega)

/-- A class that implements a standard computes its digests for every
splitting of a message into updates. -/
theorem stream_hash (himpl : Implements sha S) (hpos : 0 < S.blockBytes) (chunks : List Bytes)
    (hlen : chunks.flatten.length < 2^61) :
    sha.finalize (chunks.foldl sha.update sha.reset)=S.hash chunks.flatten := by
  obtain ⟨full,rest,heq,h⟩ := updates_absorbed himpl chunks (reset_absorbed himpl hpos)
  rw [List.append_nil,List.nil_append] at heq
  rw [finalize_absorbed himpl h (by rw [heq]; omega),heq]

end Stream

section Words

/-- `rotr` is a rotation for amounts below the word size. -/
theorem rotr_eq {w n : ℕ} (h : n < w) (x : BitVec w) : rotr x n=x.rotateRight n := by
  rw [rotr,BitVec.rotateRight,BitVec.rotateRightAux,Nat.mod_eq_of_lt h]

/-- A slice of a block, byte by byte. -/
theorem slice_eq_map {block : Bytes} {start n : ℕ} (h : start+n ≤ block.length) :
    (block.drop start).take n=(List.range n).map fun i => block[start+i]?.getD 0 := by
  apply List.ext_getElem
  · rw [List.length_take,List.length_drop,List.length_map,List.length_range]
    omega
  · intro i hl hr
    rw [List.length_map,List.length_range] at hr
    rw [List.getElem_take,List.getElem_drop,List.getElem_map,List.getElem_range,
      List.getElem?_eq_getElem (by omega),Option.getD_some]

/-- Shifting one more byte into a word. -/
theorem shiftIn_toNat {w n v byte : ℕ} {word : BitVec w} (hword : word.toNat=v)
    (hv : v < 256^n) (hw : 8*(n+1) ≤ w) (hbyte : byte < 256) :
    ((word <<< 8) ||| BitVec.ofNat w byte).toNat=256*v+byte ∧ 256*v+byte < 256^(n+1) := by
  have hpow : 256^(n+1) ≤ 2^w := by
    have heq : 256^(n+1)=2^(8*(n+1)) := by rw [Nat.pow_mul]
    rw [heq]
    exact Nat.pow_le_pow_right (by omega) hw
  have hbound : 256*v+byte < 256^(n+1) := by
    rw [Nat.pow_succ]
    omega
  have hshift : v <<< 8=256*v := by rw [Nat.shiftLeft_eq,Nat.mul_comm]
  refine ⟨?_,hbound⟩
  rw [BitVec.toNat_or,BitVec.toNat_shiftLeft,BitVec.toNat_ofNat,hword,
    Nat.mod_eq_of_lt (by rw [hshift]; omega),Nat.mod_eq_of_lt (by omega : byte < 2^w),
    ←Nat.shiftLeft_add_eq_or_of_lt (by omega),hshift]

/-- Bytes shifted into a word one after the other. -/
def shiftLoop (w : ℕ) (block : Bytes) (start n : ℕ) : BitVec w :=
  (List.range n).foldl (fun word b => (word <<< 8) ||| blockByte w block (start+b)) 0

/-- The byte loop assembles a big-endian number. -/
theorem shiftLoop_toNat {w : ℕ} (block : Bytes) (start : ℕ) {n : ℕ} (hw : 8*n ≤ w) :
    (shiftLoop w block start n).toNat=
      beNat ((List.range n).map fun i => block[start+i]?.getD 0) ∧
    beNat ((List.range n).map fun i => block[start+i]?.getD 0) < 256^n := by
  induction n with
  | zero => exact ⟨Nat.zero_mod _,Nat.zero_lt_one⟩
  | succ n ih =>
    obtain ⟨hword,hlt⟩ := ih (by omega)
    have hstep := shiftIn_toNat hword hlt hw (byteAt_lt block (start+n))
    have hsnoc : beNat ((List.range (n+1)).map fun i => block[start+i]?.getD 0)=
        256*beNat ((List.range n).map fun i => block[start+i]?.getD 0)+byteAt block (start+n) := by
      rw [List.range_succ,List.map_append,beNat,List.foldl_append]
      rfl
    rw [hsnoc,shiftLoop,List.range_succ,List.foldl_append]
    exact hstep

/-- A word loaded by the byte loop is the standard's block word. -/
theorem shiftLoop_blockWord {w n : ℕ} (S : Standard w) {block : Bytes} {t : ℕ}
    (hword : S.wordBytes=n) (hw : 8*n ≤ w) (hle : t*n+n ≤ block.length) :
    shiftLoop w block (t*n) n=S.blockWord block t := by
  apply BitVec.eq_of_toNat_eq
  have hloop := shiftLoop_toNat block (t*n) hw
  have hpow : 256^n ≤ 2^w := by
    have heq : 256^n=2^(8*n) := by rw [Nat.pow_mul]
    rw [heq]
    exact Nat.pow_le_pow_right (by omega) hw
  rw [Standard.blockWord,hword,slice_eq_map hle,BitVec.toNat_ofNat,hloop.1,
    Nat.mod_eq_of_lt (by omega)]

/-- The four shifted bytes of `SHA256` are the byte loop written out. -/
theorem sha256_loadWord (block : Bytes) (i : ℕ) :
    SHA256.loadWord block i=shiftLoop 32 block (i*4) 4 := by
  have hrange : List.range 4=[0,1,2,3] := rfl
  rw [shiftLoop,hrange]
  simp only [SHA256,List.foldl_cons,List.foldl_nil,BitVec.shiftLeft_or_distrib,
    ←BitVec.shiftLeft_add,BitVec.ofNat_eq_ofNat,BitVec.zero_shiftLeft,BitVec.zero_or,
    Nat.reduceAdd,Nat.add_zero]

/-- Shifts by whole bytes are divisions by powers of 256. -/
theorem shiftRight_byte {w : ℕ} (x : BitVec w) (n : ℕ) : (x >>> (n*8)).toNat=x.toNat/256^n := by
  rw [BitVec.toNat_ushiftRight,Nat.shiftRight_eq_div_pow,Nat.mul_comm n 8,Nat.pow_mul]

/-- `SHA256` stores words big-endian. -/
theorem sha256_storeWord (x : BitVec 32) : SHA256.storeWord x=beBytes 4 x.toNat := by
  have h3 := shiftRight_byte x 3
  have h2 := shiftRight_byte x 2
  have h1 := shiftRight_byte x 1
  have hrange : List.range 4=[0,1,2,3] := rfl
  simp only [SHA256,beBytes,hrange,List.map_cons,List.map_nil]
  rw [h3,h2,h1]
  norm_num

/-- `SHA384` stores words big-endian. -/
theorem sha384_storeWord (x : BitVec 64) : SHA384.storeWord x=beBytes 8 x.toNat := by
  apply List.map_congr_left
  intro b _
  exact congrArg UInt8.ofNat (shiftRight_byte x (7-b))

end Words

section Constants

/-- Entries of a checked table of cube roots. -/
theorem cubeTable_entry {w : ℕ} {table : List (BitVec w)} (h : IsRootTable 3 w 0 table)
    (hlen : table.length ≤ smallPrimes.length) {t : ℕ} (ht : t < table.length) :
    entry table t=cubeRootBits w t := by
  have hget : table[t]?=some (entry table t) := by
    rw [entry,List.getElem?_eq_getElem ht,Option.getD_some]
  have hroot := rootTable_entry (by omega) h (by omega) hget
  rw [Nat.zero_add] at hroot
  exact hroot.symm

/-- A checked table of eight square roots is the initial hash value. -/
theorem squareTable_words {w t : ℕ} {x : Words w} (h : IsRootTable 2 w t x.toList)
    (hlen : t+8 ≤ smallPrimes.length) : x=squareRootWords w t := by
  have hroot : ∀ i word,x.toList[i]?=some word → word=squareRootBits w (t+i) := by
    intro i word hi
    exact (rootTable_entry (by omega) h hlen hi).symm
  exact Words.ext (hroot 0 x.a rfl) (hroot 1 x.b rfl) (hroot 2 x.c rfl) (hroot 3 x.d rfl)
    (hroot 4 x.e rfl) (hroot 5 x.f rfl) (hroot 6 x.g rfl) (hroot 7 x.h rfl)

/-- There are eighty primes below 410. -/
theorem smallPrimes_length : smallPrimes.length=80 := by decide +kernel

/-- `SHA256` implements SHA-256. -/
theorem sha256_implements : Implements SHA256 sha256Standard where
  buffer := rfl
  bits := rfl
  rounds := rfl
  sixteen := by decide
  constants t ht := cubeTable_entry (by decide +kernel) (by rw [smallPrimes_length]; decide) ht
  ep0 := by
    funext x
    simp only [SHA256,sha256Standard,rotr_eq,Nat.reduceLT]
  ep1 := by
    funext x
    simp only [SHA256,sha256Standard,rotr_eq,Nat.reduceLT]
  sig0 := by
    funext x
    simp only [SHA256,sha256Standard,rotr_eq,Nat.reduceLT]
  sig1 := by
    funext x
    simp only [SHA256,sha256Standard,rotr_eq,Nat.reduceLT]
  load block hblock t ht := by
    have hsize : block.length=64 := hblock
    rw [sha256_loadWord]
    exact shiftLoop_blockWord sha256Standard rfl (by omega) (by omega)
  initial := squareTable_words (by decide +kernel) (by rw [smallPrimes_length]; decide)
  field := rfl
  high := rfl
  output := rfl
  store := funext sha256_storeWord

/-- `SHA384` implements SHA-384. -/
theorem sha384_implements : Implements SHA384 sha384Standard where
  buffer := rfl
  bits := rfl
  rounds := rfl
  sixteen := by decide
  constants t ht := cubeTable_entry (by decide +kernel) (by rw [smallPrimes_length]; decide) ht
  ep0 := by
    funext x
    simp only [SHA384,sha384Standard,rotr_eq,Nat.reduceLT]
  ep1 := by
    funext x
    simp only [SHA384,sha384Standard,rotr_eq,Nat.reduceLT]
  sig0 := by
    funext x
    simp only [SHA384,sha384Standard,rotr_eq,Nat.reduceLT]
  sig1 := by
    funext x
    simp only [SHA384,sha384Standard,rotr_eq,Nat.reduceLT]
  load block hblock t ht := by
    have hsize : block.length=128 := hblock
    exact shiftLoop_blockWord (n:=8) sha384Standard rfl (by omega) (by omega)
  initial := squareTable_words (by decide +kernel) (by rw [smallPrimes_length]; decide)
  field := rfl
  high := rfl
  output := rfl
  store := funext sha384_storeWord

end Constants

/-- For every message below `2^61` bytes and every splitting of it into
updates, both classes return the digest of the standard, whose padding uses
the least number of zero bytes that completes a block. -/
theorem sha_streaming_correct (chunks : List Bytes) (hlen : chunks.flatten.length < 2^61) :
    (SHA256.finalize (chunks.foldl SHA256.update SHA256.reset)=
      sha256Standard.hash chunks.flatten ∧
      IsLeast {k | 64 ∣ chunks.flatten.length+1+k+8}
        (sha256Standard.padZeros chunks.flatten.length)) ∧
    SHA384.finalize (chunks.foldl SHA384.update SHA384.reset)=
      sha384Standard.hash chunks.flatten ∧
      IsLeast {k | 128 ∣ chunks.flatten.length+1+k+16}
        (sha384Standard.padZeros chunks.flatten.length) := by
  refine ⟨⟨?_,?_⟩,?_,?_⟩
  · exact stream_hash sha256_implements (by decide : 0 < 64) chunks hlen
  · exact sha256Standard.padZeros_isLeast (by decide : 0 < 64) _
  · exact stream_hash sha384_implements (by decide : 0 < 128) chunks hlen
  · exact sha384Standard.padZeros_isLeast (by decide : 0 < 128) _

/-- The text `abc` in two updates. -/
theorem sha_streaming_correct_abc :
    SHA256.finalize ([[0x61],[0x62,0x63]].foldl SHA256.update SHA256.reset)=
      sha256Standard.hash [0x61,0x62,0x63] ∧
    SHA384.finalize ([[0x61],[0x62,0x63]].foldl SHA384.update SHA384.reset)=
      sha384Standard.hash [0x61,0x62,0x63] :=
  have h := sha_streaming_correct [[0x61],[0x62,0x63]] (by decide)
  ⟨h.1.1,h.2.1⟩

example : SHA256.finalize ([[0x61],[0x62,0x63]].foldl SHA256.update SHA256.reset)=
    [0xba,0x78,0x16,0xbf,0x8f,0x01,0xcf,0xea,0x41,0x41,0x40,0xde,0x5d,0xae,0x22,0x23,
      0xb0,0x03,0x61,0xa3,0x96,0x17,0x7a,0x9c,0xb4,0x10,0xff,0x61,0xf2,0x00,0x15,0xad] := by
  decide +kernel

section File

open QuarantineVault

/-- The read loop of `hash_file` is one splitting of the content. -/
theorem hashBlocks_chunks {σ : Type} (sha : HashContext σ Bytes) (rounds : ℕ) (state : σ)
    (bytes : Bytes) (h : bytes.length ≤ rounds) :
    ∃ chunks : List Bytes,chunks.flatten=bytes ∧
      hashBlocks sha rounds state bytes=chunks.foldl sha.update state := by
  induction rounds generalizing state bytes with
  | zero =>
    have hnil := List.eq_nil_of_length_eq_zero (by omega : bytes.length=0)
    exact ⟨[],by rw [hnil,List.flatten_nil],rfl⟩
  | succ rounds ih =>
    by_cases hnil : bytes=[]
    · exact ⟨[],by rw [hnil,List.flatten_nil],by rw [hashBlocks,if_pos hnil,List.foldl_nil]⟩
    · have hpos := List.length_pos_iff.2 hnil
      obtain ⟨chunks,hflat,hrun⟩ := ih (sha.update state (bytes.take 8192)) (bytes.drop 8192)
        (by rw [List.length_drop]; omega)
      refine ⟨bytes.take 8192::chunks,?_,?_⟩
      · rw [List.flatten_cons,hflat,List.take_append_drop]
      · rw [hashBlocks,if_neg hnil,hrun,List.foldl_cons]

/-- `hash_file` returns the hexadecimal SHA-256 digest of the file. -/
theorem hashFile_eq (content : Common.Str) (h : content.length < 2^61) :
    hashFile SHA256.context content=
      hex (sha256Standard.hash (content.map fun c => UInt8.ofNat c.toNat)) := by
  obtain ⟨chunks,hflat,hrun⟩ := hashBlocks_chunks SHA256.context
    (content.map fun c => UInt8.ofNat c.toNat).length SHA256.reset
    (content.map fun c => UInt8.ofNat c.toNat) (le_refl _)
  have hlen : chunks.flatten.length < 2^61 := by rw [hflat,List.length_map]; exact h
  have hdigest := stream_hash sha256_implements (by decide : 0 < 64) chunks hlen
  rw [hflat] at hdigest
  rw [hashFile,←hdigest]
  exact congrArg (fun state => hex (SHA256.finalize state)) hrun

end File

end Gcad.ShaRefinement
