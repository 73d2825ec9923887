import Gcad.PeStaticAnalysis
import Gcad.Rfc1321

/-!
# The MD5 context computes the RFC 1321 digest

The rounds of `transform` are the sixty-four operations of the document:
where the document shifts the roles of the registers, the code's words
rotate. A context that has been fed a message holds the registers after its
complete blocks and the unprocessed rest, whichever path each `update` took,
and the two updates of `finalize` feed exactly the padding of the document.
-/

namespace Gcad.Md5Refinement

open ByteView CheckedLogic CheckedLoop Md5 Rfc1321

section Transform

/-- The state words before operation `i`, in their roles. -/
def view (i : ℕ) (r : Registers) : Words := ⟨r (role i 0),r (role i 1),r (role i 2),r (role i 3)⟩

/-- Operation `i` of the document as a macro call. -/
noncomputable def standardOperation (i : ℕ) : Operation :=
  ⟨wordIndex i,UInt32.ofNat (shift i),sine (i+1)⟩

/-- All macro calls. -/
def operations : List Operation := round1++round2++round3++round4

/-- `rotl` is the circular shift. -/
theorem rotl_eq (x : UInt32) {s : ℕ} (hpos : 0 < s) (hs : s < 32) :
    rotl x (UInt32.ofNat s)=rotateLeft x s := by
  have hleft : (UInt32.ofNat s).toNat%32=s := by
    rw [UInt32.toNat_ofNat_of_lt' (by rw [UInt32.size]; omega),Nat.mod_eq_of_lt hs]
  have hright : (32-UInt32.ofNat s).toNat%32=32-s := by
    have hsmall : (UInt32.ofNat s).toNat=s := UInt32.toNat_ofNat_of_lt' (by rw [UInt32.size]; omega)
    rw [UInt32.toNat_sub_of_le _ _ (by rw [UInt32.le_iff_toNat_le,hsmall]; exact hs.le),hsmall]
    exact Nat.mod_eq_of_lt (by change 32-s < 32; omega)
  apply UInt32.toBitVec_inj.1
  apply BitVec.eq_of_toNat_eq
  rw [rotl,rotateLeft,BitVec.rotateLeft_def,Nat.mod_eq_of_lt hs,UInt32.toBitVec_or,
    BitVec.toNat_or,BitVec.toNat_or,UInt32.toNat_toBitVec,UInt32.toNat_toBitVec,
    UInt32.toNat_shiftLeft,UInt32.toNat_shiftRight,hleft,hright,BitVec.toNat_shiftLeft,
    BitVec.toNat_ushiftRight,UInt32.toNat_toBitVec]

/-- The shifts are proper. -/
theorem shift_bounds : ∀ i < 64,0 < shift i ∧ shift i < 32 := by decide

/-- The words are among the sixteen of the block. -/
theorem wordIndex_lt : ∀ i < 64,wordIndex i < 16 := by decide

/-- The constants of the macro calls are the document's. -/
theorem operations_checked : checkTable (operations.map fun op => op.t.toNat)=true := by
  decide +kernel

/-- The macro calls use the words and shifts of the document. -/
theorem operations_pattern : ∀ i < 64,(operations[i]?.map fun op => (op.k,op.s))=
    some (wordIndex i,UInt32.ofNat (shift i)) := by decide +kernel

/-- The macro calls are the operations of the document. -/
theorem operations_standard : operations=(List.range 64).map standardOperation := by
  apply List.ext_getElem?
  intro i
  rw [List.getElem?_map]
  by_cases hi : i < 64
  · obtain ⟨op,hop,hpair⟩ := Option.map_eq_some_iff.1 (operations_pattern i hi)
    have hconst : (operations.map fun op => op.t.toNat)[i]?=some op.t.toNat := by
      rw [List.getElem?_map,hop,Option.map_some]
    have hsine := checkTable_sine operations_checked hconst
    rw [Prod.mk.injEq] at hpair
    rw [hop,List.getElem?_range hi,Option.map_some,standardOperation,←hpair.1,←hpair.2,hsine,
      UInt32.ofNat_toNat]
  · have hlen : operations.length=64 := rfl
    rw [List.getElem?_eq_none (by omega),List.getElem?_eq_none (by rw [List.length_range]; omega),
      Option.map_none]

/-- The sixty-four operations in four quarters. -/
theorem range_quarters : List.range 64=
    List.range' 0 16++List.range' 16 16++List.range' 32 16++List.range' 48 16 := by decide

/-- The four rounds are the four quarters of the operations. -/
theorem rounds_standard : round1=(List.range' 0 16).map standardOperation ∧
    round2=(List.range' 16 16).map standardOperation ∧
    round3=(List.range' 32 16).map standardOperation ∧
    round4=(List.range' 48 16).map standardOperation := by
  have hall := operations_standard
  rw [operations,range_quarters,List.map_append,List.map_append,List.map_append] at hall
  obtain ⟨h123,h4⟩ := List.append_inj' hall rfl
  obtain ⟨h12,h3⟩ := List.append_inj' h123 rfl
  obtain ⟨h1,h2⟩ := List.append_inj' h12 rfl
  exact ⟨h1,h2,h3,h4⟩

/-- The words rotate as the roles shift. -/
theorem view_operation (x : ℕ → UInt32) (r : Registers) (i : ℕ) :
    view (i+1) (operation x r i)=⟨(view i r).d,
      (view i r).b+rotateLeft ((view i r).a+auxiliary (i/16) (view i r).b (view i r).c (view i r).d+
        x (wordIndex i)+sine (i+1)) (shift i),(view i r).b,(view i r).c⟩ := by
  have hshift : ∀ j,role (i+1) (j+1)=role i j := by
    intro j
    apply Fin.ext
    change (j+1+3*(i+1))%4=(j+3*i)%4
    omega
  have hfirst : role (i+1) 0=role i 3 := by
    apply Fin.ext
    change (0+3*(i+1))%4=(3+3*i)%4
    omega
  have hother : ∀ j < 4,j≠0 → role i j≠role i 0 := by
    intro j hj hne heq
    have hval : (j+3*i)%4=(0+3*i)%4 := congrArg Fin.val heq
    omega
  simp only [view,hfirst,hshift,operation,Function.update_self,
    Function.update_of_ne (hother 1 (by omega) (by omega)),
    Function.update_of_ne (hother 2 (by omega) (by omega)),
    Function.update_of_ne (hother 3 (by omega) (by omega))]

/-- A run of operations with one auxiliary function. -/
theorem round_view {x : List UInt32} {word : ℕ → UInt32} (hx : ∀ t < 16,x[t]?=some (word t))
    {f : UInt32 → UInt32 → UInt32 → UInt32} {n i : ℕ} (hn : i+n ≤ 64)
    (hf : ∀ k < n,f=auxiliary ((i+k)/16)) (r : Registers) :
    Md5.round f x ((List.range' i n).map standardOperation) (view i r)=
      .ok (view (i+n) ((List.range' i n).foldl (operation word) r)) := by
  induction n generalizing i r with
  | zero => rfl
  | succ n ih =>
    have hread : load x (wordIndex i)=.ok (word (wordIndex i)) := by
      rw [load,hx _ (wordIndex_lt i (by omega))]
    obtain ⟨hpos,hlt⟩ := shift_bounds i (by omega)
    have haux : f=auxiliary (i/16) := hf 0 (by omega)
    have hrest := ih (by omega : i+1+n ≤ 64) (fun k hk => by
      have hnext := hf (k+1) (by omega)
      rwa [←Nat.add_assoc,Nat.add_right_comm] at hnext) (operation word r i)
    rw [view_operation,←rotl_eq _ hpos hlt,←haux] at hrest
    have hindex : i+(n+1)=i+1+n := by omega
    rw [List.range'_succ,List.map_cons,List.foldl_cons,hindex,←hrest,Md5.round]
    exact bind_of_ok hread _

/-- A 32-bit value is the number of its four bytes. -/
theorem u32At_leNat {data : Bytes} {offset : ℕ} (h : offset+4 ≤ data.length) :
    u32At data offset=leNat ((data.drop offset).take 4) := by
  have hbyte : ∀ i (hi : i < data.length),byteAt data i=(data[i]).toNat := by
    intro i hi
    rw [byteAt,List.getElem?_eq_getElem hi,Option.getD_some]
  rw [List.drop_eq_getElem_cons (by omega),List.drop_eq_getElem_cons (by omega),
    List.drop_eq_getElem_cons (by omega),List.drop_eq_getElem_cons (by omega),
    List.take_succ_cons,List.take_succ_cons,List.take_succ_cons,List.take_succ_cons,List.take_zero,
    u32At_eq,hbyte _ (by omega),hbyte _ (by omega),hbyte _ (by omega),hbyte _ (by omega)]
  simp only [leNat,Nat.add_assoc,Nat.reduceAdd]
  omega

/-- The sixteen words are the words of the document. -/
theorem blockWords_eq {block : Bytes} (h : block.length=64) :
    blockWords block=.ok ((List.range 16).map (blockWord block)) := by
  have hloop := @forUp_invariant _ (fun i (x : List UInt32) => do
    let word ← readU32 block (i*4)
    return x++[UInt32.ofNat word])
    (fun i x => x=(List.range i).map (blockWord block)) 0 16 [] rfl
  obtain ⟨x,hrun,hx⟩ := hloop (by
    intro i x _ hi hx
    have hread : readU32 block (i*4)=.ok (u32At block (i*4)) :=
      readU32_eq_ok.mpr ⟨by omega,rfl⟩
    refine ⟨_,bind_of_ok hread _,?_⟩
    rw [hx,List.range_succ,List.map_append,List.map_singleton,blockWord,u32At_leNat (by omega),
      Nat.mul_comm i 4])
  rw [hx] at hrun
  exact hrun

/-- `transform` is the document's processing of one block. -/
theorem transform_eq {block : Bytes} (h : block.length=64) (r : Registers) :
    transform (view 0 r) block=.ok (view 0 (compress r block)) := by
  have hx : ∀ t < 16,((List.range 16).map (blockWord block))[t]?=some (blockWord block t) := by
    intro t ht
    rw [List.getElem?_map,List.getElem?_range ht,Option.map_some]
  obtain ⟨h1,h2,h3,h4⟩ := rounds_standard
  have haux : ∀ q,∀ k < 16,(16*q+k)/16=q := by
    intro q k hk
    omega
  rw [transform,bind_of_ok (blockWords_eq h),h1,h2,h3,h4,
    bind_of_ok (round_view hx (by omega) (fun k hk => by rw [haux 0 k hk]; rfl) r),
    bind_of_ok (round_view hx (by omega) (fun k hk => by rw [haux 1 k hk]; rfl) _),
    bind_of_ok (round_view hx (by omega) (fun k hk => by rw [haux 2 k hk]; rfl) _),
    bind_of_ok (round_view hx (by omega) (fun k hk => by rw [haux 3 k hk]; rfl) _),
    ←List.foldl_append,←List.foldl_append,←List.foldl_append,←List.append_assoc,
    ←List.append_assoc,←range_quarters]
  rfl

end Transform

section Stream

variable {ctx : Md5Context} {full rest : Bytes}

/-- A context fed with `full++rest`: complete blocks are processed and the
rest waits in the buffer. -/
structure Absorbed (ctx : Md5Context) (full rest : Bytes) : Prop where
  /-- The processed part consists of complete blocks. -/
  whole : ∃ k,full.length=k*64
  /-- The rest is shorter than a block. -/
  short : rest.length < 64
  /-- Size of the buffer. -/
  size : ctx.buffer.length=64
  /-- The rest is in the buffer. -/
  content : ctx.buffer.take rest.length=rest
  /-- The state of the complete blocks. -/
  state : ctx.state=view 0 (absorb full)
  /-- The counted bits, modulo `2^64`. -/
  counted : ctx.count=8*(full++rest).length%2^64

/-- A fresh context has absorbed the empty message. -/
theorem reset_absorbed : Absorbed reset [] [] := by
  refine ⟨⟨0,rfl⟩,by decide,List.length_replicate,rfl,?_,rfl⟩
  decide +kernel

/-- The index into the buffer is the length of the rest. -/
theorem index_eq (h : Absorbed ctx full rest) : ctx.count >>> 3 &&& 0x3F=rest.length := by
  obtain ⟨k,hk⟩ := h.whole
  have hshort := h.short
  have hmask : ctx.count >>> 3 &&& 0x3F=ctx.count >>> 3%64 :=
    Nat.and_two_pow_sub_one_eq_mod _ 6
  rw [hmask,Nat.shiftRight_eq_div_pow,h.counted,List.length_append,hk]
  omega

/-- A range in two parts. -/
theorem slice_add (data : Bytes) (start a b : ℕ) :
    slice data start (a+b)=slice data start a++slice data (start+a) b := by
  rw [slice,slice,slice,List.take_add,List.drop_drop]

/-- A range that starts at zero. -/
theorem slice_zero (data : Bytes) (length : ℕ) : slice data 0 length=data.take length := by
  rw [slice,List.drop_zero]

/-- The block loop absorbs complete blocks until less than one is left. -/
theorem transformBlocks_absorbs {input : Bytes} {length : ℕ} (h : length ≤ input.length) {i k : ℕ}
    (hi : i ≤ length) (hfull : full.length=k*64) :
    ∃ m,i+m*64 ≤ length ∧ length < i+m*64+64 ∧
      transformBlocks input length i (view 0 (absorb full))=
        .ok (i+m*64,view 0 (absorb (full++slice input i (m*64)))) := by
  induction hn : length-i using Nat.strong_induction_on generalizing i k full with
  | _ n ih =>
    rw [transformBlocks]
    by_cases hmore : i+63 < length
    · have hblock : (slice input i 64).length=64 := slice_length (by omega)
      have hread : readSlice input i 64=.ok (slice input i 64) :=
        readSlice_eq_ok.mpr ⟨by omega,rfl⟩
      have hnext : (full++slice input i 64).length=(k+1)*64 := by
        rw [List.length_append,hfull,hblock]
        omega
      obtain ⟨m,hlow,hhigh,hrun⟩ := ih (length-(i+64)) (by omega) (by omega) hnext rfl
      have hindex : i+64+m*64=i+(m+1)*64 := by omega
      have hslice : full++slice input i 64++slice input (i+64) (m*64)=
          full++slice input i ((m+1)*64) := by
        rw [Nat.succ_mul,Nat.add_comm (m*64),slice_add,List.append_assoc]
      rw [hindex] at hlow hhigh hrun
      rw [hslice,absorb_append hfull hblock] at hrun
      refine ⟨m+1,hlow,hhigh,?_⟩
      rw [if_pos hmore,bind_of_ok hread,bind_of_ok (transform_eq hblock _)]
      exact hrun
    · refine ⟨0,by omega,by omega,?_⟩
      rw [if_neg hmore,Nat.zero_mul,Nat.add_zero,slice,List.take_zero,List.append_nil]
      rfl

/-- The front of a byte string in two parts. -/
theorem take_slice (data : Bytes) (a b : ℕ) : data.take a++slice data a b=data.take (a+b) := by
  rw [slice,List.take_add]

/-- Bytes written behind the content of the buffer. -/
theorem writeAt_content {buffer bytes : Bytes} (h : buffer.take bytes.length=bytes)
    (more : Bytes) :
    (writeAt buffer bytes.length more).take (bytes++more).length=bytes++more := by
  rw [writeAt,h,List.take_left]

/-- The count after an update. -/
theorem count_eq (h : Absorbed ctx full rest) {more : Bytes} {length : ℕ}
    (hmore : more.length=length) :
    (ctx.count+length <<< 3)%2^64=8*(full++rest++more).length%2^64 := by
  have hlength : (full++rest++more).length=(full++rest).length+length := by
    rw [List.length_append,hmore]
  rw [h.counted,Nat.shiftLeft_eq,hlength]
  omega

/-- An update that does not fill the buffer. -/
theorem update_short (h : Absorbed ctx full rest) {data : Bytes} {length : ℕ}
    (hlen : length ≤ data.length) (hshort : length < 64-rest.length) :
    ∃ next,update ctx data length=.ok next ∧ Absorbed next full (rest++data.take length) := by
  have hlt := h.short
  have htake : (data.take length).length=length := List.length_take_of_le hlen
  have hrest : (rest++data.take length).length < 64 := by
    rw [List.length_append,htake]
    omega
  have hcount := count_eq h htake
  rw [List.append_assoc] at hcount
  have hsub : subtract 64 rest.length=.ok (64-rest.length) := if_pos hlt.le
  rw [update,index_eq h,bind_of_ok hsub,if_neg (by omega)]
  by_cases hpos : 0 < length
  · have hread : readSlice data 0 length=.ok (data.take length) :=
      readSlice_eq_ok.mpr ⟨by omega,slice_zero data length⟩
    have hfits : rest.length+(data.take length).length ≤ ctx.buffer.length := by
      rw [htake,h.size]
      omega
    have hwrite : writeSlice ctx.buffer rest.length (data.take length)=
        .ok (writeAt ctx.buffer rest.length (data.take length)) := if_pos hfits
    rw [if_pos hpos,bind_of_ok hread,bind_of_ok hwrite]
    refine ⟨_,rfl,h.whole,hrest,?_,writeAt_content h.content _,h.state,hcount⟩
    exact (writeAt_length hfits).trans h.size
  · have hzero : data.take length=[] := List.eq_nil_of_length_eq_zero (by omega)
    rw [hzero,List.append_nil] at hcount ⊢
    rw [if_neg hpos]
    exact ⟨_,rfl,h.whole,hlt,h.size,h.content,h.state,hcount⟩

/-- Bytes that fill the buffer complete a block. -/
theorem fill_block (h : Absorbed ctx full rest) {head : Bytes}
    (hhead : (rest++head).length=64) :
    writeSlice ctx.buffer rest.length head=.ok (rest++head) := by
  have hfits : rest.length+head.length ≤ ctx.buffer.length := by
    rw [←List.length_append,hhead,h.size]
  have hcontent := writeAt_content h.content head
  rw [hhead,List.take_of_length_le (by rw [writeAt_length hfits,h.size])] at hcontent
  rw [←hcontent]
  exact if_pos hfits

/-- The tail of the input goes to the front of the buffer. -/
theorem keep_tail {data buffer : Bytes} (hbuffer : buffer.length=64) {length j : ℕ}
    (hlen : length ≤ data.length) (hlow : j ≤ length) (hhigh : length < j+64) (state : Words)
    (count : ℕ) : ∃ kept : Bytes,kept.length=64 ∧
      kept.take (length-j)=slice data j (length-j) ∧
      (if j < length then do
        let remaining ← subtract length j
        let tail ← readSlice data j remaining
        let buffer ← writeSlice buffer 0 tail
        return ⟨state,count,buffer⟩
      else return ⟨state,count,buffer⟩ : Checked Md5Context)=.ok ⟨state,count,kept⟩ := by
  by_cases hmore : j < length
  · have hsub : subtract length j=.ok (length-j) := if_pos hlow
    have hread : readSlice data j (length-j)=.ok (slice data j (length-j)) :=
      readSlice_eq_ok.mpr ⟨by omega,rfl⟩
    have htail : (slice data j (length-j)).length=length-j := slice_length (by omega)
    have hfits : 0+(slice data j (length-j)).length ≤ buffer.length := by
      rw [htail,hbuffer]
      omega
    have hwrite : writeSlice buffer 0 (slice data j (length-j))=
        .ok (writeAt buffer 0 (slice data j (length-j))) := if_pos hfits
    have hcontent := @writeAt_content buffer [] rfl (slice data j (length-j))
    rw [List.nil_append,htail] at hcontent
    refine ⟨_,(writeAt_length hfits).trans hbuffer,hcontent,?_⟩
    rw [if_pos hmore,bind_of_ok hsub,bind_of_ok hread,bind_of_ok hwrite]
    rfl
  · have hzero : length-j=0 := by omega
    refine ⟨buffer,hbuffer,?_,if_neg hmore⟩
    rw [hzero,List.take_zero,slice,List.take_zero]

/-- An update that fills the buffer processes it, then whole blocks of the
input, and keeps the tail. -/
theorem update_long (h : Absorbed ctx full rest) {data : Bytes} {length : ℕ}
    (hlen : length ≤ data.length) (hlong : 64-rest.length ≤ length) :
    ∃ full' rest' next,full'++rest'=full++rest++data.take length ∧
      update ctx data length=.ok next ∧ Absorbed next full' rest' := by
  obtain ⟨k,hk⟩ := h.whole
  have hlt := h.short
  obtain ⟨part,hpart⟩ : ∃ part,part=64-rest.length := ⟨_,rfl⟩
  rw [←hpart] at hlong
  have hsub : subtract 64 rest.length=.ok part := hpart ▸ if_pos hlt.le
  have hread : readSlice data 0 part=.ok (data.take part) :=
    readSlice_eq_ok.mpr ⟨by omega,slice_zero data part⟩
  have hblock : (rest++data.take part).length=64 := by
    rw [List.length_append,List.length_take_of_le (by omega)]
    omega
  have hnext : (full++(rest++data.take part)).length=(k+1)*64 := by
    rw [List.length_append,hk,hblock]
    omega
  have hfirst := transform_eq hblock (absorb full)
  rw [←absorb_append hk hblock] at hfirst
  obtain ⟨m,hlow,hhigh,hrun⟩ := transformBlocks_absorbs hlen hlong hnext
  have hwhole : (full++(rest++data.take part)++slice data part (m*64)).length=(k+1+m)*64 := by
    have hslice : (slice data part (m*64)).length=m*64 := slice_length (by omega)
    rw [List.length_append,hnext,hslice]
    omega
  obtain ⟨kept,hsize,hcontent,hkeep⟩ := keep_tail hblock hlen hlow hhigh
    (view 0 (absorb (full++(rest++data.take part)++slice data part (m*64))))
    ((ctx.count+length <<< 3)%2^64)
  have htail : (slice data (part+m*64) (length-(part+m*64))).length=length-(part+m*64) :=
    slice_length (by omega)
  have hall : full++(rest++data.take part)++slice data part (m*64)++
      slice data (part+m*64) (length-(part+m*64))=full++rest++data.take length := by
    have hfront := take_slice data part (m*64)
    have hend := take_slice data (part+m*64) (length-(part+m*64))
    rw [Nat.add_sub_cancel' hlow,←hfront] at hend
    rw [←hend]
    simp only [List.append_assoc]
  have hcount := count_eq h (List.length_take_of_le hlen)
  rw [←hall] at hcount
  refine ⟨_,_,⟨_,_,kept⟩,hall,?_,⟨_,hwhole⟩,?_,hsize,?_,rfl,hcount⟩
  · rw [update,index_eq h,bind_of_ok hsub,if_pos hlong,bind_of_ok hread,
      bind_of_ok (fill_block h hblock),h.state,bind_of_ok hfirst,bind_of_ok hrun]
    exact hkeep
  · rw [htail]
    omega
  · rw [htail]
    exact hcontent

/-- An update absorbs the bytes it is given. -/
theorem update_absorbs (h : Absorbed ctx full rest) {data : Bytes} {length : ℕ}
    (hlen : length ≤ data.length) : ∃ full' rest' next,full'++rest'=full++rest++data.take length ∧
      update ctx data length=.ok next ∧ Absorbed next full' rest' := by
  by_cases hlong : 64-rest.length ≤ length
  · exact update_long h hlen hlong
  · obtain ⟨next,hrun,hnext⟩ := update_short h hlen (by omega)
    exact ⟨full,rest++data.take length,next,by rw [List.append_assoc],hrun,hnext⟩

/-- A sequence of updates. -/
def updates (ctx : Md5Context) (chunks : List Bytes) : Checked Md5Context :=
  chunks.foldlM (fun ctx chunk => update ctx chunk chunk.length) ctx

/-- Any sequence of updates absorbs the concatenation of its chunks. -/
theorem updates_absorb (chunks : List Bytes) (h : Absorbed ctx full rest) :
    ∃ full' rest' next,full'++rest'=full++rest++chunks.flatten ∧
      updates ctx chunks=.ok next ∧ Absorbed next full' rest' := by
  induction chunks generalizing ctx full rest with
  | nil => exact ⟨full,rest,ctx,by rw [List.flatten_nil,List.append_nil],rfl,h⟩
  | cons chunk chunks ih =>
    obtain ⟨full₁,rest₁,next₁,heq₁,hrun₁,h₁⟩ := update_absorbs h (le_refl chunk.length)
    obtain ⟨full₂,rest₂,next₂,heq₂,hrun₂,h₂⟩ := ih h₁
    refine ⟨full₂,rest₂,next₂,?_,?_,h₂⟩
    · rw [heq₂,heq₁,List.take_length,List.append_assoc,List.flatten_cons]
    · rw [updates,List.foldlM_cons,bind_of_ok hrun₁]
      exact hrun₂

/-- The zero bytes that `finalize` adds are the document's. -/
theorem padLength_eq (h : Absorbed ctx full rest) :
    padLength rest.length=.ok (padZeros (full++rest).length+1) ∧
      padZeros (full++rest).length+1 ≤ 64 := by
  obtain ⟨k,hk⟩ := h.whole
  have hlt := h.short
  have hlength : (full++rest).length=k*64+rest.length := by rw [List.length_append,hk]
  by_cases hlow : rest.length < 56
  · have hzeros : padZeros (full++rest).length=55-rest.length :=
      padZeros_eq (by rw [hlength]; omega) (by omega)
    have hsub : subtract 56 rest.length=.ok (56-rest.length) := if_pos hlow.le
    have hsucc : 55-rest.length+1=56-rest.length := by omega
    rw [padLength,if_pos hlow,hsub,hzeros,hsucc]
    exact ⟨rfl,by omega⟩
  · have hzeros : padZeros (full++rest).length=119-rest.length :=
      padZeros_eq (by rw [hlength]; omega) (by omega)
    have hsub : subtract 120 rest.length=.ok (120-rest.length) := if_pos (by omega)
    have hsucc : 119-rest.length+1=120-rest.length := by omega
    rw [padLength,if_neg hlow,hsub,hzeros,hsucc]
    exact ⟨rfl,by omega⟩

/-- The front of the array `padding`. -/
theorem padding_take {m : ℕ} (h : m+1 ≤ 64) :
    padding.take (m+1)=0x80::List.replicate m 0 := by
  rw [padding,List.take_succ_cons,List.take_replicate,Nat.min_eq_left (by omega)]

/-- A padded message consists of complete blocks. -/
theorem pad_length (message : Bytes) : ∃ k,(pad message).length=k*64 := by
  have hleast : (message.length+1+padZeros message.length)%64=56 := by
    have hmem : (119-message.length%64)%64 ∈ {k | (message.length+1+k)%64=56} := by
      change (message.length+1+(119-message.length%64)%64)%64=56
      omega
    exact Nat.sInf_mem ⟨_,hmem⟩
  refine ⟨(message.length+1+padZeros message.length+8)/64,?_⟩
  rw [pad,List.length_append,List.length_cons,List.length_append,List.length_replicate,
    leBytes_length]
  omega

/-- The bytes of the state words are the digest. -/
theorem wordBytes_output (r : Registers) : wordBytes (view 0 r).a++wordBytes (view 0 r).b++
    wordBytes (view 0 r).c++wordBytes (view 0 r).d=output r := by
  have hregisters : List.finRange 4=[0,1,2,3] := by decide
  rw [output,hregisters]
  simp only [List.flatMap_cons,List.flatMap_nil,List.append_nil,List.append_assoc]
  rfl

/-- `finalize` returns the digest of what was absorbed. -/
theorem finalize_absorbed (h : Absorbed ctx full rest) : finalize ctx=.ok (md5 (full++rest)) := by
  obtain ⟨hpad,hroom⟩ := padLength_eq h
  have hsize : padding.length=64 := rfl
  obtain ⟨full₁,rest₁,next₁,heq₁,hrun₁,h₁⟩ := update_absorbs h (hroom.trans hsize.ge)
  have hwidth := leBytes_length 8 ctx.count
  obtain ⟨full₂,rest₂,next₂,heq₂,hrun₂,h₂⟩ := update_absorbs h₁ hwidth.ge
  rw [padding_take hroom] at heq₁
  have hbits : (leBytes 8 ctx.count).take 8=leBytes 8 ctx.count := List.take_of_length_le hwidth.le
  have hmessage : full₂++rest₂=pad (full++rest) := by
    rw [heq₂,heq₁,hbits,h.counted,pad]
    simp only [List.append_assoc,List.cons_append]
  obtain ⟨k,hk⟩ := pad_length (full++rest)
  obtain ⟨k₂,hk₂⟩ := h₂.whole
  have hnil : rest₂=[] := by
    apply List.eq_nil_of_length_eq_zero
    have hlength := congrArg List.length hmessage
    have hshort := h₂.short
    rw [List.length_append,hk,hk₂] at hlength
    omega
  rw [hnil,List.append_nil] at hmessage
  rw [finalize,index_eq h,bind_of_ok hpad,bind_of_ok hrun₁,bind_of_ok hrun₂,h₂.state,
    wordBytes_output,hmessage]
  rfl

end Stream

section Digest

/-- Reset, any sequence of updates, and `finalize`. -/
def digestOf (chunks : List Bytes) : Checked Bytes := do
  let ctx ← updates reset chunks
  finalize ctx

/-- The digest depends on the whole message only. -/
theorem digestOf_eq (chunks : List Bytes) : digestOf chunks=.ok (md5 chunks.flatten) := by
  obtain ⟨full,rest,next,heq,hrun,h⟩ := updates_absorb chunks reset_absorbed
  rw [List.nil_append,List.nil_append] at heq
  rw [digestOf,bind_of_ok hrun,finalize_absorbed h,heq]

/-- `hex_chars` holds the hexadecimal digits. -/
theorem hexChars_digit : ∀ n < 16,hexChars[n]?=some (Nat.digitChar n) := by decide

/-- `to_hex` writes two digits for every byte. -/
theorem toHex_eq (digest : Bytes) : toHex digest=.ok (hexText digest) := by
  induction digest with
  | nil => rfl
  | cons b rest ih =>
    have hlt : b.toNat < 256 := b.toNat_lt
    have hhigh : b.toNat >>> 4 &&& 0x0F=b.toNat/16 := by
      have hmask : b.toNat >>> 4 &&& 0x0F=b.toNat >>> 4%16 := Nat.and_two_pow_sub_one_eq_mod _ 4
      rw [hmask,Nat.shiftRight_eq_div_pow]
      omega
    have hlow : b.toNat &&& 0x0F=b.toNat%16 := Nat.and_two_pow_sub_one_eq_mod _ 4
    have hdigit : ∀ n < 16,load hexChars n=.ok (Nat.digitChar n) := by
      intro n hn
      rw [load,hexChars_digit n hn]
    rw [toHex,hhigh,hlow,bind_of_ok (hdigit _ (by omega)),bind_of_ok (hdigit _ (by omega)),ih]
    rfl

/-- `calculate_md5` returns the digest in hexadecimal digits. -/
theorem calculateMd5_eq (data : Bytes) : calculateMd5 data=.ok (hexText (md5 data)) := by
  by_cases hpos : 0 < data.length
  · have hdigest := digestOf_eq [data]
    have hupdates : updates reset [data]=update reset data data.length := bind_pure _
    rw [digestOf,hupdates,List.flatten_singleton] at hdigest
    rw [calculateMd5,if_pos hpos,←toHex_eq,←bind_of_ok hdigest toHex,bind_assoc]
  · have hnil : data=[] := List.eq_nil_of_length_eq_zero (by omega)
    rw [calculateMd5,if_neg hpos,bind_of_ok (finalize_absorbed reset_absorbed),toHex_eq,hnil]
    rfl

/-- However a message is split into updates, the context returns its MD5
digest; `calculate_md5` returns the digest in hexadecimal digits, and so is
the import hash for the items joined by commas. -/
theorem md5_streaming_correct (chunks : List Bytes) (items : List Common.Str) :
    digestOf chunks=.ok (md5 chunks.flatten) ∧
    calculateMd5 chunks.flatten=.ok (hexText (md5 chunks.flatten)) ∧
    PeStaticAnalysis.imphashOf items=.ok (if items=[] then [] else
      hexText (md5 (([','].intercalate items).map fun c => UInt8.ofNat c.toNat))) := by
  refine ⟨digestOf_eq chunks,calculateMd5_eq _,?_⟩
  rw [PeStaticAnalysis.imphashOf]
  by_cases hnil : items=[]
  · rw [if_pos hnil,if_pos hnil]
    rfl
  · rw [if_neg hnil,if_neg hnil]
    exact calculateMd5_eq _

example : digestOf [[0x61],[0x62,0x63]]=.ok
    [0x90,0x01,0x50,0x98,0x3c,0xd2,0x4f,0xb0,0xd6,0x96,0x3f,0x7d,0x28,0xe1,0x7f,0x72] := by
  decide +kernel

end Digest

end Gcad.Md5Refinement
