import Mathlib

/-!
# Bounds-checked views of byte buffers

Little-endian reads, slices and in-place writes of byte lists. Reading is
done in an error monad with two faults, so that a reader which rejects its
input is kept apart from one that would leave its buffer. Every operation
is described by the bytes it yields, index by index.
-/

namespace Gcad.ByteView

/-- A byte buffer. -/
abbrev Bytes := List UInt8

/-- Why a read sequence stopped. -/
inductive Fault where
  /-- The reader refused its input. -/
  | rejected
  /-- An index outside the buffer was touched. -/
  | outOfBounds
  deriving DecidableEq, Repr

/-- Results of a bounds-checked reader. -/
abbrev Checked := Except Fault

/-- Value of the byte at an index, zero outside the buffer. -/
def byteAt (data : Bytes) (i : ℕ) : ℕ := (data[i]?.getD 0).toNat

/-- Little-endian 16-bit value at an offset. -/
def u16At (data : Bytes) (offset : ℕ) : ℕ :=
  byteAt data offset ||| byteAt data (offset+1) <<< 8

/-- Little-endian 32-bit value at an offset. -/
def u32At (data : Bytes) (offset : ℕ) : ℕ :=
  byteAt data offset ||| byteAt data (offset+1) <<< 8 ||| byteAt data (offset+2) <<< 16 |||
    byteAt data (offset+3) <<< 24

/-- Continue only when the condition holds. -/
def require (p : Prop) [Decidable p] : Checked Unit :=
  if p then .ok () else .error .rejected

/-- Read one byte. -/
def readByte (data : Bytes) (i : ℕ) : Checked ℕ :=
  if i < data.length then .ok (byteAt data i) else .error .outOfBounds

/-- Read a 16-bit value. -/
def readU16 (data : Bytes) (offset : ℕ) : Checked ℕ :=
  if offset+2 ≤ data.length then .ok (u16At data offset) else .error .outOfBounds

/-- Read a 32-bit value. -/
def readU32 (data : Bytes) (offset : ℕ) : Checked ℕ :=
  if offset+4 ≤ data.length then .ok (u32At data offset) else .error .outOfBounds

/-- The bytes of a range of indices. -/
def slice (data : Bytes) (start length : ℕ) : Bytes := (data.drop start).take length

/-- Copy a range of bytes. -/
def readSlice (data : Bytes) (start length : ℕ) : Checked Bytes :=
  if start+length ≤ data.length then .ok (slice data start length) else .error .outOfBounds

/-- Turn a refusal into an absent value and keep a bounds fault. -/
def attempt {α : Type} : Checked α → Checked (Option α)
  | .ok a => .ok (some a)
  | .error .rejected => .ok none
  | .error .outOfBounds => .error .outOfBounds

/-- Overwrite the bytes from an offset on. -/
def writeAt (data : Bytes) (offset : ℕ) (bytes : Bytes) : Bytes :=
  data.take offset++bytes++data.drop (offset+bytes.length)

/-- Little-endian encoding in a given number of bytes. -/
def leBytes : ℕ → ℕ → Bytes
  | 0,_ => []
  | width+1,value => UInt8.ofNat value::leBytes width (value/256)

/-- The streaming interface of a hash. -/
structure HashContext (σ δ : Type) where
  /-- A fresh context. -/
  initial : σ
  /-- Feed one block of bytes. -/
  update : σ → Bytes → σ
  /-- Finish and return the digest. -/
  finalize : σ → δ

/-- Digest of one block. -/
def HashContext.digest {σ δ : Type} (ctx : HashContext σ δ) (bytes : Bytes) : δ :=
  ctx.finalize (ctx.update ctx.initial bytes)

section Monad

variable {α β : Type} {x : Checked α} {f : α → Checked β}

/-- A sequence succeeds when its first part does and then the rest. -/
theorem bind_eq_ok {b : β} : x >>= f=.ok b ↔ ∃ a, x=.ok a ∧ f a=.ok b := by
  cases x with
  | error fault =>
    constructor
    · intro h
      cases h
    · rintro ⟨a,h,-⟩
      cases h
  | ok a =>
    constructor
    · intro h
      exact ⟨a,rfl,h⟩
    · rintro ⟨a',h,hf⟩
      cases h
      exact hf

/-- Returning a value succeeds with that value. -/
theorem pure_eq_ok {a b : α} : (pure a : Checked α)=.ok b ↔ a=b := Except.ok.injEq a b ▸ Iff.rfl

/-- A requirement succeeds exactly when it holds. -/
theorem require_eq_ok {p : Prop} [Decidable p] {u : Unit} : require p=.ok u ↔ p := by
  unfold require
  split
  · next h => exact ⟨fun _ => h,fun _ => rfl⟩
  · next h =>
    constructor
    · intro he
      cases he
    · intro hp
      exact absurd hp h

/-- Reading a byte succeeds exactly inside the buffer. -/
theorem readByte_eq_ok {data : Bytes} {i v : ℕ} :
    readByte data i=.ok v ↔ i < data.length ∧ byteAt data i=v := by
  unfold readByte
  split
  · next h => rw [Except.ok.injEq]; exact ⟨fun hv => ⟨h,hv⟩,fun hv => hv.2⟩
  · next h => simp only [reduceCtorEq,h,false_and]

/-- Reading a 16-bit value succeeds exactly inside the buffer. -/
theorem readU16_eq_ok {data : Bytes} {offset v : ℕ} :
    readU16 data offset=.ok v ↔ offset+2 ≤ data.length ∧ u16At data offset=v := by
  unfold readU16
  split
  · next h => rw [Except.ok.injEq]; exact ⟨fun hv => ⟨h,hv⟩,fun hv => hv.2⟩
  · next h => simp only [reduceCtorEq,h,false_and]

/-- Reading a 32-bit value succeeds exactly inside the buffer. -/
theorem readU32_eq_ok {data : Bytes} {offset v : ℕ} :
    readU32 data offset=.ok v ↔ offset+4 ≤ data.length ∧ u32At data offset=v := by
  unfold readU32
  split
  · next h => rw [Except.ok.injEq]; exact ⟨fun hv => ⟨h,hv⟩,fun hv => hv.2⟩
  · next h => simp only [reduceCtorEq,h,false_and]

/-- Two sequences whose first parts agree up to a map and whose rests agree
up to a map on every first result agree up to a map. -/
theorem bind_map {α' β' : Type} {x' : Checked α'} {f' : α' → Checked β'} {m : α → α'}
    {k : β → β'} (hx : x'=x.map m) (hf : ∀ a, x=.ok a → f' (m a)=(f a).map k) :
    x' >>= f'=(x >>= f).map k := by
  subst hx
  cases x with
  | error fault => rfl
  | ok a => exact hf a rfl

/-- Two sequences whose first parts agree up to a map and whose rests agree
on every first result agree. -/
theorem bind_map_eq {α' : Type} {x' : Checked α'} {f' : α' → Checked β} {m : α → α'}
    (hx : x'=x.map m) (hf : ∀ a, x=.ok a → f' (m a)=f a) : x' >>= f'=x >>= f := by
  subst hx
  cases x with
  | error fault => rfl
  | ok a => exact hf a rfl

/-- Two sequences with the same first part. -/
theorem bind_same {β' : Type} {x' : Checked α} {f' : α → Checked β'} {k : β → β'} (hx : x'=x)
    (hf : ∀ a, x=.ok a → f' a=(f a).map k) : x' >>= f'=(x >>= f).map k := by
  subst hx
  cases x' with
  | error fault => rfl
  | ok a => exact hf a rfl

/-- Requirements that mean the same. -/
theorem require_congr {p q : Prop} [Decidable p] [Decidable q] (h : p ↔ q) :
    require p=require q := by
  unfold require
  by_cases hq : q
  · rw [if_pos hq,if_pos (h.mpr hq)]
  · rw [if_neg hq,if_neg (mt h.mp hq)]

/-- An attempt commutes with a map. -/
theorem attempt_map {α' : Type} (x : Checked α) (m : α → α') :
    attempt (x.map m)=(attempt x).map (Option.map m) := by
  cases x with
  | ok a => rfl
  | error fault => cases fault <;> rfl

/-- Copying a range succeeds exactly inside the buffer. -/
theorem readSlice_eq_ok {data bytes : Bytes} {start length : ℕ} :
    readSlice data start length=.ok bytes ↔
      start+length ≤ data.length ∧ slice data start length=bytes := by
  unfold readSlice
  split
  · next h => rw [Except.ok.injEq]; exact ⟨fun hv => ⟨h,hv⟩,fun hv => hv.2⟩
  · next h => simp only [reduceCtorEq,h,false_and]

/-- An attempt that yields a value comes from success. -/
theorem attempt_eq_some {a : α} : attempt x=.ok (some a) ↔ x=.ok a := by
  cases x with
  | ok b => simp only [attempt,Except.ok.injEq,Option.some.injEq]
  | error fault => cases fault <;> simp only [attempt,Except.ok.injEq,reduceCtorEq]

end Monad

/-- What holds of every value below 256 holds of every byte. -/
theorem forall_byte {p : UInt8 → Prop} (h : ∀ n < 256,p (UInt8.ofNat n)) (b : UInt8) : p b := by
  have hb := h b.toNat b.toNat_lt
  rwa [UInt8.ofNat_toNat] at hb

/-- A byte is below 256. -/
theorem byteAt_lt (data : Bytes) (i : ℕ) : byteAt data i < 256 := UInt8.toNat_lt _

/-- Disjoint bits add up. -/
theorem or_shift (width : ℕ) {low high : ℕ} (h : low < 2^width) :
    low ||| high <<< width=low+high*2^width := by
  rw [Nat.lor_comm,Nat.shiftLeft_eq,Nat.mul_comm,←Nat.two_pow_add_eq_or_of_lt h,Nat.add_comm]

/-- A 16-bit value as a sum. -/
theorem u16At_eq (data : Bytes) (offset : ℕ) :
    u16At data offset=byteAt data offset+byteAt data (offset+1)*256 :=
  or_shift 8 (byteAt_lt data offset)

/-- A 32-bit value as a sum. -/
theorem u32At_eq (data : Bytes) (offset : ℕ) :
    u32At data offset=byteAt data offset+byteAt data (offset+1)*2^8+byteAt data (offset+2)*2^16+
      byteAt data (offset+3)*2^24 := by
  have h0 := byteAt_lt data offset
  have h1 := byteAt_lt data (offset+1)
  have h2 := byteAt_lt data (offset+2)
  unfold u32At
  rw [or_shift 8 h0,or_shift 16 (by omega),or_shift 24 (by omega)]

/-- A byte value depends on that byte alone. -/
theorem byteAt_congr {data other : Bytes} {i : ℕ} (h : other[i]?=data[i]?) :
    byteAt other i=byteAt data i := by
  unfold byteAt
  rw [h]

/-- A 16-bit value depends on its two bytes alone. -/
theorem u16At_congr {data other : Bytes} {offset : ℕ}
    (h : ∀ i, offset ≤ i → i < offset+2 → other[i]?=data[i]?) :
    u16At other offset=u16At data offset := by
  unfold u16At
  rw [byteAt_congr (h offset (by omega) (by omega)),
    byteAt_congr (h (offset+1) (by omega) (by omega))]

/-- A 32-bit value depends on its four bytes alone. -/
theorem u32At_congr {data other : Bytes} {offset : ℕ}
    (h : ∀ i, offset ≤ i → i < offset+4 → other[i]?=data[i]?) :
    u32At other offset=u32At data offset := by
  unfold u32At
  rw [byteAt_congr (h offset (by omega) (by omega)),
    byteAt_congr (h (offset+1) (by omega) (by omega)),
    byteAt_congr (h (offset+2) (by omega) (by omega)),
    byteAt_congr (h (offset+3) (by omega) (by omega))]

/-- An encoding has its width. -/
theorem leBytes_length (width value : ℕ) : (leBytes width value).length=width := by
  induction width generalizing value with
  | zero => rfl
  | succ width ih =>
    unfold leBytes
    rw [List.length_cons,ih]

/-- The bytes of an encoding, low-order byte first. -/
theorem leBytes_getElem? {width k : ℕ} (h : k < width) (value : ℕ) :
    (leBytes width value)[k]?=some (UInt8.ofNat (value/256^k)) := by
  induction width generalizing k value with
  | zero => exact absurd h (Nat.not_lt_zero k)
  | succ width ih =>
    unfold leBytes
    cases k with
    | zero => rw [List.getElem?_cons_zero,Nat.pow_zero,Nat.div_one]
    | succ k =>
      rw [List.getElem?_cons_succ,ih (Nat.lt_of_succ_lt_succ h),Nat.div_div_eq_div_mul,
        Nat.pow_succ,Nat.mul_comm 256]

/-- A byte of an encoded value. -/
theorem byteAt_leBytes {data : Bytes} {offset width value k : ℕ} (hk : k < width)
    (h : data[offset+k]?=(leBytes width value)[k]?) :
    byteAt data (offset+k)=value/256^k%256 := by
  unfold byteAt
  rw [h,leBytes_getElem? hk]
  exact UInt8.toNat_ofNat'

/-- Reading an encoded 16-bit value back. -/
theorem u16At_leBytes {data : Bytes} {offset value : ℕ} (hv : value < 2^16)
    (h : ∀ k < 2, data[offset+k]?=(leBytes 2 value)[k]?) : u16At data offset=value := by
  have h0 := byteAt_leBytes (by omega) (h 0 (by omega))
  have h1 := byteAt_leBytes (by omega) (h 1 (by omega))
  rw [Nat.add_zero] at h0
  rw [u16At_eq,h0,h1]
  omega

/-- Reading an encoded 32-bit value back. -/
theorem u32At_leBytes {data : Bytes} {offset value : ℕ} (hv : value < 2^32)
    (h : ∀ k < 4, data[offset+k]?=(leBytes 4 value)[k]?) : u32At data offset=value := by
  have h0 := byteAt_leBytes (by omega) (h 0 (by omega))
  have h1 := byteAt_leBytes (by omega) (h 1 (by omega))
  have h2 := byteAt_leBytes (by omega) (h 2 (by omega))
  have h3 := byteAt_leBytes (by omega) (h 3 (by omega))
  rw [Nat.add_zero] at h0
  rw [u32At_eq,h0,h1,h2,h3]
  omega

section Write

variable {data bytes : Bytes} {offset : ℕ}

/-- Overwriting inside the buffer keeps its length. -/
theorem writeAt_length (h : offset+bytes.length ≤ data.length) :
    (writeAt data offset bytes).length=data.length := by
  unfold writeAt
  rw [List.length_append,List.length_append,List.length_take,List.length_drop]
  omega

/-- Outside the overwritten range nothing changes. -/
theorem writeAt_outside (h : offset+bytes.length ≤ data.length) {i : ℕ}
    (hi : i < offset ∨ offset+bytes.length ≤ i) : (writeAt data offset bytes)[i]?=data[i]? := by
  have htake : (data.take offset).length=offset := by
    rw [List.length_take]
    omega
  unfold writeAt
  rcases hi with hi | hi
  · rw [List.append_assoc,List.getElem?_append_left (by omega),List.getElem?_take_of_lt hi]
  · rw [List.getElem?_append_right (by rw [List.length_append]; omega),List.getElem?_drop,
      List.length_append,htake]
    congr 1
    omega

/-- Inside the overwritten range the new bytes stand. -/
theorem writeAt_inside (h : offset+bytes.length ≤ data.length) {k : ℕ} (hk : k < bytes.length) :
    (writeAt data offset bytes)[offset+k]?=bytes[k]? := by
  have htake : (data.take offset).length=offset := by
    rw [List.length_take]
    omega
  unfold writeAt
  rw [List.append_assoc,List.getElem?_append_right (by omega),htake,Nat.add_sub_cancel_left,
    List.getElem?_append_left hk]

end Write

/-- A slice, byte by byte. -/
theorem slice_getElem? (data : Bytes) (start length k : ℕ) :
    (slice data start length)[k]?=if k < length then data[start+k]? else none := by
  unfold slice
  rw [List.getElem?_take]
  split
  · rw [List.getElem?_drop]
  · rfl

/-- Two slices of the same range agree exactly when the bytes do. -/
theorem slice_eq_iff {data other : Bytes} {start length : ℕ} :
    slice data start length=slice other start length ↔
      ∀ i, start ≤ i → i < start+length → data[i]?=other[i]? := by
  constructor
  · intro h i hlow hhigh
    obtain ⟨k,rfl⟩ := Nat.exists_eq_add_of_le hlow
    have hk := congrArg (fun l : Bytes => l[k]?) h
    simp only [slice_getElem?,if_pos (show k < length by omega)] at hk
    exact hk
  · intro h
    apply List.ext_getElem?
    intro k
    rw [slice_getElem?,slice_getElem?]
    split
    · next hk => exact h (start+k) (by omega) (by omega)
    · rfl

/-- A slice inside the buffer has its length. -/
theorem slice_length {data : Bytes} {start length : ℕ} (h : start+length ≤ data.length) :
    (slice data start length).length=length := by
  unfold slice
  rw [List.length_take,List.length_drop]
  omega

/-- Slices of buffers of one length have one length. -/
theorem slice_length_eq {data other : Bytes} (h : other.length=data.length) (start length : ℕ) :
    (slice other start length).length=(slice data start length).length := by
  unfold slice
  rw [List.length_take,List.length_take,List.length_drop,List.length_drop,h]

end Gcad.ByteView
