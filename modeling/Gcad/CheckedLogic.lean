import Gcad.CheckedLoop

/-!
# Postconditions of checked readers

`Stays x post` says that a reader does not leave its buffer and that a
value it returns satisfies `post`; a refusal is allowed. `Returns x post`
says that it does return such a value. One rule for each way readers are
composed.
-/

namespace Gcad.CheckedLogic

open ByteView CheckedLoop

variable {α β : Type} {x : Checked α} {post : α → Prop}

/-- The reader stays inside its buffer and returns only such values. -/
def Stays (x : Checked α) (post : α → Prop) : Prop :=
  match x with
  | .ok a => post a
  | .error .rejected => True
  | .error .outOfBounds => False

/-- Returning a value. -/
theorem stays_pure {a : α} (h : post a) : Stays (pure a) post := h

/-- Refusing. -/
theorem stays_rejected : Stays (.error .rejected : Checked α) post := trivial

/-- A reader that stays does not fault. -/
theorem Stays.ne_outOfBounds (h : Stays x post) : x≠.error .outOfBounds := by
  rintro rfl
  exact h

/-- What a reader that stays has returned. -/
theorem Stays.of_ok (h : Stays x post) {a : α} (ha : x=.ok a) : post a := by
  subst ha
  exact h

/-- A reader stays when it does not fault and its values are as claimed. -/
theorem stays_of {other : α → Prop} (h : Stays x other) (hpost : ∀ a, x=.ok a → post a) :
    Stays x post := by
  match x with
  | .ok a => exact hpost a rfl
  | .error .rejected => exact trivial
  | .error .outOfBounds => exact h

/-- A weaker postcondition. -/
theorem Stays.mono {other : α → Prop} (h : Stays x other) (hpost : ∀ a, other a → post a) :
    Stays x post :=
  stays_of h fun _ ha => hpost _ (h.of_ok ha)

/-- One reader after another. -/
theorem Stays.bind {f : α → Checked β} {next : β → Prop} (h : Stays x post)
    (hf : ∀ a, post a → Stays (f a) next) : Stays (x >>= f) next := by
  match x with
  | .ok a => exact hf a h
  | .error .rejected => exact trivial
  | .error .outOfBounds => exact h

/-- A requirement. -/
theorem stays_require (p : Prop) [Decidable p] : Stays (require p) fun _ => p := by
  unfold require
  split
  · next h => exact h
  · exact trivial

/-- A refusal turned into an absent value. -/
theorem Stays.attempt (h : Stays x post) :
    Stays (attempt x) fun found => ∀ a, found=some a → post a := by
  match x with
  | .ok a =>
    intro b hb
    cases hb
    exact h
  | .error .rejected => exact nofun
  | .error .outOfBounds => exact h

/-- A choice between readers. -/
theorem stays_ite {p : Prop} [Decidable p] {y : Checked α} (hx : p → Stays x post)
    (hy : ¬p → Stays y post) : Stays (if p then x else y) post := by
  split
  · next h => exact hx h
  · next h => exact hy h

/-- Reading a byte inside the buffer. -/
theorem readByte_stays {data : Bytes} {i : ℕ} (h : i < data.length) :
    Stays (readByte data i) fun _ => True := by
  unfold readByte
  rw [if_pos h]
  exact trivial

/-- Copying a range inside the buffer. -/
theorem readSlice_stays {data : Bytes} {start length : ℕ} (h : start+length ≤ data.length) :
    Stays (readSlice data start length) fun bytes => bytes=slice data start length := by
  unfold readSlice
  rw [if_pos h]
  exact rfl

/-- Subtraction of unsigned numbers. Going below zero is a fault like
leaving a buffer. -/
def subtract (a b : ℕ) : Checked ℕ := if b ≤ a then .ok (a-b) else .error .outOfBounds

/-- Overwrite a range of bytes. -/
def writeSlice (data : Bytes) (offset : ℕ) (bytes : Bytes) : Checked Bytes :=
  if offset+bytes.length ≤ data.length then .ok (writeAt data offset bytes)
  else .error .outOfBounds

/-- The reader returns, and returns such a value. -/
def Returns (x : Checked α) (post : α → Prop) : Prop := ∃ a,x=.ok a ∧ post a

/-- Returning a value. -/
theorem returns_pure {a : α} (h : post a) : Returns (pure a) post := ⟨a,rfl,h⟩

/-- A reader that returns stays inside its buffer. -/
theorem Returns.stays (h : Returns x post) : Stays x post := by
  obtain ⟨a,rfl,ha⟩ := h
  exact ha

/-- A weaker postcondition. -/
theorem Returns.mono {other : α → Prop} (h : Returns x other) (hpost : ∀ a,other a → post a) :
    Returns x post := by
  obtain ⟨a,rfl,ha⟩ := h
  exact ⟨a,rfl,hpost a ha⟩

/-- One reader after another. -/
theorem Returns.bind {f : α → Checked β} {next : β → Prop} (h : Returns x post)
    (hf : ∀ a,post a → Returns (f a) next) : Returns (x >>= f) next := by
  obtain ⟨a,rfl,ha⟩ := h
  exact hf a ha

/-- Two sequences with the same first part that agree on what it returns. -/
theorem bind_congr_ok {f g : α → Checked β} (h : ∀ a,x=.ok a → f a=g a) :
    x >>= f=x >>= g := by
  cases x with
  | error fault => rfl
  | ok a => exact h a rfl

/-- A choice between readers. -/
theorem returns_ite {p : Prop} [Decidable p] {y : Checked α} (hx : p → Returns x post)
    (hy : ¬p → Returns y post) : Returns (if p then x else y) post := by
  split
  · next h => exact hx h
  · next h => exact hy h

/-- Reading a byte inside the buffer. -/
theorem readByte_returns {data : Bytes} {i : ℕ} (h : i < data.length) :
    Returns (readByte data i) fun b => b < 256 :=
  ⟨_,readByte_eq_ok.mpr ⟨h,rfl⟩,byteAt_lt data i⟩

/-- Reading a 16-bit value inside the buffer. -/
theorem readU16_returns {data : Bytes} {offset : ℕ} (h : offset+2 ≤ data.length) :
    Returns (readU16 data offset) fun _ => True :=
  ⟨_,readU16_eq_ok.mpr ⟨h,rfl⟩,trivial⟩

/-- Reading a 32-bit value inside the buffer. -/
theorem readU32_returns {data : Bytes} {offset : ℕ} (h : offset+4 ≤ data.length) :
    Returns (readU32 data offset) fun _ => True :=
  ⟨_,readU32_eq_ok.mpr ⟨h,rfl⟩,trivial⟩

/-- Copying a range inside the buffer. -/
theorem readSlice_returns {data : Bytes} {start length : ℕ} (h : start+length ≤ data.length) :
    Returns (readSlice data start length) fun bytes => bytes.length=length :=
  ⟨_,readSlice_eq_ok.mpr ⟨h,rfl⟩,slice_length h⟩

/-- Overwriting a range inside the buffer. -/
theorem writeSlice_returns {data bytes : Bytes} {offset : ℕ}
    (h : offset+bytes.length ≤ data.length) :
    Returns (writeSlice data offset bytes) fun written => written.length=data.length :=
  ⟨_,if_pos h,writeAt_length h⟩

/-- Subtracting a number that is not larger. -/
theorem subtract_returns {a b : ℕ} (h : b ≤ a) : Returns (subtract a b) fun c => c=a-b :=
  ⟨_,if_pos h,rfl⟩

/-- Reading a cell inside the array. -/
theorem load_returns {cells : List α} {i : ℕ} (h : i < cells.length) :
    Returns (load cells i) fun _ => True :=
  ⟨_,load_eq h (cells.get ⟨i,h⟩),trivial⟩

/-- Writing a cell inside the array. -/
theorem store_returns {cells : List α} {i : ℕ} (h : i < cells.length) (cell : α) :
    Returns (store cells i cell) fun written => written.length=cells.length :=
  ⟨_,store_eq h cell,List.length_set⟩

/-- An upward loop with an invariant. -/
theorem forUp_returns {body : ℕ → α → Checked α} (inv : ℕ → α → Prop) {start count : ℕ} {s : α}
    (hstart : inv start s)
    (hstep : ∀ i s,start ≤ i → i < start+count → inv i s → Returns (body i s) (inv (i+1))) :
    Returns (forUp body start count s) (inv (start+count)) :=
  forUp_invariant inv hstart hstep

end Gcad.CheckedLogic
