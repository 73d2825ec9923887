import Gcad.ByteView
import Gcad.Common

/-!
# The DER reader

`parse_element`, `parse_sequence_children` and the value decoders of
asn1.cpp. `size_t` is 64 bits wide. The children loop is bounded by the
length of its region, which suffices because every element occupies at
least two bytes. A region can be parsed in place or copied out first: the
window lemmas say that the elements are the same up to their offsets.
-/

namespace Gcad.Asn1

open Common ByteView

/-- The `TagClass` enumeration. -/
inductive TagClass where
  | universal
  | application
  | contextSpecific
  | priv
  deriving DecidableEq, Repr

/-- The class of a two-bit code. -/
def TagClass.ofCode (code : ℕ) : TagClass :=
  if code=0 then .universal else if code=1 then .application
  else if code=2 then .contextSpecific else .priv

/-- The universal tags the parsers test for. -/
inductive UniversalTag where
  | integer
  | bitString
  | octetString
  | objectIdentifier
  | sequence
  | set
  | utcTime
  | generalizedTime
  | bmpString
  deriving DecidableEq, Repr

/-- The tag numbers of X.680. -/
def UniversalTag.number : UniversalTag → ℕ
  | .integer => 2
  | .bitString => 3
  | .octetString => 4
  | .objectIdentifier => 6
  | .sequence => 16
  | .set => 17
  | .utcTime => 23
  | .generalizedTime => 24
  | .bmpString => 30

/-- One parsed TLV header. -/
structure Element where
  /-- Class bits of the tag. -/
  tagClass : TagClass
  /-- Constructed bit of the tag. -/
  constructed : Bool
  /-- Tag number, a `uint32_t`. -/
  tagNumber : ℕ
  /-- Offset of the content in the buffer that was parsed. -/
  contentOffset : ℕ
  /-- Number of content bytes. -/
  contentLength : ℕ
  /-- Number of tag, length and content bytes. -/
  totalLength : ℕ
  deriving DecidableEq, Repr

/-- `Element::is_universal`. -/
def Element.isUniversal (el : Element) (t : UniversalTag) : Bool :=
  decide (el.tagClass=.universal) && decide (el.tagNumber=t.number)

/-- A context-specific tag with a given number. -/
def Element.isContext (el : Element) (number : ℕ) : Bool :=
  decide (el.tagClass=.contextSpecific) && decide (el.tagNumber=number)

/-- The high-tag-number loop: at most five base-128 digits. -/
def parseHighTag (data : Bytes) (size : ℕ) : ℕ → ℕ → ℕ → Checked (ℕ×ℕ)
  | 0,_,_ => .error .rejected
  | iterations+1,pos,tagNumber => do
    require (pos < size)
    let b ← readByte data pos
    let next := (tagNumber <<< 7 ||| b &&& 0x7f)%2^32
    if b &&& 0x80=0 then return (next,pos+1)
    else parseHighTag data size iterations (pos+1) next

/-- The long-form length loop. -/
def parseLengthBytes (data : Bytes) : ℕ → ℕ → ℕ → Checked (ℕ×ℕ)
  | 0,pos,contentLength => .ok (contentLength,pos)
  | remaining+1,pos,contentLength => do
    let b ← readByte data pos
    parseLengthBytes data remaining (pos+1) ((contentLength <<< 8 ||| b)%2^64)

/-- The tag of an element: its first byte, its number and the position
after it. -/
def parseTag (data : Bytes) (size offset : ℕ) : Checked (ℕ×ℕ×ℕ) := do
  require (offset < size)
  let tagByte ← readByte data offset
  if tagByte &&& 0x1f=0x1f then do
    let (tagNumber,pos) ← parseHighTag data size 5 (offset+1) 0
    return (tagByte,tagNumber,pos)
  else return (tagByte,tagByte &&& 0x1f,offset+1)

/-- The length of an element and the position of its content. -/
def parseLength (data : Bytes) (size pos : ℕ) : Checked (ℕ×ℕ) := do
  require (pos < size)
  let lenByte ← readByte data pos
  if lenByte &&& 0x80=0 then return (lenByte,pos+1)
  else do
    let numLenBytes := lenByte &&& 0x7f
    require (numLenBytes≠0)
    require (numLenBytes ≤ 8)
    require (pos+1+numLenBytes ≤ size)
    parseLengthBytes data numLenBytes (pos+1) 0

/-- `parse_element`. -/
def parseElement (data : Bytes) (size offset : ℕ) : Checked Element := do
  let (tagByte,tagNumber,lengthPos) ← parseTag data size offset
  let (contentLength,pos) ← parseLength data size lengthPos
  require (contentLength ≤ size-pos)
  return {
    tagClass := .ofCode (tagByte >>> 6 &&& 0x03)
    constructed := decide (tagByte &&& 0x20≠0)
    tagNumber := tagNumber
    contentOffset := pos
    contentLength := contentLength
    totalLength := pos+contentLength-offset }

/-- The loop of `parse_sequence_children`: a malformed child ends it and
what parsed before is kept. -/
def parseChildren (data : Bytes) (stop : ℕ) : ℕ → ℕ → Checked (List Element)
  | 0,_ => .ok []
  | iterations+1,pos =>
    if pos < stop then do
      match ← attempt (parseElement data stop pos) with
      | none => return []
      | some child =>
        let rest ← parseChildren data stop iterations (pos+child.totalLength)
        return child::rest
    else .ok []

/-- `parse_sequence_children`. -/
def parseSequenceChildren (data : Bytes) (offset length : ℕ) : Checked (List Element) :=
  parseChildren data (offset+length) length offset

/-- The content bytes of an element. -/
def contentBytes (data : Bytes) (el : Element) : Checked Bytes :=
  readSlice data el.contentOffset el.contentLength

/-- The direct children of an element. -/
def childrenOf (data : Bytes) (el : Element) : Checked (List Element) :=
  parseSequenceChildren data el.contentOffset el.contentLength

/-- The content bytes of a nonnegative INTEGER without its pad byte. -/
def unsignedInteger : Bytes → Bytes
  | [] => []
  | first::rest =>
    if first.toNat &&& 0x80≠0 then []
    else match rest with
      | [] => [first]
      | second::_ => if first=0 ∧ second.toNat &&& 0x80≠0 then rest else first::rest

/-- `read_unsigned_integer`. -/
def readUnsignedInteger (data : Bytes) (el : Element) : Checked Bytes := do
  if !el.isUniversal .integer || decide (el.contentLength=0) then return []
  else do
    let content ← contentBytes data el
    return unsignedInteger content

/-- `raw_bytes`. -/
def rawBytes (data : Bytes) (el : Element) : Checked Bytes :=
  if el.totalLength < el.contentLength then .ok []
  else if el.contentOffset < el.totalLength-el.contentLength then .ok []
  else readSlice data (el.contentOffset-(el.totalLength-el.contentLength)) el.totalLength

/-- The arc loop of `oid_to_string`: the text so far, the current arc in
64-bit arithmetic and whether an arc is open. -/
def oidArcs : Bytes → Str → ℕ → Bool → Str
  | [],out,_,midArc => if midArc then [] else out
  | b::rest,out,value,_ =>
    let next := (value <<< 7 ||| b.toNat &&& 0x7f)%2^64
    if b.toNat &&& 0x80=0 then oidArcs rest (out++".".toList++toDecimal next) 0 false
    else oidArcs rest out next true

/-- The dotted form of OBJECT IDENTIFIER content. -/
def oidString : Bytes → Str
  | [] => []
  | first::rest =>
    let firstArc := first.toNat/40
    let (firstArc,secondArc) :=
      if 2 < firstArc then (2,first.toNat-80) else (firstArc,first.toNat%40)
    oidArcs rest (toDecimal firstArc++".".toList++toDecimal secondArc) 0 false

/-- `oid_to_string`. -/
def oidToString (data : Bytes) (el : Element) : Checked Str := do
  if !el.isUniversal .objectIdentifier || decide (el.contentLength=0) then return []
  else do
    let content ← contentBytes data el
    return oidString content

section Bounds

variable {data : Bytes} {size : ℕ}

/-- The high-tag loop moves forward. -/
theorem parseHighTag_bounds {iterations pos tagNumber : ℕ} {r : ℕ×ℕ}
    (h : parseHighTag data size iterations pos tagNumber=.ok r) : pos < r.2 := by
  induction iterations generalizing pos tagNumber with
  | zero => cases h
  | succ iterations ih =>
    unfold parseHighTag at h
    obtain ⟨_,-,h⟩ := bind_eq_ok.mp h
    obtain ⟨b,-,h⟩ := bind_eq_ok.mp h
    dsimp only at h
    split at h
    · obtain rfl := pure_eq_ok.mp h
      exact Nat.lt_succ_self pos
    · have hnext := ih h
      omega

/-- The length loop moves forward by the number of its bytes. -/
theorem parseLengthBytes_bounds {remaining pos contentLength : ℕ} {r : ℕ×ℕ}
    (h : parseLengthBytes data remaining pos contentLength=.ok r) : r.2=pos+remaining := by
  induction remaining generalizing pos contentLength with
  | zero =>
    cases h
    rfl
  | succ remaining ih =>
    unfold parseLengthBytes at h
    obtain ⟨b,-,h⟩ := bind_eq_ok.mp h
    have hnext := ih h
    omega

/-- A tag occupies at least one byte. -/
theorem parseTag_bounds {offset : ℕ} {r : ℕ×ℕ×ℕ} (h : parseTag data size offset=.ok r) :
    offset < r.2.2 := by
  unfold parseTag at h
  obtain ⟨_,-,h⟩ := bind_eq_ok.mp h
  obtain ⟨tagByte,-,h⟩ := bind_eq_ok.mp h
  split at h
  · obtain ⟨⟨tagNumber,pos⟩,hhigh,h⟩ := bind_eq_ok.mp h
    obtain rfl := pure_eq_ok.mp h
    have hpos := parseHighTag_bounds hhigh
    dsimp only at hpos ⊢
    omega
  · obtain rfl := pure_eq_ok.mp h
    exact Nat.lt_succ_self offset

/-- A length occupies at least one byte and ends in the region. -/
theorem parseLength_bounds {pos : ℕ} {r : ℕ×ℕ} (h : parseLength data size pos=.ok r) :
    pos < r.2 ∧ r.2 ≤ size := by
  unfold parseLength at h
  obtain ⟨_,hpos,h⟩ := bind_eq_ok.mp h
  have hlt := require_eq_ok.mp hpos
  obtain ⟨lenByte,-,h⟩ := bind_eq_ok.mp h
  split at h
  · obtain rfl := pure_eq_ok.mp h
    exact ⟨Nat.lt_succ_self pos,hlt⟩
  · obtain ⟨_,-,h⟩ := bind_eq_ok.mp h
    obtain ⟨_,-,h⟩ := bind_eq_ok.mp h
    obtain ⟨_,hroom,h⟩ := bind_eq_ok.mp h
    have hle := require_eq_ok.mp hroom
    have hend := parseLengthBytes_bounds h
    omega

/-- An accepted element lies in its region and occupies at least two
bytes. -/
theorem parseElement_bounds {offset : ℕ} {el : Element}
    (h : parseElement data size offset=.ok el) :
    offset+2 ≤ el.contentOffset ∧ el.contentOffset+el.contentLength ≤ size ∧
      offset+el.totalLength=el.contentOffset+el.contentLength := by
  unfold parseElement at h
  obtain ⟨⟨tagByte,tagNumber,lengthPos⟩,htag,h⟩ := bind_eq_ok.mp h
  obtain ⟨⟨contentLength,pos⟩,hlength,h⟩ := bind_eq_ok.mp h
  obtain ⟨_,hroom,h⟩ := bind_eq_ok.mp h
  have hle := require_eq_ok.mp hroom
  obtain rfl := pure_eq_ok.mp h
  have htagpos := parseTag_bounds htag
  have hpos := parseLength_bounds hlength
  dsimp only at htagpos hpos hle ⊢
  omega

/-- One turn of the children loop. -/
theorem parseChildren_succ {stop iterations pos : ℕ} {children : List Element}
    (h : parseChildren data stop (iterations+1) pos=.ok children) :
    children=[] ∨ ∃ child rest, children=child::rest ∧ parseElement data stop pos=.ok child ∧
      parseChildren data stop iterations (pos+child.totalLength)=.ok rest := by
  unfold parseChildren at h
  split at h
  · obtain ⟨found,hfound,h⟩ := bind_eq_ok.mp h
    cases found with
    | none => exact .inl (pure_eq_ok.mp h).symm
    | some child =>
      obtain ⟨rest,hrest,h⟩ := bind_eq_ok.mp h
      exact .inr ⟨child,rest,(pure_eq_ok.mp h).symm,attempt_eq_some.mp hfound,hrest⟩
  · exact .inl (Except.ok.inj h).symm

/-- Every child lies in the region. -/
theorem parseChildren_bounds {stop iterations pos : ℕ} {children : List Element}
    (h : parseChildren data stop iterations pos=.ok children) :
    ∀ el ∈ children, pos ≤ el.contentOffset ∧ el.contentOffset+el.contentLength ≤ stop := by
  induction iterations generalizing pos children with
  | zero =>
    cases h
    exact List.forall_mem_nil _
  | succ iterations ih =>
    rcases parseChildren_succ h with rfl | ⟨child,rest,rfl,hchild,hrest⟩
    · exact List.forall_mem_nil _
    · have hbounds := parseElement_bounds hchild
      intro el hel
      rcases List.mem_cons.mp hel with rfl | hel
      · omega
      · have hlater := ih hrest el hel
        omega

/-- The bound on the loop is never reached: any number of iterations that
covers the rest of the region gives the same children. -/
theorem parseChildren_iterations {stop pos n m : ℕ} (hn : stop-pos ≤ n) (hm : stop-pos ≤ m) :
    parseChildren data stop n pos=parseChildren data stop m pos := by
  induction n generalizing pos m with
  | zero =>
    cases m with
    | zero => rfl
    | succ m =>
      unfold parseChildren
      rw [if_neg (by omega)]
  | succ n ih =>
    cases m with
    | zero =>
      unfold parseChildren
      rw [if_neg (by omega)]
    | succ m =>
      unfold parseChildren
      by_cases hpos : pos < stop
      · rw [if_pos hpos,if_pos hpos]
        cases hel : attempt (parseElement data stop pos) with
        | error fault => rfl
        | ok found =>
          cases found with
          | none => rfl
          | some child =>
            have hbounds := parseElement_bounds (attempt_eq_some.mp hel)
            have hnext : parseChildren data stop n (pos+child.totalLength)=
                parseChildren data stop m (pos+child.totalLength) := ih (by omega) (by omega)
            change (parseChildren data stop n (pos+child.totalLength) >>= _)=
              (parseChildren data stop m (pos+child.totalLength) >>= _)
            rw [hnext]
      · rw [if_neg hpos,if_neg hpos]

/-- Every child of an element of a buffer lies in the element. -/
theorem childrenOf_bounds {el : Element} {children : List Element}
    (h : childrenOf data el=.ok children) :
    ∀ child ∈ children, el.contentOffset ≤ child.contentOffset ∧
      child.contentOffset+child.contentLength ≤ el.contentOffset+el.contentLength :=
  parseChildren_bounds h

end Bounds

/-- The inner buffer is what stands in the outer one from an offset on. -/
structure Window (inner outer : Bytes) (off : ℕ) : Prop where
  /-- The inner buffer lies in the outer one. -/
  room : off+inner.length ≤ outer.length
  /-- The bytes are the same. -/
  same : ∀ i < inner.length, outer[off+i]?=inner[i]?

/-- The same element seen from the start of the outer buffer. -/
def Element.shift (off : ℕ) (el : Element) : Element :=
  {el with contentOffset := off+el.contentOffset}

/-- A copied range is a window. -/
theorem window_slice {data : Bytes} {off length : ℕ} (h : off+length ≤ data.length) :
    Window (slice data off length) data off := by
  have hlen := slice_length h
  refine ⟨by omega,?_⟩
  intro i hi
  rw [slice_getElem?,if_pos (by omega)]

section Window

variable {inner outer : Bytes} {off : ℕ}

/-- A byte read through the window. -/
theorem Window.readByte (h : Window inner outer off) {i : ℕ} (hi : i < inner.length) :
    readByte outer (off+i)=ByteView.readByte inner i := by
  have hroom := h.room
  unfold ByteView.readByte
  rw [if_pos hi,if_pos (by omega),byteAt,byteAt,h.same i hi]

/-- The high-tag loop through the window. -/
theorem Window.parseHighTag (h : Window inner outer off) {size : ℕ} (hsize : size ≤ inner.length)
    (iterations pos tagNumber : ℕ) :
    parseHighTag outer (off+size) iterations (off+pos) tagNumber=
      (Asn1.parseHighTag inner size iterations pos tagNumber).map fun r => (r.1,off+r.2) := by
  induction iterations generalizing pos tagNumber with
  | zero => rfl
  | succ iterations ih =>
    unfold Asn1.parseHighTag
    refine bind_same (require_congr (by omega)) ?_
    intro _ hpos
    have hlt := require_eq_ok.mp hpos
    refine bind_same (h.readByte (by omega)) ?_
    intro b _
    dsimp only
    split
    · rfl
    · exact ih (pos+1) _

/-- The length loop through the window. -/
theorem Window.parseLengthBytes (h : Window inner outer off) (remaining pos contentLength : ℕ)
    (hpos : pos+remaining ≤ inner.length) :
    parseLengthBytes outer remaining (off+pos) contentLength=
      (Asn1.parseLengthBytes inner remaining pos contentLength).map fun r => (r.1,off+r.2) := by
  induction remaining generalizing pos contentLength with
  | zero => rfl
  | succ remaining ih =>
    unfold Asn1.parseLengthBytes
    refine bind_same (h.readByte (by omega)) ?_
    intro b _
    exact ih (pos+1) _ (by omega)

/-- The tag through the window. -/
theorem Window.parseTag (h : Window inner outer off) {size : ℕ} (hsize : size ≤ inner.length)
    (pos : ℕ) : parseTag outer (off+size) (off+pos)=
      (Asn1.parseTag inner size pos).map fun r => (r.1,r.2.1,off+r.2.2) := by
  unfold Asn1.parseTag
  refine bind_same (require_congr (by omega)) ?_
  intro _ hpos
  have hlt := require_eq_ok.mp hpos
  refine bind_same (h.readByte (by omega)) ?_
  intro tagByte _
  split
  · refine bind_map (h.parseHighTag hsize 5 (pos+1) 0) ?_
    intro r _
    rfl
  · rfl

/-- The length through the window. -/
theorem Window.parseLength (h : Window inner outer off) {size : ℕ} (hsize : size ≤ inner.length)
    (pos : ℕ) : parseLength outer (off+size) (off+pos)=
      (Asn1.parseLength inner size pos).map fun r => (r.1,off+r.2) := by
  unfold Asn1.parseLength
  refine bind_same (require_congr (by omega)) ?_
  intro _ hpos
  have hlt := require_eq_ok.mp hpos
  refine bind_same (h.readByte (by omega)) ?_
  intro lenByte _
  split
  · rfl
  · refine bind_same rfl fun _ _ => bind_same rfl fun _ _ => bind_same (require_congr (by omega)) ?_
    intro _ hroom
    have hle := require_eq_ok.mp hroom
    exact h.parseLengthBytes _ (pos+1) 0 (by omega)

/-- An element through the window. -/
theorem Window.parseElement (h : Window inner outer off) {size : ℕ} (hsize : size ≤ inner.length)
    (pos : ℕ) : parseElement outer (off+size) (off+pos)=
      (Asn1.parseElement inner size pos).map (Element.shift off) := by
  unfold Asn1.parseElement
  refine bind_map (h.parseTag hsize pos) ?_
  rintro ⟨tagByte,tagNumber,lengthPos⟩ _
  refine bind_map (h.parseLength hsize lengthPos) ?_
  rintro ⟨contentLength,contentPos⟩ _
  have htotal : off+contentPos+contentLength-(off+pos)=contentPos+contentLength-pos := by omega
  refine bind_same (require_congr (by omega)) ?_
  intro _ _
  rw [htotal]
  rfl

/-- The children loop through the window. -/
theorem Window.parseChildren (h : Window inner outer off) {stop : ℕ} (hstop : stop ≤ inner.length)
    (iterations pos : ℕ) : parseChildren outer (off+stop) iterations (off+pos)=
      (Asn1.parseChildren inner stop iterations pos).map (List.map (Element.shift off)) := by
  induction iterations generalizing pos with
  | zero => rfl
  | succ iterations ih =>
    unfold Asn1.parseChildren
    by_cases hpos : pos < stop
    · rw [if_pos hpos,if_pos (by omega)]
      refine bind_map (m := Option.map (Element.shift off)) ?_ ?_
      · rw [h.parseElement hstop pos]
        exact attempt_map _ _
      · intro child _
        cases child with
        | none => rfl
        | some child =>
          have hnext := ih (pos+child.totalLength)
          rw [←Nat.add_assoc] at hnext
          exact bind_map hnext fun rest _ => rfl
    · rw [if_neg hpos,if_neg (by omega)]
      rfl

/-- The children of a region through the window. -/
theorem Window.parseSequenceChildren (h : Window inner outer off) (offset length : ℕ)
    (hregion : offset+length ≤ inner.length) :
    parseSequenceChildren outer (off+offset) length=
      (Asn1.parseSequenceChildren inner offset length).map (List.map (Element.shift off)) := by
  unfold Asn1.parseSequenceChildren
  rw [Nat.add_assoc]
  exact h.parseChildren hregion length offset

/-- A copied range through the window. -/
theorem Window.readSlice (h : Window inner outer off) {start length : ℕ}
    (hregion : start+length ≤ inner.length) :
    readSlice outer (off+start) length=ByteView.readSlice inner start length := by
  have hroom := h.room
  have hslice : slice outer (off+start) length=slice inner start length := by
    apply List.ext_getElem?
    intro k
    rw [slice_getElem?,slice_getElem?]
    split
    · rw [Nat.add_assoc,h.same (start+k) (by omega)]
    · rfl
  unfold ByteView.readSlice
  rw [if_pos hregion,if_pos (by omega),hslice]

end Window

end Gcad.Asn1
