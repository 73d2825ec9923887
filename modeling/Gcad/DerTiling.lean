import Gcad.DerSafety

/-!
# Children tile their region

The children loop starts each child where the previous one ends, so the
children are contiguous and cover the region up to the place where the loop
stopped. The bytes `raw_bytes` copies for a child are its tile.
-/

namespace Gcad.DerTiling

open Common ByteView CheckedLogic Asn1 X509 Pkcs7 DerSafety

/-- Elements that follow each other without a gap from a position up to a
last one, each with its encoding in between. -/
def Tiles (data : Bytes) : ℕ → List Element → ℕ → Prop
  | pos,[],last => last=pos
  | pos,child::rest,last =>
    pos < child.contentOffset ∧
    child.contentOffset+child.contentLength=pos+child.totalLength ∧
    2 ≤ child.totalLength ∧
    rawBytes data child=.ok (slice data pos child.totalLength) ∧
    Tiles data (pos+child.totalLength) rest last

section Children

variable {data : Bytes}

/-- The encoding of an element is what stands between its start and end. -/
theorem rawBytes_eq {el : Element} {pos : ℕ} (hstart : pos < el.contentOffset)
    (hend : el.contentOffset+el.contentLength=pos+el.totalLength) (h : Within data el) :
    rawBytes data el=.ok (slice data pos el.totalLength) := by
  unfold Within at h
  have hpos : el.contentOffset-(el.totalLength-el.contentLength)=pos := by omega
  unfold rawBytes
  rw [if_neg (by omega),if_neg (by omega),hpos]
  exact readSlice_eq_ok.mpr ⟨by omega,rfl⟩

/-- The children loop covers its region up to the first place where no
element can be read. -/
theorem parseChildren_tiles {stop iterations pos : ℕ} {children : List Element}
    (hstop : stop ≤ data.length) (hpos : pos ≤ stop) (hiterations : stop-pos ≤ iterations)
    (h : parseChildren data stop iterations pos=.ok children) :
    ∃ last, Tiles data pos children last ∧ last ≤ stop ∧
      (last < stop → parseElement data stop last=.error .rejected) := by
  induction iterations generalizing pos children with
  | zero =>
    cases h
    exact ⟨pos,rfl,hpos,fun hlt => absurd hlt (by omega)⟩
  | succ iterations ih =>
    have hstays := parseElement_stays hstop pos
    unfold parseChildren at h
    split at h
    · cases hel : parseElement data stop pos with
      | ok child =>
        have hbounds := parseElement_bounds hel
        rw [hel] at h
        obtain ⟨found,hfound,h⟩ := bind_eq_ok.mp h
        cases hfound
        obtain ⟨rest,hrest,h⟩ := bind_eq_ok.mp h
        obtain rfl := pure_eq_ok.mp h
        obtain ⟨last,htiles,hlast,hreject⟩ := ih (by omega) (by omega) hrest
        have hwithin : Within data child := hbounds.2.1.trans hstop
        refine ⟨last,⟨by omega,by omega,by omega,?_,htiles⟩,hlast,hreject⟩
        exact rawBytes_eq (by omega) (by omega) hwithin
      | error fault =>
        cases fault with
        | rejected =>
          rw [hel] at h
          obtain rfl := pure_eq_ok.mp h
          exact ⟨pos,rfl,hpos,fun _ => hel⟩
        | outOfBounds => exact absurd hel hstays.ne_outOfBounds
    · cases h
      exact ⟨pos,rfl,hpos,fun hlt => absurd hlt ‹¬pos < stop›⟩

/-- The children of a region inside the buffer. -/
theorem parseSequenceChildren_tiles {offset length : ℕ} (h : offset+length ≤ data.length) :
    ∃ children last, parseSequenceChildren data offset length=.ok children ∧
      Tiles data offset children last ∧ last ≤ offset+length ∧
      (last < offset+length → parseElement data (offset+length) last=.error .rejected) := by
  obtain ⟨children,hchildren⟩ := parseChildren_returns h length offset
  obtain ⟨last,htiles⟩ := parseChildren_tiles h (Nat.le_add_right _ _) (by omega) hchildren
  exact ⟨children,last,hchildren,htiles⟩

end Children

/-- A buffer cut off at a size is a window of the whole. -/
theorem window_take {data : Bytes} {size : ℕ} (h : size ≤ data.length) :
    Window (data.take size) data 0 := by
  have hlength : (data.take size).length=size := List.length_take_of_le h
  refine ⟨by omega,?_⟩
  intro i hi
  rw [Nat.zero_add,List.getElem?_take_of_lt (by omega)]

/-- Cutting the buffer off at the size does not change the element. -/
theorem parseElement_take {data : Bytes} {size : ℕ} (h : size ≤ data.length) (offset : ℕ) :
    parseElement (data.take size) size offset=parseElement data size offset := by
  have hlength : (data.take size).length=size := List.length_take_of_le h
  have hwindow := (window_take h).parseElement hlength.ge offset
  rw [Nat.zero_add,Nat.zero_add] at hwindow
  rw [hwindow]
  match parseElement (data.take size) size offset with
  | .ok el =>
    change Except.ok el=Except.ok (Element.shift 0 el)
    unfold Element.shift
    rw [Nat.zero_add]
  | .error fault => rfl

/-- The DER reader stays inside its bounds: an element lies in its region,
also when nothing behind the size exists; the children of a region tile a
prefix of it, however many rounds the loop is given; and the parsers of
certificates and of signatures read only inside their input. -/
theorem der_reader_bounds_and_tiling :
    (∀ (data : Bytes) (size offset : ℕ) (el : Element),
      parseElement data size offset=.ok el →
      offset < el.contentOffset ∧ el.contentOffset+el.contentLength=offset+el.totalLength ∧
        offset+el.totalLength ≤ size ∧ 2 ≤ el.totalLength) ∧
    (∀ (data : Bytes) (size offset : ℕ), size ≤ data.length →
      parseElement (data.take size) size offset≠.error .outOfBounds ∧
        parseElement (data.take size) size offset=parseElement data size offset) ∧
    (∀ (data : Bytes) (offset length : ℕ), offset+length ≤ data.length →
      ∃ children last, parseSequenceChildren data offset length=.ok children ∧
        (∀ iterations, length ≤ iterations →
          parseChildren data (offset+length) iterations offset=.ok children) ∧
        Tiles data offset children last ∧ last ≤ offset+length) ∧
    (∀ (σ : Type) (sha256 : HashContext σ Bytes) (der : Bytes),
      X509.parse sha256 der≠.error .outOfBounds) ∧
    (∀ (σ : Type) (sha256 : HashContext σ Bytes) (der : Bytes),
      Pkcs7.parse sha256 der≠.error .outOfBounds) := by
  refine ⟨?_,?_,?_,?_,?_⟩
  · intro data size offset el h
    have hbounds := parseElement_bounds h
    omega
  · intro data size offset h
    have hlength : (data.take size).length=size := List.length_take_of_le h
    exact ⟨(parseElement_stays hlength.ge offset).ne_outOfBounds,parseElement_take h offset⟩
  · intro data offset length h
    obtain ⟨children,last,hchildren,htiles,hlast,-⟩ := parseSequenceChildren_tiles h
    refine ⟨children,last,hchildren,?_,htiles,hlast⟩
    intro iterations hiterations
    have hsame : parseChildren data (offset+length) iterations offset=
        parseChildren data (offset+length) length offset :=
      parseChildren_iterations (by omega) (by omega)
    rw [hsame]
    exact hchildren
  · intro σ sha256 der
    exact (x509_parse_stays sha256 der).ne_outOfBounds
  · intro σ sha256 der
    exact (pkcs7_parse_stays sha256 der).ne_outOfBounds

/-- The children of a region of two integers. -/
theorem der_reader_fixture :
    ∃ children last, parseSequenceChildren [0x02,0x01,0x05,0x02,0x01,0x07] 0 6=.ok children ∧
      (∀ iterations, 6 ≤ iterations →
        parseChildren [0x02,0x01,0x05,0x02,0x01,0x07] 6 iterations 0=.ok children) ∧
      Tiles [0x02,0x01,0x05,0x02,0x01,0x07] 0 children last ∧ last ≤ 6 :=
  der_reader_bounds_and_tiling.2.2.1 [0x02,0x01,0x05,0x02,0x01,0x07] 0 6 (by decide)

end Gcad.DerTiling
