import Gcad.DerHeaders
import Gcad.DerTiling

/-!
# The grammar of encodings

Tag-length-value encodings as a grammar of bytes, apart from any reader: the
identifier octets, the length octets and as many content bytes as they say.
`parse_element` accepts exactly the places where such an encoding begins and
fits into the region, so the children of a region reach its end exactly when
the region is a sequence of encodings.
-/

namespace Gcad.DerGrammar

open Common ByteView CheckedLogic Digits Bignum Asn1 DerSafety OidAliases DerTiling DerHeaders

/-- Identifier octets: one byte whose five low bits are not all set, or one
whose low bits are, in front of one to five base-128 digits of which the
last one ends the tag number. -/
inductive Identifier : Bytes → Prop
  | low {b : UInt8} (h : b.toNat%32≠31) : Identifier [b]
  | high {b last : UInt8} {digits : Bytes} (h : b.toNat%32=31)
      (hdigits : ∀ d ∈ digits, 128 ≤ d.toNat) (hcount : digits.length < 5)
      (hlast : last.toNat < 128) : Identifier (b::(digits++[last]))

/-- Length octets of a number: one byte below 128, or one to eight
big-endian octets after the byte with their count. -/
inductive LengthOctets : ℕ → Bytes → Prop
  | short {b : UInt8} (h : b.toNat < 128) : LengthOctets b.toNat [b]
  | long {b : UInt8} {octets : Bytes} (hcount : b.toNat=128+octets.length)
      (hsome : octets≠[]) (hroom : octets.length ≤ 8) : LengthOctets (beValue octets) (b::octets)

/-- A complete encoding: identifier octets, length octets and a content of
that length. -/
inductive Encoding : Bytes → Prop
  | mk {identifier octets content : Bytes} (hidentifier : Identifier identifier)
      (hoctets : LengthOctets content.length octets) : Encoding (identifier++(octets++content))

/-- One complete encoding after the other, with nothing behind the last. -/
inductive Encodings : Bytes → Prop
  | nil : Encodings []
  | cons {encoding rest : Bytes} (hfirst : Encoding encoding) (hrest : Encodings rest) :
      Encodings (encoding++rest)

/-- An encoding is not empty. -/
theorem Encoding.ne_nil {bytes : Bytes} (h : Encoding bytes) : bytes≠[] := by
  cases h with
  | mk hidentifier hoctets => cases hidentifier <;> simp

section Places

variable {data : Bytes} {pos : ℕ}

/-- The byte at the front of what is left. -/
theorem byteAt_of_drop {b : UInt8} {rest : Bytes} (h : data.drop pos=b::rest) :
    pos < data.length ∧ byteAt data pos=b.toNat ∧ data.drop (pos+1)=rest := by
  have hpos : pos < data.length := by
    by_contra hnot
    rw [List.drop_eq_nil_of_le (Nat.not_lt.mp hnot)] at h
    cases h
  obtain ⟨first,hfirst,hdrop⟩ := drop_eq_cons hpos
  obtain ⟨rfl,hrest⟩ := List.cons.inj (h.symm.trans hdrop)
  exact ⟨hpos,hfirst.symm,hrest.symm⟩

/-- What is left after a first part. -/
theorem drop_of_append {first rest : Bytes} (h : data.drop pos=first++rest) :
    data.drop (pos+first.length)=rest := by
  rw [←List.drop_drop,h,List.drop_left]

/-- The first part of what is left. -/
theorem slice_of_append {first rest : Bytes} (h : data.drop pos=first++rest) :
    slice data pos first.length=first := by
  rw [slice,h,List.take_left]

/-- A range in two parts. -/
theorem slice_add (n m : ℕ) : slice data pos (n+m)=slice data pos n++slice data (pos+n) m := by
  rw [slice,slice,slice,List.take_add,List.drop_drop]

end Places

section Reader

variable {data : Bytes}

/-- The high-tag loop accepts a run of digits that is ended in time. -/
theorem parseHighTag_of_digits {last : UInt8} (hlast : last.toNat < 128) {digits rest : Bytes}
    (hdigits : ∀ d ∈ digits, 128 ≤ d.toNat) {iterations pos : ℕ} (value : ℕ)
    (hcount : digits.length < iterations) (hdrop : data.drop pos=digits++last::rest) :
    ∃ tagNumber, parseHighTag data data.length iterations pos value=
      .ok (tagNumber,pos+(digits.length+1)) := by
  obtain ⟨iterations,rfl⟩ : ∃ n, iterations=n+1 := Nat.exists_eq_succ_of_ne_zero (by omega)
  induction digits generalizing iterations pos value with
  | nil =>
    obtain ⟨hpos,hbyte,-⟩ := byteAt_of_drop hdrop
    refine ⟨(value <<< 7 ||| byteAt data pos &&& 0x7f)%2^32,?_⟩
    have hbit : byteAt data pos &&& 0x80=0 := by
      rw [and_high_bit,hbyte]
      omega
    unfold parseHighTag
    refine bind_eq_ok.mpr ⟨(),require_eq_ok.mpr hpos,bind_eq_ok.mpr
      ⟨_,readByte_eq_ok.mpr ⟨hpos,rfl⟩,?_⟩⟩
    dsimp only
    rw [if_pos hbit]
    rfl
  | cons digit digits ih =>
    obtain ⟨hpos,hbyte,hrest⟩ := byteAt_of_drop hdrop
    have hhigh := hdigits digit List.mem_cons_self
    have hlt := digit.toNat_lt
    have hbit : byteAt data pos &&& 0x80≠0 := by
      rw [and_high_bit,hbyte]
      omega
    rw [List.length_cons] at hcount
    obtain ⟨more,rfl⟩ : ∃ n, iterations=n+1 := Nat.exists_eq_succ_of_ne_zero (by omega)
    obtain ⟨tagNumber,hloop⟩ := ih (fun d hd => hdigits d (List.mem_cons_of_mem _ hd))
      ((value <<< 7 ||| byteAt data pos &&& 0x7f)%2^32) hrest more (by omega)
    refine ⟨tagNumber,?_⟩
    unfold parseHighTag
    refine bind_eq_ok.mpr ⟨(),require_eq_ok.mpr hpos,bind_eq_ok.mpr
      ⟨_,readByte_eq_ok.mpr ⟨hpos,rfl⟩,?_⟩⟩
    dsimp only
    rw [if_neg hbit,hloop,List.length_cons]
    exact congrArg (fun after => Except.ok (tagNumber,after)) (by omega)

/-- It accepts nothing else. -/
theorem digits_of_parseHighTag {iterations pos value : ℕ} {r : ℕ×ℕ}
    (h : parseHighTag data data.length iterations pos value=.ok r) :
    ∃ digits last, slice data pos (r.2-pos)=digits++[last] ∧ (∀ d ∈ digits, 128 ≤ d.toNat) ∧
      digits.length < iterations ∧ last.toNat < 128 ∧ r.2=pos+(digits.length+1) := by
  induction iterations generalizing pos value with
  | zero => cases h
  | succ iterations ih =>
    unfold parseHighTag at h
    obtain ⟨_,-,h⟩ := bind_eq_ok.mp h
    obtain ⟨v,hread,h⟩ := bind_eq_ok.mp h
    obtain ⟨hpos,rfl⟩ := readByte_eq_ok.mp hread
    have hlt := byteAt_lt data pos
    rw [and_high_bit] at h
    dsimp only at h
    split at h
    · next hbit =>
      obtain rfl := pure_eq_ok.mp h
      obtain ⟨b,hb,hslice⟩ := slice_succ hpos 0
      have hempty : slice data (pos+1) 0=[] := List.take_zero
      refine ⟨[],b,?_,by simp,Nat.succ_pos _,by omega,rfl⟩
      rw [Nat.add_sub_cancel_left,hslice,hempty,List.nil_append]
    · next hbit =>
      obtain ⟨digits,last,hslice,hdigits,hcount,hlast,hend⟩ := ih h
      obtain ⟨b,hb,hcons⟩ := slice_succ hpos (r.2-(pos+1))
      have hwidth : r.2-pos=r.2-(pos+1)+1 := by omega
      refine ⟨b::digits,last,?_,?_,Nat.succ_lt_succ hcount,hlast,?_⟩
      · rw [hwidth,hcons,hslice,List.cons_append]
      · intro d hd
        rcases List.mem_cons.mp hd with rfl | hd
        · omega
        · exact hdigits d hd
      · rw [hend,List.length_cons]
        omega

/-- Identifier octets are read to their end. -/
theorem parseTag_of_identifier {identifier rest : Bytes} {pos : ℕ} (h : Identifier identifier)
    (hdrop : data.drop pos=identifier++rest) :
    ∃ tagByte tagNumber, parseTag data data.length pos=
      .ok (tagByte,tagNumber,pos+identifier.length) := by
  have hmod : ∀ n : ℕ, n &&& 0x1f=n%32 := fun n => Nat.and_two_pow_sub_one_eq_mod n 5
  cases h with
  | @low b hlow =>
    obtain ⟨hpos,hbyte,-⟩ := byteAt_of_drop hdrop
    refine ⟨byteAt data pos,byteAt data pos &&& 0x1f,?_⟩
    unfold parseTag
    refine bind_eq_ok.mpr ⟨(),require_eq_ok.mpr hpos,bind_eq_ok.mpr
      ⟨_,readByte_eq_ok.mpr ⟨hpos,rfl⟩,?_⟩⟩
    rw [if_neg (by rw [hmod,hbyte]; exact hlow)]
    rfl
  | @high b last digits hhigh hdigits hcount hlast =>
    rw [List.cons_append,List.append_assoc] at hdrop
    obtain ⟨hpos,hbyte,hrest⟩ := byteAt_of_drop hdrop
    obtain ⟨tagNumber,hloop⟩ := parseHighTag_of_digits hlast hdigits 0 hcount hrest
    refine ⟨byteAt data pos,tagNumber,?_⟩
    unfold parseTag
    refine bind_eq_ok.mpr ⟨(),require_eq_ok.mpr hpos,bind_eq_ok.mpr
      ⟨_,readByte_eq_ok.mpr ⟨hpos,rfl⟩,?_⟩⟩
    rw [if_pos (by rw [hmod,hbyte]; exact hhigh)]
    refine bind_eq_ok.mpr ⟨_,hloop,?_⟩
    rw [List.length_cons,List.length_append,List.length_singleton]
    exact congrArg (fun after => Except.ok (byteAt data pos,tagNumber,after)) (by omega)

/-- What a tag was read from are identifier octets. -/
theorem identifier_of_parseTag {pos : ℕ} {r : ℕ×ℕ×ℕ} (h : parseTag data data.length pos=.ok r) :
    Identifier (slice data pos (r.2.2-pos)) ∧ r.2.2 ≤ data.length := by
  have hmod : ∀ n : ℕ, n &&& 0x1f=n%32 := fun n => Nat.and_two_pow_sub_one_eq_mod n 5
  unfold parseTag at h
  obtain ⟨_,-,h⟩ := bind_eq_ok.mp h
  obtain ⟨v,hread,h⟩ := bind_eq_ok.mp h
  obtain ⟨hpos,rfl⟩ := readByte_eq_ok.mp hread
  rw [hmod] at h
  split at h
  · next hhigh =>
    obtain ⟨⟨tagNumber,after⟩,hloop,h⟩ := bind_eq_ok.mp h
    obtain rfl := pure_eq_ok.mp h
    obtain ⟨digits,last,hslice,hdigits,hcount,hlast,hend⟩ := digits_of_parseHighTag hloop
    obtain ⟨b,hb,hcons⟩ := slice_succ hpos (after-(pos+1))
    have hwidth : after-pos=after-(pos+1)+1 := by
      dsimp only at hend
      omega
    dsimp only at hslice hend ⊢
    rw [hwidth,hcons,hslice]
    refine ⟨.high (by rw [hb]; exact hhigh) hdigits hcount hlast,?_⟩
    have hlength := congrArg List.length hslice
    rw [slice,List.length_take,List.length_drop,List.length_append,List.length_singleton] at hlength
    omega
  · next hlow =>
    obtain rfl := pure_eq_ok.mp h
    obtain ⟨b,hb,hcons⟩ := slice_succ hpos 0
    have hempty : slice data (pos+1) 0=[] := List.take_zero
    dsimp only
    rw [Nat.add_sub_cancel_left,hcons,hempty]
    exact ⟨.low (by rw [hb]; exact hlow),hpos⟩

/-- Length octets are read as their number. -/
theorem parseLength_of_octets {n : ℕ} {octets rest : Bytes} {pos : ℕ} (h : LengthOctets n octets)
    (hdrop : data.drop pos=octets++rest) :
    parseLength data data.length pos=.ok (n,pos+octets.length) := by
  cases h with
  | @short b hshort =>
    obtain ⟨hpos,hbyte,-⟩ := byteAt_of_drop hdrop
    rw [parseLength_short hpos (by omega),hbyte]
    rfl
  | @long b octets hcount hsome hroom =>
    rw [List.cons_append] at hdrop
    obtain ⟨hpos,hbyte,hrest⟩ := byteAt_of_drop hdrop
    obtain ⟨k,hk⟩ : ∃ k, octets.length=k+1 :=
      Nat.exists_eq_succ_of_ne_zero (mt List.length_eq_zero_iff.mp hsome)
    have hslice := slice_of_append hrest
    have htotal := congrArg List.length hrest
    rw [List.length_drop,List.length_append] at htotal
    rw [hk] at hslice
    rw [parseLength_long (k:=k) (by omega) (by omega) (by omega),hslice,List.length_cons,hk]
    exact congrArg (fun after => Except.ok (beValue octets,after)) (by omega)

/-- What a length was read from are its octets. -/
theorem octets_of_parseLength {pos : ℕ} {r : ℕ×ℕ} (h : parseLength data data.length pos=.ok r) :
    LengthOctets r.1 (slice data pos (r.2-pos)) := by
  obtain ⟨hpos,hcases⟩ := parseLength_cases h
  rcases hcases with ⟨hshort,rfl⟩ | ⟨k,hcount,hk,hroom,rfl⟩
  · obtain ⟨b,hb,hcons⟩ := slice_succ hpos 0
    have hempty : slice data (pos+1) 0=[] := List.take_zero
    dsimp only
    rw [Nat.add_sub_cancel_left,hcons,hempty,←hb]
    exact .short (by omega)
  · obtain ⟨b,hb,hcons⟩ := slice_succ hpos (k+1)
    have hsize : (slice data (pos+1) (k+1)).length=k+1 := slice_length hroom
    have hwidth : pos+1+(k+1)-pos=k+1+1 := by omega
    dsimp only
    rw [hwidth,hcons]
    refine .long (by omega) (fun hnil => ?_) (by omega)
    rw [hnil] at hsize
    cases hsize

/-- An encoding that fits is accepted over its whole length. -/
theorem parseElement_of_encoding {encoding rest : Bytes} {pos : ℕ} (h : Encoding encoding)
    (hdrop : data.drop pos=encoding++rest) :
    ∃ el, parseElement data data.length pos=.ok el ∧ el.totalLength=encoding.length := by
  cases h with
  | @mk identifier octets content hidentifier hoctets =>
    rw [List.append_assoc] at hdrop
    obtain ⟨tagByte,tagNumber,htag⟩ := parseTag_of_identifier hidentifier hdrop
    have hafter := drop_of_append hdrop
    rw [List.append_assoc] at hafter
    have hlength := parseLength_of_octets hoctets hafter
    have hroom := congrArg List.length (drop_of_append hafter)
    rw [List.length_drop,List.length_append] at hroom
    have hle := (parseLength_bounds hlength).2
    unfold parseElement
    refine ⟨_,bind_eq_ok.mpr ⟨_,htag,bind_eq_ok.mpr ⟨_,hlength,bind_eq_ok.mpr
      ⟨(),require_eq_ok.mpr ?_,rfl⟩⟩⟩,?_⟩
    · omega
    · dsimp only
      rw [List.length_append,List.length_append]
      omega

/-- What an element was read from is an encoding. -/
theorem encoding_of_parseElement {pos : ℕ} {el : Element}
    (h : parseElement data data.length pos=.ok el) :
    Encoding (slice data pos el.totalLength) := by
  have hbounds := parseElement_bounds h
  unfold parseElement at h
  obtain ⟨⟨tagByte,tagNumber,lengthPos⟩,htag,h⟩ := bind_eq_ok.mp h
  obtain ⟨⟨contentLength,contentPos⟩,hlength,h⟩ := bind_eq_ok.mp h
  obtain ⟨_,-,h⟩ := bind_eq_ok.mp h
  obtain rfl := pure_eq_ok.mp h
  have hidentifier := (identifier_of_parseTag htag).1
  have hoctets := octets_of_parseLength hlength
  have htagpos := parseTag_bounds htag
  have hlengthpos := parseLength_bounds hlength
  dsimp only at hbounds hidentifier hoctets htagpos hlengthpos ⊢
  have hcontent : (slice data contentPos contentLength).length=contentLength :=
    slice_length (by omega)
  rw [←hcontent] at hoctets
  have hsplit : slice data pos (contentPos+contentLength-pos)=
      slice data pos (lengthPos-pos)++(slice data lengthPos (contentPos-lengthPos)++
        slice data contentPos contentLength) := by
    have hwidth : contentPos+contentLength-pos=lengthPos-pos+(contentPos-lengthPos+contentLength) := by
      omega
    have hfirst : pos+(lengthPos-pos)=lengthPos := by omega
    have hsecond : lengthPos+(contentPos-lengthPos)=contentPos := by omega
    rw [hwidth,slice_add,slice_add,hfirst,hsecond]
  rw [hsplit]
  exact .mk hidentifier hoctets

end Reader

section Children

variable {data : Bytes} {stop : ℕ}

/-- Cutting the buffer off at the end of a region leaves the region. -/
theorem drop_take_eq_slice (pos : ℕ) : (data.take stop).drop pos=slice data pos (stop-pos) :=
  List.drop_take

/-- An encoding at the front of the rest of a region is a child. -/
theorem child_of_encoding (hstop : stop ≤ data.length) {pos : ℕ} {encoding rest : Bytes}
    (h : Encoding encoding) (hregion : slice data pos (stop-pos)=encoding++rest) :
    ∃ el, parseElement data stop pos=.ok el ∧ el.totalLength=encoding.length := by
  have hlength : (data.take stop).length=stop := List.length_take_of_le hstop
  rw [←drop_take_eq_slice] at hregion
  obtain ⟨el,hel,htotal⟩ := parseElement_of_encoding h hregion
  rw [hlength,parseElement_take hstop] at hel
  exact ⟨el,hel,htotal⟩

/-- A child is an encoding at the front of the rest of the region. -/
theorem encoding_of_child (hstop : stop ≤ data.length) {pos : ℕ} {el : Element}
    (h : parseElement data stop pos=.ok el) : Encoding (slice data pos el.totalLength) ∧
      slice data pos (stop-pos)=slice data pos el.totalLength++
        slice data (pos+el.totalLength) (stop-(pos+el.totalLength)) := by
  have hlength : (data.take stop).length=stop := List.length_take_of_le hstop
  have hbounds := parseElement_bounds h
  have hsplit : stop-pos=el.totalLength+(stop-(pos+el.totalLength)) := by omega
  have hsame : slice (data.take stop) pos el.totalLength=slice data pos el.totalLength := by
    rw [slice,drop_take_eq_slice,slice,slice,List.take_take,Nat.min_eq_left (by omega)]
  refine ⟨?_,by rw [hsplit,slice_add]⟩
  rw [←hsame]
  refine encoding_of_parseElement ?_
  rw [hlength,parseElement_take hstop]
  exact h

/-- Where a child is read from a sequence of encodings, the rest behind it
is a sequence of encodings. -/
theorem encodings_behind_child (hstop : stop ≤ data.length) {pos : ℕ} {el : Element}
    (hel : parseElement data stop pos=.ok el) (h : Encodings (slice data pos (stop-pos))) :
    Encodings (slice data (pos+el.totalLength) (stop-(pos+el.totalLength))) := by
  obtain ⟨hencoding,hregion⟩ := encoding_of_child hstop hel
  have hlength : (slice data pos el.totalLength).length=el.totalLength := by
    have hbounds := parseElement_bounds hel
    exact slice_length (by omega)
  generalize hwhole : slice data pos (stop-pos)=region at h
  cases h with
  | nil =>
    rw [hwhole] at hregion
    exact absurd (List.append_eq_nil_iff.mp hregion.symm).1 hencoding.ne_nil
  | @cons encoding rest hfirst hrest =>
    obtain ⟨found,hfound,htotal⟩ := child_of_encoding hstop hfirst hwhole
    obtain rfl := Except.ok.inj (hel.symm.trans hfound)
    rw [hwhole] at hregion
    rw [←(List.append_inj hregion (by rw [hlength,htotal])).2]
    exact hrest

/-- The children of a region reach its end exactly when the region is a
sequence of encodings. -/
theorem tiles_iff_encodings (hstop : stop ≤ data.length) {iterations pos : ℕ}
    {children : List Element} (hpos : pos ≤ stop) (hiterations : stop-pos ≤ iterations)
    (h : parseChildren data stop iterations pos=.ok children) :
    Tiles data pos children stop ↔ Encodings (slice data pos (stop-pos)) := by
  induction iterations generalizing pos children with
  | zero =>
    cases h
    obtain rfl : pos=stop := by omega
    refine iff_of_true rfl ?_
    rw [Nat.sub_self]
    exact .nil
  | succ iterations ih =>
    rw [parseChildren] at h
    split at h
    · next hlt =>
      cases hel : parseElement data stop pos with
      | ok child =>
        rw [hel] at h
        obtain ⟨found,hfound,h⟩ := bind_eq_ok.mp h
        cases hfound
        obtain ⟨rest,hrest,h⟩ := bind_eq_ok.mp h
        obtain rfl := pure_eq_ok.mp h
        have hbounds := parseElement_bounds hel
        have hnext := ih (by omega) (by omega) hrest
        obtain ⟨hencoding,hregion⟩ := encoding_of_child hstop hel
        constructor
        · rintro ⟨-,-,-,-,htail⟩
          rw [hregion]
          exact .cons hencoding (hnext.mp htail)
        · intro hencodings
          have hraw : rawBytes data child=.ok (slice data pos child.totalLength) :=
            rawBytes_eq (by omega) (by omega) (hbounds.2.1.trans hstop)
          exact ⟨by omega,by omega,by omega,hraw,
            hnext.mpr (encodings_behind_child hstop hel hencodings)⟩
      | error fault =>
        cases fault with
        | rejected =>
          rw [hel] at h
          obtain rfl := pure_eq_ok.mp h
          refine iff_of_false (fun hend => hlt.ne' hend) fun hencodings => ?_
          generalize hwhole : slice data pos (stop-pos)=region at hencodings
          cases hencodings with
          | nil =>
            have hsize : (slice data pos (stop-pos)).length=stop-pos := slice_length (by omega)
            rw [hwhole,List.length_nil] at hsize
            omega
          | cons hfirst hrest =>
            obtain ⟨found,hfound,-⟩ := child_of_encoding hstop hfirst hwhole
            rw [hel] at hfound
            cases hfound
        | outOfBounds => exact absurd hel (parseElement_stays hstop pos).ne_outOfBounds
    · next hge =>
      cases h
      obtain rfl : pos=stop := by omega
      refine iff_of_true rfl ?_
      rw [Nat.sub_self]
      exact .nil

/-- The children of an element of the buffer reach the end of its content
exactly when the content is a sequence of encodings. -/
theorem childrenOf_tiles_iff {el : Element} {children : List Element} (h : Within data el)
    (hchildren : childrenOf data el=.ok children) :
    Tiles data el.contentOffset children (el.contentOffset+el.contentLength) ↔
      Encodings (slice data el.contentOffset el.contentLength) := by
  have hiff := tiles_iff_encodings h (Nat.le_add_right _ _) (by omega) hchildren
  rw [Nat.add_sub_cancel_left] at hiff
  exact hiff

end Children

end Gcad.DerGrammar
