import Gcad.CheckedLogic
import Gcad.Pkcs7

/-!
# The DER parsers stay inside their buffers

Every element the reader returns lies in its region, and the parsers of
certificates and signatures only follow elements of the buffer they came
from. Hence no index outside the input is read, whatever the input.
-/

namespace Gcad.DerSafety

open Common ByteView CheckedLogic Asn1 X509 Pkcs7

/-- The content of an element lies in a buffer. -/
def Within (data : Bytes) (el : Element) : Prop := el.contentOffset+el.contentLength ≤ data.length

/-- Elements of a buffer. -/
def AllWithin (data : Bytes) (elements : List Element) : Prop := ∀ el ∈ elements, Within data el

section Reader

variable {data : Bytes} {size : ℕ}

/-- The high-tag loop reads below the size. -/
theorem parseHighTag_stays (h : size ≤ data.length) (iterations pos tagNumber : ℕ) :
    Stays (parseHighTag data size iterations pos tagNumber) fun _ => True := by
  induction iterations generalizing pos tagNumber with
  | zero => exact stays_rejected
  | succ iterations ih =>
    unfold parseHighTag
    refine (stays_require _).bind fun _ hpos => ?_
    refine (readByte_stays (by omega)).bind fun b _ => ?_
    exact stays_ite (fun _ => stays_pure trivial) (fun _ => ih _ _)

/-- The length loop reads the bytes it was given room for. -/
theorem parseLengthBytes_stays {remaining pos : ℕ} (h : pos+remaining ≤ data.length)
    (contentLength : ℕ) : Stays (parseLengthBytes data remaining pos contentLength) fun _ => True := by
  induction remaining generalizing pos contentLength with
  | zero => exact trivial
  | succ remaining ih =>
    unfold parseLengthBytes
    refine (readByte_stays (by omega)).bind fun b _ => ?_
    exact ih (by omega) _

/-- The tag is read below the size. -/
theorem parseTag_stays (h : size ≤ data.length) (offset : ℕ) :
    Stays (parseTag data size offset) fun _ => True := by
  unfold parseTag
  refine (stays_require _).bind fun _ hoffset => ?_
  refine (readByte_stays (by omega)).bind fun tagByte _ => ?_
  refine stays_ite (fun _ => ?_) (fun _ => stays_pure trivial)
  exact (parseHighTag_stays h 5 _ 0).bind fun _ _ => stays_pure trivial

/-- The length is read below the size. -/
theorem parseLength_stays (h : size ≤ data.length) (pos : ℕ) :
    Stays (parseLength data size pos) fun _ => True := by
  unfold parseLength
  refine (stays_require _).bind fun _ hpos => ?_
  refine (readByte_stays (by omega)).bind fun lenByte _ => ?_
  refine stays_ite (fun _ => stays_pure trivial) (fun _ => ?_)
  refine (stays_require _).bind fun _ _ => (stays_require _).bind fun _ _ => ?_
  refine (stays_require _).bind fun _ hroom => ?_
  exact parseLengthBytes_stays (by omega) 0

/-- An element is read below the size and lies in its region. -/
theorem parseElement_stays (h : size ≤ data.length) (offset : ℕ) :
    Stays (parseElement data size offset) fun el =>
      offset+2 ≤ el.contentOffset ∧ el.contentOffset+el.contentLength ≤ size ∧
        offset+el.totalLength=el.contentOffset+el.contentLength := by
  have hsafe : Stays (parseElement data size offset) fun _ => True := by
    unfold parseElement
    refine (parseTag_stays h offset).bind fun _ _ => ?_
    refine (parseLength_stays h _).bind fun _ _ => ?_
    exact (stays_require _).bind fun _ _ => stays_pure trivial
  exact stays_of hsafe fun _ hel => parseElement_bounds hel

/-- The children loop returns. -/
theorem parseChildren_returns {stop : ℕ} (h : stop ≤ data.length) (iterations pos : ℕ) :
    ∃ children, parseChildren data stop iterations pos=.ok children := by
  induction iterations generalizing pos with
  | zero => exact ⟨[],rfl⟩
  | succ iterations ih =>
    unfold parseChildren
    split
    · have hstays := parseElement_stays h pos
      cases hel : parseElement data stop pos with
      | ok child =>
        obtain ⟨rest,hrest⟩ := ih (pos+child.totalLength)
        refine ⟨child::rest,?_⟩
        change (parseChildren data stop iterations (pos+child.totalLength) >>= _)=_
        rw [hrest]
        rfl
      | error fault =>
        cases fault with
        | rejected => exact ⟨[],rfl⟩
        | outOfBounds => exact absurd hel hstays.ne_outOfBounds
    · exact ⟨[],rfl⟩

/-- The children of an element of the buffer are elements of the buffer. -/
theorem childrenOf_stays {el : Element} (h : Within data el) :
    Stays (childrenOf data el) (AllWithin data) := by
  obtain ⟨children,hchildren⟩ : ∃ children, childrenOf data el=.ok children :=
    parseChildren_returns h _ _
  have hbounds := childrenOf_bounds hchildren
  rw [hchildren]
  intro child hchild
  have hend := (hbounds child hchild).2
  unfold Within at h ⊢
  omega

/-- The content of an element of the buffer. -/
theorem contentBytes_stays {el : Element} (h : Within data el) :
    Stays (contentBytes data el) fun _ => True :=
  (readSlice_stays h).mono fun _ _ => trivial

/-- The whole encoding of an element of the buffer. -/
theorem rawBytes_stays {el : Element} (h : Within data el) :
    Stays (rawBytes data el) fun _ => True := by
  unfold rawBytes
  refine stays_ite (fun _ => trivial) fun hlength => ?_
  refine stays_ite (fun _ => trivial) fun hoffset => ?_
  unfold Within at h
  exact (readSlice_stays (by omega)).mono fun _ _ => trivial

/-- The integer of an element of the buffer. -/
theorem readUnsignedInteger_stays {el : Element} (h : Within data el) :
    Stays (readUnsignedInteger data el) fun _ => True := by
  unfold readUnsignedInteger
  refine stays_ite (fun _ => stays_pure trivial) fun _ => ?_
  exact (contentBytes_stays h).bind fun _ _ => stays_pure trivial

/-- The object identifier of an element of the buffer. -/
theorem oidToString_stays {el : Element} (h : Within data el) :
    Stays (oidToString data el) fun _ => True := by
  unfold oidToString
  refine stays_ite (fun _ => stays_pure trivial) fun _ => ?_
  exact (contentBytes_stays h).bind fun _ _ => stays_pure trivial

/-- The next field is one of the fields. -/
theorem nextUniversal_stays {elements : List Element} (h : AllWithin data elements)
    (t : UniversalTag) :
    Stays (nextUniversal t elements) fun r => Within data r.1 ∧ AllWithin data r.2 := by
  cases elements with
  | nil => exact stays_rejected
  | cons el rest =>
    obtain ⟨hel,hrest⟩ := List.forall_mem_cons.mp h
    unfold nextUniversal
    exact stays_ite (fun _ => ⟨hel,hrest⟩) fun _ => stays_rejected

/-- Skipping a field leaves fields. -/
theorem skipContext_within {elements : List Element} (h : AllWithin data elements) (number : ℕ) :
    AllWithin data (skipContext number elements) := by
  cases elements with
  | nil => exact h
  | cons el rest =>
    rw [skipContext]
    split
    · exact (List.forall_mem_cons.mp h).2
    · exact h

/-- The algorithm of an element of the buffer. -/
theorem algorithmOid_stays {el : Element} (h : Within data el) :
    Stays (algorithmOid data el) fun _ => True := by
  unfold algorithmOid
  refine (childrenOf_stays h).bind fun children hchildren => ?_
  refine (nextUniversal_stays hchildren _).bind fun r hr => ?_
  refine (oidToString_stays hr.1).bind fun oid _ => ?_
  exact (stays_require _).bind fun _ _ => stays_pure trivial

end Reader

section Certificate

variable {data : Bytes}

/-- A search over elements of the buffer. -/
theorem firstFound_stays {search : Element → Checked (Option Bytes)} {elements : List Element}
    (hsearch : ∀ el, Within data el → Stays (search el) fun _ => True)
    (h : AllWithin data elements) : Stays (firstFound search elements) fun _ => True := by
  induction elements with
  | nil => exact trivial
  | cons el rest ih =>
    obtain ⟨hel,hrest⟩ := List.forall_mem_cons.mp h
    unfold firstFound
    refine (hsearch el hel).bind fun found _ => ?_
    cases found with
    | some value => exact trivial
    | none => exact ih hrest

/-- One attribute of a name. -/
theorem commonNameOfAttribute_stays {atv : Element} (h : Within data atv) :
    Stays (commonNameOfAttribute data atv) fun _ => True := by
  unfold commonNameOfAttribute
  refine stays_ite (fun _ => stays_pure trivial) fun _ => ?_
  refine (childrenOf_stays h).bind fun children hchildren => ?_
  split
  · next type value =>
    obtain ⟨htype,hrest⟩ := List.forall_mem_cons.mp hchildren
    obtain ⟨hvalue,-⟩ := List.forall_mem_cons.mp hrest
    refine stays_ite (fun _ => stays_pure trivial) fun _ => ?_
    refine (oidToString_stays htype).bind fun oid _ => ?_
    refine stays_ite (fun _ => stays_pure trivial) fun _ => ?_
    exact (contentBytes_stays hvalue).bind fun _ _ => stays_pure trivial
  · exact stays_pure trivial

/-- One part of a name. -/
theorem commonNameOfRdn_stays {rdn : Element} (h : Within data rdn) :
    Stays (commonNameOfRdn data rdn) fun _ => True := by
  unfold commonNameOfRdn
  refine stays_ite (fun _ => stays_pure trivial) fun _ => ?_
  refine (childrenOf_stays h).bind fun atvs hatvs => ?_
  exact firstFound_stays (fun _ => commonNameOfAttribute_stays) hatvs

/-- The common name in a name. -/
theorem extractCommonName_stays {nameSeq : Element} (h : Within data nameSeq) :
    Stays (extractCommonName data nameSeq) fun _ => True := by
  unfold extractCommonName
  refine (childrenOf_stays h).bind fun rdns hrdns => ?_
  refine (firstFound_stays (fun _ => commonNameOfRdn_stays) hrdns).bind fun _ _ => ?_
  exact stays_pure trivial

/-- A time. -/
theorem extractTimeString_stays {timeEl : Element} (h : Within data timeEl) :
    Stays (extractTimeString data timeEl) fun _ => True := by
  unfold extractTimeString
  exact stays_ite (fun _ => stays_pure trivial) fun _ => contentBytes_stays h

/-- A BIT STRING. -/
theorem readByteAlignedBitString_stays {el : Element} (h : Within data el) :
    Stays (readByteAlignedBitString data el) fun _ => True := by
  unfold readByteAlignedBitString
  refine (stays_require _).bind fun _ _ => ?_
  refine (contentBytes_stays h).bind fun content _ => ?_
  split
  · exact stays_pure trivial
  · exact stays_rejected

/-- The RSA key in its own buffer. -/
theorem parseRsaPublicKey_stays (keyData : Bytes) :
    Stays (parseRsaPublicKey keyData) fun _ => True := by
  unfold parseRsaPublicKey
  refine (@Stays.attempt _ _ (fun _ => True) ?_).mono fun _ _ => trivial
  refine (parseElement_stays (le_refl keyData.length) 0).bind fun rsaSeq hrsaSeq => ?_
  refine (stays_require _).bind fun _ _ => ?_
  refine (childrenOf_stays hrsaSeq.2.1).bind fun children hchildren => ?_
  split
  · next n e =>
    obtain ⟨hn,hrest⟩ := List.forall_mem_cons.mp hchildren
    obtain ⟨he,-⟩ := List.forall_mem_cons.mp hrest
    refine (stays_require _).bind fun _ _ => ?_
    refine (readUnsignedInteger_stays hn).bind fun _ _ => ?_
    refine (readUnsignedInteger_stays he).bind fun _ _ => ?_
    exact (stays_require _).bind fun _ _ => stays_pure trivial
  · exact stays_rejected

/-- The validity times. -/
theorem parseValidity_stays {el : Element} (h : Within data el) :
    Stays (parseValidity data el) fun _ => True := by
  unfold parseValidity
  refine (childrenOf_stays h).bind fun children hchildren => ?_
  split
  · next first second =>
    obtain ⟨hfirst,hrest⟩ := List.forall_mem_cons.mp hchildren
    obtain ⟨hsecond,-⟩ := List.forall_mem_cons.mp hrest
    refine (extractTimeString_stays hfirst).bind fun _ _ => ?_
    refine (extractTimeString_stays hsecond).bind fun _ _ => ?_
    exact (stays_require _).bind fun _ _ => stays_pure trivial
  · exact stays_rejected

/-- The public key. -/
theorem parsePublicKeyInfo_stays {el : Element} (h : Within data el) :
    Stays (parsePublicKeyInfo data el) fun _ => True := by
  unfold parsePublicKeyInfo
  refine (childrenOf_stays h).bind fun children hchildren => ?_
  split
  · next algorithm key rest =>
    obtain ⟨halgorithm,hrest⟩ := List.forall_mem_cons.mp hchildren
    obtain ⟨hkey,-⟩ := List.forall_mem_cons.mp hrest
    refine (stays_require _).bind fun _ _ => ?_
    refine (algorithmOid_stays halgorithm).bind fun oid _ => ?_
    refine (readByteAlignedBitString_stays hkey).bind fun keyData _ => ?_
    refine stays_ite (fun _ => ?_) fun _ => stays_pure trivial
    exact (parseRsaPublicKey_stays keyData).bind fun _ _ => stays_pure trivial
  · exact stays_rejected

/-- The certificate parser reads only inside its input. -/
theorem x509_parse_stays {σ : Type} (sha256 : HashContext σ Bytes) (der : Bytes) :
    Stays (X509.parse sha256 der) fun _ => True := by
  unfold X509.parse
  refine (parseElement_stays (le_refl der.length) 0).bind fun certSeq hcertSeq => ?_
  refine (stays_require _).bind fun _ _ => ?_
  refine (childrenOf_stays hcertSeq.2.1).bind fun children hchildren => ?_
  split
  · next tbsEl sigAlgEl sigValEl =>
    obtain ⟨htbs,hrest⟩ := List.forall_mem_cons.mp hchildren
    obtain ⟨hsigAlg,hrest⟩ := List.forall_mem_cons.mp hrest
    obtain ⟨hsigVal,-⟩ := List.forall_mem_cons.mp hrest
    refine (stays_require _).bind fun _ _ => (stays_require _).bind fun _ _ => ?_
    refine (rawBytes_stays htbs).bind fun _ _ => ?_
    refine (algorithmOid_stays hsigAlg).bind fun _ _ => ?_
    refine (readByteAlignedBitString_stays hsigVal).bind fun _ _ => ?_
    refine (childrenOf_stays htbs).bind fun tbsChildren htbsChildren => ?_
    refine (nextUniversal_stays (skipContext_within htbsChildren 0) _).bind fun r1 h1 => ?_
    refine (readUnsignedInteger_stays h1.1).bind fun _ _ => ?_
    refine (stays_require _).bind fun _ _ => ?_
    refine (nextUniversal_stays h1.2 _).bind fun r2 h2 => ?_
    refine (nextUniversal_stays h2.2 _).bind fun r3 h3 => ?_
    refine (rawBytes_stays h3.1).bind fun _ _ => ?_
    refine (extractCommonName_stays h3.1).bind fun _ _ => ?_
    refine (nextUniversal_stays h3.2 _).bind fun r4 h4 => ?_
    refine (parseValidity_stays h4.1).bind fun _ _ => ?_
    refine (nextUniversal_stays h4.2 _).bind fun r5 h5 => ?_
    refine (rawBytes_stays h5.1).bind fun _ _ => ?_
    refine (extractCommonName_stays h5.1).bind fun _ _ => ?_
    refine (nextUniversal_stays h5.2 _).bind fun r6 h6 => ?_
    exact (parsePublicKeyInfo_stays h6.1).bind fun _ _ => stays_pure trivial
  · exact stays_rejected

end Certificate

section SignedData

variable {data : Bytes}

/-- An EXPLICIT wrapper. -/
theorem unwrapExplicit_stays {wrapper : Element} (h : Within data wrapper) :
    Stays (unwrapExplicit data wrapper) (Within data) := by
  unfold unwrapExplicit
  refine (childrenOf_stays h).bind fun children hchildren => ?_
  split
  · exact (List.forall_mem_cons.mp hchildren).1
  · exact stays_rejected

/-- The certificates of the set. -/
theorem parseCertificates_stays {σ : Type} (sha256 : HashContext σ Bytes)
    {entries : List Element} (h : AllWithin data entries) :
    Stays (parseCertificates sha256 data entries) fun _ => True := by
  induction entries with
  | nil => exact trivial
  | cons entry rest ih =>
    obtain ⟨hentry,hrest⟩ := List.forall_mem_cons.mp h
    unfold parseCertificates
    refine stays_ite (fun _ => ih hrest) fun _ => ?_
    refine (rawBytes_stays hentry).bind fun raw _ => ?_
    refine (x509_parse_stays sha256 raw).bind fun _ _ => ?_
    exact (ih hrest).bind fun _ _ => stays_pure trivial

/-- The first value of an attribute. -/
theorem readAttributeValue_stays {value : Element} (h : Within data value) (oid : Str)
    (found : SignedAttributes) : Stays (readAttributeValue data oid value found) fun _ => True := by
  unfold readAttributeValue
  refine stays_ite (fun _ => ?_) fun _ => stays_ite (fun _ => ?_) fun _ => stays_pure trivial
  · exact (oidToString_stays h).bind fun _ _ => stays_pure trivial
  · exact (contentBytes_stays h).bind fun _ _ => stays_pure trivial

/-- The fields of an attribute. -/
theorem readAttributeFields_stays {type values : Element} (htype : Within data type)
    (hvalues : Within data values) (found : SignedAttributes) :
    Stays (readAttributeFields data type values found) fun _ => True := by
  unfold readAttributeFields
  refine stays_ite (fun _ => stays_pure trivial) fun _ => ?_
  refine stays_ite (fun _ => stays_pure trivial) fun _ => ?_
  refine (oidToString_stays htype).bind fun oid _ => ?_
  refine (childrenOf_stays hvalues).bind fun children hchildren => ?_
  split
  · exact stays_pure trivial
  · exact readAttributeValue_stays (List.forall_mem_cons.mp hchildren).1 oid found

/-- One attribute. -/
theorem readAttribute_stays {attr : Element} (h : Within data attr) (found : SignedAttributes) :
    Stays (readAttribute data attr found) fun _ => True := by
  unfold readAttribute
  refine stays_ite (fun _ => stays_pure trivial) fun _ => ?_
  refine (childrenOf_stays h).bind fun children hchildren => ?_
  split
  · next type values =>
    obtain ⟨htype,hrest⟩ := List.forall_mem_cons.mp hchildren
    exact readAttributeFields_stays htype (List.forall_mem_cons.mp hrest).1 found
  · exact stays_pure trivial

/-- The attribute loop. -/
theorem readAttributes_stays {attrs : List Element} (h : AllWithin data attrs)
    (found : SignedAttributes) : Stays (readAttributes data attrs found) fun _ => True := by
  induction attrs generalizing found with
  | nil => exact trivial
  | cons attr rest ih =>
    obtain ⟨hattr,hrest⟩ := List.forall_mem_cons.mp h
    unfold readAttributes
    exact (readAttribute_stays hattr found).bind fun next _ => ih hrest next

/-- The signed attributes of an element of the buffer. -/
theorem extractSignedAttributes_stays {attrsEl : Element} (h : Within data attrsEl) :
    Stays (extractSignedAttributes data attrsEl.contentOffset attrsEl.contentLength)
      fun _ => True := by
  unfold extractSignedAttributes
  exact (childrenOf_stays h).bind fun attrs hattrs => readAttributes_stays hattrs ⟨none,none⟩

/-- The issuer and serial number of a signer. -/
theorem parseIssuerAndSerialNumber_stays {el : Element} (h : Within data el) :
    Stays (parseIssuerAndSerialNumber data el) fun _ => True := by
  unfold parseIssuerAndSerialNumber
  refine (childrenOf_stays h).bind fun children hchildren => ?_
  split
  · next issuer serial =>
    obtain ⟨hissuer,hrest⟩ := List.forall_mem_cons.mp hchildren
    refine (stays_require _).bind fun _ _ => ?_
    refine (rawBytes_stays hissuer).bind fun _ _ => ?_
    refine (readUnsignedInteger_stays (List.forall_mem_cons.mp hrest).1).bind fun _ _ => ?_
    exact (stays_require _).bind fun _ _ => stays_pure trivial
  · exact stays_rejected

/-- The next field with a context-specific tag. -/
theorem nextContext_stays {elements : List Element} (h : AllWithin data elements) (number : ℕ) :
    Stays (nextContext number elements) fun r => Within data r.1 ∧ AllWithin data r.2 := by
  cases elements with
  | nil => exact stays_rejected
  | cons el rest =>
    obtain ⟨hel,hrest⟩ := List.forall_mem_cons.mp h
    unfold nextContext
    exact stays_ite (fun _ => ⟨hel,hrest⟩) fun _ => stays_rejected

/-- One signer. -/
theorem parseSignerInfo_stays {siEl : Element} (h : Within data siEl) :
    Stays (parseSignerInfo data siEl) fun _ => True := by
  unfold parseSignerInfo
  refine (childrenOf_stays h).bind fun fields hfields => ?_
  refine (nextUniversal_stays hfields _).bind fun r1 h1 => ?_
  refine (nextUniversal_stays h1.2 _).bind fun r2 h2 => ?_
  refine (parseIssuerAndSerialNumber_stays h2.1).bind fun _ _ => ?_
  refine (nextUniversal_stays h2.2 _).bind fun r3 h3 => ?_
  refine (algorithmOid_stays h3.1).bind fun _ _ => ?_
  refine (nextContext_stays h3.2 0).bind fun r4 h4 => ?_
  refine (contentBytes_stays h4.1).bind fun _ _ => ?_
  refine (extractSignedAttributes_stays h4.1).bind fun _ _ => ?_
  refine (nextUniversal_stays h4.2 _).bind fun r5 h5 => ?_
  refine (algorithmOid_stays h5.1).bind fun _ _ => ?_
  refine (nextUniversal_stays h5.2 _).bind fun r6 h6 => ?_
  refine (contentBytes_stays h6.1).bind fun _ _ => ?_
  exact (stays_require _).bind fun _ _ => stays_pure trivial

/-- The loop over the signers. -/
theorem parseSignerInfos_stays {entries : List Element} (h : AllWithin data entries) :
    Stays (parseSignerInfos data entries) fun _ => True := by
  induction entries with
  | nil => exact trivial
  | cons entry rest ih =>
    obtain ⟨hentry,hrest⟩ := List.forall_mem_cons.mp h
    unfold parseSignerInfos
    refine (stays_require _).bind fun _ _ => ?_
    refine (parseSignerInfo_stays hentry).bind fun _ _ => ?_
    exact (ih hrest).bind fun _ _ => stays_pure trivial

/-- The encapsulated content. -/
theorem parseEncapContentInfo_stays {el : Element} (h : Within data el) :
    Stays (parseEncapContentInfo data el) fun _ => True := by
  unfold parseEncapContentInfo
  refine (childrenOf_stays h).bind fun eci heci => ?_
  refine (nextUniversal_stays heci _).bind fun r hr => ?_
  obtain ⟨typeEl,rest⟩ := r
  obtain ⟨htype,hrest⟩ := hr
  refine (oidToString_stays htype).bind fun contentType _ => ?_
  refine (stays_require _).bind fun _ _ => ?_
  cases rest with
  | nil => exact stays_pure trivial
  | cons wrapper others =>
    refine stays_ite (fun _ => stays_pure trivial) fun _ => ?_
    refine (unwrapExplicit_stays (List.forall_mem_cons.mp hrest).1).bind fun inner hinner => ?_
    refine (stays_require _).bind fun _ _ => ?_
    exact (contentBytes_stays hinner).bind fun _ _ => stays_pure trivial

/-- The optional certificate set. -/
theorem parseOptionalCertificates_stays {σ : Type} (sha256 : HashContext σ Bytes)
    {elements : List Element} (h : AllWithin data elements) :
    Stays (parseOptionalCertificates sha256 data elements) fun r => AllWithin data r.2 := by
  cases elements with
  | nil => exact h
  | cons el rest =>
    obtain ⟨hel,hrest⟩ := List.forall_mem_cons.mp h
    unfold parseOptionalCertificates
    refine stays_ite (fun _ => ?_) fun _ => h
    refine (childrenOf_stays hel).bind fun entries hentries => ?_
    exact (parseCertificates_stays sha256 hentries).bind fun _ _ => stays_pure hrest

/-- The signature parser reads only inside its input. -/
theorem pkcs7_parse_stays {σ : Type} (sha256 : HashContext σ Bytes) (der : Bytes) :
    Stays (Pkcs7.parse sha256 der) fun _ => True := by
  unfold Pkcs7.parse
  refine (parseElement_stays (le_refl der.length) 0).bind fun contentInfo hcontentInfo => ?_
  refine (stays_require _).bind fun _ _ => ?_
  refine (childrenOf_stays hcontentInfo.2.1).bind fun children hchildren => ?_
  split
  · next typeEl wrapper =>
    obtain ⟨htype,hrest⟩ := List.forall_mem_cons.mp hchildren
    refine (stays_require _).bind fun _ _ => ?_
    refine (oidToString_stays htype).bind fun _ _ => ?_
    refine (stays_require _).bind fun _ _ => (stays_require _).bind fun _ _ => ?_
    refine (unwrapExplicit_stays (List.forall_mem_cons.mp hrest).1).bind fun signedDataEl hsd => ?_
    refine (stays_require _).bind fun _ _ => ?_
    refine (childrenOf_stays hsd).bind fun fields hfields => ?_
    refine (nextUniversal_stays hfields _).bind fun r1 h1 => ?_
    refine (nextUniversal_stays h1.2 _).bind fun r2 h2 => ?_
    refine (nextUniversal_stays h2.2 _).bind fun r3 h3 => ?_
    refine (parseEncapContentInfo_stays h3.1).bind fun _ _ => ?_
    refine (parseOptionalCertificates_stays sha256 h3.2).bind fun r4 h4 => ?_
    refine (nextUniversal_stays (skipContext_within h4 1) _).bind fun r5 h5 => ?_
    refine (childrenOf_stays h5.1).bind fun entries hentries => ?_
    refine (stays_require _).bind fun _ _ => ?_
    exact (parseSignerInfos_stays hentries).bind fun _ _ => stays_pure trivial
  · exact stays_rejected

end SignedData

end Gcad.DerSafety
