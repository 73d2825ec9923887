import Gcad.DerGrammar

/-!
# Regions with an exact number of children

The places where the certificate and signature parsers count children.
The children loop stops without an error at the first malformed child, so
the count leaves room for bytes behind the last child: these bytes are
never another element, but they need not be absent. The counted children
fill their region exactly when it is a sequence of complete encodings.
-/

namespace Gcad.DerRegions

open Common ByteView CheckedLogic Asn1 X509 Pkcs7 DerSafety DerTiling DerGrammar

/-- The constructed types whose children are counted. -/
inductive RegionKind where
  | certificate
  | validity
  | rsaPublicKey
  | contentInfo
  | explicitWrapper
  | issuerAndSerialNumber
  | signedAttribute
  deriving DecidableEq, Repr

/-- The number of children asked for. -/
def RegionKind.count : RegionKind → ℕ
  | .certificate => 3
  | .validity => 2
  | .rsaPublicKey => 2
  | .contentInfo => 2
  | .explicitWrapper => 1
  | .issuerAndSerialNumber => 2
  | .signedAttribute => 2

/-- The regions of a certificate: the kind, the buffer and the element. A
public key is read only if it has its two integers. -/
inductive CertificateRegion (der : Bytes) : RegionKind → Bytes → Element → Prop
  | certificate {certSeq : Element} :
    parseElement der der.length 0=.ok certSeq →
    CertificateRegion der .certificate der certSeq
  | validity {certSeq tbs sigAlg sigVal serial algorithm issuer validity : Element}
      {fields rest : List Element} :
    parseElement der der.length 0=.ok certSeq →
    childrenOf der certSeq=.ok [tbs,sigAlg,sigVal] →
    childrenOf der tbs=.ok fields →
    skipContext 0 fields=serial::algorithm::issuer::validity::rest →
    CertificateRegion der .validity der validity
  | rsaPublicKey {certSeq tbs sigAlg sigVal serial algorithm issuer validity subject spki keyAlg
      keyEl rsaSeq n e : Element} {fields rest others : List Element} {keyData : Bytes} :
    parseElement der der.length 0=.ok certSeq →
    childrenOf der certSeq=.ok [tbs,sigAlg,sigVal] →
    childrenOf der tbs=.ok fields →
    skipContext 0 fields=serial::algorithm::issuer::validity::subject::spki::rest →
    childrenOf der spki=.ok (keyAlg::keyEl::others) →
    readByteAlignedBitString der keyEl=.ok keyData →
    parseElement keyData keyData.length 0=.ok rsaSeq →
    childrenOf keyData rsaSeq=.ok [n,e] →
    CertificateRegion der .rsaPublicKey keyData rsaSeq

/-- The SignedData of a blob: its fields after the version and the digest
algorithms. -/
structure SignedDataFields (der : Bytes) (contentInfo wrapper encap : Element)
    (rest : List Element) : Prop where
  /-- The outer element. -/
  outer : parseElement der der.length 0=.ok contentInfo
  /-- The wrapper is its second child. -/
  wrapped : ∃ typeEl, childrenOf der contentInfo=.ok [typeEl,wrapper]
  /-- The fields stand in the wrapped element. -/
  fields : ∃ signedData version digests, childrenOf der wrapper=.ok [signedData] ∧
    childrenOf der signedData=.ok (version::digests::encap::rest)

/-- A signer of a blob. -/
def SignerEntry (der : Bytes) (entry : Element) : Prop :=
  ∃ contentInfo wrapper encap rest signersEl others entries,
    SignedDataFields der contentInfo wrapper encap rest ∧
    skipContext 1 (skipContext 0 rest)=signersEl::others ∧
    childrenOf der signersEl=.ok entries ∧ entry ∈ entries

/-- The regions of a signature blob, with those of its certificates. An
attribute is read only if it has its two fields. -/
inductive SignatureRegion (der : Bytes) : RegionKind → Bytes → Element → Prop
  | contentInfo {contentInfo : Element} :
    parseElement der der.length 0=.ok contentInfo →
    SignatureRegion der .contentInfo der contentInfo
  | contentWrapper {contentInfo typeEl wrapper : Element} :
    parseElement der der.length 0=.ok contentInfo →
    childrenOf der contentInfo=.ok [typeEl,wrapper] →
    SignatureRegion der .explicitWrapper der wrapper
  | encapWrapper {contentInfo wrapper encap typeEl inner : Element} {rest others : List Element} :
    SignedDataFields der contentInfo wrapper encap rest →
    childrenOf der encap=.ok (typeEl::inner::others) → inner.isContext 0=true →
    SignatureRegion der .explicitWrapper der inner
  | issuerAndSerialNumber {entry version sid : Element} {others : List Element} :
    SignerEntry der entry → childrenOf der entry=.ok (version::sid::others) →
    SignatureRegion der .issuerAndSerialNumber der sid
  | signedAttribute {entry version sid digest attrsEl attr type values : Element}
      {others attrs : List Element} :
    SignerEntry der entry → childrenOf der entry=.ok (version::sid::digest::attrsEl::others) →
    childrenOf der attrsEl=.ok attrs → attr ∈ attrs →
    childrenOf der attr=.ok [type,values] →
    SignatureRegion der .signedAttribute der attr
  | embedded {contentInfo wrapper encap certsEl entry el : Element}
      {others entries : List Element} {raw data : Bytes} {kind : RegionKind} :
    SignedDataFields der contentInfo wrapper encap (certsEl::others) →
    certsEl.isContext 0=true → childrenOf der certsEl=.ok entries → entry ∈ entries →
    entry.isUniversal .sequence=true → rawBytes der entry=.ok raw →
    CertificateRegion raw kind data el →
    SignatureRegion der kind data el

/-- The content of an element begins with exactly these children, and no
element begins in what is left of it. -/
def LeadsWith (data : Bytes) (el : Element) (children : List Element) : Prop :=
  ∃ last, Tiles data el.contentOffset children last ∧
    last ≤ el.contentOffset+el.contentLength ∧
    (last < el.contentOffset+el.contentLength →
      parseElement data (el.contentOffset+el.contentLength) last=.error .rejected)

/-- The children of an element of the buffer lead its content. -/
theorem leadsWith_childrenOf {data : Bytes} {el : Element} {children : List Element}
    (h : Within data el) (hchildren : childrenOf data el=.ok children) :
    LeadsWith data el children := by
  obtain ⟨found,last,hfound,htiles⟩ := parseSequenceChildren_tiles h
  have hsame : found=children := Except.ok.inj (hfound.symm.trans hchildren)
  rw [hsame] at htiles
  exact ⟨last,htiles⟩

section Shape

/-- The next field was the head of the fields. -/
theorem nextUniversal_eq_ok {t : UniversalTag} {elements rest : List Element} {el : Element}
    (h : nextUniversal t elements=.ok (el,rest)) : elements=el::rest := by
  cases elements with
  | nil => cases h
  | cons first others =>
    rw [nextUniversal] at h
    split at h
    · cases h
      rfl
    · cases h

/-- The fields of an accepted certificate. -/
structure CertificateShape (der : Bytes) (certSeq tbs sigAlg sigVal : Element)
    (fields : List Element) : Prop where
  /-- The outer element. -/
  outer : parseElement der der.length 0=.ok certSeq
  /-- Its three children. -/
  top : childrenOf der certSeq=.ok [tbs,sigAlg,sigVal]
  /-- The fields of the signed part. -/
  signed : childrenOf der tbs=.ok fields
  /-- The validity among them has two children. -/
  validity : ∃ serial algorithm issuer validity rest, skipContext 0 fields=
    serial::algorithm::issuer::validity::rest ∧
    ∃ notBefore notAfter, childrenOf der validity=.ok [notBefore,notAfter]

/-- An accepted certificate has that shape. -/
theorem x509_parse_shape {σ : Type} {sha256 : HashContext σ Bytes} {der : Bytes}
    {cert : X509Certificate} (h : X509.parse sha256 der=.ok cert) :
    ∃ certSeq tbs sigAlg sigVal fields, CertificateShape der certSeq tbs sigAlg sigVal fields := by
  unfold X509.parse at h
  obtain ⟨certSeq,houter,h⟩ := bind_eq_ok.mp h
  obtain ⟨_,-,h⟩ := bind_eq_ok.mp h
  obtain ⟨children,htop,h⟩ := bind_eq_ok.mp h
  split at h
  · next tbs sigAlg sigVal =>
    obtain ⟨_,-,h⟩ := bind_eq_ok.mp h
    obtain ⟨_,-,h⟩ := bind_eq_ok.mp h
    obtain ⟨_,-,h⟩ := bind_eq_ok.mp h
    obtain ⟨_,-,h⟩ := bind_eq_ok.mp h
    obtain ⟨_,-,h⟩ := bind_eq_ok.mp h
    obtain ⟨fields,hfields,h⟩ := bind_eq_ok.mp h
    obtain ⟨⟨serial,rest1⟩,hserial,h⟩ := bind_eq_ok.mp h
    obtain ⟨_,-,h⟩ := bind_eq_ok.mp h
    obtain ⟨_,-,h⟩ := bind_eq_ok.mp h
    obtain ⟨⟨algorithm,rest2⟩,halgorithm,h⟩ := bind_eq_ok.mp h
    obtain ⟨⟨issuer,rest3⟩,hissuer,h⟩ := bind_eq_ok.mp h
    obtain ⟨_,-,h⟩ := bind_eq_ok.mp h
    obtain ⟨_,-,h⟩ := bind_eq_ok.mp h
    obtain ⟨⟨validity,rest4⟩,hvalidity,h⟩ := bind_eq_ok.mp h
    obtain ⟨times,htimes,-⟩ := bind_eq_ok.mp h
    obtain ⟨parts,hparts,htimes⟩ := bind_eq_ok.mp htimes
    split at htimes
    · next notBefore notAfter =>
      refine ⟨certSeq,tbs,sigAlg,sigVal,fields,houter,htop,hfields,serial,algorithm,issuer,
        validity,rest4,?_,notBefore,notAfter,hparts⟩
      rw [nextUniversal_eq_ok hserial,nextUniversal_eq_ok halgorithm,nextUniversal_eq_ok hissuer,
        nextUniversal_eq_ok hvalidity]
    · cases htimes
  · cases h

end Shape

section Certificate

/-- A child of an element of the buffer is an element of the buffer. -/
theorem within_child {data : Bytes} {el child : Element} {children : List Element}
    (h : Within data el) (hchildren : childrenOf data el=.ok children) (hmem : child ∈ children) :
    Within data child :=
  (childrenOf_stays h).of_ok hchildren child hmem

/-- An outer element is an element of its buffer. -/
theorem within_outer {data : Bytes} {offset : ℕ} {el : Element}
    (h : parseElement data data.length offset=.ok el) : Within data el :=
  (parseElement_bounds h).2.1

/-- A field after the optional one is a field. -/
theorem mem_of_skipContext {number : ℕ} {elements rest : List Element} {el : Element}
    (h : skipContext number elements=rest) (hel : el ∈ rest) : el ∈ elements := by
  subst h
  cases elements with
  | nil => exact hel
  | cons first others =>
    rw [skipContext] at hel
    split at hel
    · exact List.mem_cons_of_mem _ hel
    · exact hel

/-- In an accepted certificate every counted region lies in its buffer and
has the children asked for. -/
theorem certificateRegion_children {σ : Type} {sha256 : HashContext σ Bytes} {der data : Bytes}
    {cert : X509Certificate} {kind : RegionKind} {el : Element}
    (h : X509.parse sha256 der=.ok cert) (hregion : CertificateRegion der kind data el) :
    Within data el ∧ ∃ children, childrenOf data el=.ok children ∧ children.length=kind.count := by
  obtain ⟨certSeq,tbs,sigAlg,sigVal,fields,hshape⟩ := x509_parse_shape h
  have hcert := within_outer hshape.outer
  cases hregion with
  | certificate houter =>
    obtain rfl := Except.ok.inj (hshape.outer.symm.trans houter)
    exact ⟨hcert,_,hshape.top,rfl⟩
  | validity houter htop hfields hskip =>
    obtain rfl := Except.ok.inj (hshape.outer.symm.trans houter)
    obtain ⟨rfl,-⟩ := List.cons.inj (Except.ok.inj (hshape.top.symm.trans htop))
    obtain rfl := Except.ok.inj (hshape.signed.symm.trans hfields)
    obtain ⟨_,_,_,_,_,hskip',notBefore,notAfter,hparts⟩ := hshape.validity
    rw [hskip] at hskip'
    cases hskip'
    have htbs := within_child hcert hshape.top List.mem_cons_self
    have hvalidity : Within der el :=
      within_child htbs hfields (mem_of_skipContext hskip (by simp))
    exact ⟨hvalidity,_,hparts,rfl⟩
  | rsaPublicKey _ _ _ _ _ _ hrsa hchildren =>
    exact ⟨within_outer hrsa,_,hchildren,rfl⟩

end Certificate

section Signature

/-- A blob has one list of SignedData fields. -/
theorem SignedDataFields.unique {der : Bytes} {contentInfo wrapper encap : Element}
    {rest : List Element} {contentInfo' wrapper' encap' : Element} {rest' : List Element}
    (h : SignedDataFields der contentInfo wrapper encap rest)
    (h' : SignedDataFields der contentInfo' wrapper' encap' rest') :
    contentInfo=contentInfo' ∧ wrapper=wrapper' ∧ encap=encap' ∧ rest=rest' := by
  have hinfo : contentInfo=contentInfo' := Except.ok.inj (h.outer.symm.trans h'.outer)
  subst hinfo
  obtain ⟨_,hwrapped⟩ := h.wrapped
  obtain ⟨_,hwrapped'⟩ := h'.wrapped
  have hwrapper : wrapper=wrapper' := by
    have hlist := Except.ok.inj (hwrapped.symm.trans hwrapped')
    exact (List.cons.inj (List.cons.inj hlist).2).1
  subst hwrapper
  obtain ⟨signedData,_,_,hsigned,hfields⟩ := h.fields
  obtain ⟨signedData',_,_,hsigned',hfields'⟩ := h'.fields
  have hdata : signedData=signedData' := by
    have hlist := Except.ok.inj (hsigned.symm.trans hsigned')
    exact (List.cons.inj hlist).1
  subst hdata
  have hlist := Except.ok.inj (hfields.symm.trans hfields')
  have htail := (List.cons.inj (List.cons.inj hlist).2).2
  exact ⟨rfl,rfl,(List.cons.inj htail).1,(List.cons.inj htail).2⟩

/-- A wrapper that was unwrapped has one child. -/
theorem unwrapExplicit_eq_ok {data : Bytes} {wrapper inner : Element}
    (h : unwrapExplicit data wrapper=.ok inner) : childrenOf data wrapper=.ok [inner] := by
  unfold unwrapExplicit at h
  obtain ⟨children,hchildren,h⟩ := bind_eq_ok.mp h
  split at h
  · obtain rfl := pure_eq_ok.mp h
    exact hchildren
  · cases h

/-- What an accepted blob consists of. -/
structure BlobShape {σ : Type} (sha256 : HashContext σ Bytes) (der : Bytes)
    (contentInfo wrapper encap : Element) (rest : List Element) : Prop where
  /-- The fields of the SignedData. -/
  signedData : SignedDataFields der contentInfo wrapper encap rest
  /-- The encapsulated content parses. -/
  encapsulated : ∃ content, parseEncapContentInfo der encap=.ok content
  /-- The certificates parse. -/
  certificates : ∃ found, parseOptionalCertificates sha256 der rest=.ok found ∧
    ∃ signersEl others entries signers, skipContext 1 found.2=signersEl::others ∧
      childrenOf der signersEl=.ok entries ∧ parseSignerInfos der entries=.ok signers

/-- An accepted blob has that shape. -/
theorem pkcs7_parse_shape {σ : Type} {sha256 : HashContext σ Bytes} {der : Bytes}
    {sd : SignedData} (h : Pkcs7.parse sha256 der=.ok sd) :
    ∃ contentInfo wrapper encap rest, BlobShape sha256 der contentInfo wrapper encap rest := by
  unfold Pkcs7.parse at h
  obtain ⟨contentInfo,houter,h⟩ := bind_eq_ok.mp h
  obtain ⟨_,-,h⟩ := bind_eq_ok.mp h
  obtain ⟨children,hchildren,h⟩ := bind_eq_ok.mp h
  split at h
  · next typeEl wrapper =>
    obtain ⟨_,-,h⟩ := bind_eq_ok.mp h
    obtain ⟨_,-,h⟩ := bind_eq_ok.mp h
    obtain ⟨_,-,h⟩ := bind_eq_ok.mp h
    obtain ⟨_,-,h⟩ := bind_eq_ok.mp h
    obtain ⟨signedData,hsigned,h⟩ := bind_eq_ok.mp h
    obtain ⟨_,-,h⟩ := bind_eq_ok.mp h
    obtain ⟨fields,hfields,h⟩ := bind_eq_ok.mp h
    obtain ⟨⟨version,rest1⟩,hversion,h⟩ := bind_eq_ok.mp h
    obtain ⟨⟨digests,rest2⟩,hdigests,h⟩ := bind_eq_ok.mp h
    obtain ⟨⟨encap,rest3⟩,hencap,h⟩ := bind_eq_ok.mp h
    obtain ⟨content,hcontent,h⟩ := bind_eq_ok.mp h
    obtain ⟨found,hfound,h⟩ := bind_eq_ok.mp h
    obtain ⟨⟨signersEl,others⟩,hsigners,h⟩ := bind_eq_ok.mp h
    obtain ⟨entries,hentries,h⟩ := bind_eq_ok.mp h
    obtain ⟨_,-,h⟩ := bind_eq_ok.mp h
    obtain ⟨signers,hparsed,-⟩ := bind_eq_ok.mp h
    have hlist : fields=version::digests::encap::rest3 := by
      rw [nextUniversal_eq_ok hversion,nextUniversal_eq_ok hdigests,nextUniversal_eq_ok hencap]
    rw [hlist] at hfields
    refine ⟨contentInfo,wrapper,encap,rest3,?_,⟨content,hcontent⟩,found,hfound,signersEl,others,
      entries,signers,nextUniversal_eq_ok hsigners,hentries,hparsed⟩
    exact ⟨houter,⟨typeEl,hchildren⟩,signedData,version,digests,unwrapExplicit_eq_ok hsigned,hfields⟩
  · cases h

/-- A parsed signer has its issuer and serial number. -/
theorem parseSignerInfo_shape {data : Bytes} {entry version sid : Element} {others : List Element}
    {signer : SignerInfo} (h : parseSignerInfo data entry=.ok signer)
    (hfields : childrenOf data entry=.ok (version::sid::others)) :
    ∃ issuer serial, childrenOf data sid=.ok [issuer,serial] := by
  unfold parseSignerInfo at h
  obtain ⟨fields,hfields',h⟩ := bind_eq_ok.mp h
  obtain rfl := Except.ok.inj (hfields.symm.trans hfields')
  obtain ⟨⟨_,rest1⟩,hversion,h⟩ := bind_eq_ok.mp h
  obtain ⟨⟨sid',rest2⟩,hsid,h⟩ := bind_eq_ok.mp h
  cases nextUniversal_eq_ok hversion
  cases nextUniversal_eq_ok hsid
  obtain ⟨_,hissuer,-⟩ := bind_eq_ok.mp h
  obtain ⟨children,hchildren,hissuer⟩ := bind_eq_ok.mp hissuer
  split at hissuer
  · next issuer serial => exact ⟨issuer,serial,hchildren⟩
  · cases hissuer

/-- Every entry of a parsed signer list parses. -/
theorem parseSignerInfos_entry {data : Bytes} {entries : List Element} {signers : List SignerInfo}
    (h : parseSignerInfos data entries=.ok signers) {entry : Element} (hentry : entry ∈ entries) :
    ∃ signer, parseSignerInfo data entry=.ok signer := by
  induction entries generalizing signers with
  | nil => cases hentry
  | cons first rest ih =>
    unfold parseSignerInfos at h
    obtain ⟨_,-,h⟩ := bind_eq_ok.mp h
    obtain ⟨signer,hsigner,h⟩ := bind_eq_ok.mp h
    obtain ⟨_,hrest,-⟩ := bind_eq_ok.mp h
    rcases List.mem_cons.mp hentry with rfl | hentry
    · exact ⟨signer,hsigner⟩
    · exact ih hrest hentry

/-- Every certificate entry of a parsed set parses. -/
theorem parseCertificates_entry {σ : Type} {sha256 : HashContext σ Bytes} {data raw : Bytes}
    {entries : List Element} {certificates : List X509Certificate}
    (h : parseCertificates sha256 data entries=.ok certificates) {entry : Element}
    (hentry : entry ∈ entries) (hsequence : entry.isUniversal .sequence=true)
    (hraw : rawBytes data entry=.ok raw) : ∃ cert, X509.parse sha256 raw=.ok cert := by
  induction entries generalizing certificates with
  | nil => cases hentry
  | cons first rest ih =>
    rw [parseCertificates] at h
    rcases List.mem_cons.mp hentry with rfl | hentry
    · rw [hsequence,Bool.not_true,if_neg Bool.false_ne_true] at h
      obtain ⟨raw',hraw',h⟩ := bind_eq_ok.mp h
      obtain rfl := Except.ok.inj (hraw.symm.trans hraw')
      obtain ⟨cert,hcert,-⟩ := bind_eq_ok.mp h
      exact ⟨cert,hcert⟩
    · split at h
      · exact ih h hentry
      · obtain ⟨_,-,h⟩ := bind_eq_ok.mp h
        obtain ⟨_,-,h⟩ := bind_eq_ok.mp h
        obtain ⟨_,hrest,-⟩ := bind_eq_ok.mp h
        exact ih hrest hentry

/-- The fields after the optional certificates. -/
theorem parseOptionalCertificates_rest {σ : Type} {sha256 : HashContext σ Bytes} {data : Bytes}
    {elements : List Element} {found : List X509Certificate×List Element}
    (h : parseOptionalCertificates sha256 data elements=.ok found) :
    found.2=skipContext 0 elements := by
  cases elements with
  | nil =>
    cases h
    rfl
  | cons el rest =>
    rw [parseOptionalCertificates] at h
    rw [skipContext]
    split at h
    · next hcontext =>
      obtain ⟨_,-,h⟩ := bind_eq_ok.mp h
      obtain ⟨_,-,h⟩ := bind_eq_ok.mp h
      obtain rfl := pure_eq_ok.mp h
      rw [if_pos hcontext]
    · next hcontext =>
      cases h
      rw [if_neg hcontext]

/-- The elements on the way to the fields of a SignedData lie in the blob. -/
theorem SignedDataFields.within {der : Bytes} {contentInfo wrapper encap : Element}
    {rest : List Element} (h : SignedDataFields der contentInfo wrapper encap rest) :
    Within der contentInfo ∧ Within der wrapper ∧ Within der encap ∧ AllWithin der rest := by
  have hinfo := within_outer h.outer
  obtain ⟨typeEl,hwrapped⟩ := h.wrapped
  obtain ⟨signedData,version,digests,hsigned,hfields⟩ := h.fields
  have hwrapper : Within der wrapper := within_child hinfo hwrapped (by simp)
  have hdata : Within der signedData := within_child hwrapper hsigned List.mem_cons_self
  refine ⟨hinfo,hwrapper,within_child hdata hfields (by simp),?_⟩
  intro el hel
  exact within_child hdata hfields (by simp [hel])

/-- The signers of an accepted blob lie in it and parse. -/
theorem signerEntry_parses {σ : Type} {sha256 : HashContext σ Bytes} {der : Bytes}
    {contentInfo wrapper encap entry : Element} {rest : List Element}
    (hshape : BlobShape sha256 der contentInfo wrapper encap rest) (h : SignerEntry der entry) :
    Within der entry ∧ ∃ signer, parseSignerInfo der entry=.ok signer := by
  obtain ⟨_,_,_,rest',signersEl,others,entries,hfields,hskip,hentries,hentry⟩ := h
  obtain ⟨-,-,-,rfl⟩ := hshape.signedData.unique hfields
  obtain ⟨-,-,-,hrest⟩ := hfields.within
  obtain ⟨found,hfound,signersEl',_,entries',signers,hskip',hentries',hparsed⟩ :=
    hshape.certificates
  rw [parseOptionalCertificates_rest hfound,hskip] at hskip'
  cases hskip'
  obtain rfl := Except.ok.inj (hentries.symm.trans hentries')
  have hsigners : signersEl ∈ rest :=
    mem_of_skipContext rfl (mem_of_skipContext hskip List.mem_cons_self)
  exact ⟨within_child (hrest signersEl hsigners) hentries hentry,
    parseSignerInfos_entry hparsed hentry⟩

/-- A present content wrapper has one child. -/
theorem parseEncapContentInfo_wrapper {data : Bytes} {encap typeEl inner : Element}
    {others : List Element} {content : Str×Bytes}
    (h : parseEncapContentInfo data encap=.ok content)
    (hchildren : childrenOf data encap=.ok (typeEl::inner::others))
    (hcontext : inner.isContext 0=true) : ∃ child, childrenOf data inner=.ok [child] := by
  unfold parseEncapContentInfo at h
  obtain ⟨eci,heci,h⟩ := bind_eq_ok.mp h
  obtain rfl := Except.ok.inj (hchildren.symm.trans heci)
  obtain ⟨⟨typeEl',rest⟩,hnext,h⟩ := bind_eq_ok.mp h
  cases nextUniversal_eq_ok hnext
  obtain ⟨_,-,h⟩ := bind_eq_ok.mp h
  obtain ⟨_,-,h⟩ := bind_eq_ok.mp h
  dsimp only at h
  rw [hcontext,Bool.not_true,if_neg Bool.false_ne_true] at h
  obtain ⟨child,hchild,-⟩ := bind_eq_ok.mp h
  exact ⟨child,unwrapExplicit_eq_ok hchild⟩

/-- So has every counted region of an accepted blob. -/
theorem signatureRegion_children {σ : Type} {sha256 : HashContext σ Bytes} {der data : Bytes}
    {sd : SignedData} {kind : RegionKind} {el : Element}
    (h : Pkcs7.parse sha256 der=.ok sd) (hregion : SignatureRegion der kind data el) :
    Within data el ∧ ∃ children, childrenOf data el=.ok children ∧ children.length=kind.count := by
  obtain ⟨contentInfo,wrapper,encap,rest,hshape⟩ := pkcs7_parse_shape h
  obtain ⟨hinfo,hwrapper,hencap,hrest⟩ := hshape.signedData.within
  cases hregion with
  | contentInfo houter =>
    obtain rfl := Except.ok.inj (hshape.signedData.outer.symm.trans houter)
    obtain ⟨typeEl,hchildren⟩ := hshape.signedData.wrapped
    exact ⟨hinfo,_,hchildren,rfl⟩
  | contentWrapper houter hchildren =>
    obtain rfl := Except.ok.inj (hshape.signedData.outer.symm.trans houter)
    obtain ⟨typeEl,hwrapped⟩ := hshape.signedData.wrapped
    cases Except.ok.inj (hwrapped.symm.trans hchildren)
    obtain ⟨signedData,_,_,hsigned,-⟩ := hshape.signedData.fields
    exact ⟨hwrapper,_,hsigned,rfl⟩
  | encapWrapper hfields hchildren hcontext =>
    obtain ⟨-,-,rfl,-⟩ := hshape.signedData.unique hfields
    obtain ⟨content,hcontent⟩ := hshape.encapsulated
    obtain ⟨child,hchild⟩ := parseEncapContentInfo_wrapper hcontent hchildren hcontext
    have hinner : Within der el := within_child hencap hchildren (by simp)
    exact ⟨hinner,_,hchild,rfl⟩
  | issuerAndSerialNumber hentry hchildren =>
    obtain ⟨hwithin,signer,hsigner⟩ := signerEntry_parses hshape hentry
    obtain ⟨issuer,serial,hparts⟩ := parseSignerInfo_shape hsigner hchildren
    have hsid : Within der el := within_child hwithin hchildren (by simp)
    exact ⟨hsid,_,hparts,rfl⟩
  | signedAttribute hentry hchildren hattrs hattr hparts =>
    obtain ⟨hwithin,-⟩ := signerEntry_parses hshape hentry
    have hset := within_child hwithin hchildren (List.mem_cons_of_mem _ (List.mem_cons_of_mem _
      (List.mem_cons_of_mem _ List.mem_cons_self)))
    have hattribute := within_child hset hattrs hattr
    exact ⟨hattribute,_,hparts,rfl⟩
  | embedded hfields hcontext hentries hentry hsequence hraw hcertificate =>
    obtain ⟨-,-,-,rfl⟩ := hshape.signedData.unique hfields
    obtain ⟨found,hfound,-⟩ := hshape.certificates
    rw [parseOptionalCertificates,if_pos hcontext] at hfound
    obtain ⟨entries',hentries',hfound⟩ := bind_eq_ok.mp hfound
    obtain rfl := Except.ok.inj (hentries.symm.trans hentries')
    obtain ⟨certificates,hcertificates,-⟩ := bind_eq_ok.mp hfound
    obtain ⟨cert,hcert⟩ := parseCertificates_entry hcertificates hentry hsequence hraw
    exact certificateRegion_children hcert hcertificate

end Signature

/-- When a parser succeeds, every region whose children it counts begins
with exactly that many children, without a gap, and no further element
begins in what is left of the region. -/
theorem counted_regions_lead {σ : Type} (sha256 : HashContext σ Bytes) (der : Bytes) :
    (∀ cert, X509.parse sha256 der=.ok cert →
      ∀ kind data el, CertificateRegion der kind data el →
      ∃ children, childrenOf data el=.ok children ∧ children.length=kind.count ∧
        LeadsWith data el children) ∧
    (∀ sd, Pkcs7.parse sha256 der=.ok sd →
      ∀ kind data el, SignatureRegion der kind data el →
      ∃ children, childrenOf data el=.ok children ∧ children.length=kind.count ∧
        LeadsWith data el children) := by
  refine ⟨fun cert h kind data el hregion => ?_,fun sd h kind data el hregion => ?_⟩
  · obtain ⟨hwithin,children,hchildren,hcount⟩ := certificateRegion_children h hregion
    exact ⟨children,hchildren,hcount,leadsWith_childrenOf hwithin hchildren⟩
  · obtain ⟨hwithin,children,hchildren,hcount⟩ := signatureRegion_children h hregion
    exact ⟨children,hchildren,hcount,leadsWith_childrenOf hwithin hchildren⟩

/-- The content of an element is filled by exactly as many children as are
asked for. -/
def FilledBy (count : ℕ) (data : Bytes) (el : Element) : Prop :=
  ∃ children, childrenOf data el=.ok children ∧ children.length=count ∧
    Tiles data el.contentOffset children (el.contentOffset+el.contentLength)

/-- An element with the children asked for is filled by them exactly when
its content is a sequence of encodings. -/
theorem filledBy_iff {count : ℕ} {data : Bytes} {el : Element} (h : Within data el)
    (hchildren : ∃ children, childrenOf data el=.ok children ∧ children.length=count) :
    FilledBy count data el ↔ Encodings (slice data el.contentOffset el.contentLength) := by
  obtain ⟨children,hchildren,hcount⟩ := hchildren
  have hiff := childrenOf_tiles_iff h hchildren
  constructor
  · rintro ⟨found,hfound,-,htiles⟩
    obtain rfl := Except.ok.inj (hchildren.symm.trans hfound)
    exact hiff.mp htiles
  · exact fun hencodings => ⟨children,hchildren,hcount,hiff.mpr hencodings⟩

/-- When a parser succeeds, every region whose children it counts is filled
by exactly these children if and only if the content of the region is a
sequence of complete encodings. -/
theorem counted_regions_filled_iff {σ : Type} (sha256 : HashContext σ Bytes) (der : Bytes) :
    (∀ cert, X509.parse sha256 der=.ok cert →
      ∀ kind data el, CertificateRegion der kind data el →
        (FilledBy kind.count data el ↔
          Encodings (slice data el.contentOffset el.contentLength))) ∧
    (∀ sd, Pkcs7.parse sha256 der=.ok sd →
      ∀ kind data el, SignatureRegion der kind data el →
        (FilledBy kind.count data el ↔
          Encodings (slice data el.contentOffset el.contentLength))) := by
  refine ⟨fun cert h kind data el hregion => ?_,fun sd h kind data el hregion => ?_⟩
  · obtain ⟨hwithin,hchildren⟩ := certificateRegion_children h hregion
    exact filledBy_iff hwithin hchildren
  · obtain ⟨hwithin,hchildren⟩ := signatureRegion_children h hregion
    exact filledBy_iff hwithin hchildren

section Fixture

/-- A small certificate with the given bytes behind its signature value. -/
def fixtureCertificateDer (trailing : Bytes) : Bytes :=
  derEncode 0x30 (derEncode 0x30 (derEncode 0x02 [1]++derEncode 0x30 []++derEncode 0x30 []++
    derEncode 0x30 (derEncode 0x17 [0x31]++derEncode 0x17 [0x32])++derEncode 0x30 []++
    derEncode 0x30 (derEncode 0x30 (derEncode 0x06 [0x2a])++derEncode 0x03 [0]))++
    derEncode 0x30 (derEncode 0x06 [0x2a])++derEncode 0x03 [0]++trailing)

/-- SHA-256 on the certificate with one byte behind it. -/
def fixtureContext : HashContext Bytes Bytes where
  initial := []
  update := (·++·)
  finalize := fun bytes =>
    if bytes=fixtureCertificateDer [0] then
      [150,229,19,107,66,76,88,186,107,61,134,102,251,78,235,138,142,
       120,174,102,205,95,157,7,105,80,145,238,38,255,20,53]
    else List.replicate 32 0

/-- A reader whose success was computed has returned a value. -/
theorem returns_of_isOk {α : Type} {x : Checked α} (h : x.isOk=true) : ∃ a, x=.ok a := by
  cases x with
  | ok a => exact ⟨a,rfl⟩
  | error fault => cases h

/-- A small signature blob with one signer. -/
def fixtureBlobDer : Bytes :=
  let algorithm := derEncode 0x30 (derEncode 0x06 [0x2a])
  let signer := derEncode 0x30 (derEncode 0x02 [1]++
    derEncode 0x30 (derEncode 0x30 []++derEncode 0x02 [1])++algorithm++derEncode 0xa0 []++
    algorithm++derEncode 0x04 [1])
  derEncode 0x30 (derEncode 0x06 [0x2a,0x86,0x48,0x86,0xf7,0x0d,0x01,0x07,0x02]++
    derEncode 0xa0 (derEncode 0x30 (derEncode 0x02 [1]++derEncode 0x31 []++
      derEncode 0x30 (derEncode 0x06 [0x2a])++derEncode 0x31 signer)))

/-- The three children of the certificate with one byte behind them do not
fill its outer element. -/
theorem fixture_not_filled :
    ¬FilledBy 3 (fixtureCertificateDer [0]) ⟨.universal,true,16,2,38,40⟩ := by
  rintro ⟨children,hchildren,-,htiles⟩
  have hactual : childrenOf (fixtureCertificateDer [0]) ⟨.universal,true,16,2,38,40⟩=
      .ok [⟨.universal,true,16,4,27,29⟩,⟨.universal,true,16,33,3,5⟩,⟨.universal,false,3,38,1,3⟩] := by
    decide +kernel
  obtain rfl := Except.ok.inj (hactual.symm.trans hchildren)
  obtain ⟨-,-,-,-,-,-,-,-,-,-,-,-,hend⟩ := htiles
  cases hend

/-- The outer element of the certificate is no sequence of encodings, that
of the blob is one. -/
theorem counted_regions_filled_fixture :
    ¬Encodings (slice (fixtureCertificateDer [0]) 2 38) ∧ Encodings (slice fixtureBlobDer 2 54) := by
  have hcertificate : (X509.parse fixtureContext (fixtureCertificateDer [0])).isOk=true := by
    decide +kernel
  have hblob : (Pkcs7.parse fixtureContext fixtureBlobDer).isOk=true := by decide +kernel
  obtain ⟨cert,hcert⟩ := returns_of_isOk hcertificate
  obtain ⟨sd,hsd⟩ := returns_of_isOk hblob
  constructor
  · intro hencodings
    exact fixture_not_filled (((counted_regions_filled_iff fixtureContext
      (fixtureCertificateDer [0])).1 cert hcert .certificate _ _
        (.certificate (by decide +kernel))).mpr hencodings)
  · refine ((counted_regions_filled_iff fixtureContext fixtureBlobDer).2 sd hsd .contentInfo _
      ⟨.universal,true,16,2,54,56⟩ (.contentInfo (by decide +kernel))).mp ?_
    refine ⟨[⟨.universal,false,6,4,9,11⟩,⟨.contextSpecific,true,0,15,41,43⟩],by decide +kernel,rfl,?_⟩
    exact ⟨by decide,by decide,by decide,by decide +kernel,by decide,by decide,by decide,
      by decide +kernel,rfl⟩

/-- A certificate with one byte behind its signature value is accepted, and
its three children do not reach the end of the outer element. -/
theorem counted_regions_not_tiled :
    ¬∀ (sha256 : HashContext Bytes Bytes) (der : Bytes),
      (∀ cert, X509.parse sha256 der=.ok cert →
        ∀ kind data el, CertificateRegion der kind data el →
        ∃ children, childrenOf data el=.ok children ∧ children.length=kind.count ∧
          Tiles data el.contentOffset children (el.contentOffset+el.contentLength)) ∧
      (∀ sd, Pkcs7.parse sha256 der=.ok sd →
        ∀ kind data el, SignatureRegion der kind data el →
        ∃ children, childrenOf data el=.ok children ∧ children.length=kind.count ∧
          Tiles data el.contentOffset children (el.contentOffset+el.contentLength)) := by
  intro h
  have hcertificate : (X509.parse fixtureContext (fixtureCertificateDer [0])).isOk=true := by
    decide +kernel
  obtain ⟨cert,hcert⟩ := returns_of_isOk hcertificate
  have houter : parseElement (fixtureCertificateDer [0]) (fixtureCertificateDer [0]).length 0=
      .ok ⟨.universal,true,16,2,38,40⟩ := by decide +kernel
  exact fixture_not_filled
    ((h fixtureContext (fixtureCertificateDer [0])).1 cert hcert .certificate _ _
      (.certificate houter))

end Fixture

end Gcad.DerRegions
