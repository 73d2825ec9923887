import Gcad.X509

/-!
# The PKCS#7 SignedData parser

`Pkcs7Parser` of pkcs7.cpp: the parse of a ContentInfo, the search for the
signer's certificate and the re-encoding of the signed attributes. The
attributes are read in place, inside the blob; `signed_attrs_content` is a
copy of the same bytes, and reading the copy gives the same attributes.
-/

namespace Gcad.Pkcs7

open Common ByteView Asn1 X509

/-- `kSignedDataOid`. -/
def signedDataOid : Str := "1.2.840.113549.1.7.2".toList

/-- `kContentTypeAttrOid`. -/
def contentTypeAttrOid : Str := "1.2.840.113549.1.9.3".toList

/-- `kMessageDigestAttrOid`. -/
def messageDigestAttrOid : Str := "1.2.840.113549.1.9.4".toList

/-- The two attributes the parser looks for. -/
structure SignedAttributes where
  /-- Value of the last contentType attribute. -/
  contentType : Option Str
  /-- Value of the last messageDigest attribute. -/
  messageDigest : Option Bytes
  deriving DecidableEq, Repr

/-- One SignerInfo. -/
structure SignerInfo where
  /-- TLV of the issuer name. -/
  issuerDer : Bytes
  /-- Which certificate of that issuer it is. -/
  serialNumber : Bytes
  /-- Digest algorithm. -/
  digestAlgorithmOid : Str
  /-- Content bytes of the signed attributes. -/
  signedAttrsContent : Bytes
  /-- The two signed attributes that are looked at. -/
  attributes : SignedAttributes
  /-- Signature algorithm. -/
  signatureAlgorithmOid : Str
  /-- What the signer made of the signed attributes. -/
  signature : Bytes
  deriving DecidableEq, Repr

/-- What is read from a SignedData. -/
structure SignedData where
  /-- Type of the encapsulated content. -/
  contentType : Str
  /-- Content bytes of the encapsulated content. -/
  content : Bytes
  /-- The embedded certificates, in the order of the set. -/
  certificates : List X509Certificate
  /-- The signers. -/
  signerInfos : List SignerInfo
  deriving DecidableEq, Repr

/-- `unwrap_explicit`. -/
def unwrapExplicit (data : Bytes) (wrapper : Element) : Checked Element := do
  match ← childrenOf data wrapper with
  | [inner] => return inner
  | _ => throw .rejected

/-- `parse_certificates_set`: other choices are skipped and a malformed
certificate rejects the blob. -/
def parseCertificates {σ : Type} (sha256 : HashContext σ Bytes) (data : Bytes) :
    List Element → Checked (List X509Certificate)
  | [] => .ok []
  | entry::rest =>
    if !entry.isUniversal .sequence then parseCertificates sha256 data rest
    else do
      let raw ← rawBytes data entry
      let cert ← X509.parse sha256 raw
      let certs ← parseCertificates sha256 data rest
      return cert::certs

/-- What the first value of an attribute does to the attributes found so
far. -/
def readAttributeValue (data : Bytes) (oid : Str) (value : Element) (found : SignedAttributes) :
    Checked SignedAttributes := do
  if oid=contentTypeAttrOid ∧ value.isUniversal .objectIdentifier=true then do
    let text ← oidToString data value
    return {found with contentType := some text}
  else if oid=messageDigestAttrOid ∧ value.isUniversal .octetString=true then do
    let digest ← contentBytes data value
    return {found with messageDigest := some digest}
  else return found

/-- What the type and the values of an attribute do. -/
def readAttributeFields (data : Bytes) (type values : Element) (found : SignedAttributes) :
    Checked SignedAttributes := do
  if !type.isUniversal .objectIdentifier then return found
  else if !values.isUniversal .set || decide (values.contentLength=0) then return found
  else do
    let oid ← oidToString data type
    match ← childrenOf data values with
    | [] => return found
    | value::_ => readAttributeValue data oid value found

/-- What one attribute does; a malformed one is skipped. -/
def readAttribute (data : Bytes) (attr : Element) (found : SignedAttributes) :
    Checked SignedAttributes := do
  if !attr.isUniversal .sequence then return found
  else do
    match ← childrenOf data attr with
    | [type,values] => readAttributeFields data type values found
    | _ => return found

/-- The attribute loop. -/
def readAttributes (data : Bytes) : List Element → SignedAttributes → Checked SignedAttributes
  | [],found => .ok found
  | attr::rest,found => do
    let next ← readAttribute data attr found
    readAttributes data rest next

/-- `extract_signed_attributes`. -/
def extractSignedAttributes (data : Bytes) (contentOffset contentLength : ℕ) :
    Checked SignedAttributes := do
  let attrs ← parseSequenceChildren data contentOffset contentLength
  readAttributes data attrs ⟨none,none⟩

/-- The IssuerAndSerialNumber of a signer. -/
def parseIssuerAndSerialNumber (data : Bytes) (el : Element) : Checked (Bytes×Bytes) := do
  match ← childrenOf data el with
  | [issuer,serial] => do
    require (issuer.isUniversal .sequence=true ∧ serial.isUniversal .integer=true)
    let issuerDer ← rawBytes data issuer
    let serialNumber ← readUnsignedInteger data serial
    require (issuerDer≠[] ∧ serialNumber≠[])
    return (issuerDer,serialNumber)
  | _ => throw .rejected

/-- Consume the next field, which must carry a context-specific tag. -/
def nextContext (number : ℕ) : List Element → Checked (Element×List Element)
  | [] => .error .rejected
  | el::rest => if el.isContext number then .ok (el,rest) else .error .rejected

/-- `parse_signer_info`. -/
def parseSignerInfo (data : Bytes) (siEl : Element) : Checked SignerInfo := do
  let fields ← childrenOf data siEl
  let (_,fields) ← nextUniversal .integer fields
  let (sidEl,fields) ← nextUniversal .sequence fields
  let (issuerDer,serialNumber) ← parseIssuerAndSerialNumber data sidEl
  let (digestEl,fields) ← nextUniversal .sequence fields
  let digestAlgorithmOid ← algorithmOid data digestEl
  let (attrsEl,fields) ← nextContext 0 fields
  let signedAttrsContent ← contentBytes data attrsEl
  let attributes ← extractSignedAttributes data attrsEl.contentOffset attrsEl.contentLength
  let (algorithmEl,fields) ← nextUniversal .sequence fields
  let signatureAlgorithmOid ← algorithmOid data algorithmEl
  let (signatureEl,_) ← nextUniversal .octetString fields
  let signature ← contentBytes data signatureEl
  require (signature≠[])
  return ⟨issuerDer,serialNumber,digestAlgorithmOid,signedAttrsContent,attributes,
    signatureAlgorithmOid,signature⟩

/-- The loop over the signerInfos. -/
def parseSignerInfos (data : Bytes) : List Element → Checked (List SignerInfo)
  | [] => .ok []
  | entry::rest => do
    require (entry.isUniversal .sequence=true)
    let signer ← parseSignerInfo data entry
    let signers ← parseSignerInfos data rest
    return signer::signers

/-- The encapsulated content: its type and its bytes, empty if absent. -/
def parseEncapContentInfo (data : Bytes) (el : Element) : Checked (Str×Bytes) := do
  let eci ← childrenOf data el
  let (typeEl,rest) ← nextUniversal .objectIdentifier eci
  let contentType ← oidToString data typeEl
  require (contentType≠[])
  match rest with
  | [] => return (contentType,[])
  | wrapper::_ =>
    if !wrapper.isContext 0 then return (contentType,[])
    else do
      let inner ← unwrapExplicit data wrapper
      require (inner.isUniversal .octetString=true ∨ inner.isUniversal .sequence=true)
      let content ← contentBytes data inner
      return (contentType,content)

/-- The optional certificate set: the certificates and the fields left. -/
def parseOptionalCertificates {σ : Type} (sha256 : HashContext σ Bytes) (data : Bytes) :
    List Element → Checked (List X509Certificate×List Element)
  | [] => .ok ([],[])
  | el::rest =>
    if el.isContext 0 then do
      let entries ← childrenOf data el
      let certificates ← parseCertificates sha256 data entries
      return (certificates,rest)
    else .ok ([],el::rest)

/-- `Pkcs7Parser::parse`. -/
def parse {σ : Type} (sha256 : HashContext σ Bytes) (der : Bytes) : Checked SignedData := do
  let contentInfo ← parseElement der der.length 0
  require (contentInfo.isUniversal .sequence=true)
  match ← childrenOf der contentInfo with
  | [typeEl,wrapper] => do
    require (typeEl.isUniversal .objectIdentifier=true)
    let oid ← oidToString der typeEl
    require (oid=signedDataOid)
    require (wrapper.isContext 0=true)
    let signedDataEl ← unwrapExplicit der wrapper
    require (signedDataEl.isUniversal .sequence=true)
    let fields ← childrenOf der signedDataEl
    let (_,fields) ← nextUniversal .integer fields
    let (_,fields) ← nextUniversal .set fields
    let (encapEl,fields) ← nextUniversal .sequence fields
    let (contentType,content) ← parseEncapContentInfo der encapEl
    let (certificates,fields) ← parseOptionalCertificates sha256 der fields
    let (signersEl,_) ← nextUniversal .set (skipContext 1 fields)
    let entries ← childrenOf der signersEl
    require (entries≠[])
    let signerInfos ← parseSignerInfos der entries
    return ⟨contentType,content,certificates,signerInfos⟩
  | _ => throw .rejected

/-- The test of `find_signer_certificate`. -/
def matchesSigner (signer : SignerInfo) (cert : X509Certificate) : Bool :=
  decide (cert.issuerDer=signer.issuerDer) && decide (cert.serialNumber=signer.serialNumber)

/-- `Pkcs7Parser::find_signer_certificate`. -/
def findSignerCertificate (data : SignedData) (signer : SignerInfo) : Option CertificateObject :=
  (addressed data.certificates).find? fun object => matchesSigner signer object.certificate

/-- The base-256 digits of a length, most significant first. The source
collects at most `sizeof(size_t)` of them. -/
def lengthBytes : ℕ → ℕ → Bytes
  | 0,_ => []
  | room+1,remaining =>
    if remaining=0 then [] else lengthBytes room (remaining/256)++[UInt8.ofNat remaining]

/-- A TLV with a minimal length. -/
def derEncode (tag : UInt8) (content : Bytes) : Bytes :=
  if content.length < 0x80 then tag::UInt8.ofNat content.length::content
  else
    let lenBytes := lengthBytes 8 content.length
    tag::UInt8.ofNat (0x80 ||| lenBytes.length)::(lenBytes++content)

/-- `Pkcs7Parser::der_encode_set`. -/
def derEncodeSet (content : Bytes) : Bytes := derEncode 0x31 content

section Window

variable {inner outer : Bytes} {off : ℕ}

/-- The content of an element through a window. -/
theorem contentBytes_window (h : Window inner outer off) {el : Element}
    (hel : el.contentOffset+el.contentLength ≤ inner.length) :
    contentBytes outer (el.shift off)=contentBytes inner el :=
  h.readSlice hel

/-- An object identifier through a window. -/
theorem oidToString_window (h : Window inner outer off) {el : Element}
    (hel : el.contentOffset+el.contentLength ≤ inner.length) :
    oidToString outer (el.shift off)=oidToString inner el := by
  unfold oidToString
  rw [contentBytes_window h hel]
  rfl

/-- The children of an element through a window. -/
theorem childrenOf_window (h : Window inner outer off) {el : Element}
    (hel : el.contentOffset+el.contentLength ≤ inner.length) :
    childrenOf outer (el.shift off)=(childrenOf inner el).map (List.map (Element.shift off)) :=
  h.parseSequenceChildren _ _ hel

/-- The first value of an attribute through a window. -/
theorem readAttributeValue_window (h : Window inner outer off) {value : Element}
    (hvalue : value.contentOffset+value.contentLength ≤ inner.length) (oid : Str)
    (found : SignedAttributes) :
    readAttributeValue outer oid (value.shift off) found=
      readAttributeValue inner oid value found := by
  unfold readAttributeValue
  rw [oidToString_window h hvalue,contentBytes_window h hvalue]
  rfl

/-- The fields of an attribute through a window. -/
theorem readAttributeFields_window (h : Window inner outer off) {type values : Element}
    (htype : type.contentOffset+type.contentLength ≤ inner.length)
    (hvalues : values.contentOffset+values.contentLength ≤ inner.length)
    (found : SignedAttributes) :
    readAttributeFields outer (type.shift off) (values.shift off) found=
      readAttributeFields inner type values found := by
  have hfields : (oidToString outer (type.shift off) >>= fun oid =>
      childrenOf outer (values.shift off) >>= fun children =>
        match children with
        | [] => pure found
        | value::_ => readAttributeValue outer oid value found)=
      (oidToString inner type >>= fun oid => childrenOf inner values >>= fun children =>
        match children with
        | [] => pure found
        | value::_ => readAttributeValue inner oid value found) := by
    rw [oidToString_window h htype]
    congr 1
    funext oid
    refine bind_map_eq (childrenOf_window h hvalues) ?_
    intro children hchildren
    cases children with
    | nil => rfl
    | cons value rest =>
      have hbounds := childrenOf_bounds hchildren value List.mem_cons_self
      exact readAttributeValue_window h (by omega) oid found
  unfold readAttributeFields
  exact congrArg (fun tail => if (!type.isUniversal .objectIdentifier)=true then pure found
    else if (!values.isUniversal .set || decide (values.contentLength=0))=true then pure found
    else tail) hfields

/-- One attribute through a window. -/
theorem readAttribute_window (h : Window inner outer off) {attr : Element}
    (hattr : attr.contentOffset+attr.contentLength ≤ inner.length) (found : SignedAttributes) :
    readAttribute outer (attr.shift off) found=readAttribute inner attr found := by
  have hfields : (childrenOf outer (attr.shift off) >>= fun children =>
      match children with
      | [type,values] => readAttributeFields outer type values found
      | _ => pure found)=
      (childrenOf inner attr >>= fun children =>
      match children with
      | [type,values] => readAttributeFields inner type values found
      | _ => pure found) := by
    refine bind_map_eq (childrenOf_window h hattr) ?_
    intro children hchildren
    have hbounds := childrenOf_bounds hchildren
    match children with
    | [] => rfl
    | [type] => rfl
    | [type,values] =>
      have htype := hbounds type List.mem_cons_self
      have hvalues := hbounds values (List.mem_cons_of_mem _ List.mem_cons_self)
      exact readAttributeFields_window h (by omega) (by omega) found
    | first::second::third::rest => rfl
  unfold readAttribute
  exact congrArg (fun tail => if (!attr.isUniversal .sequence)=true then pure found else tail)
    hfields

/-- The attribute loop through a window. -/
theorem readAttributes_window (h : Window inner outer off) {attrs : List Element}
    (hattrs : ∀ attr ∈ attrs, attr.contentOffset+attr.contentLength ≤ inner.length)
    (found : SignedAttributes) :
    readAttributes outer (attrs.map (Element.shift off)) found=
      readAttributes inner attrs found := by
  induction attrs generalizing found with
  | nil => rfl
  | cons attr attrs ih =>
    rw [List.map_cons]
    unfold readAttributes
    rw [readAttribute_window h (hattrs attr List.mem_cons_self)]
    congr 1
    funext next
    exact ih (fun el hel => hattrs el (List.mem_cons_of_mem _ hel)) next

/-- Reading the attributes in place or from a copy gives the same. -/
theorem extractSignedAttributes_slice {data : Bytes} {offset length : ℕ}
    (h : offset+length ≤ data.length) :
    extractSignedAttributes (slice data offset length) 0 length=
      extractSignedAttributes data offset length := by
  have hwindow := window_slice h
  have hlength := slice_length h
  unfold extractSignedAttributes
  symm
  refine bind_map_eq (hwindow.parseSequenceChildren 0 length (by omega)) ?_
  intro attrs hattrs
  have hbounds := parseChildren_bounds hattrs
  refine readAttributes_window hwindow ?_ _
  intro attr hattr
  have hend := (hbounds attr hattr).2
  omega

end Window

section Signers

variable {data : Bytes}

/-- The attributes of a signer are those in its copied attribute bytes. -/
theorem parseSignerInfo_attributes {siEl : Element} {signer : SignerInfo}
    (h : parseSignerInfo data siEl=.ok signer) :
    extractSignedAttributes signer.signedAttrsContent 0 signer.signedAttrsContent.length=
      .ok signer.attributes := by
  unfold parseSignerInfo at h
  obtain ⟨fields,-,h⟩ := bind_eq_ok.mp h
  obtain ⟨⟨version,fields⟩,-,h⟩ := bind_eq_ok.mp h
  obtain ⟨⟨sidEl,fields⟩,-,h⟩ := bind_eq_ok.mp h
  obtain ⟨⟨issuerDer,serialNumber⟩,-,h⟩ := bind_eq_ok.mp h
  obtain ⟨⟨digestEl,fields⟩,-,h⟩ := bind_eq_ok.mp h
  obtain ⟨digestAlgorithmOid,-,h⟩ := bind_eq_ok.mp h
  obtain ⟨⟨attrsEl,fields⟩,-,h⟩ := bind_eq_ok.mp h
  obtain ⟨signedAttrsContent,hcontent,h⟩ := bind_eq_ok.mp h
  obtain ⟨attributes,hattributes,h⟩ := bind_eq_ok.mp h
  obtain ⟨⟨algorithmEl,fields⟩,-,h⟩ := bind_eq_ok.mp h
  obtain ⟨signatureAlgorithmOid,-,h⟩ := bind_eq_ok.mp h
  obtain ⟨⟨signatureEl,fields⟩,-,h⟩ := bind_eq_ok.mp h
  obtain ⟨signature,-,h⟩ := bind_eq_ok.mp h
  obtain ⟨_,-,h⟩ := bind_eq_ok.mp h
  obtain rfl := pure_eq_ok.mp h
  obtain ⟨hroom,rfl⟩ := readSlice_eq_ok.mp hcontent
  dsimp only
  rw [slice_length hroom,extractSignedAttributes_slice hroom]
  exact hattributes

/-- Every parsed signer comes from its own element. -/
theorem parseSignerInfos_mem {entries : List Element} {signers : List SignerInfo}
    (h : parseSignerInfos data entries=.ok signers) :
    ∀ signer ∈ signers, ∃ entry, parseSignerInfo data entry=.ok signer := by
  induction entries generalizing signers with
  | nil =>
    cases h
    exact List.forall_mem_nil _
  | cons entry entries ih =>
    unfold parseSignerInfos at h
    obtain ⟨_,-,h⟩ := bind_eq_ok.mp h
    obtain ⟨first,hfirst,h⟩ := bind_eq_ok.mp h
    obtain ⟨rest,hrest,h⟩ := bind_eq_ok.mp h
    obtain rfl := pure_eq_ok.mp h
    intro signer hsigner
    rcases List.mem_cons.mp hsigner with rfl | hsigner
    · exact ⟨entry,hfirst⟩
    · exact ih hrest signer hsigner

/-- The attributes of every signer of a parsed blob are those in its copied
attribute bytes. -/
theorem parse_signer_attributes {σ : Type} {sha256 : HashContext σ Bytes} {der : Bytes}
    {sd : SignedData} (h : parse sha256 der=.ok sd) {signer : SignerInfo}
    (hsigner : signer ∈ sd.signerInfos) :
    extractSignedAttributes signer.signedAttrsContent 0 signer.signedAttrsContent.length=
      .ok signer.attributes := by
  unfold parse at h
  obtain ⟨contentInfo,-,h⟩ := bind_eq_ok.mp h
  obtain ⟨_,-,h⟩ := bind_eq_ok.mp h
  obtain ⟨children,-,h⟩ := bind_eq_ok.mp h
  split at h
  · obtain ⟨_,-,h⟩ := bind_eq_ok.mp h
    obtain ⟨oid,-,h⟩ := bind_eq_ok.mp h
    obtain ⟨_,-,h⟩ := bind_eq_ok.mp h
    obtain ⟨_,-,h⟩ := bind_eq_ok.mp h
    obtain ⟨signedDataEl,-,h⟩ := bind_eq_ok.mp h
    obtain ⟨_,-,h⟩ := bind_eq_ok.mp h
    obtain ⟨fields,-,h⟩ := bind_eq_ok.mp h
    obtain ⟨⟨version,fields⟩,-,h⟩ := bind_eq_ok.mp h
    obtain ⟨⟨digests,fields⟩,-,h⟩ := bind_eq_ok.mp h
    obtain ⟨⟨encapEl,fields⟩,-,h⟩ := bind_eq_ok.mp h
    obtain ⟨⟨contentType,content⟩,-,h⟩ := bind_eq_ok.mp h
    obtain ⟨⟨certificates,fields⟩,-,h⟩ := bind_eq_ok.mp h
    obtain ⟨⟨signersEl,fields⟩,-,h⟩ := bind_eq_ok.mp h
    obtain ⟨entries,-,h⟩ := bind_eq_ok.mp h
    obtain ⟨_,-,h⟩ := bind_eq_ok.mp h
    obtain ⟨signerInfos,hsigners,h⟩ := bind_eq_ok.mp h
    obtain rfl := pure_eq_ok.mp h
    obtain ⟨entry,hentry⟩ := parseSignerInfos_mem hsigners signer hsigner
    exact parseSignerInfo_attributes hentry
  · cases h

end Signers

end Gcad.Pkcs7
