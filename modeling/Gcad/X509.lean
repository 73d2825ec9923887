import Gcad.Asn1

/-!
# The X.509 certificate parser

`X509Parser::parse` of x509.cpp on the DER reader. The running index over
the fields of a structure is the list of the fields not yet consumed. Names
are byte strings, object identifiers dotted texts.
-/

namespace Gcad.X509

open Common ByteView Asn1

/-- An RSA key as it stands in a certificate. -/
structure RsaPublicKey where
  /-- Modulus, big-endian without the pad byte. -/
  modulus : Bytes
  /-- Exponent, big-endian. -/
  exponent : Bytes
  deriving DecidableEq, Repr

/-- The fields read from a certificate. -/
structure X509Certificate where
  /-- The complete input. -/
  raw : Bytes
  /-- The TLV that the signature covers. -/
  tbsCertificate : Bytes
  /-- The number its issuer gave it, as big-endian bytes. -/
  serialNumber : Bytes
  /-- TLV of the issuer name. -/
  issuerDer : Bytes
  /-- TLV of the subject name. -/
  subjectDer : Bytes
  /-- Common name of the issuer, possibly empty. -/
  issuerCommonName : Bytes
  /-- Common name of the subject, possibly empty. -/
  subjectCommonName : Bytes
  /-- Start of validity as written. -/
  notBefore : Bytes
  /-- End of validity as written. -/
  notAfter : Bytes
  /-- Algorithm of the public key. -/
  publicKeyAlgorithmOid : Str
  /-- The key, when it is a well-formed RSA key. -/
  rsaPublicKey : Option RsaPublicKey
  /-- Algorithm of the outer signature. -/
  signatureAlgorithmOid : Str
  /-- The outer signature. -/
  signatureValue : Bytes
  /-- Hexadecimal hash of the complete input. -/
  sha256Thumbprint : Str
  deriving DecidableEq, Repr

/-- A certificate at an address. -/
structure CertificateObject where
  /-- The address that pointer comparison sees. -/
  address : ℕ
  /-- The certificate stored there. -/
  certificate : X509Certificate
  deriving DecidableEq, Repr

/-- The elements of a vector of certificates, addressed by position. -/
def addressed (certificates : List X509Certificate) : List CertificateObject :=
  certificates.zipIdx.map fun e => ⟨e.2,e.1⟩

/-- An addressed element is one of the certificates. -/
theorem mem_of_mem_addressed {certificates : List X509Certificate} {object : CertificateObject}
    (h : object ∈ addressed certificates) : object.certificate ∈ certificates := by
  obtain ⟨e,he,rfl⟩ := List.mem_map.mp h
  exact List.mem_of_getElem? (List.mem_zipIdx_iff_getElem?.mp he)

/-- `kRsaEncryptionOid`. -/
def rsaEncryptionOid : Str := "1.2.840.113549.1.1.1".toList

/-- `kCommonNameOid`. -/
def commonNameOid : Str := "2.5.4.3".toList

/-- One hexadecimal digit. -/
def hexDigit (n : ℕ) : Char := "0123456789abcdef".toList.getD n '0'

/-- `SHA256::hex`. -/
def hex (digest : Bytes) : Str :=
  digest.flatMap fun b => [hexDigit (b.toNat >>> 4),hexDigit (b.toNat &&& 0xf)]

/-- Consume the next field, which must carry a universal tag. -/
def nextUniversal (t : UniversalTag) : List Element → Checked (Element×List Element)
  | [] => .error .rejected
  | el::rest => if el.isUniversal t then .ok (el,rest) else .error .rejected

/-- Skip the next field if it carries a context-specific tag. -/
def skipContext (number : ℕ) : List Element → List Element
  | [] => []
  | el::rest => if el.isContext number then rest else el::rest

/-- The algorithm of an AlgorithmIdentifier. -/
def algorithmOid (data : Bytes) (el : Element) : Checked Str := do
  let children ← childrenOf data el
  let (first,_) ← nextUniversal .objectIdentifier children
  let oid ← oidToString data first
  require (oid≠[])
  return oid

/-- The UTF-8 bytes of one code point of the basic plane. -/
def utf8OfCodePoint (cp : ℕ) : Bytes :=
  if cp ≤ 0x7f then [UInt8.ofNat cp]
  else if cp ≤ 0x7ff then [UInt8.ofNat (0xc0 ||| cp >>> 6),UInt8.ofNat (0x80 ||| cp &&& 0x3f)]
  else [UInt8.ofNat (0xe0 ||| cp >>> 12),UInt8.ofNat (0x80 ||| cp >>> 6 &&& 0x3f),
    UInt8.ofNat (0x80 ||| cp &&& 0x3f)]

/-- `bmp_string_to_utf8`. -/
def bmpStringToUtf8 : Bytes → Bytes
  | high::low::rest => utf8OfCodePoint (high.toNat <<< 8 ||| low.toNat)++bmpStringToUtf8 rest
  | _ => []

/-- The common name in one AttributeTypeAndValue, if it is one. -/
def commonNameOfAttribute (data : Bytes) (atv : Element) : Checked (Option Bytes) := do
  if !atv.isUniversal .sequence then return none
  else do
    match ← childrenOf data atv with
    | [type,value] =>
      if !type.isUniversal .objectIdentifier then return none
      else do
        let oid ← oidToString data type
        if oid≠commonNameOid then return none
        else do
          let content ← contentBytes data value
          return some (if value.isUniversal .bmpString then bmpStringToUtf8 content else content)
    | _ => return none

/-- The first value a search finds. -/
def firstFound (search : Element → Checked (Option Bytes)) : List Element → Checked (Option Bytes)
  | [] => .ok none
  | el::rest => do
    match ← search el with
    | some value => return some value
    | none => firstFound search rest

/-- The common name in one RelativeDistinguishedName. -/
def commonNameOfRdn (data : Bytes) (rdn : Element) : Checked (Option Bytes) := do
  if !rdn.isUniversal .set then return none
  else do
    let atvs ← childrenOf data rdn
    firstFound (commonNameOfAttribute data) atvs

/-- `extract_common_name`. -/
def extractCommonName (data : Bytes) (nameSeq : Element) : Checked Bytes := do
  let rdns ← childrenOf data nameSeq
  let found ← firstFound (commonNameOfRdn data) rdns
  return found.getD []

/-- `extract_time_string`. -/
def extractTimeString (data : Bytes) (timeEl : Element) : Checked Bytes := do
  if !timeEl.isUniversal .utcTime && !timeEl.isUniversal .generalizedTime then return []
  else contentBytes data timeEl

/-- `read_byte_aligned_bit_string`. -/
def readByteAlignedBitString (data : Bytes) (el : Element) : Checked Bytes := do
  require (el.isUniversal .bitString=true ∧ el.contentLength≠0)
  let content ← contentBytes data el
  match content with
  | 0::rest => return rest
  | _ => throw .rejected

/-- The RSA key in a subjectPublicKey; any defect leaves it absent. -/
def parseRsaPublicKey (keyData : Bytes) : Checked (Option RsaPublicKey) := attempt do
  let rsaSeq ← parseElement keyData keyData.length 0
  require (rsaSeq.isUniversal .sequence=true)
  match ← childrenOf keyData rsaSeq with
  | [n,e] => do
    require (n.isUniversal .integer=true ∧ e.isUniversal .integer=true)
    let modulus ← readUnsignedInteger keyData n
    let exponent ← readUnsignedInteger keyData e
    require (modulus≠[] ∧ exponent≠[])
    return ⟨modulus,exponent⟩
  | _ => throw .rejected

/-- The two validity times. -/
def parseValidity (data : Bytes) (el : Element) : Checked (Bytes×Bytes) := do
  match ← childrenOf data el with
  | [first,second] => do
    let notBefore ← extractTimeString data first
    let notAfter ← extractTimeString data second
    require (notBefore≠[] ∧ notAfter≠[])
    return (notBefore,notAfter)
  | _ => throw .rejected

/-- The subjectPublicKeyInfo: its algorithm and the key. -/
def parsePublicKeyInfo (data : Bytes) (el : Element) : Checked (Str×Option RsaPublicKey) := do
  match ← childrenOf data el with
  | algorithm::key::_ => do
    require (algorithm.isUniversal .sequence=true)
    let oid ← algorithmOid data algorithm
    let keyData ← readByteAlignedBitString data key
    if oid=rsaEncryptionOid then do
      let rsa ← parseRsaPublicKey keyData
      return (oid,rsa)
    else return (oid,none)
  | _ => throw .rejected

/-- `X509Parser::parse`. -/
def parse {σ : Type} (sha256 : HashContext σ Bytes) (der : Bytes) : Checked X509Certificate := do
  let certSeq ← parseElement der der.length 0
  require (certSeq.isUniversal .sequence=true)
  match ← childrenOf der certSeq with
  | [tbsEl,sigAlgEl,sigValEl] => do
    require (tbsEl.isUniversal .sequence=true)
    require (sigAlgEl.isUniversal .sequence=true)
    let tbsCertificate ← rawBytes der tbsEl
    let signatureAlgorithmOid ← algorithmOid der sigAlgEl
    let signatureValue ← readByteAlignedBitString der sigValEl
    let tbsChildren ← childrenOf der tbsEl
    let (serialEl,fields) ← nextUniversal .integer (skipContext 0 tbsChildren)
    let serialNumber ← readUnsignedInteger der serialEl
    require (serialNumber≠[])
    let (_,fields) ← nextUniversal .sequence fields
    let (issuerEl,fields) ← nextUniversal .sequence fields
    let issuerDer ← rawBytes der issuerEl
    let issuerCommonName ← extractCommonName der issuerEl
    let (validityEl,fields) ← nextUniversal .sequence fields
    let (notBefore,notAfter) ← parseValidity der validityEl
    let (subjectEl,fields) ← nextUniversal .sequence fields
    let subjectDer ← rawBytes der subjectEl
    let subjectCommonName ← extractCommonName der subjectEl
    let (spkiEl,_) ← nextUniversal .sequence fields
    let (publicKeyAlgorithmOid,rsaPublicKey) ← parsePublicKeyInfo der spkiEl
    return {
      raw := der
      tbsCertificate := tbsCertificate
      serialNumber := serialNumber
      issuerDer := issuerDer
      subjectDer := subjectDer
      issuerCommonName := issuerCommonName
      subjectCommonName := subjectCommonName
      notBefore := notBefore
      notAfter := notAfter
      publicKeyAlgorithmOid := publicKeyAlgorithmOid
      rsaPublicKey := rsaPublicKey
      signatureAlgorithmOid := signatureAlgorithmOid
      signatureValue := signatureValue
      sha256Thumbprint := hex (sha256.digest der) }
  | _ => throw .rejected

end Gcad.X509
