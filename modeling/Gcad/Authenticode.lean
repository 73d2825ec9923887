import Gcad.Pkcs7
import Gcad.CertificateChain
import Gcad.PeAuthenticode

/-!
# Authenticode verification

`verify_authenticode` over given hash contexts, given RSA checks and a
given list of trust anchors. A trusted verdict needs every link from the
file to an anchor except one: the comparison of the messageDigest attribute
is made only when the attribute is present.
-/

namespace Gcad.Authenticode

open Common ByteView Asn1 X509 Pkcs7 CertificateChain PeAuthenticode

/-- `kSha256DigestOid`. -/
def sha256DigestOid : Str := "2.16.840.1.101.3.4.2.1".toList

/-- `kSha256WithRsaOid`. -/
def sha256WithRsaOid : Str := "1.2.840.113549.1.1.11".toList

/-- `kSha384WithRsaOid`. -/
def sha384WithRsaOid : Str := "1.2.840.113549.1.1.12".toList

/-- The cryptographic functions, the trust anchors and the section sort the
verification runs on. -/
structure Primitives (σ τ : Type) where
  /-- The class `SHA256`. -/
  sha256 : HashContext σ Bytes
  /-- The class `SHA384`. -/
  sha384 : HashContext τ Bytes
  /-- The check of a signature over a SHA-256 digest. -/
  verifyPkcs1v15Sha256 : Bytes → RsaPublicKey → Bytes → Bool
  /-- The same over a SHA-384 digest. -/
  verifyPkcs1v15Sha384 : Bytes → RsaPublicKey → Bytes → Bool
  /-- The certificates of the embedded store. -/
  trustedRoots : List X509Certificate
  /-- The order `std::sort` leaves the sections in. -/
  sectionSort : SectionSort

/-- `verify_cert_signed_by`. -/
def verifyCertSignedBy {σ τ : Type} (p : Primitives σ τ) (subject issuer : X509Certificate) :
    Bool :=
  match issuer.rsaPublicKey with
  | none => false
  | some key =>
    if subject.signatureAlgorithmOid=sha256WithRsaOid then
      p.verifyPkcs1v15Sha256 subject.signatureValue key (p.sha256.digest subject.tbsCertificate)
    else if subject.signatureAlgorithmOid=sha384WithRsaOid then
      p.verifyPkcs1v15Sha384 subject.signatureValue key (p.sha384.digest subject.tbsCertificate)
    else false

/-- `extract_spc_pe_hash`. -/
def extractSpcPeHash (content : Bytes) : Checked Bytes := do
  match ← parseSequenceChildren content 0 content.length with
  | [_,digestInfoEl] => do
    require (digestInfoEl.isUniversal .sequence=true)
    match ← childrenOf content digestInfoEl with
    | [algorithmEl,digestEl] => do
      require (algorithmEl.isUniversal .sequence=true ∧ digestEl.isUniversal .octetString=true)
      let alg ← childrenOf content algorithmEl
      let (oidEl,_) ← nextUniversal .objectIdentifier alg
      let oid ← oidToString content oidEl
      require (oid=sha256DigestOid)
      require (digestEl.contentLength=32)
      contentBytes content digestEl
    | _ => throw .rejected
  | _ => throw .rejected

/-- The result of a verification. -/
structure AuthenticodeResult where
  /-- How far the signature was found to hold. -/
  verdict : AuthenticodeVerdict
  /-- Common name of the signer, possibly empty. -/
  signerSubjectCn : Bytes
  /-- Thumbprint of the signer, empty when it was not resolved. -/
  signerSha256Thumbprint : Str
  deriving DecidableEq, Repr

/-- The checks after the signer's certificate and key have been found. -/
def verifySigner {σ τ : Type} (p : Primitives σ τ) (peBytes : Bytes) (sd : SignedData)
    (signer : SignerInfo) (leaf : CertificateObject) (key : RsaPublicKey) :
    Checked AuthenticodeVerdict := do
  if signer.digestAlgorithmOid≠sha256DigestOid then return .malformed
  else if p.verifyPkcs1v15Sha256 signer.signature key
      (p.sha256.digest (derEncodeSet signer.signedAttrsContent))=false then
    return .signatureInvalid
  else if signer.attributes.messageDigest≠none ∧
      signer.attributes.messageDigest≠some (p.sha256.digest sd.content) then
    return .malformed
  else do
    match ← attempt (extractSpcPeHash sd.content) with
    | none => return .malformed
    | some claimedPeHash =>
      match ← attempt (computeAuthenticodePeHashSha256 p.sha256 p.sectionSort peBytes) with
      | none => return .malformed
      | some actualPeHash =>
        if claimedPeHash≠actualPeHash then return .hashMismatch
        else
          return (verifyCertificateChain (verifyCertSignedBy p) p.trustedRoots leaf
            (addressed sd.certificates))

/-- `verify_authenticode`. -/
def verifyAuthenticode {σ τ : Type} (p : Primitives σ τ) (peBytes pkcs7Der : Bytes) :
    Checked AuthenticodeResult := do
  match ← attempt (Pkcs7.parse p.sha256 pkcs7Der) with
  | none => return ⟨.malformed,[],[]⟩
  | some sd =>
    match sd.signerInfos with
    | [] => return ⟨.malformed,[],[]⟩
    | signer::_ =>
      match findSignerCertificate sd signer with
      | none => return ⟨.malformed,[],[]⟩
      | some leaf =>
        match leaf.certificate.rsaPublicKey with
        | none => return ⟨.malformed,[],[]⟩
        | some key => do
          let verdict ← verifySigner p peBytes sd signer leaf key
          return ⟨verdict,leaf.certificate.subjectCommonName,leaf.certificate.sha256Thumbprint⟩

section Trusted

variable {σ τ : Type}

/-- The checks a trusted verdict needs besides the messageDigest. -/
structure Checks (p : Primitives σ τ) (peBytes pkcs7Der : Bytes) (sd : SignedData)
    (signer : SignerInfo) (leaf : CertificateObject) (key : RsaPublicKey) (hash : Bytes) :
    Prop where
  /-- The blob parses. -/
  parsed : Pkcs7.parse p.sha256 pkcs7Der=.ok sd
  /-- It has a first signer. -/
  first : sd.signerInfos.head?=some signer
  /-- The signer's certificate is in the blob. -/
  certificate : findSignerCertificate sd signer=some leaf
  /-- The certificate has an RSA key. -/
  rsa : leaf.certificate.rsaPublicKey=some key
  /-- The digest algorithm is SHA-256. -/
  algorithm : signer.digestAlgorithmOid=sha256DigestOid
  /-- The signature over the signed attributes verifies. -/
  signature : p.verifyPkcs1v15Sha256 signer.signature key
    (p.sha256.digest (derEncodeSet signer.signedAttrsContent))=true
  /-- The content carries a SHA-256 PE digest. -/
  claimed : extractSpcPeHash sd.content=.ok hash
  /-- It is the digest of the file. -/
  actual : computeAuthenticodePeHashSha256 p.sha256 p.sectionSort peBytes=.ok hash
  /-- The chain walk ends at a trust anchor. -/
  chain : verifyCertificateChain (verifyCertSignedBy p) p.trustedRoots leaf
    (addressed sd.certificates)=.trusted

/-- The test of an attribute that may be absent passes exactly when the
attribute is the digest wherever it is present. -/
theorem digest_agrees_iff {claimed : Option Bytes} {digest : Bytes} :
    ¬(claimed≠none ∧ claimed≠some digest) ↔ ∀ value, claimed=some value → value=digest := by
  cases claimed with
  | none => exact iff_of_true (fun h => h.1 rfl) nofun
  | some value =>
    constructor
    · intro hagree other hother
      by_contra hne
      exact hagree ⟨Option.some_ne_none value,fun heq =>
        hne (Option.some.inj (hother.symm.trans heq))⟩
    · exact fun hall hdiffers => hdiffers.2 (congrArg some (hall value rfl))

/-- When the verdict on a resolved signer is trusted. -/
theorem verifySigner_trusted_iff {p : Primitives σ τ} {peBytes : Bytes} {sd : SignedData}
    {signer : SignerInfo} {leaf : CertificateObject} {key : RsaPublicKey} :
    verifySigner p peBytes sd signer leaf key=.ok .trusted ↔
      signer.digestAlgorithmOid=sha256DigestOid ∧
      p.verifyPkcs1v15Sha256 signer.signature key
        (p.sha256.digest (derEncodeSet signer.signedAttrsContent))=true ∧
      (∀ digest, signer.attributes.messageDigest=some digest →
        digest=p.sha256.digest sd.content) ∧
      ∃ hash, extractSpcPeHash sd.content=.ok hash ∧
        computeAuthenticodePeHashSha256 p.sha256 p.sectionSort peBytes=.ok hash ∧
        verifyCertificateChain (verifyCertSignedBy p) p.trustedRoots leaf
          (addressed sd.certificates)=.trusted := by
  unfold verifySigner
  constructor
  · intro h
    split at h
    · cases h
    · next halgorithm =>
      split at h
      · cases h
      · next hsignature =>
        split at h
        · cases h
        · next hdigest =>
          obtain ⟨claimed,hclaimed,h⟩ := bind_eq_ok.mp h
          cases claimed with
          | none => cases h
          | some claimed =>
            obtain ⟨actual,hactual,h⟩ := bind_eq_ok.mp h
            cases actual with
            | none => cases h
            | some actual =>
              dsimp only at h
              split at h
              · cases h
              · next hsame =>
                obtain rfl := not_not.mp hsame
                exact ⟨not_not.mp halgorithm,Bool.eq_true_of_not_eq_false hsignature,
                  digest_agrees_iff.mp hdigest,claimed,attempt_eq_some.mp hclaimed,
                  attempt_eq_some.mp hactual,pure_eq_ok.mp h⟩
  · rintro ⟨halgorithm,hsignature,hdigest,hash,hclaimed,hactual,hchain⟩
    rw [if_neg (not_not.mpr halgorithm),if_neg (by rw [hsignature]; exact Bool.true_eq_false_eq_False),
      if_neg (digest_agrees_iff.mpr hdigest)]
    refine bind_eq_ok.mpr ⟨some hash,attempt_eq_some.mpr hclaimed,?_⟩
    refine bind_eq_ok.mpr ⟨some hash,attempt_eq_some.mpr hactual,?_⟩
    dsimp only
    rw [if_neg (not_not.mpr rfl)]
    exact pure_eq_ok.mpr hchain

/-- When the verdict on a file is trusted. -/
theorem verifyAuthenticode_trusted_iff {p : Primitives σ τ} {peBytes pkcs7Der : Bytes} :
    (∃ result, verifyAuthenticode p peBytes pkcs7Der=.ok result ∧ result.verdict=.trusted) ↔
      ∃ sd signer leaf key hash, Checks p peBytes pkcs7Der sd signer leaf key hash ∧
        ∀ digest, signer.attributes.messageDigest=some digest →
          digest=p.sha256.digest sd.content := by
  unfold verifyAuthenticode
  constructor
  · rintro ⟨result,h,hverdict⟩
    obtain ⟨parsed,hparsed,h⟩ := bind_eq_ok.mp h
    cases parsed with
    | none =>
      obtain rfl := pure_eq_ok.mp h
      cases hverdict
    | some sd =>
      dsimp only at h
      split at h
      · obtain rfl := pure_eq_ok.mp h
        cases hverdict
      · next signer rest hsigners =>
        split at h
        · obtain rfl := pure_eq_ok.mp h
          cases hverdict
        · next leaf hleaf =>
          split at h
          · obtain rfl := pure_eq_ok.mp h
            cases hverdict
          · next key hkey =>
            obtain ⟨verdict,hsigner,h⟩ := bind_eq_ok.mp h
            obtain rfl := pure_eq_ok.mp h
            dsimp only at hverdict
            subst hverdict
            obtain ⟨halgorithm,hsignature,hdigest,hash,hclaimed,hactual,hchain⟩ :=
              verifySigner_trusted_iff.mp hsigner
            exact ⟨sd,signer,leaf,key,hash,⟨attempt_eq_some.mp hparsed,by rw [hsigners]; rfl,hleaf,
              hkey,halgorithm,hsignature,hclaimed,hactual,hchain⟩,hdigest⟩
  · rintro ⟨sd,signer,leaf,key,hash,h,hdigest⟩
    have hsigner := verifySigner_trusted_iff.mpr
      ⟨h.algorithm,h.signature,hdigest,hash,h.claimed,h.actual,h.chain⟩
    obtain ⟨rest,hrest⟩ := List.head?_eq_some_iff.mp h.first
    refine ⟨⟨.trusted,leaf.certificate.subjectCommonName,leaf.certificate.sha256Thumbprint⟩,?_,rfl⟩
    refine bind_eq_ok.mpr ⟨some sd,attempt_eq_some.mpr h.parsed,?_⟩
    dsimp only
    rw [hrest]
    dsimp only
    rw [h.certificate]
    dsimp only
    rw [h.rsa]
    exact bind_eq_ok.mpr ⟨.trusted,hsigner,rfl⟩

end Trusted

end Gcad.Authenticode
