import Gcad.Authenticode
import Gcad.PeHashCoverage

/-!
# What a trusted verdict is worth

The links from a file to a trust anchor that a trusted verdict should
stand for: file hash, encapsulated content, messageDigest, signed
attributes, signature, chain. All links hold for every trusted verdict as
soon as the first signer carries a messageDigest attribute; without it the
signed attributes do not bind the content and nothing notices.
-/

namespace Gcad.TrustedVerdict

open Common ByteView Asn1 X509 Pkcs7 CertificateChain PeAuthenticode Authenticode PeHashCoverage

variable {σ τ : Type}

/-- The links behind a verdict, for a parsed blob, its first signer, the
signer's certificate and key, the PE digest and a path of certificates. -/
structure Links (p : Primitives σ τ) (peBytes pkcs7Der : Bytes) (sd : SignedData)
    (signer : SignerInfo) (leaf : X509Certificate) (key : RsaPublicKey) (hash : Bytes)
    (path : List X509Certificate) : Prop where
  /-- The blob parses. -/
  parsed : Pkcs7.parse p.sha256 pkcs7Der=.ok sd
  /-- The signer is the first one. -/
  first : sd.signerInfos.head?=some signer
  /-- Its certificate is in the blob. -/
  certificate : leaf ∈ sd.certificates ∧ leaf.issuerDer=signer.issuerDer ∧
    leaf.serialNumber=signer.serialNumber
  /-- The certificate's key. -/
  rsa : leaf.rsaPublicKey=some key
  /-- The signature verifies over the re-encoded signed attributes. -/
  signature : p.verifyPkcs1v15Sha256 signer.signature key
    (p.sha256.digest (derEncodeSet signer.signedAttrsContent))=true
  /-- The signed attributes contain a messageDigest, and its value is the
  digest of the encapsulated content. -/
  messageDigest : ∃ attributes,
    extractSignedAttributes signer.signedAttrsContent 0 signer.signedAttrsContent.length=
      .ok attributes ∧ attributes.messageDigest=some (p.sha256.digest sd.content)
  /-- The PE digest in the content is the digest of the file. -/
  peHash : extractSpcPeHash sd.content=.ok hash ∧
    computeAuthenticodePeHashSha256 p.sha256 p.sectionSort peBytes=.ok hash
  /-- At most six certificates lead from the signer to an anchor. -/
  chain : TrustedPath (verifyCertSignedBy p) p.trustedRoots (addressed sd.certificates)
    maxChainDepth leaf path

/-- All links hold for some reading of the blob. -/
def Linked (p : Primitives σ τ) (peBytes pkcs7Der : Bytes) : Prop :=
  ∃ sd signer leaf key hash path, Links p peBytes pkcs7Der sd signer leaf key hash path

/-- The verification returns a trusted verdict. -/
def Trusted (p : Primitives σ τ) (peBytes pkcs7Der : Bytes) : Prop :=
  ∃ result, verifyAuthenticode p peBytes pkcs7Der=.ok result ∧ result.verdict=.trusted

/-- The first signer of the blob carries a messageDigest attribute. -/
def CarriesMessageDigest (p : Primitives σ τ) (pkcs7Der : Bytes) : Prop :=
  ∃ sd signer digest, Pkcs7.parse p.sha256 pkcs7Der=.ok sd ∧ sd.signerInfos.head?=some signer ∧
    signer.attributes.messageDigest=some digest

/-- All checks besides the messageDigest pass. -/
def OtherChecksPass (p : Primitives σ τ) (peBytes pkcs7Der : Bytes) : Prop :=
  ∃ sd signer leaf key hash, Checks p peBytes pkcs7Der sd signer leaf key hash

/-- With a messageDigest attribute that agrees with the content, the checks
give all links. -/
theorem links_of_checks {p : Primitives σ τ} {peBytes pkcs7Der : Bytes} {sd : SignedData}
    {signer : SignerInfo} {leaf : CertificateObject} {key : RsaPublicKey} {hash : Bytes}
    (h : Checks p peBytes pkcs7Der sd signer leaf key hash)
    (hdigest : signer.attributes.messageDigest=some (p.sha256.digest sd.content)) :
    Linked p peBytes pkcs7Der := by
  obtain ⟨path,hpath⟩ := walk_trusted h.chain
  have hsigner : signer ∈ sd.signerInfos := List.mem_of_mem_head? (by rw [h.first]; rfl)
  have hmatch := List.find?_some h.certificate
  simp only [matchesSigner,Bool.and_eq_true,decide_eq_true_eq] at hmatch
  have hmem := mem_of_mem_addressed (List.mem_of_find?_eq_some h.certificate)
  exact ⟨sd,signer,leaf.certificate,key,hash,path,h.parsed,h.first,⟨hmem,hmatch⟩,h.rsa,h.signature,
    ⟨signer.attributes,parse_signer_attributes h.parsed hsigner,hdigest⟩,⟨h.claimed,h.actual⟩,hpath⟩

/-- The links need a messageDigest attribute on the first signer. -/
theorem carries_of_linked {p : Primitives σ τ} {peBytes pkcs7Der : Bytes}
    (h : Linked p peBytes pkcs7Der) : CarriesMessageDigest p pkcs7Der := by
  obtain ⟨sd,signer,leaf,key,hash,path,h⟩ := h
  obtain ⟨attributes,hread,hdigest⟩ := h.messageDigest
  have hsigner : signer ∈ sd.signerInfos := List.mem_of_mem_head? (by rw [h.first]; rfl)
  rw [parse_signer_attributes h.parsed hsigner] at hread
  obtain rfl := Except.ok.inj hread
  exact ⟨sd,signer,_,h.parsed,h.first,hdigest⟩

/-- A trusted verdict stands for all links exactly when the first signer
carries a messageDigest attribute or one of the other checks fails. -/
theorem trusted_linked_iff (p : Primitives σ τ) (peBytes pkcs7Der : Bytes) :
    (Trusted p peBytes pkcs7Der → Linked p peBytes pkcs7Der) ↔
      CarriesMessageDigest p pkcs7Der ∨ ¬OtherChecksPass p peBytes pkcs7Der := by
  constructor
  · intro h
    by_cases hcarries : CarriesMessageDigest p pkcs7Der
    · exact .inl hcarries
    · refine .inr ?_
      rintro ⟨sd,signer,leaf,key,hash,hchecks⟩
      have htrusted : Trusted p peBytes pkcs7Der := by
        refine verifyAuthenticode_trusted_iff.mpr ⟨sd,signer,leaf,key,hash,hchecks,?_⟩
        intro digest hdigest
        exact absurd ⟨sd,signer,digest,hchecks.parsed,hchecks.first,hdigest⟩ hcarries
      exact hcarries (carries_of_linked (h htrusted))
  · intro h htrusted
    obtain ⟨sd,signer,leaf,key,hash,hchecks,hagree⟩ := verifyAuthenticode_trusted_iff.mp htrusted
    rcases h with hcarries | hfails
    · obtain ⟨sd',signer',digest,hparsed,hfirst,hdigest⟩ := hcarries
      rw [hchecks.parsed] at hparsed
      obtain rfl := Except.ok.inj hparsed
      rw [hchecks.first] at hfirst
      obtain rfl := Option.some.inj hfirst
      rw [hagree digest hdigest] at hdigest
      exact links_of_checks hchecks hdigest
    · exact absurd ⟨sd,signer,leaf,key,hash,hchecks⟩ hfails

/-- A 32-byte digest that keeps the first bytes of the stream. -/
def prefixContext : HashContext Bytes Bytes :=
  ⟨[],(·++·),fun stream => (stream++List.replicate 32 0).take 32⟩

/-- The key of the fixture certificates. -/
def fixtureKey : RsaPublicKey := ⟨[35],[3]⟩

/-- Names of the fixture certificates: the empty Name. -/
def fixtureName : Bytes := derEncode 0x30 []

/-- Object identifiers in DER. -/
def fixtureOid (arcs : Bytes) : Bytes := derEncode 0x06 arcs

/-- The arcs of sha256WithRSAEncryption's family, up to the last one. -/
def pkcs1Arcs (last : UInt8) : Bytes := [0x2a,0x86,0x48,0x86,0xf7,0x0d,0x01,0x01,last]

/-- The SHA-256 identifier. -/
def sha256Arcs : Bytes := [0x60,0x86,0x48,0x01,0x65,0x03,0x04,0x02,0x01]

/-- The signed part of the fixture certificate. -/
def fixtureTbs : Bytes :=
  let key := derEncode 0x30 (derEncode 0x02 fixtureKey.modulus++derEncode 0x02 fixtureKey.exponent)
  derEncode 0x30 (derEncode 0x02 [1]++derEncode 0x30 []++fixtureName++
    derEncode 0x30 (derEncode 0x17 [0x31]++derEncode 0x17 [0x32])++fixtureName++
    derEncode 0x30 (derEncode 0x30 (fixtureOid (pkcs1Arcs 0x01))++derEncode 0x03 (0::key)))

/-- The signer's certificate, signed by the anchor. -/
def fixtureSignerDer : Bytes :=
  derEncode 0x30 (fixtureTbs++derEncode 0x30 (fixtureOid (pkcs1Arcs 0x0b))++
    derEncode 0x03 (0::prefixContext.digest fixtureTbs))

/-- The encapsulated content with a PE digest. -/
def fixtureContent (peHash : Bytes) : Bytes :=
  derEncode 0x30 []++derEncode 0x30 (derEncode 0x30 (fixtureOid sha256Arcs)++derEncode 0x04 peHash)

/-- An attribute of the PKCS#9 family with one value. -/
def fixtureAttribute (last : UInt8) (value : Bytes) : Bytes :=
  derEncode 0x30 (fixtureOid [0x2a,0x86,0x48,0x86,0xf7,0x0d,0x01,0x09,last]++derEncode 0x31 value)

/-- A SignedData blob over a content and signed attributes. -/
def fixtureBlob (content attributes : Bytes) : Bytes :=
  let signer := derEncode 0x30 (derEncode 0x02 [1]++
    derEncode 0x30 (fixtureName++derEncode 0x02 [1])++derEncode 0x30 (fixtureOid sha256Arcs)++
    derEncode 0xa0 attributes++derEncode 0x30 (fixtureOid (pkcs1Arcs 0x01))++
    derEncode 0x04 (prefixContext.digest (derEncodeSet attributes)))
  derEncode 0x30 (fixtureOid [0x2a,0x86,0x48,0x86,0xf7,0x0d,0x01,0x07,0x02]++
    derEncode 0xa0 (derEncode 0x30 (derEncode 0x02 [1]++derEncode 0x31 []++
      derEncode 0x30 (fixtureOid [0x2a]++derEncode 0xa0 (derEncode 0x30 content))++
      derEncode 0xa0 fixtureSignerDer++derEncode 0x31 signer)))

/-- A signature verifies when it is the digest; the one anchor has the name
and the key of the fixture. -/
def fixturePrimitives : Primitives Bytes Bytes where
  sha256 := prefixContext
  sha384 := prefixContext
  verifyPkcs1v15Sha256 signature _ digest := decide (signature=digest)
  verifyPkcs1v15Sha384 signature _ digest := decide (signature=digest)
  trustedRoots := [fixtureCertificate fixtureName fixtureName (some fixtureKey)]
  sectionSort := .stable

/-- The file of the fixtures. -/
def fixturePe : Bytes := fixtureImage 264 2 [1,2]

/-- The PE digest of that file. -/
def fixturePeHash : Bytes := [0x4d,0x5a]++List.replicate 30 0

/-- A blob whose messageDigest binds the content. -/
def boundBlob : Bytes :=
  fixtureBlob (fixtureContent fixturePeHash)
    (fixtureAttribute 0x04 (derEncode 0x04 (prefixContext.digest (fixtureContent fixturePeHash))))

/-- A blob whose signed attributes hold a contentType only. -/
def unboundBlob : Bytes :=
  fixtureBlob (fixtureContent fixturePeHash) (fixtureAttribute 0x03 (fixtureOid [0x2a]))

/-- A verdict read off the result of the verification. -/
theorem trusted_of_map {p : Primitives σ τ} {peBytes pkcs7Der : Bytes}
    (h : (verifyAuthenticode p peBytes pkcs7Der).map AuthenticodeResult.verdict=.ok .trusted) :
    Trusted p peBytes pkcs7Der := by
  cases hr : verifyAuthenticode p peBytes pkcs7Der with
  | error fault =>
    rw [hr] at h
    cases h
  | ok result =>
    rw [hr] at h
    exact ⟨result,hr,Except.ok.inj h⟩

/-- The messageDigest of the first signer, read off the parsed blob. -/
theorem messageDigest_of_map {p : Primitives σ τ} {pkcs7Der : Bytes} {digest : Option Bytes}
    (h : (Pkcs7.parse p.sha256 pkcs7Der).map (fun sd =>
      sd.signerInfos.head?.map fun signer => signer.attributes.messageDigest)=.ok (some digest)) :
    ∃ sd signer, Pkcs7.parse p.sha256 pkcs7Der=.ok sd ∧ sd.signerInfos.head?=some signer ∧
      signer.attributes.messageDigest=digest := by
  cases hp : Pkcs7.parse p.sha256 pkcs7Der with
  | error fault =>
    rw [hp] at h
    cases h
  | ok sd =>
    rw [hp] at h
    obtain ⟨signer,hsigner,hdigest⟩ := Option.map_eq_some_iff.mp (Except.ok.inj h)
    exact ⟨sd,signer,rfl,hsigner,hdigest⟩

/-- The bound blob is trusted, and all links hold for it. -/
theorem trusted_linked_fixture :
    Trusted fixturePrimitives fixturePe boundBlob ∧
      Linked fixturePrimitives fixturePe boundBlob := by
  have htrusted : Trusted fixturePrimitives fixturePe boundBlob :=
    trusted_of_map (by decide +kernel)
  have hcarries : CarriesMessageDigest fixturePrimitives boundBlob := by
    have hpresent : (Pkcs7.parse fixturePrimitives.sha256 boundBlob).map (fun sd =>
        sd.signerInfos.head?.map fun signer => signer.attributes.messageDigest)=
        .ok (some (some (prefixContext.digest (fixtureContent fixturePeHash)))) := by
      decide +kernel
    obtain ⟨sd,signer,hparsed,hfirst,hdigest⟩ := messageDigest_of_map hpresent
    exact ⟨sd,signer,_,hparsed,hfirst,hdigest⟩
  exact ⟨htrusted,(trusted_linked_iff fixturePrimitives fixturePe boundBlob).mpr (.inl hcarries)
    htrusted⟩

/-- The unbound blob is trusted although its signed attributes hold no
messageDigest: its content could be replaced without touching what was
signed. -/
theorem trusted_without_messageDigest :
    ¬∀ (p : Primitives Bytes Bytes) (peBytes pkcs7Der : Bytes),
      Trusted p peBytes pkcs7Der → Linked p peBytes pkcs7Der := by
  intro h
  have htrusted : Trusted fixturePrimitives fixturePe unboundBlob :=
    trusted_of_map (by decide +kernel)
  obtain ⟨sd,signer,digest,hparsed,hfirst,hdigest⟩ := carries_of_linked (h _ _ _ htrusted)
  have habsent : (Pkcs7.parse fixturePrimitives.sha256 unboundBlob).map (fun sd =>
      sd.signerInfos.head?.map fun signer => signer.attributes.messageDigest)=.ok (some none) := by
    decide +kernel
  obtain ⟨sd',signer',hparsed',hfirst',hnone⟩ := messageDigest_of_map habsent
  rw [hparsed] at hparsed'
  obtain rfl := Except.ok.inj hparsed'
  rw [hfirst] at hfirst'
  obtain rfl := Option.some.inj hfirst'
  rw [hdigest] at hnone
  cases hnone

end Gcad.TrustedVerdict
