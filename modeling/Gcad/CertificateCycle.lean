import Gcad.Authenticode
import Gcad.RsaPkcs1

/-!
# Cyclic certificate sets

A walk that enters a cycle of verified issuers never meets an anchor and
never runs out of issuers, so it ends when its levels are used up. The
verdict there is the same as for an unknown root. Cycles can be built with
any hash: a key with the exponent one accepts the encoded message itself.
-/

namespace Gcad.CertificateCycle

open Common ByteView Bignum RsaPkcs1 X509 CertificateChain PeAuthenticode Authenticode

/-- A trail of verified issuer links that starts at the leaf and, after a
tail, runs round a cycle of distinct list entries, without an anchor for
any of its certificates. -/
structure CyclicTrail (signedBy : X509Certificate → X509Certificate → Bool)
    (roots : List X509Certificate) (leaf : CertificateObject) (issuers : List CertificateObject)
    (trail : ℕ → CertificateObject) (tail period : ℕ) : Prop where
  /-- The trail starts at the leaf. -/
  start : trail 0=leaf
  /-- The cycle has two or more entries. -/
  several : 2 ≤ period
  /-- Each certificate is followed by its issuer. -/
  linked : ∀ i, i < tail+period → findIssuer issuers (trail i)=some (trail (i+1))
  /-- Each signature on the way verifies. -/
  verified : ∀ i, i < tail+period →
    signedBy (trail i).certificate (trail (i+1)).certificate=true
  /-- No certificate on the way is issued by an anchor. -/
  unanchored : ∀ i, i < tail+period →
    findTrustAnchorBySubject roots (trail i).certificate.issuerDer=none
  /-- The cycle closes. -/
  closed : trail (tail+period)=trail tail
  /-- The cycle is made of list entries. -/
  entries : ∀ i, tail ≤ i → i < tail+period → trail i ∈ issuers
  /-- The entries of the cycle are distinct. -/
  distinct : ∀ i j, tail ≤ i → i < j → j < tail+period → (trail i).address≠(trail j).address

/-- Following issuer links from the leaf enters a cycle. -/
def EntersCycle (signedBy : X509Certificate → X509Certificate → Bool)
    (roots : List X509Certificate) (leaf : CertificateObject)
    (issuers : List CertificateObject) : Prop :=
  ∃ trail tail period, CyclicTrail signedBy roots leaf issuers trail tail period

section Walk

variable {signedBy : X509Certificate → X509Certificate → Bool} {roots : List X509Certificate}
  {leaf : CertificateObject} {issuers : List CertificateObject} {trail : ℕ → CertificateObject}
  {tail period : ℕ}

/-- One level of the walk follows the trail. -/
theorem walk_succ (h : CyclicTrail signedBy roots leaf issuers trail tail period) {i : ℕ}
    (hi : i < tail+period) (depth : ℕ) :
    walk signedBy roots issuers (depth+1) (trail i)=
      walk signedBy roots issuers depth (trail (i+1)) := by
  rw [walk,h.unanchored i hi]
  dsimp only
  rw [h.linked i hi]
  dsimp only
  rw [if_pos (h.verified i hi)]

/-- From every place of the trail the walk uses up its levels. -/
theorem walk_trail (h : CyclicTrail signedBy roots leaf issuers trail tail period) {i : ℕ}
    (hi : i < tail+period) (depth : ℕ) :
    walk signedBy roots issuers depth (trail i)=.validUntrustedRoot := by
  induction depth generalizing i with
  | zero => rfl
  | succ depth ih =>
    rw [walk_succ h hi]
    rcases Nat.lt_or_ge (i+1) (tail+period) with hnext | hnext
    · exact ih hnext
    · have hend : i+1=tail+period := by omega
      have hperiod := h.several
      rw [hend,h.closed]
      exact ih (by omega)

end Walk

/-- A cyclic certificate set never gives the verdict of a broken chain: the
verdict is that of a valid chain to an unknown root. -/
theorem cyclic_set_valid_untrusted_root (signedBy : X509Certificate → X509Certificate → Bool)
    (roots : List X509Certificate) (leaf : CertificateObject) (issuers : List CertificateObject)
    (h : EntersCycle signedBy roots leaf issuers) :
    verifyCertificateChain signedBy roots leaf issuers≠.chainInvalid ∧
      verifyCertificateChain signedBy roots leaf issuers=.validUntrustedRoot := by
  obtain ⟨trail,tail,period,htrail⟩ := h
  have hperiod := htrail.several
  have hwalk := walk_trail htrail (i := 0) (by omega) maxChainDepth
  rw [htrail.start] at hwalk
  unfold verifyCertificateChain
  rw [hwalk]
  exact ⟨nofun,rfl⟩

section Fixture

/-- A verification result with a refusal in place of a wrong digest size. -/
def rsaCheck {size : ℕ} (verify : Bytes → RsaPublicKey → FixedBytes size → Checked Bool)
    (signature : Bytes) (key : RsaPublicKey) (digest : Bytes) : Bool :=
  if h : digest.length=size then
    match verify signature key ⟨digest,h⟩ with
    | .ok accepted => accepted
    | .error _ => false
  else false

/-- A verification that accepts. -/
theorem rsaCheck_eq_true {size : ℕ}
    (verify : Bytes → RsaPublicKey → FixedBytes size → Checked Bool) {signature digest : Bytes}
    {key : RsaPublicKey} (h : digest.length=size) (hverify : verify signature key ⟨digest,h⟩=.ok true) :
    rsaCheck verify signature key digest=true := by
  unfold rsaCheck
  rw [dif_pos h,hverify]

/-- The RSA checks of this development over hashes that return a fixed
block. -/
def fixturePrimitives : Primitives Bytes Bytes where
  sha256 := ⟨[],(·++·),fun _ => List.replicate 32 0xAB⟩
  sha384 := ⟨[],(·++·),fun _ => List.replicate 48 0xAB⟩
  verifyPkcs1v15Sha256 := rsaCheck verifyPkcs1v15Sha256
  verifyPkcs1v15Sha384 := rsaCheck verifyPkcs1v15Sha384
  trustedRoots := []
  sectionSort := SectionSort.stable

/-- A modulus of the smallest size for a 32-byte digest. -/
def fixtureModulus : Bytes := List.replicate 62 0xFF

/-- The encoded message of the fixed digest. -/
def fixtureSignature : Bytes :=
  encodedMessage 8 sha256DigestInfoPrefix.1 (List.replicate 32 0xAB)

/-- A certificate with given names that verifies under every key of the
fixture. -/
def fixtureLink (subject issuer : Bytes) : X509Certificate :=
  { fixtureCertificate subject issuer (some ⟨fixtureModulus,[1]⟩) with
    signatureAlgorithmOid := sha256WithRsaOid
    signatureValue := fixtureSignature }

/-- Every certificate of the fixture is signed by every other. -/
theorem fixtureLink_signedBy (subject issuer subject' issuer' : Bytes) :
    verifyCertSignedBy fixturePrimitives (fixtureLink subject issuer)
      (fixtureLink subject' issuer')=true := by
  have hbelow : beValue fixtureSignature < beValue fixtureModulus := by
    have hsignature : fixtureSignature=0x00::fixtureSignature.tail := rfl
    have hmodulus : fixtureModulus=0xFF::List.replicate 61 0xFF := List.replicate_succ
    have hlow := beValue_lt fixtureSignature.tail
    have hlength : fixtureSignature.tail.length=61 := rfl
    have hbyte : (0xFF : UInt8).toNat=255 := rfl
    rw [hlength] at hlow
    rw [hsignature,beValue_zero_cons,hmodulus,beValue_cons,List.length_replicate,hbyte]
    exact hlow.trans_le ((Nat.le_mul_of_pos_right _ (by decide)).trans (Nat.le_add_left _ _))
  have haccepted : Accepted fixtureSignature ⟨fixtureModulus,[1]⟩ sha256DigestInfoPrefix.1
      (List.replicate 32 0xAB) := accepted_exponent_one rfl le_rfl hbelow
  obtain ⟨accepted,hverify,hiff⟩ := verifyPkcs1v15_accepts fixtureSignature
    ⟨fixtureModulus,[1]⟩ ⟨List.replicate 32 0xAB,List.length_replicate⟩ sha256DigestInfoPrefix
  rw [hiff.mpr haccepted] at hverify
  have hcheck := rsaCheck_eq_true verifyPkcs1v15Sha256 List.length_replicate hverify
  have hkey : (fixtureLink subject' issuer').rsaPublicKey=some ⟨fixtureModulus,[1]⟩ := rfl
  have halgorithm : (fixtureLink subject issuer).signatureAlgorithmOid=sha256WithRsaOid := rfl
  have hsignature : (fixtureLink subject issuer).signatureValue=fixtureSignature := rfl
  have hdigest : ∀ bytes, fixturePrimitives.sha256.digest bytes=List.replicate 32 0xAB :=
    fun _ => rfl
  have hverifier : fixturePrimitives.verifyPkcs1v15Sha256=rsaCheck verifyPkcs1v15Sha256 := rfl
  unfold verifyCertSignedBy
  rw [hkey]
  dsimp only
  rw [if_pos halgorithm,hsignature,hdigest,hverifier]
  exact hcheck

/-- A leaf below two certificates that issue each other. -/
def fixtureTrail : ℕ → CertificateObject
  | 0 => ⟨0,fixtureLink [3] [1]⟩
  | i+1 => if i%2=0 then ⟨1,fixtureLink [1] [2]⟩ else ⟨2,fixtureLink [2] [1]⟩

/-- The two certificates that issue each other. -/
def fixtureIssuers : List CertificateObject :=
  [⟨1,fixtureLink [1] [2]⟩,⟨2,fixtureLink [2] [1]⟩]

/-- The leaf of the fixture enters the cycle. -/
theorem fixture_entersCycle :
    EntersCycle (verifyCertSignedBy fixturePrimitives) fixturePrimitives.trustedRoots
      (fixtureTrail 0) fixtureIssuers := by
  refine ⟨fixtureTrail,1,2,rfl,le_rfl,?_,?_,?_,rfl,?_,?_⟩
  · intro i hi
    interval_cases i <;> rfl
  · intro i hi
    interval_cases i <;> exact fixtureLink_signedBy _ _ _ _
  · intro i _
    rfl
  · intro i hlow hhigh
    interval_cases i
    · exact List.mem_cons_self
    · exact List.mem_cons_of_mem _ List.mem_cons_self
  · intro i j hlow horder hhigh
    obtain rfl : i=1 := by omega
    obtain rfl : j=2 := by omega
    decide

/-- The verdict for the cyclic set of the fixture. -/
theorem cyclic_set_fixture_verdict :
    verifyCertificateChain (verifyCertSignedBy fixturePrimitives) fixturePrimitives.trustedRoots
      (fixtureTrail 0) fixtureIssuers=.validUntrustedRoot :=
  (cyclic_set_valid_untrusted_root _ _ _ _ fixture_entersCycle).2

/-- Cyclic sets are not answered with the verdict of a broken chain. -/
theorem cyclic_set_not_chain_invalid :
    ¬∀ (leaf : CertificateObject) (issuers : List CertificateObject),
      EntersCycle (verifyCertSignedBy fixturePrimitives) fixturePrimitives.trustedRoots leaf
        issuers →
      verifyCertificateChain (verifyCertSignedBy fixturePrimitives)
        fixturePrimitives.trustedRoots leaf issuers=.chainInvalid := by
  intro h
  obtain ⟨trail,tail,period,htrail⟩ := fixture_entersCycle
  have hperiod := htrail.several
  have hwalk := walk_trail htrail (i := 0) (by omega) maxChainDepth
  rw [htrail.start] at hwalk
  have hinvalid := h (fixtureTrail 0) fixtureIssuers fixture_entersCycle
  unfold verifyCertificateChain at hinvalid
  rw [hwalk] at hinvalid
  cases hinvalid

end Fixture

end Gcad.CertificateCycle
