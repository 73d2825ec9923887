import Gcad.X509

/-!
# The certificate chain walk

`verify_certificate_chain` over an arbitrary signature check and an
arbitrary list of trust anchors. The walk compares certificates by address
to skip a self-referential entry, so the issuers are objects with an
address. At every level the first issuer with a matching subject decides,
and a failing signature ends the walk.
-/

namespace Gcad.CertificateChain

open Common ByteView X509

/-- The `AuthenticodeVerdict` enumeration. -/
inductive AuthenticodeVerdict where
  | trusted
  | validUntrustedRoot
  | hashMismatch
  | signatureInvalid
  | chainInvalid
  | malformed
  deriving DecidableEq, Repr

/-- `kMaxChainDepth`. -/
def maxChainDepth : ℕ := 6

/-- `find_trust_anchor_by_subject`. -/
def findTrustAnchorBySubject (roots : List X509Certificate) (subjectDer : Bytes) :
    Option X509Certificate :=
  roots.find? fun root => decide (root.subjectDer=subjectDer)

/-- The first other issuer whose subject is the issuer looked for. -/
def findIssuer (issuers : List CertificateObject) (current : CertificateObject) :
    Option CertificateObject :=
  issuers.find? fun candidate => decide (candidate.address≠current.address) &&
    decide (candidate.certificate.subjectDer=current.certificate.issuerDer)

/-- The walk, with the number of levels left. -/
def walk (signedBy : X509Certificate → X509Certificate → Bool) (roots : List X509Certificate)
    (issuers : List CertificateObject) : ℕ → CertificateObject → AuthenticodeVerdict
  | 0,_ => .validUntrustedRoot
  | depth+1,current =>
    match findTrustAnchorBySubject roots current.certificate.issuerDer with
    | some anchor => if signedBy current.certificate anchor then .trusted else .chainInvalid
    | none =>
      match findIssuer issuers current with
      | none => .validUntrustedRoot
      | some issuer =>
        if signedBy current.certificate issuer.certificate then
          walk signedBy roots issuers depth issuer
        else .chainInvalid

/-- `verify_certificate_chain`. -/
def verifyCertificateChain (signedBy : X509Certificate → X509Certificate → Bool)
    (roots : List X509Certificate) (leaf : CertificateObject)
    (availableIssuers : List CertificateObject) : AuthenticodeVerdict :=
  walk signedBy roots availableIssuers maxChainDepth leaf

section Order

variable {signedBy : X509Certificate → X509Certificate → Bool} {roots : List X509Certificate}

/-- The entries with one subject, in list order. -/
def withSubject (issuers : List CertificateObject) (subjectDer : Bytes) :
    List CertificateObject :=
  issuers.filter fun candidate => decide (candidate.certificate.subjectDer=subjectDer)

/-- The issuer found depends only on the entries with its subject. -/
theorem findIssuer_eq (issuers : List CertificateObject) (current : CertificateObject) :
    findIssuer issuers current=
      (withSubject issuers current.certificate.issuerDer).find? fun candidate =>
        decide (candidate.address≠current.address) := by
  unfold findIssuer withSubject
  rw [List.find?_filter]
  congr 1
  funext candidate
  rw [Bool.and_comm,Bool.decide_and,Bool.decide_eq_true,Bool.decide_eq_true]

/-- Lists with the same entries for every subject give the same walk. -/
theorem walk_congr {issuers others : List CertificateObject}
    (h : ∀ subject, withSubject others subject=withSubject issuers subject) (depth : ℕ)
    (current : CertificateObject) :
    walk signedBy roots others depth current=walk signedBy roots issuers depth current := by
  induction depth generalizing current with
  | zero => rfl
  | succ depth ih =>
    have hfound : findIssuer others current=findIssuer issuers current := by
      rw [findIssuer_eq,findIssuer_eq,h]
    unfold walk
    rw [hfound]
    cases findTrustAnchorBySubject roots current.certificate.issuerDer with
    | some anchor => rfl
    | none =>
      cases findIssuer issuers current with
      | none => rfl
      | some issuer =>
        dsimp only
        rw [ih issuer]

/-- With distinct subjects, a permutation keeps the entries of a subject. -/
theorem withSubject_perm {issuers others : List CertificateObject}
    (hdistinct : (issuers.map fun issuer => issuer.certificate.subjectDer).Nodup)
    (hperm : others.Perm issuers) (subject : Bytes) :
    withSubject others subject=withSubject issuers subject := by
  have hfilter : (withSubject others subject).Perm (withSubject issuers subject) :=
    hperm.filter _
  have hshort : (withSubject issuers subject).length ≤ 1 := by
    have hsub : ((withSubject issuers subject).map
        fun issuer => issuer.certificate.subjectDer).Nodup :=
      hdistinct.sublist (List.filter_sublist.map _)
    have hsame : ∀ s ∈ (withSubject issuers subject).map
        fun issuer => issuer.certificate.subjectDer, s=subject := by
      intro s hs
      obtain ⟨issuer,hissuer,rfl⟩ := List.mem_map.mp hs
      exact of_decide_eq_true (List.mem_filter.mp hissuer).2
    have hreplicate := List.eq_replicate_of_mem hsame
    rw [hreplicate,List.nodup_replicate,List.length_map] at hsub
    exact hsub
  match hlist : withSubject issuers subject with
  | [] =>
    rw [hlist] at hfilter
    exact hfilter.eq_nil
  | [issuer] =>
    rw [hlist] at hfilter
    exact List.perm_singleton.mp hfilter
  | first::second::rest =>
    rw [hlist,List.length_cons,List.length_cons] at hshort
    omega

end Order

/-- The chain verdict is the same for every rearrangement of the issuers
that keeps the relative order of the entries that share a subject, hence
for every permutation when the subjects are pairwise distinct. -/
theorem chain_verdict_order_independent
    (signedBy : X509Certificate → X509Certificate → Bool) (roots : List X509Certificate)
    (leaf : CertificateObject) (issuers : List CertificateObject) :
    (∀ others : List CertificateObject, others.Perm issuers →
      (∀ subject, withSubject others subject=withSubject issuers subject) →
      verifyCertificateChain signedBy roots leaf others=
        verifyCertificateChain signedBy roots leaf issuers) ∧
    ((issuers.map fun issuer => issuer.certificate.subjectDer).Nodup →
      ∀ others : List CertificateObject, others.Perm issuers →
      verifyCertificateChain signedBy roots leaf others=
        verifyCertificateChain signedBy roots leaf issuers) := by
  constructor
  · intro others _ hsubjects
    exact walk_congr hsubjects maxChainDepth leaf
  · intro hdistinct others hperm
    exact walk_congr (withSubject_perm hdistinct hperm) maxChainDepth leaf

/-- A certificate with given names and an optional key. -/
def fixtureCertificate (subject issuer : Bytes) (key : Option RsaPublicKey) : X509Certificate where
  raw := []
  tbsCertificate := []
  serialNumber := [1]
  issuerDer := issuer
  subjectDer := subject
  issuerCommonName := []
  subjectCommonName := []
  notBefore := []
  notAfter := []
  publicKeyAlgorithmOid := rsaEncryptionOid
  rsaPublicKey := key
  signatureAlgorithmOid := []
  signatureValue := []
  sha256Thumbprint := []

/-- Two issuers with different subjects in either order. -/
theorem chain_verdict_order_fixture :
    verifyCertificateChain (fun _ issuer => issuer.rsaPublicKey.isSome) []
        ⟨0,fixtureCertificate [1] [2] none⟩
        [⟨2,fixtureCertificate [3] [4] none⟩,⟨1,fixtureCertificate [2] [4] (some ⟨[1],[1]⟩)⟩]=
      verifyCertificateChain (fun _ issuer => issuer.rsaPublicKey.isSome) []
        ⟨0,fixtureCertificate [1] [2] none⟩
        [⟨1,fixtureCertificate [2] [4] (some ⟨[1],[1]⟩)⟩,⟨2,fixtureCertificate [3] [4] none⟩] :=
  (chain_verdict_order_independent _ _ _ _).2 (by decide) _ (List.Perm.swap _ _ [])

/-- Two issuers share the subject the leaf names and only one of them
verifies the leaf: the first of them decides. -/
theorem chain_verdict_depends_on_order :
    ¬∀ (signedBy : X509Certificate → X509Certificate → Bool) (roots : List X509Certificate)
      (leaf : CertificateObject) (issuers others : List CertificateObject),
      others.Perm issuers → verifyCertificateChain signedBy roots leaf others=
        verifyCertificateChain signedBy roots leaf issuers := by
  intro h
  have hsame := h (fun _ issuer => issuer.rsaPublicKey.isSome) []
    ⟨0,fixtureCertificate [1] [2] none⟩
    [⟨1,fixtureCertificate [2] [4] (some ⟨[1],[1]⟩)⟩,⟨2,fixtureCertificate [2] [4] none⟩]
    [⟨2,fixtureCertificate [2] [4] none⟩,⟨1,fixtureCertificate [2] [4] (some ⟨[1],[1]⟩)⟩]
    (List.Perm.swap _ _ [])
  revert hsame
  decide

/-- The certificates on a trusted walk: from the current one, each verified
by the next, the last by an anchor, none but the first from outside the
issuers. -/
structure TrustedPath (signedBy : X509Certificate → X509Certificate → Bool)
    (roots : List X509Certificate) (issuers : List CertificateObject) (bound : ℕ)
    (leaf : X509Certificate) (path : List X509Certificate) : Prop where
  /-- The path starts at the leaf. -/
  start : path.head?=some leaf
  /-- It has at most the given number of certificates. -/
  bounded : path.length ≤ bound
  /-- Each certificate is verified by the next. -/
  verified : path.IsChain fun subject issuer => signedBy subject issuer=true
  /-- Every later certificate is one of the issuers. -/
  available : ∀ cert ∈ path.tail, ∃ issuer ∈ issuers, issuer.certificate=cert
  /-- A trust anchor verifies the last one. -/
  anchored : ∃ last, path.getLast?=some last ∧ ∃ anchor ∈ roots, signedBy last anchor=true

/-- A trusted verdict comes with a path to an anchor. -/
theorem walk_trusted {signedBy : X509Certificate → X509Certificate → Bool}
    {roots : List X509Certificate} {issuers : List CertificateObject} {depth : ℕ}
    {current : CertificateObject} (h : walk signedBy roots issuers depth current=.trusted) :
    ∃ path, TrustedPath signedBy roots issuers depth current.certificate path := by
  induction depth generalizing current with
  | zero => cases h
  | succ depth ih =>
    unfold walk at h
    split at h
    · next anchor hanchor =>
      split at h
      · next hsigned =>
        refine ⟨[current.certificate],rfl,Nat.le_add_left 1 depth,List.isChain_singleton _,
          List.forall_mem_nil _,current.certificate,rfl,anchor,
          List.mem_of_find?_eq_some hanchor,hsigned⟩
      · cases h
    · split at h
      · cases h
      · next issuer hissuer =>
        split at h
        · next hsigned =>
          obtain ⟨path,hpath⟩ := ih h
          obtain ⟨hstart,hbound,hverified,havailable,last,hlast,hanchored⟩ := hpath
          cases path with
          | nil => cases hstart
          | cons first rest =>
            obtain rfl := Option.some.inj hstart
            refine ⟨current.certificate::issuer.certificate::rest,rfl,Nat.succ_le_succ hbound,
              List.isChain_cons_cons.mpr ⟨hsigned,hverified⟩,?_,last,?_,hanchored⟩
            · intro cert hcert
              rcases List.mem_cons.mp hcert with rfl | hcert
              · exact ⟨issuer,List.mem_of_find?_eq_some hissuer,rfl⟩
              · exact havailable cert hcert
            · rw [List.getLast?_cons_cons]
              exact hlast
        · cases h

end Gcad.CertificateChain
