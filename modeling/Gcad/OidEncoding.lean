import Gcad.OidAliases

/-!
# Encoded object identifiers

The standard joins the first two arcs of an identifier to one
subidentifier and writes every subidentifier in base 128. The reader takes
the two arcs from the first byte and the other arcs modulo `2^64`, so it
returns the dotted form exactly when the first subidentifier is one byte
and every other one fits in 64 bits.
-/

namespace Gcad.OidEncoding

open Common ByteView Asn1 DerSafety OidAliases

/-- The first two arcs of an identifier; under the root arcs 0 and 1 the
second arc is limited. -/
structure RootArcs where
  /-- The root arc. -/
  first : ℕ
  /-- The arc below the root. -/
  second : ℕ
  /-- There are three root arcs. -/
  first_le : first ≤ 2
  /-- Two of them have forty arcs below them. -/
  second_lt : first < 2 → second < 40

/-- The subidentifier that holds the first two arcs. -/
def RootArcs.subidentifier (root : RootArcs) : ℕ := 40*root.first+root.second

/-- All arcs of an identifier. -/
def RootArcs.arcs (root : RootArcs) (rest : List ℕ) : List ℕ := root.first::root.second::rest

/-- The content bytes of an encoded identifier. -/
def encodeOid (root : RootArcs) (rest : List ℕ) : Bytes :=
  (root.subidentifier::rest).flatMap encodeArc

section Decoding

/-- A subidentifier below 128 is one byte. -/
theorem encodeArc_small {arc : ℕ} (h : arc < 128) : encodeArc arc=[UInt8.ofNat arc] := by
  have hdiv : arc/128=0 := by omega
  have hmod : arc%128=arc := Nat.mod_eq_of_lt h
  rw [encodeArc,hdiv,hmod]
  rfl

/-- A larger one is a byte that continues, more of them and a last one. -/
theorem encodeArc_large {arc : ℕ} (h : 128 ≤ arc) :
    ∃ (first last : UInt8) (more : Bytes),encodeArc arc=first::(more++[last]) ∧
      (∀ b ∈ more,b.toNat &&& 0x80≠0) ∧ last.toNat &&& 0x80=0 := by
  have hne : (Nat.digits 128 (arc/128)).reverse≠[] := by
    rw [ne_eq,List.reverse_eq_nil_iff,Nat.digits_eq_nil_iff_eq_zero]
    omega
  obtain ⟨top,lower,hdigits⟩ := List.exists_cons_of_ne_nil hne
  refine ⟨UInt8.ofNat (top+128),UInt8.ofNat (arc%128),
    lower.map fun digit => UInt8.ofNat (digit+128),?_,?_,?_⟩
  · rw [encodeArc,hdigits]
    rfl
  · intro b hb
    obtain ⟨digit,hdigit,rfl⟩ := List.mem_map.mp hb
    have hmem : digit ∈ Nat.digits 128 (arc/128) := by
      rw [←List.mem_reverse,hdigits]
      exact List.mem_cons_of_mem _ hdigit
    have hlt := Nat.digits_lt_base (by decide) hmem
    rw [UInt8.toNat_ofNat',and_high_bit]
    omega
  · rw [UInt8.toNat_ofNat',and_high_bit]
    omega

/-- Bytes that continue and a last one are read as one arc. -/
theorem decodeArcs_one {more : Bytes} (hmore : ∀ b ∈ more,b.toNat &&& 0x80≠0) {last : UInt8}
    (hlast : last.toNat &&& 0x80=0) (bytes : Bytes) (value : ℕ) (midArc : Bool) :
    ∃ arc,decodeArcs (more++last::bytes) value midArc=
      (decodeArcs bytes 0 false).map fun arcs => arc::arcs := by
  induction more generalizing value midArc with
  | nil =>
    refine ⟨(value <<< 7 ||| last.toNat &&& 0x7f)%2^64,?_⟩
    rw [List.nil_append,decodeArcs,if_pos hlast]
  | cons b more ih =>
    obtain ⟨hb,hrest⟩ := List.forall_mem_cons.mp hmore
    obtain ⟨arc,harc⟩ := ih hrest ((value <<< 7 ||| b.toNat &&& 0x7f)%2^64) true
    refine ⟨arc,?_⟩
    rw [List.cons_append,decodeArcs,if_neg hb,harc]

/-- A first byte below 128 gives the two arcs back. -/
theorem firstArcs_subidentifier {root : RootArcs} (h : root.subidentifier < 128) :
    firstArcs (UInt8.ofNat root.subidentifier)=(root.first,root.second) := by
  have hbyte : (UInt8.ofNat root.subidentifier).toNat=root.subidentifier := by
    rw [UInt8.toNat_ofNat']
    omega
  have hle := root.first_le
  have hlt := root.second_lt
  unfold firstArcs
  rw [hbyte]
  unfold RootArcs.subidentifier at h ⊢
  split
  · rw [Prod.mk.injEq]
    omega
  · rw [Prod.mk.injEq]
    omega

/-- The text of an encoding whose first subidentifier is one byte. -/
theorem oidString_encodeOid {root : RootArcs} (h : root.subidentifier < 128) (rest : List ℕ) :
    oidString (encodeOid root rest)=dotted (root.arcs (rest.map fun arc => arc%2^64)) := by
  rw [encodeOid,List.flatMap_cons,encodeArc_small h,List.singleton_append,oidString_cons,
    decodeArcs_flatMap,firstArcs_subidentifier h]
  rfl

/-- With a longer first subidentifier there is one arc too many. -/
theorem oidString_encodeOid_large {root : RootArcs} (h : 128 ≤ root.subidentifier)
    (rest : List ℕ) : ∃ a b c,
      oidString (encodeOid root rest)=dotted (a::b::c::rest.map fun arc => arc%2^64) := by
  obtain ⟨first,last,more,hencode,hmore,hlast⟩ := encodeArc_large h
  obtain ⟨arc,harc⟩ := decodeArcs_one hmore hlast (rest.flatMap encodeArc) 0 false
  rw [decodeArcs_flatMap] at harc
  refine ⟨(firstArcs first).1,(firstArcs first).2,arc,?_⟩
  rw [encodeOid,List.flatMap_cons,hencode,List.cons_append,List.append_assoc,
    List.singleton_append,oidString_cons,harc]
  rfl

end Decoding

/-- The text of an encoded identifier is its dotted form exactly when the
first two arcs fit in one byte and every other arc in 64 bits. -/
theorem oidString_encodeOid_iff (root : RootArcs) (rest : List ℕ) :
    oidString (encodeOid root rest)=dotted (root.arcs rest) ↔
      root.subidentifier < 128 ∧ ∀ arc ∈ rest,arc < 2^64 := by
  rcases Nat.lt_or_ge root.subidentifier 128 with hsmall | hlarge
  · rw [oidString_encodeOid hsmall,and_iff_right hsmall,←map_mod_eq_self_iff]
    constructor
    · intro h
      have hlist := dotted_injective (List.cons_ne_nil _ _) (List.cons_ne_nil _ _) h
      exact (List.cons.inj (List.cons.inj hlist).2).2
    · intro h
      rw [h]
  · refine iff_of_false ?_ fun h => absurd h.1 (Nat.not_lt.mpr hlarge)
    obtain ⟨a,b,c,htext⟩ := oidString_encodeOid_large hlarge rest
    rw [htext]
    intro h
    have hlist := dotted_injective (List.cons_ne_nil _ _) (List.cons_ne_nil _ _) h
    have hlength := congrArg List.length hlist
    simp only [List.length_cons,List.length_map] at hlength
    omega

/-- On an element that holds an encoded identifier, `oid_to_string` returns
the dotted form exactly when the first two arcs fit in one byte and every
other arc in 64 bits. -/
theorem oid_to_string_iff (root : RootArcs) (rest : List ℕ) {data : Bytes} {el : Element}
    (hoid : el.isUniversal .objectIdentifier=true) (hel : Within data el)
    (hcontent : contentOf data el=encodeOid root rest) :
    oidToString data el=.ok (dotted (root.arcs rest)) ↔
      40*root.first+root.second < 128 ∧ ∀ arc ∈ rest,arc < 2^64 := by
  rw [oidToString_eq hoid hel,hcontent,Except.ok.injEq]
  exact oidString_encodeOid_iff root rest

/-- The identifier 2.47.300. -/
theorem oid_to_string_fixture :
    oidToString [0x06,0x03,0x7f,0x82,0x2c] ⟨.universal,false,6,2,3,5⟩=.ok "2.47.300".toList := by
  have hdotted : dotted (RootArcs.arcs ⟨2,47,by decide,by decide⟩ [300])="2.47.300".toList := by
    decide
  rw [←hdotted]
  exact (oid_to_string_iff ⟨2,47,by decide,by decide⟩ [300] (by decide) (le_refl 5)
    (by decide)).mpr ⟨by decide,by decide⟩

/-- The identifier 2.999 comes out as 2.56.55. -/
theorem oid_to_string_misreads :
    ¬∀ (root : RootArcs) (rest : List ℕ) (data : Bytes) (el : Element),
      el.isUniversal .objectIdentifier=true → Within data el →
      contentOf data el=encodeOid root rest →
      oidToString data el=.ok (dotted (root.arcs rest)) := by
  intro h
  have hcase := h ⟨2,999,by decide,by decide⟩ [] [0x06,0x02,0x88,0x37]
    ⟨.universal,false,6,2,2,4⟩ (by decide) (le_refl 4) (by decide)
  revert hcase
  decide

end Gcad.OidEncoding
