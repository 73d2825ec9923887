import Gcad.ByteView

/-!
# Portable executables in memory regions

`is_rwx_reflective_pe` of reflective_injection_engine.cpp. The region belongs
to another process, so its bytes are arbitrary. `pe_offset` is a 32-bit word:
the sum in the bounds test and the four indices of the signature are computed
modulo `2^32`, and only then compared with the length or used as an index.
-/

namespace Gcad.ReflectivePe

open ByteView

/-- The bytes `MZ`. -/
def dosMagic : Bytes := [0x4D,0x5A]

/-- The bytes `PE` and two zeros. -/
def peSignature : Bytes := [0x50,0x45,0,0]

/-- The bytes of a text. -/
def textBytes (text : String) : Bytes := text.toList.map fun c => UInt8.ofNat c.toNat

/-- `find` of a text with a result other than `npos`. -/
def holds (data : Bytes) (text : String) : Bool := textBytes text <:+: data

/-- A comparison of bytes from an offset on, which ends with the first byte
that differs. Every index is a 32-bit word. -/
def matchesAt (data : Bytes) (offset : ℕ) : ℕ → Bytes → Checked Bool
  | _,[] => .ok true
  | k,b::rest =>
    (readByte data ((offset+k)%2^32)).bind fun value =>
      if value=b.toNat then matchesAt data offset (k+1) rest else .ok false

/-- `is_rwx_reflective_pe`; no region stands for the null pointer. -/
def isRwxReflectivePe : Option Bytes → Checked Bool
  | none => .ok false
  | some data =>
    if data.length < 0x100 then .ok false
    else
      (matchesAt data 0 0 dosMagic).bind fun dos =>
        if dos=false then .ok false
        else
          (readU32 data 0x3C).bind fun peOffset =>
            if data.length < (peOffset+4)%2^32 then .ok false
            else
              (matchesAt data peOffset 0 peSignature).bind fun pe =>
                if pe then .ok true
                else .ok (holds data "ReflectiveLoader" || holds data "_ReflectiveLoader@")

/-- `e_lfanew`. -/
def eLfanew (data : Bytes) : ℕ := u32At data 0x3C

/-- A region that is looked into: it is long enough and begins with `MZ`. -/
def Candidate (data : Bytes) : Prop := 0x100 ≤ data.length ∧ dosMagic <+: data

/-- The PE signature stands at `e_lfanew`. -/
def Signed (data : Bytes) : Prop := peSignature <+: data.drop (eLfanew data)

/-- The name of the loader stands somewhere. -/
def Loader (data : Bytes) : Prop := textBytes "ReflectiveLoader" <:+: data

/-- What the function looks for: a candidate with `e_lfanew` in range that has
the PE signature there or names the loader. -/
def Reflective (data : Bytes) : Prop :=
  Candidate data ∧ eLfanew data+4 ≤ data.length ∧ (Signed data ∨ Loader data)

/-- The function stays inside the region and finds what it looks for. -/
def Exact (data : Bytes) : Prop :=
  ∃ found,isRwxReflectivePe (some data)=.ok found ∧ (found=true ↔ Reflective data)

/-- The condition on an `e_lfanew` whose sum with four wraps around. Only
regions of almost 4 GiB can meet it. -/
def Wrapped (data : Bytes) : Prop :=
  eLfanew data < data.length ∧
    if eLfanew data+4 ≤ data.length then eLfanew data+4=2^32 ∨ ¬Signed data ∨ Loader data
    else ¬Loader data ∧ (data.length < 2^32 → ¬data.drop (eLfanew data) <+: peSignature)

/-- The condition under which the function does its work. -/
def InReach (data : Bytes) : Prop :=
  Candidate data → eLfanew data+4 < 2^32 ∨ Wrapped data

/-- A 32-bit value is one. -/
theorem eLfanew_lt (data : Bytes) : eLfanew data < 2^32 := by
  have h0 := byteAt_lt data 0x3C
  have h1 := byteAt_lt data (0x3C+1)
  have h2 := byteAt_lt data (0x3C+2)
  have h3 := byteAt_lt data (0x3C+3)
  rw [eLfanew,u32At_eq]
  omega

/-- The decorated name holds the plain one. -/
theorem holds_loader (data : Bytes) :
    (holds data "ReflectiveLoader" || holds data "_ReflectiveLoader@")=true ↔ Loader data := by
  have hinner : textBytes "ReflectiveLoader" <:+: textBytes "_ReflectiveLoader@" := by
    decide +kernel
  rw [Bool.or_eq_true,holds,holds,decide_eq_true_iff,decide_eq_true_iff]
  exact ⟨fun h => h.elim id hinner.trans,.inl⟩

/-- A comparison whose indices do not wrap before the end of the region: it
leaves the region exactly when the region ends inside a match. -/
theorem matchesAt_straight (data : Bytes) (offset k : ℕ) (pattern : Bytes)
    (h : offset+k+pattern.length ≤ 2^32 ∨ data.length < 2^32 ∧ offset+k < 2^32) :
    matchesAt data offset k pattern=
      if pattern <+: data.drop (offset+k) then .ok true
      else if data.drop (offset+k) <+: pattern then .error .outOfBounds
      else .ok false := by
  induction pattern generalizing k with
  | nil =>
    rw [matchesAt,if_pos List.nil_prefix]
  | cons b rest ih =>
    rw [List.length_cons] at h
    have hindex : (offset+k)%2^32=offset+k := Nat.mod_eq_of_lt (by omega)
    rw [matchesAt,hindex,readByte]
    rcases Nat.lt_or_ge (offset+k) data.length with hin | hout
    · have hbyte : byteAt data (offset+k)=data[offset+k].toNat := by
        rw [byteAt,List.getElem?_eq_getElem hin]
        rfl
      rw [if_pos hin,List.drop_eq_getElem_cons hin]
      simp only [Except.bind,List.cons_prefix_cons,hbyte]
      by_cases heq : data[offset+k]=b
      · rw [if_pos (congrArg UInt8.toNat heq),ih (k+1) (by omega)]
        simp only [heq,true_and]
        rfl
      · rw [if_neg fun hnat => heq (UInt8.toNat_inj.mp hnat)]
        rw [if_neg fun hboth => heq hboth.1.symm,if_neg fun hboth => heq hboth.1]
    · rw [if_neg (Nat.not_lt.mpr hout),List.drop_eq_nil_of_le hout,
        if_neg (fun hbegins => List.cons_ne_nil _ _ (List.prefix_nil.mp hbegins)),
        if_pos List.nil_prefix]
      rfl

/-- A comparison that comes back to the start of a region of at least `2^32`
bytes fails there when the first byte is not in the pattern. -/
theorem matchesAt_wrapped {data : Bytes} {offset k : ℕ} {pattern : Bytes}
    (long : 2^32 ≤ data.length) (low : offset+k < 2^32) (high : 2^32 < offset+k+pattern.length)
    (absent : ∀ b ∈ pattern,byteAt data 0≠b.toNat) :
    matchesAt data offset k pattern=.ok false := by
  induction pattern generalizing k with
  | nil =>
    rw [List.length_nil] at high
    omega
  | cons b rest ih =>
    rw [List.length_cons] at high
    rw [matchesAt,Nat.mod_eq_of_lt low,readByte,if_pos (low.trans_le long),Except.bind]
    split_ifs with hbyte
    · rcases Nat.lt_or_ge (offset+(k+1)) (2^32) with hnext | hback
      · exact ih hnext (by omega) fun c hc => absent c (List.mem_cons_of_mem _ hc)
      · cases rest with
        | nil =>
          rw [List.length_nil] at high
          omega
        | cons c more =>
          have hzero : (offset+(k+1))%2^32=0 := by
            have hend : offset+(k+1)=2^32 := by omega
            rw [hend,Nat.mod_self]
          have hc := absent c (List.mem_cons_of_mem _ List.mem_cons_self)
          rw [matchesAt,hzero,readByte,if_pos (by omega),Except.bind,if_neg hc]
    · rfl

/-- The result once the signature has been compared. -/
def outcome (data : Bytes) (pe : Bool) : Bool :=
  pe || (holds data "ReflectiveLoader" || holds data "_ReflectiveLoader@")

/-- The result is positive for a signature or a name. -/
theorem outcome_iff (data : Bytes) (pe : Bool) :
    outcome data pe=true ↔ pe=true ∨ Loader data := by
  rw [outcome,Bool.or_eq_true,holds_loader]

/-- A comparison in a region that is long enough for the pattern. -/
theorem matchesAt_inside {data : Bytes} {offset : ℕ} {pattern : Bytes}
    (low : offset+pattern.length ≤ 2^32) (long : offset+pattern.length ≤ data.length) :
    matchesAt data offset 0 pattern=.ok (decide (pattern <+: data.drop offset)) := by
  rw [matchesAt_straight data offset 0 pattern (.inl low),Nat.add_zero]
  by_cases hbegins : pattern <+: data.drop offset
  · rw [if_pos hbegins,decide_eq_true hbegins]
  · have hrest : ¬data.drop offset <+: pattern := by
      intro hshort
      have hlength := hshort.length_le
      rw [List.length_drop] at hlength
      have heq := hshort.eq_of_length_le (by rw [List.length_drop]; omega)
      exact hbegins (heq ▸ List.prefix_refl _)
    rw [if_neg hbegins,if_neg hrest,decide_eq_false hbegins]

/-- A region that is not a candidate is rejected at once. -/
theorem run_other {data : Bytes} (h : ¬Candidate data) :
    isRwxReflectivePe (some data)=.ok false := by
  rw [isRwxReflectivePe]
  split_ifs with hshort
  · rfl
  · have hdos : ¬dosMagic <+: data.drop 0 := fun hbegins => h ⟨Nat.not_lt.mp hshort,hbegins⟩
    have hlength : dosMagic.length=2 := rfl
    rw [matchesAt_inside (by omega) (by omega),decide_eq_false hdos]
    rfl

/-- What is done with a candidate. -/
theorem run_candidate {data : Bytes} (h : Candidate data) :
    isRwxReflectivePe (some data)=
      if data.length < (eLfanew data+4)%2^32 then .ok false
      else (matchesAt data (eLfanew data) 0 peSignature).map (outcome data) := by
  obtain ⟨hlong,hdos⟩ := h
  have hlength : dosMagic.length=2 := rfl
  have hread : readU32 data 0x3C=.ok (eLfanew data) := readU32_eq_ok.mpr ⟨by omega,rfl⟩
  have hmagic : matchesAt data 0 0 dosMagic=.ok true := by
    rw [matchesAt_inside (by omega) (by omega)]
    exact congrArg Except.ok (decide_eq_true hdos)
  rw [isRwxReflectivePe,if_neg (Nat.not_lt.mpr hlong),hmagic,hread]
  simp only [Except.bind,Bool.true_eq_false,if_false]
  congr 1
  cases matchesAt data (eLfanew data) 0 peSignature with
  | error fault => rfl
  | ok pe => cases pe <;> rfl

/-- The bounds test holds and the comparison ends: what is left of exactness. -/
theorem exact_compared {data : Bytes} (h : Candidate data)
    (test : (eLfanew data+4)%2^32 ≤ data.length) {pe : Bool}
    (compared : matchesAt data (eLfanew data) 0 peSignature=.ok pe) :
    Exact data ↔ (pe=true ∨ Loader data ↔
      eLfanew data+4 ≤ data.length ∧ (Signed data ∨ Loader data)) := by
  have hrun : isRwxReflectivePe (some data)=.ok (outcome data pe) := by
    rw [run_candidate h,if_neg (Nat.not_lt.mpr test),compared]
    rfl
  have hwanted : Reflective data ↔ eLfanew data+4 ≤ data.length ∧ (Signed data ∨ Loader data) :=
    and_iff_right h
  rw [Exact,hrun,hwanted]
  constructor
  · rintro ⟨found,heq,hiff⟩
    rw [←Except.ok.inj heq,outcome_iff] at hiff
    exact hiff
  · intro hiff
    exact ⟨_,rfl,(outcome_iff data pe).trans hiff⟩

/-- The bounds test holds and the comparison leaves the region. -/
theorem not_exact_outside {data : Bytes} (h : Candidate data)
    (test : (eLfanew data+4)%2^32 ≤ data.length)
    (outside : matchesAt data (eLfanew data) 0 peSignature=.error .outOfBounds) :
    ¬Exact data := by
  rintro ⟨found,heq,-⟩
  rw [run_candidate h,if_neg (Nat.not_lt.mpr test),outside] at heq
  exact absurd heq nofun

/-- With the signature inside the region and no index that wraps the function
does its work. -/
theorem exact_inside {data : Bytes} (h : Candidate data)
    (test : (eLfanew data+4)%2^32 ≤ data.length) (low : eLfanew data+4 ≤ 2^32)
    (long : eLfanew data+4 ≤ data.length) : Exact data := by
  have hcompared := @matchesAt_inside data (eLfanew data) peSignature low long
  rw [exact_compared h test hcompared,decide_eq_true_iff]
  exact ⟨fun hfound => ⟨long,hfound⟩,fun hfound => hfound.2⟩

/-- With an index that wraps only the name of the loader is found. -/
theorem exact_wrapped {data : Bytes} (h : Candidate data)
    (test : (eLfanew data+4)%2^32 ≤ data.length) (high : 2^32 < eLfanew data+4)
    (long : 2^32 ≤ data.length) :
    Exact data ↔ (Loader data ↔
      eLfanew data+4 ≤ data.length ∧ (Signed data ∨ Loader data)) := by
  have habsent : ∀ b ∈ peSignature,byteAt data 0≠b.toNat := by
    obtain ⟨rest,hdata⟩ := h.2
    have hfirst : byteAt data 0=0x4D := by
      rw [←hdata]
      rfl
    have hcodes : ∀ code ∈ peSignature.map UInt8.toNat,0x4D≠code := by decide
    intro b hb
    rw [hfirst]
    exact hcodes _ (List.mem_map_of_mem hb)
  have hcompared := @matchesAt_wrapped data (eLfanew data) 0 peSignature long
    (eLfanew_lt data) high habsent
  rw [exact_compared h test hcompared]
  simp only [Bool.false_eq_true,false_or]

/-- With a sum that wraps the function does its work exactly under `Wrapped`. -/
theorem exact_iff_wrapped {data : Bytes} (h : Candidate data) (high : 2^32 ≤ eLfanew data+4) :
    Exact data ↔ Wrapped data := by
  have hlt := eLfanew_lt data
  have hlong := h.1
  have htest : (eLfanew data+4)%2^32 ≤ data.length := by omega
  have hlength : peSignature.length=4 := rfl
  rw [Wrapped]
  rcases Nat.lt_or_ge (eLfanew data) data.length with hin | hout
  · rw [and_iff_right hin]
    split_ifs with hroom
    · rcases high.eq_or_lt with heq | hwrap
      · exact iff_of_true (exact_inside h htest heq.ge hroom) (.inl heq.symm)
      · rw [exact_wrapped h htest hwrap (by omega),and_iff_right hroom,
          or_iff_right (ne_of_gt hwrap)]
        tauto
    · have hnone : ¬(eLfanew data+4 ≤ data.length ∧ (Signed data ∨ Loader data)) :=
        fun hfound => hroom hfound.1
      rcases Nat.lt_or_ge data.length (2^32) with hshort | hbig
      · have hstraight := matchesAt_straight data (eLfanew data) 0 peSignature
          (.inr ⟨hshort,hlt⟩)
        have hunsigned : ¬peSignature <+: data.drop (eLfanew data) := by
          intro hbegins
          have hle := hbegins.length_le
          rw [List.length_drop] at hle
          omega
        rw [Nat.add_zero,if_neg hunsigned] at hstraight
        by_cases hcut : data.drop (eLfanew data) <+: peSignature
        · rw [if_pos hcut] at hstraight
          exact iff_of_false (not_exact_outside h htest hstraight)
            fun hcond => hcond.2 hshort hcut
        · rw [if_neg hcut] at hstraight
          rw [exact_compared h htest hstraight]
          simp only [Bool.false_eq_true,false_or,hnone,iff_false,hcut,not_false_eq_true,
            implies_true,and_true]
      · rw [exact_wrapped h htest (by omega) hbig]
        have hvacuous : data.length < 2^32 → ¬data.drop (eLfanew data) <+: peSignature :=
          fun hshort => absurd hshort (Nat.not_lt.mpr hbig)
        rw [iff_false_right hnone,and_iff_left hvacuous]
  · have hempty : data.drop (eLfanew data)=[] := List.drop_eq_nil_of_le hout
    have hstraight := matchesAt_straight data (eLfanew data) 0 peSignature
      (.inr ⟨by omega,hlt⟩)
    rw [Nat.add_zero,hempty,if_neg (by decide),if_pos List.nil_prefix] at hstraight
    exact iff_of_false (not_exact_outside h htest hstraight)
      fun hcond => absurd hcond.1 (Nat.not_lt.mpr hout)

/-- For every region: the function reads inside it and finds what it looks
for, if and only if the region is no candidate, the sum of `e_lfanew` and four
stays below `2^32`, or the region is so long that the wrapped sum does no harm. -/
theorem reads_exactly_iff (data : Bytes) : Exact data ↔ InReach data := by
  by_cases hcandidate : Candidate data
  · rw [InReach]
    rcases Nat.lt_or_ge (eLfanew data+4) (2^32) with hlow | hhigh
    · refine iff_of_true ?_ fun _ => .inl hlow
      have hmod : (eLfanew data+4)%2^32=eLfanew data+4 := Nat.mod_eq_of_lt hlow
      rcases Nat.lt_or_ge data.length (eLfanew data+4) with hshort | hlong
      · refine ⟨false,?_,iff_of_false Bool.false_ne_true fun hfound => ?_⟩
        · rw [run_candidate hcandidate,hmod,if_pos hshort]
        · exact absurd hfound.2.1 (Nat.not_le.mpr hshort)
      · exact exact_inside hcandidate (hmod.trans_le hlong) hlow.le hlong
    · rw [exact_iff_wrapped hcandidate hhigh]
      exact ⟨fun hwrapped _ => .inr hwrapped,
        fun hcond => (hcond hcandidate).resolve_left (Nat.not_lt.mpr hhigh)⟩
  · refine iff_of_true ⟨false,run_other hcandidate,?_⟩ fun h => absurd h hcandidate
    exact iff_of_false Bool.false_ne_true fun hfound => hcandidate hfound.1

/-- A region of 256 bytes whose `e_lfanew` is `0xFFFFFFFC`: four added to it
give zero, and the byte at that offset is read. -/
theorem wrapped_offset_out_of_bounds :
    ¬Exact (dosMagic++List.replicate 58 0++[0xFC,0xFF,0xFF,0xFF]++List.replicate 192 0) := by
  rintro ⟨found,heq,-⟩
  have hrun : isRwxReflectivePe (some (dosMagic++List.replicate 58 0++[0xFC,0xFF,0xFF,0xFF]++
      List.replicate 192 0))=.error .outOfBounds := by decide +kernel
  rw [hrun] at heq
  exact absurd heq nofun

end Gcad.ReflectivePe
