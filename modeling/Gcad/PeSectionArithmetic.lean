import Gcad.PeSafety

/-!
# Section arithmetic of PE images

A section covers the addresses of an interval of integers, and an address
inside its raw data has a file offset that is an integer. The engine
computes both in 32 bits. A section whose end reaches 2^32 is invisible to
the engine, because its wrapped end lies below its start; the offset of an
address is correct up to multiples of 2^32.
-/

namespace Gcad.PeSectionArithmetic

open Common ByteView CheckedLoop CheckedLogic PeAuthenticode PeStaticAnalysis PeSafety

/-- The fields of a section header are 32-bit numbers. -/
structure Sized (sec : PeSectionInfo) : Prop where
  /-- The address fits in 32 bits. -/
  address : sec.virtualAddress < 2^32
  /-- So does the size in memory. -/
  virtual : sec.virtualSize < 2^32
  /-- So does the offset in the file. -/
  offset : sec.rawDataOffset < 2^32
  /-- So does the size in the file. -/
  raw : sec.rawDataSize < 2^32

/-- The larger of the two sizes of a section. -/
def extent (sec : PeSectionInfo) : ℕ := max sec.virtualSize sec.rawDataSize

/-- The interval of a section on the integers. -/
def InSection (sec : PeSectionInfo) (rva : ℕ) : Prop :=
  sec.virtualAddress ≤ rva ∧ rva < sec.virtualAddress+extent sec

instance (sec : PeSectionInfo) (rva : ℕ) : Decidable (InSection sec rva) :=
  inferInstanceAs (Decidable (_ ∧ _))

/-- The address is in the section and in its raw data. -/
def Covers (rva : ℕ) (sec : PeSectionInfo) : Prop :=
  InSection sec rva ∧ rva-sec.virtualAddress < sec.rawDataSize

instance (rva : ℕ) (sec : PeSectionInfo) : Decidable (Covers rva sec) :=
  inferInstanceAs (Decidable (_ ∧ _))

/-- The file offset of an address of a section, on the integers. -/
def fileOffset (rva : ℕ) (sec : PeSectionInfo) : ℕ :=
  sec.rawDataOffset+(rva-sec.virtualAddress)

/-- The file offset in the first section that covers the address. -/
def integerOffset (rva : ℕ) (sections : List PeSectionInfo) : Option ℕ :=
  (sections.find? fun sec => decide (Covers rva sec)).map (fileOffset rva)

/-- The section ends below 2^32. -/
def EndsInside (sec : PeSectionInfo) : Prop := sec.virtualAddress+extent sec < 2^32

instance (sec : PeSectionInfo) : Decidable (EndsInside sec) :=
  inferInstanceAs (Decidable (_ < _))

/-- The entry-point test of the section loop decides the interval of a
section: it sets the flag and takes over the name exactly there. -/
def EntryTestExact (entryPoint : ℕ) (sec : PeSectionInfo) : Prop :=
  ∀ (i last numSections : ℕ) (report : PeAnalysisReport) (found : Bool),
    report.entryPoint=entryPoint →
    (addSection i last numSections sec (report,found)).2=
        (found || decide (InSection sec entryPoint)) ∧
      (addSection i last numSections sec (report,found)).1.entryPointSection=
        if InSection sec entryPoint then sec.name else report.entryPointSection

/-- Where the translation of an address is exact. If some section covers it,
then the first such section either ends below 2^32 and its offset fits 32
bits, or it reaches 2^32 and the first one behind it that covers the address
and ends below 2^32 has the same offset modulo 2^32. -/
def OffsetFits (rva : ℕ) (sections : List PeSectionInfo) : Prop :=
  ∀ sec,sections.find? (fun sec => decide (Covers rva sec))=some sec →
    (EndsInside sec ∧ fileOffset rva sec < 2^32) ∨
    (¬EndsInside sec ∧ ∃ other,
      sections.find? (fun sec => decide (Covers rva sec ∧ EndsInside sec))=some other ∧
      wrap32 (fileOffset rva other)=fileOffset rva sec)

/-- Where the entry-point test is exact: a section that holds the entry point
ends below 2^32. -/
def EntryFits (entryPoint : ℕ) (sec : PeSectionInfo) : Prop :=
  InSection sec entryPoint → EndsInside sec

section Tests

variable {sec : PeSectionInfo} {rva : ℕ}

/-- The 32-bit test accepts the addresses of the sections that end below
2^32 and no others. -/
theorem wrappedTest_iff (h : Sized sec) :
    (sec.virtualAddress ≤ rva ∧ rva < wrap32 (sec.virtualAddress+extent sec)) ↔
      InSection sec rva ∧ EndsInside sec := by
  have haddress := h.address
  have hextent : extent sec < 2^32 := max_lt h.virtual h.raw
  unfold InSection EndsInside wrap32
  omega

/-- The translation takes the first section that covers the address and ends
below 2^32, and wraps the offset. -/
theorem rvaToOffset_eq (rva : ℕ) {sections : List PeSectionInfo}
    (h : ∀ sec ∈ sections,Sized sec) :
    rvaToOffset rva sections=
      .ok ((sections.find? fun sec => decide (Covers rva sec ∧ EndsInside sec)).map
        fun sec => wrap32 (fileOffset rva sec)) := by
  induction sections with
  | nil => rfl
  | cons sec rest ih =>
    have hrest := ih fun other member => h other (List.mem_cons_of_mem _ member)
    have htest : (sec.virtualAddress ≤ rva ∧
        rva < wrap32 (sec.virtualAddress+max sec.virtualSize sec.rawDataSize)) ↔
        InSection sec rva ∧ EndsInside sec := wrappedTest_iff (h sec List.mem_cons_self)
    unfold rvaToOffset
    dsimp only
    by_cases hinside : sec.virtualAddress ≤ rva ∧
        rva < wrap32 (sec.virtualAddress+max sec.virtualSize sec.rawDataSize)
    · have hparts := htest.mp hinside
      have hsub : subtract rva sec.virtualAddress=.ok (rva-sec.virtualAddress) :=
        if_pos hinside.1
      rw [if_pos hinside,bind_of_ok hsub]
      by_cases hraw : rva-sec.virtualAddress < sec.rawDataSize
      · have hcovers : Covers rva sec ∧ EndsInside sec := ⟨⟨hparts.1,hraw⟩,hparts.2⟩
        rw [if_pos hraw,List.find?_cons_of_pos (by simpa only [decide_eq_true_eq] using hcovers)]
        rfl
      · have hnone : ¬(Covers rva sec ∧ EndsInside sec) := fun hcovers => hraw hcovers.1.2
        rw [if_neg hraw,hrest,
          List.find?_cons_of_neg (by simpa only [decide_eq_true_eq] using hnone)]
    · have hnone : ¬(Covers rva sec ∧ EndsInside sec) :=
        fun hcovers => hinside (htest.mpr ⟨hcovers.1.1,hcovers.2⟩)
      rw [if_neg hinside,hrest,
        List.find?_cons_of_neg (by simpa only [decide_eq_true_eq] using hnone)]

/-- What the section loop does with the entry point. -/
theorem addSection_entry (h : Sized sec) (i last numSections : ℕ) (report : PeAnalysisReport)
    (found : Bool) :
    (addSection i last numSections sec (report,found)).2=
        (found || decide (InSection sec report.entryPoint ∧ EndsInside sec)) ∧
      (addSection i last numSections sec (report,found)).1.entryPointSection=
        if InSection sec report.entryPoint ∧ EndsInside sec then sec.name
        else report.entryPointSection := by
  have htest : decide (sec.virtualAddress ≤ report.entryPoint ∧ report.entryPoint <
      wrap32 (sec.virtualAddress+max sec.virtualSize sec.rawDataSize))=
      decide (InSection sec report.entryPoint ∧ EndsInside sec) :=
    decide_eq_decide.mpr (wrappedTest_iff h)
  unfold addSection
  dsimp only
  rw [htest]
  refine ⟨rfl,?_⟩
  by_cases hinside : InSection sec report.entryPoint ∧ EndsInside sec
  · rw [if_pos hinside,if_pos (decide_eq_true hinside)]
    cases packerOf sec.name with
    | none => rfl
    | some packer => rfl
  · rw [if_neg hinside,if_neg (by simpa only [decide_eq_true_eq] using hinside)]
    cases packerOf sec.name with
    | none => rfl
    | some packer => rfl

/-- The entry-point test is exact for the sections that do not hold the entry
point beyond 2^32. -/
theorem entryTestExact_iff {entryPoint : ℕ} (h : Sized sec) :
    EntryTestExact entryPoint sec ↔ EntryFits entryPoint sec := by
  constructor
  · intro hexact hinside
    have hflag := (hexact 0 0 0 { entryPoint := entryPoint } false rfl).1
    rw [(addSection_entry h 0 0 0 _ _).1,Bool.false_or,Bool.false_or,decide_eq_decide] at hflag
    exact (hflag.mpr hinside).2
  · rintro hfits i last numSections report found rfl
    have hsame : InSection sec report.entryPoint ∧ EndsInside sec ↔
        InSection sec report.entryPoint := ⟨And.left,fun hin => ⟨hin,hfits hin⟩⟩
    have hentry := addSection_entry h i last numSections report found
    simp only [hsame] at hentry
    exact hentry

end Tests

section Search

variable {rva : ℕ} {sections : List PeSectionInfo}

/-- If the first section that covers the address ends below 2^32, it is also
the first of those that do. -/
theorem find_of_endsInside {sec : PeSectionInfo}
    (hfind : sections.find? (fun sec => decide (Covers rva sec))=some sec)
    (hends : EndsInside sec) :
    sections.find? (fun sec => decide (Covers rva sec ∧ EndsInside sec))=some sec := by
  obtain ⟨hcovers,before,behind,rfl,hbefore⟩ := List.find?_eq_some_iff_append.mp hfind
  refine List.find?_eq_some_iff_append.mpr
    ⟨decide_eq_true ⟨of_decide_eq_true hcovers,hends⟩,before,behind,rfl,?_⟩
  intro other member
  have hother : ¬Covers rva other := by
    simpa only [Bool.not_eq_true',decide_eq_false_iff_not] using hbefore other member
  simp only [Bool.not_eq_true',decide_eq_false_iff_not]
  exact fun hboth => hother hboth.1

/-- Where no section covers the address, none that ends below 2^32 does. -/
theorem find_none (hfind : sections.find? (fun sec => decide (Covers rva sec))=none) :
    sections.find? (fun sec => decide (Covers rva sec ∧ EndsInside sec))=none := by
  rw [List.find?_eq_none] at hfind ⊢
  intro sec member
  have hsec := hfind sec member
  rw [decide_eq_true_eq] at hsec ⊢
  exact fun hboth => hsec hboth.1

/-- The translation of an address is exact under the condition and only
there. -/
theorem rvaToOffset_exact_iff (h : ∀ sec ∈ sections,Sized sec) :
    rvaToOffset rva sections=.ok (integerOffset rva sections) ↔ OffsetFits rva sections := by
  rw [rvaToOffset_eq rva h,Except.ok.injEq,integerOffset,OffsetFits]
  cases hfind : sections.find? (fun sec => decide (Covers rva sec)) with
  | none =>
    rw [find_none hfind]
    exact ⟨fun _ sec hsec => (Option.some_ne_none sec hsec.symm).elim,fun _ => rfl⟩
  | some sec =>
    simp only [Option.some.injEq,Option.map_some,forall_eq']
    by_cases hends : EndsInside sec
    · rw [find_of_endsInside hfind hends,Option.map_some,Option.some.injEq]
      constructor
      · intro heq
        have hlt : wrap32 (fileOffset rva sec) < 2^32 := Nat.mod_lt _ (by decide)
        exact .inl ⟨hends,heq ▸ hlt⟩
      · rintro (⟨_,hlt⟩|⟨hbeyond,_⟩)
        · exact wrap32_of_lt hlt
        · exact (hbeyond hends).elim
    · rw [Option.map_eq_some_iff]
      constructor
      · exact fun hother => .inr ⟨hends,hother⟩
      · rintro (⟨hinside,_⟩|⟨_,hother⟩)
        · exact (hends hinside).elim
        · exact hother

end Search

/-- Four bytes are a 32-bit number. -/
theorem u32At_lt (data : Bytes) (offset : ℕ) : u32At data offset < 2^32 := by
  have h0 := byteAt_lt data offset
  have h1 := byteAt_lt data (offset+1)
  have h2 := byteAt_lt data (offset+2)
  have h3 := byteAt_lt data (offset+3)
  rw [u32At_eq]
  omega

/-- The header reader yields 32-bit numbers, so every section the engine
collects is sized. -/
theorem readSection_sized (shannon : List ℕ → ℕ → Double) {data : Bytes} {secOffset : ℕ}
    (h : secOffset+40 ≤ data.length) :
    Returns (readSection shannon data secOffset) Sized := by
  have hread : ∀ {offset : ℕ},offset+4 ≤ data.length →
      Returns (readU32 data offset) fun v => v < 2^32 := by
    intro offset hoffset
    exact ⟨_,readU32_eq_ok.mpr ⟨hoffset,rfl⟩,u32At_lt data offset⟩
  refine (readSlice_returns (by omega)).bind fun nameBuf _ => ?_
  refine (hread (by omega)).bind fun virtualSize hvirtual => ?_
  refine (hread (by omega)).bind fun virtualAddress haddress => ?_
  refine (hread (by omega)).bind fun rawDataSize hraw => ?_
  refine (hread (by omega)).bind fun rawDataOffset hoffset => ?_
  refine (hread (by omega)).bind fun characteristics _ => ?_
  refine (sectionEntropy_returns shannon _ _).bind fun entropy _ => ?_
  exact returns_pure ⟨haddress,hvirtual,hoffset,hraw⟩

/-- The translation agrees with the integers, and so does the entry-point
test of every section, exactly when the sums that decide stay below 2^32. -/
theorem section_arithmetic_exact_iff {rva entryPoint : ℕ} {sections : List PeSectionInfo}
    (h : ∀ sec ∈ sections,Sized sec) :
    (rvaToOffset rva sections=.ok (integerOffset rva sections) ∧
        ∀ sec ∈ sections,EntryTestExact entryPoint sec) ↔
      OffsetFits rva sections ∧ ∀ sec ∈ sections,EntryFits entryPoint sec := by
  have hentry : (∀ sec ∈ sections,EntryTestExact entryPoint sec) ↔
      ∀ sec ∈ sections,EntryFits entryPoint sec :=
    forall₂_congr fun sec member => entryTestExact_iff (h sec member)
  rw [rvaToOffset_exact_iff h,hentry]

/-- A section of the last page of the address space. -/
def topSection : PeSectionInfo where
  name := ".text".toList
  virtualAddress := 0xFFFFF000
  virtualSize := 0x1000
  rawDataOffset := 0x400
  rawDataSize := 0x1000
  characteristics := 0x60000020
  entropy := zero
  isExecutable := true
  isWritable := false
  isWx := false

/-- The same section one page lower. -/
def lowerSection : PeSectionInfo := { topSection with virtualAddress := 0xFFFFE000 }

/-- An address one page below the top has its integer offset. -/
theorem section_arithmetic_exact_lower :
    (rvaToOffset 0xFFFFE010 [lowerSection]=.ok (integerOffset 0xFFFFE010 [lowerSection]) ∧
        ∀ sec ∈ [lowerSection],EntryTestExact 0xFFFFE010 sec) ↔
      OffsetFits 0xFFFFE010 [lowerSection] ∧ ∀ sec ∈ [lowerSection],EntryFits 0xFFFFE010 sec :=
  section_arithmetic_exact_iff fun sec member => by
    rw [List.mem_singleton.mp member]
    exact ⟨by decide,by decide,by decide,by decide⟩

/-- An address in the last page is hidden from the translation and from the
entry-point test. -/
theorem section_arithmetic_wraps :
    Sized topSection ∧ rvaToOffset 0xFFFFF010 [topSection]=.ok none ∧
      integerOffset 0xFFFFF010 [topSection]=some 0x410 ∧
      ¬EntryTestExact 0xFFFFF010 topSection := by
  refine ⟨⟨by decide,by decide,by decide,by decide⟩,by decide,by decide,fun hexact => ?_⟩
  have hflag := (hexact 0 0 0 { entryPoint := 0xFFFFF010 } false rfl).1
  exact absurd hflag (by decide)

end Gcad.PeSectionArithmetic
