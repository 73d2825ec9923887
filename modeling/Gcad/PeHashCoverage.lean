import Gcad.PeAuthenticode

/-!
# Which bytes the Authenticode hash covers

The documentation of the hash names three excluded regions. The headers are
hashed up to these, and so is every section and the data between the last
section and the certificate table. A byte between two sections, or after
the certificate table, is hashed by none of the updates, so coverage holds
exactly for images without such bytes.
-/

namespace Gcad.PeHashCoverage

open ByteView Intervals PeAuthenticode

/-- The three documented excluded regions. -/
def Excluded (layout : Layout) (i : ℕ) : Prop :=
  (layout.checksumOffset ≤ i ∧ i < layout.checksumOffset+4) ∨
  (layout.securityDirEntryOffset ≤ i ∧ i < layout.securityDirEntryOffset+8) ∨
  (0 < layout.certTableSize ∧ layout.certTableOffset ≤ i ∧
    i < layout.certTableOffset+layout.certTableSize)

/-- The byte stream fed to the hash context. -/
def byteStream (sorter : SectionSort) (data : Bytes) : Checked Bytes := do
  let blocks ← updateBlocks sorter data
  return blocks.flatten

/-- Every byte outside the excluded regions is passed to an update, and two
files of one size with the same header fields that differ in such a byte
feed different streams. -/
structure HashCoverage (sorter : SectionSort) (data : Bytes) (layout : Layout) : Prop where
  /-- Every other index is passed to an update. -/
  covered : ∀ ranges, updateRanges sorter data.length layout=.ok ranges →
    ∀ i < data.length, ¬Excluded layout i → Covered ranges i
  /-- Files that differ there feed different streams. -/
  distinct : ∀ other : Bytes, other.length=data.length → readLayout other=.ok layout →
    (∃ i < data.length, ¬Excluded layout i ∧ other[i]?≠data[i]?) →
    byteStream sorter other≠byteStream sorter data

/-- The sections, and the certificate table if there is one. -/
def imageRanges (layout : Layout) : List Range :=
  layout.sections++
    if 0 < layout.certTableSize then [⟨layout.certTableOffset,layout.certTableSize⟩] else []

/-- End of the headers and of the sections. -/
def imageEnd (layout : Layout) : ℕ := furthest layout.sizeOfHeaders layout.sections

/-- No byte between the headers and the end of the last section is outside
the sections and the certificate table, and none follows the table. -/
structure Gapless (size : ℕ) (layout : Layout) : Prop where
  /-- A section beyond the headers starts right after a byte of another
  section or of the certificate table, and a certificate table before the
  end of the last section right after a byte of a section. -/
  contiguous : Contiguous layout.sizeOfHeaders (imageEnd layout) (imageRanges layout)
  /-- Nothing follows the certificate table and the last section. -/
  tail : 0 < layout.certTableSize →
    size ≤ max (imageEnd layout) (layout.certTableOffset+layout.certTableSize)

section Coverage

variable {data : Bytes} {header : OptionalHeader} {layout : Layout}

/-- The checksum precedes the security entry. -/
theorem checksum_before_entry (h : LayoutAt data header layout) :
    layout.checksumOffset+4 ≤ layout.securityDirEntryOffset := by
  have hbase := dataDirBase_ge h.walk.base
  rw [h.checksum,h.entry]
  omega

/-- The header ranges cover the headers except for the two fields. -/
theorem covered_headerRanges_iff (h : LayoutAt data header layout) (i : ℕ) :
    Covered (headerRanges layout) i ↔ i < layout.sizeOfHeaders ∧
      ¬(layout.checksumOffset ≤ i ∧ i < layout.checksumOffset+4) ∧
      ¬(layout.securityDirEntryOffset ≤ i ∧ i < layout.securityDirEntryOffset+8) := by
  have hbefore := checksum_before_entry h
  have hroom := h.entryRoom
  simp only [Covered,headerRanges,List.mem_cons,List.not_mem_nil,or_false,exists_eq_or_imp,
    exists_eq_left,Range.Holds,Range.stop]
  omega

/-- The trailing data covers what lies between the image and its end. -/
theorem covered_extraRanges_iff (size i : ℕ) :
    Covered (extraRanges size layout) i ↔ imageEnd layout ≤ i ∧ i < extraDataEnd size layout := by
  unfold extraRanges imageEnd
  dsimp only
  split
  · simp only [Covered,List.mem_singleton,exists_eq_left,Range.Holds,Range.stop]
    omega
  · simp only [Covered,List.not_mem_nil,false_and,exists_false,false_iff]
    omega

/-- The image ranges cover the sections and the certificate table. -/
theorem covered_imageRanges_iff (i : ℕ) :
    Covered (imageRanges layout) i ↔ Covered layout.sections i ∨
      (0 < layout.certTableSize ∧ layout.certTableOffset ≤ i ∧
        i < layout.certTableOffset+layout.certTableSize) := by
  unfold imageRanges Covered
  simp only [List.mem_append,or_and_right,exists_or]
  apply or_congr_right
  split
  · next h => simp only [List.mem_singleton,exists_eq_left,Range.Holds,Range.stop,h,true_and]
  · next h => simp only [List.not_mem_nil,false_and,exists_false,h]

/-- What the updates cover. -/
theorem covered_updates_iff (sorter : SectionSort) (data : Bytes) (i : ℕ) :
    Covered (headerRanges layout++sorter.sort layout.sections++extraRanges data.length layout) i ↔
      Covered (headerRanges layout) i ∨ Covered layout.sections i ∨
        Covered (extraRanges data.length layout) i := by
  unfold Covered
  simp only [List.mem_append,or_and_right,exists_or,or_assoc,
    (sorter.perm layout.sections).mem_iff]

/-- The header ranges end with the headers. -/
theorem not_covered_headerRanges (h : LayoutAt data header layout) {i : ℕ}
    (hi : layout.sizeOfHeaders ≤ i) : ¬Covered (headerRanges layout) i := by
  intro hcover
  have hlt := ((covered_headerRanges_iff h i).mp hcover).1
  omega

/-- The sections end with the image. -/
theorem not_covered_sections {i : ℕ} (hi : imageEnd layout ≤ i) : ¬Covered layout.sections i := by
  rintro ⟨r,hr,-,hhigh⟩
  have hstop := stop_le_furthest layout.sizeOfHeaders hr
  unfold imageEnd at hi
  omega

/-- The image ends within the file. -/
theorem imageEnd_le (h : LayoutAt data header layout) : imageEnd layout ≤ data.length := by
  have hsections := readSections_mem h.sections
  have hroom := h.headersRoom
  rcases furthest_eq layout.sizeOfHeaders layout.sections with he | ⟨r,hr,he⟩
  · exact he.trans_le hroom
  · exact he.trans_le (hsections r hr).2

/-- The image ranges cover what follows the headers when they are contiguous. -/
theorem covered_image_iff (h : LayoutAt data header layout) :
    (∀ i, layout.sizeOfHeaders ≤ i → i < imageEnd layout → Covered (imageRanges layout) i) ↔
      Contiguous layout.sizeOfHeaders (imageEnd layout) (imageRanges layout) := by
  have hsections := readSections_mem h.sections
  have hsub : layout.sections ⊆ imageRanges layout := List.subset_append_left _ _
  exact covered_iff_contiguous layout.sizeOfHeaders hsub fun r hr => (hsections r hr).1

/-- A gap is outside the updates. -/
theorem gapless_of_covered (sorter : SectionSort) (h : LayoutAt data header layout)
    (hall : ∀ i < data.length, ¬Excluded layout i → Covered (headerRanges layout++
      sorter.sort layout.sections++extraRanges data.length layout) i) :
    Gapless data.length layout := by
  have hbefore := checksum_before_entry h
  have hentry := h.entryRoom
  have hstart := le_furthest layout.sizeOfHeaders layout.sections
  simp only [covered_updates_iff sorter data] at hall
  refine ⟨(covered_image_iff h).mp ?_,?_⟩
  · intro i hlow hhigh
    rw [covered_imageRanges_iff]
    by_cases hcert : 0 < layout.certTableSize ∧ layout.certTableOffset ≤ i ∧
        i < layout.certTableOffset+layout.certTableSize
    · exact .inr hcert
    · have hopen : ¬Excluded layout i := by
        unfold Excluded
        omega
      rcases hall i (hhigh.trans_le (imageEnd_le h)) hopen with hc | hc | hc
      · exact absurd hc (not_covered_headerRanges h hlow)
      · exact .inl hc
      · have hend := (covered_extraRanges_iff data.length i).mp hc
        unfold imageEnd at hend hhigh
        omega
  · intro hpos
    by_contra hlong
    have hopen : ¬Excluded layout
        (max (imageEnd layout) (layout.certTableOffset+layout.certTableSize)) := by
      unfold Excluded imageEnd
      omega
    rcases hall _ (Nat.not_le.mp hlong) hopen with hc | hc | hc
    · refine not_covered_headerRanges h ?_ hc
      unfold imageEnd
      omega
    · exact not_covered_sections (le_max_left _ _) hc
    · have hend := (covered_extraRanges_iff data.length _).mp hc
      unfold extraDataEnd at hend
      rw [if_pos hpos] at hend
      omega

/-- Without a gap every other byte is in one of the updates. -/
theorem covered_of_gapless (sorter : SectionSort) (h : LayoutAt data header layout)
    (hgap : Gapless data.length layout) {i : ℕ} (hi : i < data.length)
    (hopen : ¬Excluded layout i) : Covered (headerRanges layout++
      sorter.sort layout.sections++extraRanges data.length layout) i := by
  rw [covered_updates_iff sorter data]
  by_cases hhead : i < layout.sizeOfHeaders
  · refine .inl ((covered_headerRanges_iff h i).mpr ?_)
    unfold Excluded at hopen
    omega
  · by_cases himage : i < imageEnd layout
    · have hc := (covered_image_iff h).mpr hgap.contiguous i (Nat.not_lt.mp hhead) himage
      rcases (covered_imageRanges_iff i).mp hc with hc | hc
      · exact .inr (.inl hc)
      · exact absurd (.inr (.inr hc)) hopen
    · refine .inr (.inr ((covered_extraRanges_iff data.length i).mpr ⟨Nat.not_lt.mp himage,?_⟩))
      have htail := hgap.tail
      unfold Excluded at hopen
      unfold extraDataEnd
      split <;> omega

/-- Coverage is the absence of gaps. -/
theorem covered_iff_gapless (sorter : SectionSort) (h : LayoutAt data header layout) :
    (∀ ranges, updateRanges sorter data.length layout=.ok ranges →
      ∀ i < data.length, ¬Excluded layout i → Covered ranges i) ↔
    Gapless data.length layout := by
  rw [updateRanges_eq sorter h]
  simp only [Except.ok.injEq,forall_eq']
  exact ⟨gapless_of_covered sorter h,
    fun hgap i hi hopen => covered_of_gapless sorter h hgap hi hopen⟩

/-- The blocks hashed of an accepted file. -/
theorem updateBlocks_eq (sorter : SectionSort) (h : LayoutAt data header layout) :
    updateBlocks sorter data=.ok
      ((headerRanges layout++sorter.sort layout.sections++extraRanges data.length layout).map
        fun r => slice data r.offset r.length) := by
  unfold updateBlocks
  rw [bind_eq_ok]
  refine ⟨layout,readLayout_eq_ok.mpr ⟨header,h⟩,?_⟩
  rw [updateRanges_eq sorter h]
  rfl

/-- Buffers of one length whose slices concatenate to the same stream agree
on every sliced range. -/
theorem slices_eq_of_flatten_eq {other : Bytes} (hlen : other.length=data.length)
    {ranges : List Range}
    (h : (ranges.map fun r => slice other r.offset r.length).flatten=
      (ranges.map fun r => slice data r.offset r.length).flatten) :
    ∀ r ∈ ranges, slice other r.offset r.length=slice data r.offset r.length := by
  induction ranges with
  | nil => exact List.forall_mem_nil _
  | cons first ranges ih =>
    rw [List.map_cons,List.map_cons,List.flatten_cons,List.flatten_cons] at h
    obtain ⟨hfirst,hrest⟩ := List.append_inj h (slice_length_eq hlen _ _)
    intro r hr
    rcases List.mem_cons.mp hr with rfl | hr
    · exact hfirst
    · exact ih hrest r hr

/-- Two files with the same header fields that differ in a covered byte
feed different streams. -/
theorem byteStream_ne (sorter : SectionSort) (h : LayoutAt data header layout) {other : Bytes}
    (hlen : other.length=data.length) (hother : readLayout other=.ok layout) {i : ℕ}
    (hcover : ∀ ranges, updateRanges sorter data.length layout=.ok ranges → Covered ranges i)
    (hne : other[i]?≠data[i]?) : byteStream sorter other≠byteStream sorter data := by
  intro heq
  obtain ⟨header',h'⟩ := readLayout_eq_ok.mp hother
  unfold byteStream at heq
  rw [updateBlocks_eq sorter h,updateBlocks_eq sorter h',hlen] at heq
  obtain ⟨r,hr,hlow,hhigh⟩ := hcover _ (updateRanges_eq sorter h)
  have hslice := slices_eq_of_flatten_eq hlen (Except.ok.inj heq) r hr
  exact hne (slice_eq_iff.mp hslice i hlow hhigh)

end Coverage

/-- A digest is returned exactly when the header walk is accepted. -/
theorem hash_accepts_iff {σ δ : Type} (sha256 : HashContext σ δ) (sorter : SectionSort)
    (data : Bytes) :
    (∃ digest, computeAuthenticodePeHashSha256 sha256 sorter data=.ok digest) ↔
      ∃ layout, readLayout data=.ok layout := by
  unfold computeAuthenticodePeHashSha256
  constructor
  · rintro ⟨digest,h⟩
    obtain ⟨blocks,hblocks,-⟩ := bind_eq_ok.mp h
    unfold updateBlocks at hblocks
    obtain ⟨layout,hlayout,-⟩ := bind_eq_ok.mp hblocks
    exact ⟨layout,hlayout⟩
  · rintro ⟨layout,hlayout⟩
    obtain ⟨header,h⟩ := readLayout_eq_ok.mp hlayout
    exact ⟨_,bind_eq_ok.mpr ⟨_,updateBlocks_eq sorter h,rfl⟩⟩

/-- For every file on which a digest is returned, every byte outside the
three excluded regions is hashed, and files that differ there feed
different streams, exactly when the image has no gap before its end and
nothing follows its certificate table. -/
theorem hash_coverage_iff_gapless {σ δ : Type} (sha256 : HashContext σ δ) (sorter : SectionSort)
    (data : Bytes) (digest : δ)
    (accepted : computeAuthenticodePeHashSha256 sha256 sorter data=.ok digest) :
    ∃ layout, readLayout data=.ok layout ∧
      (HashCoverage sorter data layout ↔ Gapless data.length layout) := by
  obtain ⟨layout,hlayout⟩ := (hash_accepts_iff sha256 sorter data).mp ⟨digest,accepted⟩
  obtain ⟨header,h⟩ := readLayout_eq_ok.mp hlayout
  refine ⟨layout,hlayout,?_⟩
  rw [←covered_iff_gapless sorter h]
  constructor
  · intro hc
    exact hc.covered
  · intro hcover
    refine ⟨hcover,?_⟩
    rintro other hlen hother ⟨i,hi,hopen,hne⟩
    exact byteStream_ne sorter h hlen hother (fun ranges hr => hcover ranges hr i hi hopen) hne

/-- A context that records the bytes it is fed. -/
def recordingContext : HashContext Bytes Bytes := ⟨[],(·++·),id⟩

/-- A PE32 image with one section header and 264 header bytes. -/
def fixtureImage (rawPtr rawSize : ℕ) (body : Bytes) : Bytes :=
  let dos := writeAt (writeAt (List.replicate 264 0) 0 [0x4d,0x5a]) 0x3c (leBytes 4 64)
  let file := writeAt (writeAt (writeAt dos 64 [0x50,0x45]) 70 (leBytes 2 1)) 84 (leBytes 2 136)
  let optional := writeAt (writeAt file 88 (leBytes 2 0x10b)) 148 (leBytes 4 264)
  writeAt (writeAt optional 240 (leBytes 4 rawSize)) 244 (leBytes 4 rawPtr)++body

/-- A section right after the headers leaves no gap. -/
theorem hash_coverage_fixture :
    ∃ digest layout, computeAuthenticodePeHashSha256 recordingContext .stable
        (fixtureImage 264 2 [1,2])=.ok digest ∧
      readLayout (fixtureImage 264 2 [1,2])=.ok layout ∧
      HashCoverage .stable (fixtureImage 264 2 [1,2]) layout := by
  have hread : readLayout (fixtureImage 264 2 [1,2])=.ok ⟨152,264,216,0,0,[⟨264,2⟩]⟩ := by
    decide +kernel
  obtain ⟨digest,haccepted⟩ :=
    (hash_accepts_iff recordingContext .stable (fixtureImage 264 2 [1,2])).mpr ⟨_,hread⟩
  obtain ⟨layout,hlayout,hiff⟩ := hash_coverage_iff_gapless _ _ _ _ haccepted
  refine ⟨digest,layout,haccepted,hlayout,hiff.mpr ?_⟩
  rw [hread] at hlayout
  cases hlayout
  refine ⟨?_,?_⟩
  · intro r hr hlow
    cases List.mem_singleton.mp hr
    exact absurd hlow (by decide)
  · intro hpos
    exact absurd hpos (by decide)

/-- Two bytes between the headers and the first section are hashed by no
update. -/
theorem hash_coverage_gap :
    ¬∀ (sorter : SectionSort) (data digest : Bytes) (layout : Layout),
      computeAuthenticodePeHashSha256 recordingContext sorter data=.ok digest →
      readLayout data=.ok layout → HashCoverage sorter data layout := by
  intro h
  have hread : readLayout (fixtureImage 266 2 [7,7,1,2])=.ok ⟨152,264,216,0,0,[⟨266,2⟩]⟩ := by
    decide +kernel
  obtain ⟨digest,haccepted⟩ :=
    (hash_accepts_iff recordingContext .stable (fixtureImage 266 2 [7,7,1,2])).mpr ⟨_,hread⟩
  have hcoverage := h _ _ _ _ haccepted hread
  have hlength : (fixtureImage 266 2 [7,7,1,2]).length=268 := by decide +kernel
  have hranges : updateRanges .stable (fixtureImage 266 2 [7,7,1,2]).length
      ⟨152,264,216,0,0,[⟨266,2⟩]⟩=.ok [⟨0,152⟩,⟨156,60⟩,⟨224,40⟩,⟨266,2⟩] := by
    rw [hlength]
    decide +kernel
  have hcover := hcoverage.covered _ hranges 264 (by omega) (by unfold Excluded; decide)
  revert hcover
  unfold Covered Range.Holds Range.stop
  decide

end Gcad.PeHashCoverage
