import Gcad.ByteView
import Gcad.Common
import Gcad.SkipSearch

/-!
# Pattern search of the YARA engine

`YaraEngine::find_pattern`. A pattern of four or more bytes without
wildcards is searched with a shift table, every other pattern position by
position. Both ways report the same offsets: those at which every pattern
byte agrees under its mask, where letter case is ignored only for bytes that
are compared whole.
-/

namespace Gcad.YaraSearch

open Common ByteView SkipSearch

/-- `YaraString`; the search reads neither `wide` nor `ascii`. -/
structure YaraString where
  /-- Name of the string within its rule. -/
  identifier : Str
  /-- Bytes to look for. -/
  pattern : Bytes
  /-- Bits that are compared, byte by byte; missing bytes compare whole. -/
  mask : Bytes
  /-- The pattern was written in hexadecimal. -/
  isHex : Bool
  /-- Letter case is ignored. -/
  nocase : Bool
  deriving DecidableEq

/-- Lower-case form of an ASCII letter. -/
def lower (b : UInt8) : UInt8 := if 0x41 ≤ b ∧ b ≤ 0x5a then b-0x41+0x61 else b

/-- Upper-case form of an ASCII letter. -/
def upper (b : UInt8) : UInt8 := if 0x61 ≤ b ∧ b ≤ 0x7a then b-0x61+0x41 else b

/-- The byte at an index that is in range. -/
def at8 (bytes : Bytes) (i : ℕ) : UInt8 := bytes[i]?.getD 0

section Find

variable (data : Bytes) (str : YaraString)

/-- `str.nocase && !str.is_hex`. -/
def YaraString.folds : Bool := str.nocase && !str.isHex

/-- A byte with its letter case removed where the string asks for it. -/
def YaraString.fold (b : UInt8) : UInt8 := if str.folds then lower b else b

/-- `has_wildcards`. -/
def YaraString.hasWildcards : Bool := str.mask.any fun m => m≠0xFF

/-- Mask byte of a pattern byte. -/
def YaraString.maskAt (j : ℕ) : UInt8 := if j < str.mask.length then at8 str.mask j else 0xFF

/-- Entries that pattern byte `j` sets in the shift table. -/
def YaraString.shiftKeys (j : ℕ) : List UInt8 :=
  let p := at8 str.pattern j
  if str.folds then [lower p,upper p] else [p]

/-- The array `shift`. -/
def YaraString.shift : UInt8 → ℕ :=
  shiftTable str.pattern.length str.shiftKeys (str.pattern.length-1)

/-- The comparison loop of the fast path, from the last pattern byte down. -/
def fastMatch (i : ℕ) : Bool :=
  (List.range str.pattern.length).reverse.all fun j =>
    str.fold (at8 data (i+j))=str.fold (at8 str.pattern j)

/-- The comparison of one byte on the plain path. -/
def byteMatch (d p m : UInt8) : Bool :=
  if str.nocase && m=0xFF && !str.isHex then (lower d &&& m)=(lower p &&& m)
  else (d &&& m)=(p &&& m)

/-- The comparison loop of the plain path. -/
def plainMatch (i : ℕ) : Bool :=
  (List.range str.pattern.length).all fun j =>
    byteMatch str (at8 data (i+j)) (at8 str.pattern j) (str.maskAt j)

/-- `YaraEngine::find_pattern`. The fast loop visits at most every offset
once. -/
def findPattern : List ℕ :=
  if str.pattern=[] ∨ data.length < str.pattern.length then []
  else
    let lastPos := data.length-str.pattern.length
    if 4 ≤ str.pattern.length ∧ str.hasWildcards=false then
      scan (fastMatch data str)
        (fun i => str.shift (str.fold (at8 data (i+str.pattern.length-1)))) lastPos (lastPos+1) 0
    else (List.range (lastPos+1)).filter (plainMatch data str)

/-- Pattern byte `j` agrees with the data byte at offset `i+j`: under its
mask, and up to letter case where the whole byte is compared. -/
def Agrees (i j : ℕ) : Prop :=
  if str.nocase=true ∧ str.isHex=false ∧ str.maskAt j=0xFF then
    lower (at8 data (i+j))=lower (at8 str.pattern j)
  else at8 data (i+j) &&& str.maskAt j=at8 str.pattern j &&& str.maskAt j

/-- The whole pattern occurs at an offset. -/
def OccursAt (i : ℕ) : Prop :=
  i+str.pattern.length ≤ data.length ∧ ∀ j < str.pattern.length,Agrees data str i j

end Find

section Paths

variable {data : Bytes} {str : YaraString}

/-- A full mask compares the whole byte. -/
theorem and_full (b : UInt8) : b &&& 0xFF=b := by
  apply UInt8.toBitVec_inj.1
  exact BitVec.and_allOnes

/-- The plain path compares one byte as the specification does. -/
theorem byteMatch_iff (i j : ℕ) :
    byteMatch str (at8 data (i+j)) (at8 str.pattern j) (str.maskAt j)=true ↔
      Agrees data str i j := by
  unfold byteMatch Agrees
  by_cases hm : str.maskAt j=0xFF
  · rw [hm]
    cases str.nocase <;> cases str.isHex <;> simp [and_full]
  · cases str.nocase <;> cases str.isHex <;> simp [hm]

/-- The plain path accepts the offsets at which the pattern occurs. -/
theorem plainMatch_iff (i : ℕ) :
    plainMatch data str i=true ↔ ∀ j < str.pattern.length,Agrees data str i j := by
  simp only [plainMatch,List.all_eq_true,List.mem_range,byteMatch_iff]

/-- Without wildcards every pattern byte is compared whole. -/
theorem maskAt_full (h : str.hasWildcards=false) (j : ℕ) : str.maskAt j=0xFF := by
  unfold YaraString.maskAt
  split
  · next hj =>
    have hall := List.any_eq_false.1 h
    have hmem : at8 str.mask j ∈ str.mask := by
      rw [at8,List.getElem?_eq_getElem hj,Option.getD_some]
      exact List.getElem_mem hj
    simpa using hall _ hmem
  · rfl

/-- The fast path compares one byte as the specification does. -/
theorem fold_eq_iff {i j : ℕ} (h : str.maskAt j=0xFF) :
    str.fold (at8 data (i+j))=str.fold (at8 str.pattern j) ↔ Agrees data str i j := by
  unfold Agrees YaraString.fold YaraString.folds
  by_cases hf : str.nocase=true ∧ str.isHex=false
  · simp [hf.1,hf.2,h]
  · have hoff : (str.nocase && !str.isHex)=false := by simpa using hf
    have hplain : ¬(str.nocase=true ∧ str.isHex=false ∧ str.maskAt j=0xFF) :=
      fun hall => hf ⟨hall.1,hall.2.1⟩
    rw [if_neg hplain,hoff,h,and_full,and_full]
    simp

/-- The fast path accepts the same offsets. -/
theorem fastMatch_iff (h : str.hasWildcards=false) (i : ℕ) :
    fastMatch data str i=true ↔ ∀ j < str.pattern.length,Agrees data str i j := by
  simp only [fastMatch,List.all_eq_true,List.mem_reverse,List.mem_range,decide_eq_true_eq,
    fold_eq_iff (maskAt_full h _)]

/-- A folded data byte is an entry set by every pattern byte it agrees with. -/
theorem fold_mem_shiftKeys {d : UInt8} {j : ℕ} (h : str.fold d=str.fold (at8 str.pattern j)) :
    str.fold d ∈ str.shiftKeys j := by
  rw [h,YaraString.fold,YaraString.shiftKeys]
  cases str.folds with
  | false => exact List.mem_singleton_self _
  | true => exact List.mem_cons_self

/-- The fast loop reports every offset it should. -/
theorem scan_fastMatch (hne : str.pattern≠[]) (last : ℕ) :
    scan (fastMatch data str)
      (fun i => str.shift (str.fold (at8 data (i+str.pattern.length-1)))) last (last+1) 0=
      (List.range (last+1)).filter (fastMatch data str) := by
  have hm : 0 < str.pattern.length := List.length_pos_iff.2 hne
  rw [scan_eq _ (by omega),List.range_eq_range']
  · rfl
  · intro i _ _
    refine ⟨(shiftTable_bounds _ _ (by omega)).1.1,fun k hik hk _ => ?_⟩
    refine @shift_passes_no_hit _ _ _ (fun n => str.fold (at8 data n)) _ _ _ _ hm ?_ hik hk
    intro hhit j hj
    have hall := List.all_eq_true.1 hhit
    exact fold_mem_shiftKeys (of_decide_eq_true
      (hall j (List.mem_reverse.2 (List.mem_range.2 (by omega)))))

/-- Both paths list the offsets at which the pattern occurs. -/
theorem findPattern_eq (hne : str.pattern≠[]) :
    findPattern data str=
      (List.range (data.length+1-str.pattern.length)).filter (plainMatch data str) := by
  have hm : 0 < str.pattern.length := List.length_pos_iff.2 hne
  unfold findPattern
  by_cases hlong : data.length < str.pattern.length
  · have hnone : data.length+1-str.pattern.length=0 := by omega
    rw [if_pos (Or.inr hlong),hnone]
    rfl
  · have hlast : data.length-str.pattern.length+1=data.length+1-str.pattern.length := by omega
    rw [if_neg (not_or.2 ⟨hne,hlong⟩)]
    dsimp only
    split
    · next hfast =>
      rw [scan_fastMatch hne,hlast]
      apply List.filter_congr
      intro i _
      exact Bool.eq_iff_iff.2 ((fastMatch_iff hfast.2 i).trans (plainMatch_iff i).symm)
    · rw [hlast]

end Paths

/-- A non-empty pattern is reported at exactly the offsets at which it
occurs, in ascending order and overlapping ones included; an empty pattern is
never reported. -/
theorem find_pattern_exact (data : Bytes) (str : YaraString) :
    (findPattern data str).Pairwise (fun i k => i < k) ∧
    ∀ i,i ∈ findPattern data str ↔ str.pattern≠[] ∧ OccursAt data str i := by
  by_cases hne : str.pattern=[]
  · rw [findPattern,if_pos (Or.inl hne)]
    refine ⟨List.Pairwise.nil,fun i => ?_⟩
    exact iff_of_false List.not_mem_nil fun h => h.1 hne
  · rw [findPattern_eq hne]
    refine ⟨List.pairwise_lt_range.filter _,fun i => ?_⟩
    rw [List.mem_filter,List.mem_range,plainMatch_iff,OccursAt]
    have hm : 0 < str.pattern.length := List.length_pos_iff.2 hne
    constructor
    · rintro ⟨hlt,hall⟩
      exact ⟨hne,by omega,hall⟩
    · rintro ⟨-,hle,hall⟩
      exact ⟨by omega,hall⟩

/-- Overlapping occurrences on the fast path. -/
example : findPattern [0x61,0x41,0x61,0x61,0x61,0x62] ⟨[],[0x61,0x61,0x61,0x61],[],false,true⟩=
    [0,1] := by decide

/-- Neither an empty pattern nor a partly masked pattern in a case-blind
string is searched as a masked comparison of folded bytes. -/
theorem find_pattern_guards :
    (¬∀ (data : Bytes) (str : YaraString) (i : ℕ),i ∈ findPattern data str ↔
      i+str.pattern.length ≤ data.length ∧ ∀ j < str.pattern.length,
        str.fold (at8 data (i+j)) &&& str.maskAt j=
          str.fold (at8 str.pattern j) &&& str.maskAt j) ∧
    ¬∀ (data : Bytes) (str : YaraString) (i : ℕ),str.pattern≠[] →
      (i ∈ findPattern data str ↔
        i+str.pattern.length ≤ data.length ∧ ∀ j < str.pattern.length,
          str.fold (at8 data (i+j)) &&& str.maskAt j=
            str.fold (at8 str.pattern j) &&& str.maskAt j) := by
  constructor
  · intro h
    have hempty := (h [] ⟨[],[],[],false,false⟩ 0).2
    revert hempty
    decide
  · intro h
    have hmasked := (h [0x41] ⟨[],[0x61],[0x20],false,true⟩ 0 (by decide)).2
    revert hmasked
    decide

end Gcad.YaraSearch
