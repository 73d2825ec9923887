import Gcad.LedgerText

/-!
# Versions of installed software

The scanner compares two versions component by component, as `int` values.
A component that `std::stoi` refuses, one outside that type included, counts
as zero, so long build numbers compare like none at all. A version whose
components are all zero is never older than another.
-/

namespace Gcad.VulnVersion

open Common DelimitedText LedgerText

/-- `VulnScannerEngine::parse_version`. -/
def parseVersion (ver : Str) : List ℤ := (pieces '.' ver).map fun token => (stoi token).getD 0

/-- The loop of `version_less_than` over components of one number. -/
def lessLoop : List ℤ → List ℤ → Bool
  | x::xs,y::ys => if x < y then true else if x > y then false else lessLoop xs ys
  | _,_ => false

/-- `VulnScannerEngine::version_less_than`. -/
def versionLessThan (installed threshold : Str) : Bool :=
  if installed=[] ∨ threshold=[] then false
  else
    let a := parseVersion installed
    let b := parseVersion threshold
    if a=[] ∨ b=[] then false
    else if a.all fun x => x==0 then false
    else
      let len := max a.length b.length
      lessLoop (a.rightpad len 0) (b.rightpad len 0)

/-- A version in dotted decimal notation. -/
structure DottedVersion where
  /-- The texts between the dots. -/
  parts : List Str
  /-- There is a component. -/
  nonempty : parts≠[]
  /-- Every component is a number. -/
  digits : ∀ part ∈ parts,part≠[] ∧ ∀ c ∈ part,c.isDigit=true

/-- The version as it is written. -/
def DottedVersion.text (version : DottedVersion) : Str := ['.'].intercalate version.parts

/-- The numbers between the dots. -/
def DottedVersion.components (version : DottedVersion) : List ℕ :=
  version.parts.map fun part => Nat.ofDigitChars 10 part 0

/-- The components of a version among as many as the longer one has. -/
def padded (version other : List ℕ) : List ℕ :=
  version.rightpad (max version.length other.length) 0

/-- A version is older than another: it is not all zero and smaller, from
the first component on. -/
def Older (installed threshold : List ℕ) : Prop :=
  (∃ n ∈ installed,n≠0) ∧ padded installed threshold < padded threshold installed

/-- What a component counts as. -/
def readable (n : ℕ) : ℕ := if n < 2^31 then n else 0

/-- Where the lists differ first, both numbers are readable, or what is read
from there on compares as the two numbers do. -/
def SameOutcome (a b : List ℕ) : Prop :=
  ∀ common x y xs ys,a=common++x::xs → b=common++y::ys → x≠y →
    (x < 2^31 ∧ y < 2^31) ∨ ((x::xs).map readable < (y::ys).map readable ↔ x < y)

/-- The installed version is all zero; or a component is not zero and
readable, and the first difference is decided by readable numbers or by
chance; or no component other than zero is readable and the version is not
the smaller one. -/
def ReadAlike (installed threshold : List ℕ) : Prop :=
  (∀ n ∈ installed,n=0) ∨
  ((∃ n ∈ installed,0 < n ∧ n < 2^31) ∧
    SameOutcome (padded installed threshold) (padded threshold installed)) ∨
  ((∃ n ∈ installed,n≠0) ∧ (∀ n ∈ installed,n=0 ∨ 2^31 ≤ n) ∧
    ¬padded installed threshold < padded threshold installed)

section Parsing

/-- A text of digits is read as its value, if that is an `int`. -/
theorem stoi_digits {digits : Str} (hne : digits≠[]) (h : ∀ c ∈ digits,c.isDigit=true) :
    (stoi digits).getD 0=(readable (Nat.ofDigitChars 10 digits 0) : ℤ) := by
  rw [stoi,scanInteger_digits hne h,readable]
  simp only [Option.bind_some,Bool.false_eq_true,if_false]
  split_ifs with hout hsmall hsmall
  · omega
  · rfl
  · rfl
  · omega

/-- What is read from a version in dotted decimal notation. -/
theorem DottedVersion.parseVersion_text (version : DottedVersion) :
    parseVersion version.text=
      (version.components.map readable).map fun n : ℕ => (n : ℤ) := by
  have hplain : ∀ part ∈ version.parts,'.' ∉ part := fun part member hdot =>
    absurd ((version.digits part member).2 _ hdot) (by decide)
  have hlast : version.parts.getLast?.all List.isEmpty=false := by
    rw [List.getLast?_eq_some_getLast version.nonempty,Option.all_some]
    exact List.isEmpty_eq_false_iff.mpr
      (version.digits _ (List.getLast_mem version.nonempty)).1
  rw [parseVersion,DottedVersion.text,pieces_intercalate hplain version.nonempty,hlast,
    if_neg Bool.false_ne_true,components,List.map_map,List.map_map]
  refine List.map_congr_left fun part member => ?_
  obtain ⟨hne,hdigits⟩ := version.digits part member
  exact stoi_digits hne hdigits

/-- A version in dotted decimal notation is not empty. -/
theorem DottedVersion.text_ne_nil (version : DottedVersion) : version.text≠[] := by
  obtain ⟨part,rest,hparts⟩ := List.exists_cons_of_ne_nil version.nonempty
  have hpart := (version.digits part (by rw [hparts]; exact List.mem_cons_self)).1
  rw [text,hparts]
  cases rest with
  | nil =>
    rw [List.intercalate_singleton]
    exact hpart
  | cons next rest =>
    rw [List.intercalate_cons_cons]
    exact List.append_ne_nil_of_left_ne_nil (List.append_ne_nil_of_left_ne_nil hpart _) _

end Parsing

section Comparing

/-- The loop compares lists of one length as the order of lists does. -/
theorem lessLoop_iff {a b : List ℕ} (h : a.length=b.length) :
    lessLoop (a.map fun n : ℕ => (n : ℤ)) (b.map fun n : ℕ => (n : ℤ))=true ↔ a < b := by
  induction a generalizing b with
  | nil =>
    rw [List.length_nil] at h
    rw [List.eq_nil_of_length_eq_zero h.symm]
    exact iff_of_false Bool.false_ne_true (List.not_lt_nil _)
  | cons x xs ih =>
    cases b with
    | nil => exact absurd h (Nat.succ_ne_zero _)
    | cons y ys =>
      rw [List.map_cons,List.map_cons,lessLoop,List.cons_lt_cons_iff,←ih (Nat.succ.inj h)]
      split_ifs with hless hgreater
      · exact iff_of_true rfl (.inl (by omega))
      · exact iff_of_false not_false (by omega)
      · exact (or_iff_right (by omega)).trans (and_iff_right (by omega)) |>.symm

/-- Padding commutes with reading. -/
theorem map_rightpad {α β : Type*} (f : α → β) (len : ℕ) (zero : α) (a : List α) :
    (a.rightpad len zero).map f=(a.map f).rightpad len (f zero) := by
  rw [List.rightpad,List.rightpad,List.map_append,List.map_replicate,List.length_map]

/-- What `version_less_than` computes from the components. -/
theorem versionLessThan_iff (installed threshold : DottedVersion) :
    versionLessThan installed.text threshold.text=true ↔
      (∃ n ∈ installed.components,readable n≠0) ∧
      (padded installed.components threshold.components).map readable <
        (padded threshold.components installed.components).map readable := by
  have hne : ∀ version : DottedVersion,
      (version.components.map readable).map (fun n : ℕ => (n : ℤ))≠[] := by
    intro version hnil
    rw [List.map_eq_nil_iff,List.map_eq_nil_iff,DottedVersion.components,List.map_eq_nil_iff] at hnil
    exact version.nonempty hnil
  rw [versionLessThan,if_neg (not_or.mpr ⟨installed.text_ne_nil,threshold.text_ne_nil⟩),
    installed.parseVersion_text,threshold.parseVersion_text]
  dsimp only
  rw [if_neg (not_or.mpr ⟨hne installed,hne threshold⟩)]
  split_ifs with hzero
  · refine iff_of_false not_false ?_
    rintro ⟨⟨n,hmem,hn⟩,-⟩
    have hall := List.all_eq_true.mp hzero _
      (List.mem_map_of_mem (f := fun n : ℕ => (n : ℤ)) (List.mem_map_of_mem (f := readable) hmem))
    rw [beq_iff_eq,Nat.cast_eq_zero] at hall
    exact hn hall
  · have hsome : ∃ n ∈ installed.components,readable n≠0 := by
      by_contra hnone
      push Not at hnone
      refine hzero (List.all_eq_true.mpr fun z hz => ?_)
      obtain ⟨m,hm,rfl⟩ := List.mem_map.mp hz
      obtain ⟨n,hn,rfl⟩ := List.mem_map.mp hm
      rw [beq_iff_eq,Nat.cast_eq_zero]
      exact hnone n hn
    rw [and_iff_right hsome,padded,padded,map_rightpad,map_rightpad]
    simp only [List.length_map]
    rw [max_comm threshold.components.length,←lessLoop_iff]
    · rw [map_rightpad,map_rightpad]
      rfl
    · rw [List.length_rightpad,List.length_rightpad,List.length_map,List.length_map]
      omega

/-- What is read as a number other than zero. -/
theorem readable_ne_zero_iff {n : ℕ} : readable n≠0 ↔ 0 < n ∧ n < 2^31 := by
  rw [readable]
  split_ifs with hsmall
  · omega
  · omega

/-- A common first number is passed over. -/
theorem sameOutcome_cons_self {x : ℕ} {xs ys : List ℕ} :
    SameOutcome (x::xs) (x::ys) ↔ SameOutcome xs ys := by
  constructor
  · intro hall common u v us vs ha hb
    exact hall (x::common) u v us vs (by rw [ha,List.cons_append]) (by rw [hb,List.cons_append])
  · intro hall common u v us vs ha hb hne
    cases common with
    | nil =>
      rw [List.nil_append] at ha hb
      exact absurd ((List.cons.inj ha).1.symm.trans (List.cons.inj hb).1) hne
    | cons c common =>
      rw [List.cons_append] at ha hb
      exact hall common u v us vs (List.cons.inj ha).2 (List.cons.inj hb).2 hne

/-- Different first numbers decide. -/
theorem sameOutcome_cons_ne {x y : ℕ} {xs ys : List ℕ} (hxy : x≠y) :
    SameOutcome (x::xs) (y::ys) ↔ x < 2^31 ∧ y < 2^31 ∨
      ((x::xs).map readable < (y::ys).map readable ↔ x < y) := by
  constructor
  · exact fun hall => hall [] x y xs ys rfl rfl hxy
  · intro hfirst common u v us vs ha hb hne
    cases common with
    | nil =>
      rw [List.nil_append] at ha hb
      obtain ⟨rfl,rfl⟩ := List.cons.inj ha
      obtain ⟨rfl,rfl⟩ := List.cons.inj hb
      exact hfirst
    | cons c common =>
      rw [List.cons_append] at ha hb
      exact absurd ((List.cons.inj ha).1.trans (List.cons.inj hb).1.symm) hxy

/-- Reading keeps the order of two lists of one length exactly when the
outcome at the first difference is the same. -/
theorem readable_lt_iff {a b : List ℕ} (h : a.length=b.length) :
    (a.map readable < b.map readable ↔ a < b) ↔ SameOutcome a b := by
  induction a generalizing b with
  | nil =>
    rw [List.length_nil] at h
    rw [List.eq_nil_of_length_eq_zero h.symm]
    refine iff_of_true Iff.rfl fun common x y xs ys hsplit => ?_
    exact absurd hsplit.symm (List.append_ne_nil_of_right_ne_nil _ (List.cons_ne_nil _ _))
  | cons x xs ih =>
    cases b with
    | nil => exact absurd h (Nat.succ_ne_zero _)
    | cons y ys =>
      by_cases hxy : x=y
      · subst hxy
        rw [sameOutcome_cons_self,←ih (Nat.succ.inj h),List.map_cons,List.map_cons,
          List.cons_lt_cons_iff,List.cons_lt_cons_iff,and_iff_right rfl,and_iff_right rfl,
          or_iff_right (Nat.lt_irrefl _),or_iff_right (Nat.lt_irrefl _)]
      · have hless : x::xs < y::ys ↔ x < y := by
          rw [List.cons_lt_cons_iff]
          exact or_iff_left fun heq => hxy heq.1
        rw [hless,sameOutcome_cons_ne hxy]
        refine (or_iff_right_of_imp ?_).symm
        rintro ⟨hx,hy⟩
        rw [List.map_cons,List.map_cons,List.cons_lt_cons_iff,readable,if_pos hx,readable,if_pos hy]
        exact or_iff_left fun heq => hxy heq.1

/-- For all versions in dotted decimal notation, with components of any size:
`version_less_than` tells whether the installed version is older exactly when
the two are read alike. -/
theorem versionLessThan_older_iff (installed threshold : DottedVersion) :
    (versionLessThan installed.text threshold.text=true ↔
      Older installed.components threshold.components) ↔
      ReadAlike installed.components threshold.components := by
  have hlen : (padded installed.components threshold.components).length=
      (padded threshold.components installed.components).length := by
    rw [padded,padded,List.length_rightpad,List.length_rightpad]
    omega
  rw [versionLessThan_iff,Older,ReadAlike,←readable_lt_iff hlen]
  by_cases hzero : ∀ n ∈ installed.components,n=0
  · refine iff_of_true (iff_of_false ?_ ?_) (.inl hzero)
    · rintro ⟨⟨n,hmem,hn⟩,-⟩
      exact absurd (hzero n hmem) (readable_ne_zero_iff.mp hn).1.ne'
    · rintro ⟨⟨n,hmem,hn⟩,-⟩
      exact hn (hzero n hmem)
  · have hsome : ∃ n ∈ installed.components,n≠0 := by
      push Not at hzero
      exact hzero
    rw [or_iff_right hzero,and_iff_right hsome,and_iff_right hsome]
    by_cases hread : ∃ n ∈ installed.components,readable n≠0
    · have hbetween : ∃ n ∈ installed.components,0 < n ∧ n < 2^31 := by
        obtain ⟨n,hmem,hn⟩ := hread
        exact ⟨n,hmem,readable_ne_zero_iff.mp hn⟩
      have hnotAll : ¬∀ n ∈ installed.components,n=0 ∨ 2^31 ≤ n := by
        intro hall
        obtain ⟨n,hmem,hpos,hlt⟩ := hbetween
        rcases hall n hmem with h | h
        · omega
        · omega
      rw [and_iff_right hread,and_iff_right hbetween,or_iff_left fun h => hnotAll h.1]
    · have hnone : ¬∃ n ∈ installed.components,0 < n ∧ n < 2^31 := by
        rintro ⟨n,hmem,hn⟩
        exact hread ⟨n,hmem,readable_ne_zero_iff.mpr hn⟩
      have hall : ∀ n ∈ installed.components,n=0 ∨ 2^31 ≤ n := by
        intro n hmem
        by_contra hn
        exact hnone ⟨n,hmem,by omega,by omega⟩
      rw [or_iff_right fun h => hnone h.1,and_iff_right hall]
      exact ⟨fun h hless => hread (h.mpr hless).1,fun h => iff_of_false (fun hr => hread hr.1) h⟩

end Comparing

section LongNumbers

/-- The version with given components. -/
def dotted (numbers : List ℕ) (nonempty : numbers≠[]) : DottedVersion where
  parts := numbers.map toDecimal
  nonempty := fun h => nonempty (List.map_eq_nil_iff.mp h)
  digits := by
    intro part member
    obtain ⟨n,-,rfl⟩ := List.mem_map.mp member
    exact ⟨toDecimal_ne_nil n,fun c hc => isDigit_of_mem_toDecimal hc⟩

/-- It has these components. -/
theorem dotted_components (numbers : List ℕ) (nonempty : numbers≠[]) :
    (dotted numbers nonempty).components=numbers := by
  rw [DottedVersion.components,dotted,List.map_map]
  exact List.map_id'' (fun n => ofDigitChars_toDecimal n) numbers

/-- Version 1.0 is older than version 1.3000000000, and is not taken for
older. -/
theorem long_build_number_missed : ∃ installed threshold : DottedVersion,
    Older installed.components threshold.components ∧
      versionLessThan installed.text threshold.text=false := by
  refine ⟨dotted [1,0] (List.cons_ne_nil _ _),dotted [1,3000000000] (List.cons_ne_nil _ _),?_,?_⟩
  · rw [dotted_components,dotted_components]
    exact ⟨⟨1,List.mem_cons_self,one_ne_zero⟩,by decide⟩
  · rw [←Bool.not_eq_true,versionLessThan_iff,dotted_components,dotted_components]
    exact fun h => absurd h.2 (by decide)

/-- Patch numbers of three digits are compared as numbers. -/
example : ReadAlike [1,0,9] [1,0,100] := by
  have hsame : SameOutcome [1,0,9] [1,0,100] :=
    (readable_lt_iff (a := [1,0,9]) (b := [1,0,100]) rfl).mp (by decide)
  exact .inr (.inl ⟨⟨1,List.mem_cons_self,by decide⟩,hsame⟩)

end LongNumbers

end Gcad.VulnVersion
