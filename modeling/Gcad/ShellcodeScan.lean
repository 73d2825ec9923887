import Gcad.ByteView
import Gcad.Threat

/-!
# The search for shellcode

`DeepScanner::check_shellcode_patterns`. The index advances by one until it
stands at 32 `NOP` bytes, then jumps behind the byte that ends their run. It
never enters a long run in its middle, so the sled it reports is the first
maximal run that is followed by a control transfer.
-/

namespace Gcad.ShellcodeScan

open Common ByteView Threat

/-- The members of `ScanResult` that the check writes. -/
structure ScanResult where
  /-- The level of the finding. -/
  level : UInt8
  /-- The kind of threat. -/
  category : UInt16
  /-- What was found. -/
  description : Str
  deriving DecidableEq

/-- The bytes that count as a control transfer. -/
def transferBytes : List UInt8 := [0xcc,0xeb,0xe8,0xe9,0x68,0x31]

/-- The inner loop: the index behind the `NOP` bytes from an index on. -/
def sledEnd (data : Bytes) (e : ℕ) : ℕ :=
  if e < data.length ∧ data[e]?=some 0x90 then sledEnd data (e+1) else e
termination_by data.length-e

/-- Enough bytes follow the sled, and the first of them transfers control. -/
def Transfers (data : Bytes) (e : ℕ) : Prop :=
  e+4 < data.length ∧ ∃ next ∈ transferBytes,data[e]?=some next

instance (data : Bytes) (e : ℕ) : Decidable (Transfers data e) :=
  inferInstanceAs (Decidable (_ ∧ _))

/-- The inner loop does not go back. -/
theorem le_sledEnd (data : Bytes) (e : ℕ) : e ≤ sledEnd data e := by
  induction e using sledEnd.induct data with
  | case1 e hnop ih =>
    rw [sledEnd,if_pos hnop]
    omega
  | case2 e hother => rw [sledEnd,if_neg hother]

/-- The outer loop: start and end of the sled it reports. -/
def findSled (data : Bytes) (i : ℕ) : Option (ℕ×ℕ) :=
  if i+32 ≤ data.length then
    if slice data i 32=List.replicate 32 0x90 then
      if Transfers data (sledEnd data (i+32)) then some (i,sledEnd data (i+32))
      else findSled data (sledEnd data (i+32)+1)
    else findSled data (i+1)
  else none
termination_by data.length-i
decreasing_by
  · have hle := le_sledEnd data (i+32)
    omega
  · omega

/-- The description of a sled. -/
def sledText (start stop : ℕ) : Str :=
  "NOP sled (".toList++toDecimal (stop-start)++
    " bytes) followed by control transfer at offset ".toList++toDecimal start

/-- `check_shellcode_patterns`: the returned value and the result passed in. -/
def checkShellcodePatterns (data : Bytes) (out : ScanResult) : Bool×ScanResult :=
  match findSled data 0 with
  | some (start,stop) =>
    (true,{ out with
      level := levelValue .critical
      category := ThreatCategory.shellcode.value
      description := sledText start stop })
  | none => (false,out)

/-- A run of at least 32 `NOP` bytes that no longer run contains. -/
structure MaximalRun (data : Bytes) (start stop : ℕ) : Prop where
  /-- At least 32 bytes. -/
  long : start+32 ≤ stop
  /-- All of them are `NOP`. -/
  nops : ∀ k,start ≤ k → k < stop → data[k]?=some 0x90
  /-- The byte in front is none. -/
  starts : start=0 ∨ data[start-1]?≠some 0x90
  /-- The byte behind is none. -/
  ends : data[stop]?≠some 0x90

/-- More than four bytes are left at an index, and the first of them is `int3`, a
short `jmp`, `call`, `jmp`, `push` or `xor`. -/
def ControlTransfer (data : Bytes) (e : ℕ) : Prop :=
  e+4 < data.length ∧
    (data[e]?=some 0xCC ∨ data[e]?=some 0xEB ∨ data[e]?=some 0xE8 ∨ data[e]?=some 0xE9 ∨
      data[e]?=some 0x68 ∨ data[e]?=some 0x31)

/-- A maximal run that is followed by a control transfer. -/
def Sled (data : Bytes) (start stop : ℕ) : Prop :=
  MaximalRun data start stop ∧ ControlTransfer data stop

/-- 32 `NOP` bytes stand at an index. -/
def SledAt (data : Bytes) (i : ℕ) : Prop := ∀ k,i ≤ k → k < i+32 → data[k]?=some 0x90

section Search

variable {data : Bytes}

/-- The comparison with 32 `NOP` bytes. -/
theorem slice_eq_nops_iff {i : ℕ} : slice data i 32=List.replicate 32 0x90 ↔ SledAt data i := by
  constructor
  · intro h k hlow hhigh
    obtain ⟨n,rfl⟩ := Nat.exists_eq_add_of_le hlow
    have hn := congrArg (fun l : Bytes => l[n]?) h
    rw [slice_getElem?,if_pos (by omega),List.getElem?_replicate_of_lt (by omega)] at hn
    exact hn
  · intro h
    apply List.ext_getElem?
    intro n
    rw [slice_getElem?,List.getElem?_replicate]
    split_ifs with hn
    · exact h (i+n) (by omega) (by omega)
    · rfl

/-- The test behind a sled looks for a control transfer. -/
theorem transfers_iff {e : ℕ} : Transfers data e ↔ ControlTransfer data e := by
  simp [Transfers,ControlTransfer,transferBytes]

/-- The inner loop passes over `NOP` bytes only. -/
theorem sledEnd_nops (e : ℕ) : ∀ k,e ≤ k → k < sledEnd data e → data[k]?=some 0x90 := by
  induction e using sledEnd.induct data with
  | case1 e hnop ih =>
    intro k hlow hhigh
    rw [sledEnd,if_pos hnop] at hhigh
    rcases Nat.eq_or_lt_of_le hlow with rfl | hlater
    · exact hnop.2
    · exact ih k hlater hhigh
  | case2 e hother =>
    intro k hlow hhigh
    rw [sledEnd,if_neg hother] at hhigh
    omega

/-- The inner loop stops at no `NOP` byte. -/
theorem sledEnd_ends (e : ℕ) : data[sledEnd data e]?≠some 0x90 := by
  induction e using sledEnd.induct data with
  | case1 e hnop ih =>
    rw [sledEnd,if_pos hnop]
    exact ih
  | case2 e hother =>
    rw [sledEnd,if_neg hother]
    intro hnop
    exact hother ⟨(List.getElem?_eq_some_iff.mp hnop).1,hnop⟩

/-- Runs of one start end alike. -/
theorem MaximalRun.stop_eq {start stop other : ℕ} (h : MaximalRun data start stop)
    (h' : MaximalRun data start other) : stop=other := by
  rcases Nat.lt_trichotomy stop other with hlt | heq | hgt
  · have hlong := h.long
    exact absurd (h'.nops stop (by omega) hlt) h.ends
  · exact heq
  · have hlong := h'.long
    exact absurd (h.nops other (by omega) hgt) h'.ends

/-- A long run starts with 32 `NOP` bytes. -/
theorem MaximalRun.sledAt {start stop : ℕ} (h : MaximalRun data start stop) :
    SledAt data start := by
  have hlong := h.long
  exact fun k hlow hhigh => h.nops k hlow (by omega)

/-- The index never stands in a long run but at its start. -/
def Fresh (data : Bytes) (i : ℕ) : Prop := i=0 ∨ ¬SledAt data (i-1)

/-- An index behind one that no sled starts at is fresh. -/
theorem fresh_succ {i : ℕ} (h : ¬SledAt data i) : Fresh data (i+1) := .inr h

/-- No sled starts where the inner loop stops. -/
theorem not_sledAt_sledEnd (e : ℕ) : ¬SledAt data (sledEnd data e) := fun h =>
  sledEnd_ends e (h (sledEnd data e) (le_refl _) (by omega))

/-- The sled that the index meets is a maximal run. -/
theorem Fresh.maximalRun {i : ℕ} (h : Fresh data i) (hsled : SledAt data i) :
    MaximalRun data i (sledEnd data (i+32)) where
  long := le_sledEnd data (i+32)
  nops k hlow hhigh := by
    by_cases hnear : k < i+32
    · exact hsled k hlow hnear
    · exact sledEnd_nops (i+32) k (by omega) hhigh
  starts := by
    rcases h with hzero | hbefore
    · exact .inl hzero
    · by_cases hzero : i=0
      · exact .inl hzero
      · refine .inr fun hnop => hbefore fun k hlow hhigh => ?_
        rcases Nat.eq_or_lt_of_le hlow with rfl | hlater
        · exact hnop
        · exact hsled k (by omega) (by omega)
  ends := sledEnd_ends (i+32)

/-- A maximal run that starts from the index on starts there or behind the end
of the sled the index has met. -/
theorem Fresh.skip {i start stop : ℕ} (h : Fresh data i) (hsled : SledAt data i)
    (hrun : MaximalRun data start stop) (hfrom : i ≤ start) :
    start=i ∨ sledEnd data (i+32)+1 ≤ start := by
  have hhere := h.maximalRun hsled
  by_cases hlater : sledEnd data (i+32)+1 ≤ start
  · exact .inr hlater
  · refine .inl ?_
    rcases hrun.starts with hzero | hstart
    · omega
    · by_contra hne
      exact hstart (hhere.nops (start-1) (by omega) (by omega))

/-- The outcome is the first sled from an index on, or there is none. -/
def FirstFrom (data : Bytes) (i : ℕ) (outcome : Option (ℕ×ℕ)) : Prop :=
  (∀ start stop,outcome=some (start,stop) → Sled data start stop ∧
    ∀ other end',Sled data other end' → i ≤ other → start ≤ other) ∧
  (outcome=none → ∀ other end',Sled data other end' → ¬i ≤ other)

/-- An index may advance where no sled starts in between. -/
theorem FirstFrom.back {i j : ℕ} {outcome : Option (ℕ×ℕ)} (h : FirstFrom data j outcome)
    (hskip : ∀ other end',Sled data other end' → i ≤ other → j ≤ other) :
    FirstFrom data i outcome := by
  obtain ⟨hfound,hnone⟩ := h
  refine ⟨fun start stop heq => ?_,fun heq other end' hother hfrom => ?_⟩
  · obtain ⟨hsled,hfirst⟩ := hfound start stop heq
    exact ⟨hsled,fun other end' hother hfrom =>
      hfirst other end' hother (hskip other end' hother hfrom)⟩
  · exact hnone heq other end' hother (hskip other end' hother hfrom)

/-- From a fresh index on the outer loop finds the first sled, if there is
one. -/
theorem findSled_spec (i : ℕ) (h : Fresh data i) : FirstFrom data i (findSled data i) := by
  induction i using findSled.induct data with
  | case1 i hroom hslice htransfers =>
    have hsled := slice_eq_nops_iff.mp hslice
    rw [findSled,if_pos hroom,if_pos hslice,if_pos htransfers]
    constructor
    · intro start stop heq
      obtain ⟨rfl,rfl⟩ := Prod.mk.inj (Option.some.inj heq)
      exact ⟨⟨h.maximalRun hsled,transfers_iff.mp htransfers⟩,fun _ _ _ hfrom => hfrom⟩
    · exact fun hnone => absurd hnone.symm (Option.some_ne_none _).symm
  | case2 i hroom hslice hquiet ih =>
    have hsled := slice_eq_nops_iff.mp hslice
    have hlater : ∀ other end',Sled data other end' → i ≤ other →
        sledEnd data (i+32)+1 ≤ other := by
      intro other end' hother hfrom
      rcases h.skip hsled hother.1 hfrom with rfl | hbehind
      · have hstop := hother.1.stop_eq (h.maximalRun hsled)
        exact absurd (transfers_iff.mpr (hstop ▸ hother.2)) hquiet
      · exact hbehind
    rw [findSled,if_pos hroom,if_pos hslice,if_neg hquiet]
    exact (ih (fresh_succ (not_sledAt_sledEnd _))).back hlater
  | case3 i hroom hslice ih =>
    have hlater : ∀ other end',Sled data other end' → i ≤ other → i+1 ≤ other := by
      intro other end' hother hfrom
      rcases Nat.eq_or_lt_of_le hfrom with rfl | hbehind
      · exact absurd (slice_eq_nops_iff.mpr hother.1.sledAt) hslice
      · exact hbehind
    have hfresh := fresh_succ fun hsled => hslice (slice_eq_nops_iff.mpr hsled)
    rw [findSled,if_pos hroom,if_neg hslice]
    exact (ih hfresh).back hlater
  | case4 i hshort =>
    rw [findSled,if_neg hshort]
    refine ⟨fun start stop heq => absurd heq.symm (Option.some_ne_none _),?_⟩
    intro _ other end' hother hfrom
    have hlong := hother.1.long
    have hlast := hother.1.nops (end'-1) (by omega) (by omega)
    have hlt := (List.getElem?_eq_some_iff.mp hlast).1
    omega

end Search

/-- The check succeeds exactly when a maximal run of at least 32 `NOP` bytes is
followed by a control transfer; then it reports the offset and the length of
the first one, and otherwise it leaves the result as it is. -/
theorem checkShellcodePatterns_spec (data : Bytes) (out : ScanResult) :
    ((checkShellcodePatterns data out).1=true ↔ ∃ start stop,Sled data start stop) ∧
      ((checkShellcodePatterns data out).1=true →
        ∃ start stop,Sled data start stop ∧ (∀ other end',Sled data other end' → start ≤ other) ∧
          (checkShellcodePatterns data out).2=
            ⟨levelValue .critical,ThreatCategory.shellcode.value,
              "NOP sled (".toList++toDecimal (stop-start)++
                " bytes) followed by control transfer at offset ".toList++toDecimal start⟩) ∧
      ((checkShellcodePatterns data out).1=false → (checkShellcodePatterns data out).2=out) := by
  obtain ⟨hfound,hnone⟩ := @findSled_spec data 0 (.inl rfl)
  rw [checkShellcodePatterns]
  cases hsled : findSled data 0 with
  | none =>
    refine ⟨iff_of_false Bool.false_ne_true ?_,fun h => absurd h Bool.false_ne_true,fun _ => rfl⟩
    rintro ⟨start,stop,h⟩
    exact hnone hsled start stop h (Nat.zero_le _)
  | some found =>
    obtain ⟨start,stop⟩ := found
    obtain ⟨hthis,hfirst⟩ := hfound start stop hsled
    refine ⟨iff_of_true rfl ⟨start,stop,hthis⟩,fun _ => ⟨start,stop,hthis,?_,rfl⟩,
      fun h => absurd h.symm Bool.false_ne_true⟩
    exact fun other end' hother => hfirst other end' hother (Nat.zero_le _)

/-- A run of 33 `NOP` bytes that ends in no transfer, and one of 40 that ends in
a `call`. -/
def secondSled : Bytes :=
  List.replicate 33 0x90++[0]++List.replicate 40 0x90++[0xE8,1,2,3,4]

/-- The runs of the buffer are maximal. -/
theorem secondSled_runs : MaximalRun secondSled 0 33 ∧ MaximalRun secondSled 34 74 :=
  ⟨⟨by decide,by decide,.inl rfl,by decide⟩,⟨by decide,by decide,.inr (by decide),by decide⟩⟩

/-- The second run is the first sled, and it is reported. -/
theorem secondSled_reported : checkShellcodePatterns secondSled ⟨0,0,[]⟩=
    (true,⟨4,ThreatCategory.shellcode.value,
      "NOP sled (40 bytes) followed by control transfer at offset 34".toList⟩) := by
  obtain ⟨hfound,hreport,-⟩ := checkShellcodePatterns_spec secondSled ⟨0,0,[]⟩
  have hsled : Sled secondSled 34 74 := ⟨secondSled_runs.2,by decide,by decide⟩
  have htrue := hfound.mpr ⟨34,74,hsled⟩
  obtain ⟨start,stop,⟨hrun,htransfer⟩,hfirst,hout⟩ := hreport htrue
  have hle := hfirst 34 74 hsled
  have hstart : start=34 := by
    rcases hrun.starts with rfl | hbefore
    · rw [hrun.stop_eq secondSled_runs.1] at htransfer
      exact absurd htransfer.2 (by decide)
    · by_contra hne
      exact hbefore (secondSled_runs.1.nops (start-1) (Nat.zero_le _) (by omega))
  subst hstart
  rw [hrun.stop_eq secondSled_runs.2] at hout
  exact Prod.ext htrue (hout.trans (by decide))

end Gcad.ShellcodeScan
