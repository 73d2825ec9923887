import Gcad.LexicalPath
import Gcad.QuarantineRun

/-!
# Spellings of protected paths

The policy engine and the quarantine executor compare a path with each
protected prefix character by character, up to letter case and the
direction of slashes. One file has many more spellings: a dot, a double
dot or a repeated separator changes the text and not the file. Here the
comparison is set against the lexical normal form. It refuses exactly the
paths that spell a protected prefix out, so a path that reaches a
protected directory in another way passes both checks.
-/

namespace Gcad.ProtectedPath

open Common Observation ByteView FileStore LexicalPath QuarantineVault QuarantineRun

/-- A path with every character folded as the comparison folds it. -/
def foldPath (path : Str) : Str := path.map foldPathChar

/-- The lexical normalisation of a path. -/
def normalise (path : Str) : Str := normalForm (foldPath path)

/-- The normalised path starts with a normalised protected prefix. -/
def LiesUnder (policy : LocalSecurityPolicy) (path : Str) : Prop :=
  ∃ pre ∈ policy.protectedPathPrefixes, normalise pre <+: normalise path

/-- The path spells a protected prefix out, up to letter case and the
direction of slashes. -/
def SpellsOut (policy : LocalSecurityPolicy) (path : Str) : Prop :=
  ∃ pre ∈ policy.protectedPathPrefixes, foldPath pre <+: foldPath path

/-- Both components refuse to act on a path. -/
structure Refused (policy : LocalSecurityPolicy) (path : Str) : Prop where
  /-- Every finding about it is only reported. -/
  reported : ∀ finding : SecurityFinding, finding.filePath=path →
    decideResponse finding policy=.reportOnly
  /-- Every request to quarantine it is denied, in every state of the
  executor and of the files, and changes nothing. -/
  denied : ∀ {σ : Type} (sha256 : HashContext σ Bytes) (faults : QuarantineFaults)
    (candidate : RemediationCandidate) (world : World), candidate.targetPath=path →
    world.executor.policy=policy →
    quarantine sha256 faults candidate world=(world,.errQuarantineDenied,none)

/-- The comparison of the source is a prefix of folded texts. -/
theorem pathStartsWith_iff (path pre : Str) :
    pathStartsWith path pre=true ↔ foldPath pre <+: foldPath path := by
  unfold pathStartsWith foldPath
  induction pre generalizing path with
  | nil => simp
  | cons head rest ih =>
    cases path with
    | nil => simp
    | cons first path =>
      have hrest := ih path
      by_cases hlen : path.length < rest.length
      · rw [if_pos hlen] at hrest
        have hnot : ¬rest.map foldPathChar <+: path.map foldPathChar :=
          fun h => absurd (hrest.mpr h) Bool.false_ne_true
        simp [hlen,hnot]
      · rw [if_neg hlen] at hrest
        simp only [List.length_cons,Nat.add_lt_add_iff_right,hlen,if_false,List.zip_cons_cons,
          List.all_cons,Bool.and_eq_true,decide_eq_true_eq,hrest,List.map_cons,
          List.cons_prefix_cons]
        exact and_congr_left fun _ => eq_comm

/-- A path is protected exactly when it spells a protected prefix out. -/
theorem isProtectedPath_iff (path : Str) (policy : LocalSecurityPolicy) :
    isProtectedPath path policy=true ↔ SpellsOut policy path := by
  unfold isProtectedPath SpellsOut
  simp only [List.any_eq_true,pathStartsWith_iff]

/-- A finding that the policy engine would act on were its path free. -/
def criticalFinding (policy : LocalSecurityPolicy) (path : Str) : SecurityFinding where
  id := 1
  timestamp := 0
  level := .critical
  riskScore := policy.criticalThreshold
  deterministicSignature := true
  correlationKey := []
  filePath := path
  sha256 := []
  rationale := []
  contributingSources := []

/-- A nonempty path that spells no protected prefix out is acted on. -/
theorem criticalFinding_decided {policy : LocalSecurityPolicy} {path : Str} (hne : path≠[])
    (h : ¬SpellsOut policy path) :
    decideResponse (criticalFinding policy path) policy=.quarantineCandidate :=
  (decideResponse_iff _ _).mpr ⟨rfl,rfl,le_refl _,hne,
    Bool.eq_false_iff.mpr fun hp => h ((isProtectedPath_iff path policy).mp hp)⟩

/-- A path that spells a protected prefix out is refused. -/
theorem SpellsOut.refused {policy : LocalSecurityPolicy} {path : Str}
    (h : SpellsOut policy path) : Refused policy path := by
  have hprotected := (isProtectedPath_iff path policy).mpr h
  constructor
  · intro finding hpath
    cases hd : decideResponse finding policy with
    | reportOnly => rfl
    | quarantineCandidate =>
      have hfree := ((decideResponse_iff finding policy).mp hd).unprotected
      rw [hpath,hprotected] at hfree
      cases hfree
  · intro σ sha256 faults candidate world hpath hpolicy
    have hnone : admission sha256 faults world.executor.policy candidate world.files=none := by
      cases ha : admission sha256 faults world.executor.policy candidate world.files with
      | none => rfl
      | some currentHash =>
        have hfree := (admission_eq_some ha).1.unprotected
        rw [hpath,hpolicy,hprotected] at hfree
        cases hfree
    unfold quarantine
    rw [hnone]

/-- The empty path lies only under an empty prefix, which it spells out. -/
theorem spellsOut_of_liesUnder_nil {policy : LocalSecurityPolicy} (h : LiesUnder policy []) :
    SpellsOut policy [] := by
  obtain ⟨pre,hin,hstarts⟩ := h
  have hnil : foldPath pre=[] := normalForm_eq_nil (List.prefix_nil.mp hstarts)
  refine ⟨pre,hin,?_⟩
  rw [hnil]
  exact List.nil_prefix

/-- A path that lies under a protected prefix is refused exactly when it
spells one out. -/
theorem LiesUnder.refused_iff {policy : LocalSecurityPolicy} {path : Str}
    (h : LiesUnder policy path) : Refused policy path ↔ SpellsOut policy path := by
  constructor
  · intro hrefused
    by_contra hspells
    by_cases hne : path=[]
    · rw [hne] at h hspells
      exact hspells (spellsOut_of_liesUnder_nil h)
    · have hreport := hrefused.reported (criticalFinding policy path) rfl
      rw [criticalFinding_decided hne hspells] at hreport
      cases hreport
  · exact SpellsOut.refused

/-- Clean spellings of path and prefix spell the prefix out. -/
theorem LiesUnder.spellsOut {policy : LocalSecurityPolicy} {path : Str} (h : LiesUnder policy path)
    (hprefixes : ∀ pre ∈ policy.protectedPathPrefixes, Clean (foldPath pre))
    (hpath : Clean (foldPath path)) : SpellsOut policy path := by
  obtain ⟨pre,hin,hstarts⟩ := h
  unfold normalise at hstarts
  rw [(hprefixes pre hin).normalForm_eq,hpath.normalForm_eq] at hstarts
  exact ⟨pre,hin,hstarts⟩

/-- For every policy and path: a path that lies under a protected prefix
is refused by both components exactly when it also spells a prefix out
literally, as it does when neither it nor a prefix has a dot, a double dot
or a repeated separator. -/
theorem protected_spelling_refused_iff (policy : LocalSecurityPolicy) (path : Str) :
    ((LiesUnder policy path → Refused policy path) ↔
      ¬LiesUnder policy path ∨ SpellsOut policy path) ∧
    ((∀ pre ∈ policy.protectedPathPrefixes, Clean (foldPath pre)) → Clean (foldPath path) →
      LiesUnder policy path → Refused policy path) := by
  refine ⟨⟨?_,?_⟩,?_⟩
  · intro h
    by_cases hlies : LiesUnder policy path
    · exact .inr (hlies.refused_iff.mp (h hlies))
    · exact .inl hlies
  · intro h hlies
    rcases h with hnot | hspells
    · exact absurd hlies hnot
    · exact hspells.refused
  · intro hprefixes hpath hlies
    exact (hlies.spellsOut hprefixes hpath).refused

section Fixture

/-- A system file spelled with a dot component. -/
def fixtureSpelling : Str := "C:/./Windows/notepad.exe".toList

/-- The same file spelled plainly. -/
def fixturePlainSpelling : Str := "C:\\Windows\\notepad.exe".toList

/-- A machine on which both spellings lead to the file. -/
def fixtureSystem : World :=
  ⟨fun path => if path=fixtureSpelling ∨ path=fixturePlainSpelling then some ['A'] else none,
    ⟨"/v".toList,LocalSecurityPolicy.default,[],1⟩⟩

/-- The plain spelling is refused by both components. -/
theorem protected_spelling_fixture :
    LiesUnder LocalSecurityPolicy.default fixturePlainSpelling ∧
      Refused LocalSecurityPolicy.default fixturePlainSpelling := by
  have hlies : LiesUnder LocalSecurityPolicy.default fixturePlainSpelling :=
    ⟨"c:/windows/".toList,by decide,by decide⟩
  refine ⟨hlies,(protected_spelling_refused_iff LocalSecurityPolicy.default
    fixturePlainSpelling).1.mpr (.inr ?_) hlies⟩
  exact ⟨"c:/windows/".toList,by decide,by decide⟩

set_option maxRecDepth 10000 in
/-- The spelling with a dot lies under a protected prefix of the default
policy, becomes a remediation candidate, and is quarantined. -/
theorem dotted_spelling_quarantined :
    LiesUnder LocalSecurityPolicy.default fixtureSpelling ∧
      decideResponse (criticalFinding LocalSecurityPolicy.default fixtureSpelling)
        LocalSecurityPolicy.default=.quarantineCandidate ∧
      (quarantine fixtureHash (fixtureFaults false) (fixtureCandidate fixtureSpelling)
        fixtureSystem).2.1=.ok ∧
      ¬∀ (policy : LocalSecurityPolicy) (path : Str), LiesUnder policy path →
        Refused policy path := by
  have hlies : LiesUnder LocalSecurityPolicy.default fixtureSpelling :=
    ⟨"c:/windows/".toList,by decide,by decide⟩
  have hdecided : decideResponse (criticalFinding LocalSecurityPolicy.default fixtureSpelling)
      LocalSecurityPolicy.default=.quarantineCandidate := by decide
  refine ⟨hlies,hdecided,by decide,?_⟩
  intro hall
  have hreport := (hall LocalSecurityPolicy.default fixtureSpelling hlies).reported
    (criticalFinding LocalSecurityPolicy.default fixtureSpelling) rfl
  rw [hdecided] at hreport
  cases hreport

end Fixture

end Gcad.ProtectedPath
