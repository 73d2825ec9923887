import Gcad.Observation

/-!
# What a correlation key identifies

The key joins the observation kind with the strongest identity the
observation carries: a file hash, a file path, a process number or a process
name. Only process numbers are tagged with their sort, and an observation
without any identity has an empty one. Two observations of one kind share a
key exactly when their identities are written alike.
-/

namespace Gcad.CorrelationKey

open Common Observation

/-- The strongest identity of an observation. -/
inductive Identity where
  /-- A normalised file hash. -/
  | hash (text : Str)
  /-- A normalised file path. -/
  | path (text : Str)
  /-- A process number. -/
  | process (id : ℕ)
  /-- A normalised process name. -/
  | name (text : Str)
  /-- No identity at all. -/
  | anonymous
  deriving DecidableEq

/-- The sorts of identities, strongest first. -/
def Identity.sort : Identity → ℕ
  | .hash _ => 0
  | .path _ => 1
  | .process _ => 2
  | .name _ => 3
  | .anonymous => 4

/-- How an identity is written behind the kind. -/
def Identity.written : Identity → Str
  | .hash text => text
  | .path text => text
  | .process id => "pid:".toList++toDecimal id
  | .name text => text
  | .anonymous => []

/-- The strongest identity that the fields of an observation give. -/
def identityOf (o : SecurityObservation) : Identity :=
  if o.sha256≠[] then .hash (normalize o.sha256)
  else if o.filePath≠[] then .path (normalize o.filePath)
  else if o.processId≠0 then .process o.processId
  else if o.processName≠[] then .name (normalize o.processName)
  else .anonymous

/-- Two observations name the same artifact. -/
def SameArtifact (a b : SecurityObservation) : Prop :=
  ((a.sha256≠[] ∧ b.sha256≠[]) ∧ normalize a.sha256=normalize b.sha256) ∨
  ((a.sha256=[] ∧ b.sha256=[]) ∧ (a.filePath≠[] ∧ b.filePath≠[]) ∧
    normalize a.filePath=normalize b.filePath) ∨
  ((a.sha256=[] ∧ b.sha256=[]) ∧ (a.filePath=[] ∧ b.filePath=[]) ∧
    a.processId≠0 ∧ a.processId=b.processId) ∨
  ((a.sha256=[] ∧ b.sha256=[]) ∧ (a.filePath=[] ∧ b.filePath=[]) ∧
    (a.processId=0 ∧ b.processId=0) ∧ (a.processName≠[] ∧ b.processName≠[]) ∧
    normalize a.processName=normalize b.processName)

/-- Identities of different sorts that are written alike. -/
def Ambiguous (a b : SecurityObservation) : Prop :=
  (identityOf a).sort≠(identityOf b).sort ∧ (identityOf a).written=(identityOf b).written

/-- The key is the kind and the written identity. -/
theorem correlationKey_eq (o : SecurityObservation) :
    o.correlationKey=toDecimal o.kind.toNat++":".toList++(identityOf o).written := by
  unfold SecurityObservation.correlationKey identityOf
  by_cases hhash : o.sha256=[]
  · by_cases hpath : o.filePath=[]
    · by_cases hpid : o.processId=0
      · by_cases hname : o.processName=[]
        · simp [hhash,hpath,hpid,hname,Observation.normalize,Identity.written]
        · simp [hhash,hpath,hpid,hname,Identity.written]
      · simp [hhash,hpath,hpid,Identity.written]
    · simp [hhash,hpath,Identity.written]
  · simp [hhash,Identity.written]

/-- Within one kind, keys agree exactly when the identities are written alike. -/
theorem correlationKey_eq_iff {a b : SecurityObservation} (hkind : a.kind=b.kind) :
    a.correlationKey=b.correlationKey ↔ (identityOf a).written=(identityOf b).written := by
  rw [correlationKey_eq,correlationKey_eq,hkind,List.append_cancel_left_eq]

/-- Two identities of one sort that are written alike are equal. -/
theorem eq_of_written {x y : Identity} (hsort : x.sort=y.sort) (h : x.written=y.written) :
    x=y := by
  cases x with
  | hash s =>
    cases y with
    | hash t => exact congrArg Identity.hash h
    | _ => simp [Identity.sort] at hsort
  | path s =>
    cases y with
    | path t => exact congrArg Identity.path h
    | _ => simp [Identity.sort] at hsort
  | process m =>
    cases y with
    | process n =>
      exact congrArg Identity.process (toDecimal_injective (List.append_cancel_left h))
    | _ => simp [Identity.sort] at hsort
  | name s =>
    cases y with
    | name t => exact congrArg Identity.name h
    | _ => simp [Identity.sort] at hsort
  | anonymous =>
    cases y with
    | anonymous => rfl
    | _ => simp [Identity.sort] at hsort

/-- Naming the same artifact is having the same identity, and having one. -/
theorem sameArtifact_iff (a b : SecurityObservation) :
    SameArtifact a b ↔ identityOf a=identityOf b ∧ identityOf a≠.anonymous := by
  unfold SameArtifact identityOf
  by_cases ha : a.sha256=[] <;> by_cases hb : b.sha256=[]
  · by_cases hpa : a.filePath=[] <;> by_cases hpb : b.filePath=[]
    · by_cases hia : a.processId=0 <;> by_cases hib : b.processId=0
      · by_cases hna : a.processName=[] <;> by_cases hnb : b.processName=[] <;>
          simp [ha,hb,hpa,hpb,hia,hib,hna,hnb]
      · by_cases hna : a.processName=[] <;> simp [ha,hb,hpa,hpb,hia,hib,hna,Ne.symm hib]
      · by_cases hnb : b.processName=[] <;> simp [ha,hb,hpa,hpb,hia,hib,hnb]
      · simp [ha,hb,hpa,hpb,hia,hib]
    · by_cases hia : a.processId=0 <;> by_cases hna : a.processName=[] <;>
        simp [ha,hb,hpa,hpb,hia,hna]
    · by_cases hib : b.processId=0 <;> by_cases hnb : b.processName=[] <;>
        simp [ha,hb,hpa,hpb,hib,hnb]
    · simp [ha,hb,hpa,hpb]
  · by_cases hpa : a.filePath=[] <;> by_cases hia : a.processId=0 <;>
      by_cases hna : a.processName=[] <;> simp [ha,hb,hpa,hia,hna]
  · by_cases hpb : b.filePath=[] <;> by_cases hib : b.processId=0 <;>
      by_cases hnb : b.processName=[] <;> simp [ha,hb,hpb,hib,hnb]
  · simp [ha,hb]

/-- Two observations of one kind that share a key name the same artifact
unless both carry no identity or their identities are of different sorts and
written alike. -/
theorem correlation_key_identifies_iff {a b : SecurityObservation} (hkind : a.kind=b.kind) :
    (a.correlationKey=b.correlationKey → SameArtifact a b) ↔
      ¬(identityOf a=.anonymous ∧ identityOf b=.anonymous) ∧ ¬Ambiguous a b := by
  rw [correlationKey_eq_iff hkind,sameArtifact_iff]
  constructor
  · intro h
    refine ⟨?_,?_⟩
    · rintro ⟨ha,hb⟩
      exact (h (by rw [ha,hb])).2 ha
    · rintro ⟨hsort,hwritten⟩
      exact hsort (congrArg Identity.sort (h hwritten).1)
  · rintro ⟨hsome,hclear⟩ hwritten
    have hsort : (identityOf a).sort=(identityOf b).sort := by
      by_contra hne
      exact hclear ⟨hne,hwritten⟩
    have hsame := eq_of_written hsort hwritten
    exact ⟨hsame,fun ha => hsome ⟨ha,hsame ▸ ha⟩⟩

/-- Two sources that report one file. -/
theorem correlation_key_identifies_iff_fixture :
    ((fixtureObservation "a".toList true).correlationKey=
        (fixtureObservation "b".toList true).correlationKey →
      SameArtifact (fixtureObservation "a".toList true) (fixtureObservation "b".toList true)) ↔
    ¬(identityOf (fixtureObservation "a".toList true)=.anonymous ∧
        identityOf (fixtureObservation "b".toList true)=.anonymous) ∧
      ¬Ambiguous (fixtureObservation "a".toList true) (fixtureObservation "b".toList true) :=
  correlation_key_identifies_iff rfl

/-- What `FirewallEngine::emit_observation` publishes: a source, a kind, a
level, a confidence and an evidence text, and no identity. -/
def emitObservation (kind : ObservationKind) (level : ThreatLevel) (confidence : Double)
    (evidence : Str) : SecurityObservation where
  sourceId := "firewall".toList
  kind := kind
  suggestedLevel := level
  confidence := confidence
  deterministic := true
  processId := 0
  processName := []
  filePath := []
  sha256 := []
  evidence := evidence

/-- Everything the firewall publishes under one kind shares one key and names
no artifact. -/
theorem emitObservation_anonymous (kind : ObservationKind) (level level' : ThreatLevel)
    (confidence confidence' : Double) (evidence evidence' : Str) :
    (emitObservation kind level confidence evidence).correlationKey=
      (emitObservation kind level' confidence' evidence').correlationKey ∧
    ¬SameArtifact (emitObservation kind level confidence evidence)
      (emitObservation kind level' confidence' evidence') := by
  refine ⟨rfl,?_⟩
  rw [sameArtifact_iff]
  exact fun h => h.2 rfl

/-- Two firewall events about different connections share a key. -/
theorem correlation_key_conflates :
    ¬∀ a b : SecurityObservation,a.kind=b.kind → a.correlationKey=b.correlationKey →
      SameArtifact a b := by
  intro h
  have hkinds : ∀ evidence evidence' : Str,
      (emitObservation .networkConnection .high Double.one evidence).kind=
        (emitObservation .networkConnection .high Double.one evidence').kind :=
    fun _ _ => rfl
  obtain ⟨hkey,hother⟩ := emitObservation_anonymous .networkConnection .high .high Double.one
    Double.one "blocked 10.0.0.1".toList "blocked 10.0.0.2".toList
  exact hother (h _ _ (hkinds _ _) hkey)

end Gcad.CorrelationKey
