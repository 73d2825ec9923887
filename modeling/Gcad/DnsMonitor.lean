import Gcad.IocDatabase
import Gcad.PeStaticAnalysis
import Gcad.Threat
import Gcad.ThreatIntel

/-!
# Analysis of queried domains

`DnsMonitorEngine::analyze_domain` with the functions that emit threats and
observations. The engine's mutex is part of the state: taking it while it is
held is an error of its own, because `std::mutex` is not recursive. Installed
callbacks are any functions that change the engine or do not come back; they
are kept under names, so that the engine can hold them. The score of a domain
is a parameter, because it is computed on floating-point logarithms.
-/

namespace Gcad.DnsMonitor

open Common Observation Threat PeStaticAnalysis ThreatIntel IocDatabase

/-- Ways in which a call ends without returning. -/
inductive Failure where
  /-- The mutex is taken by the call that holds it. -/
  | selfLock
  /-- A callback is invoked while the mutex is held. -/
  | callbackUnderLock
  /-- A callback does not come back. -/
  | noReturn
  deriving DecidableEq

/-- `DnsQueryRecord`. -/
structure DnsQueryRecord where
  /-- The name asked for. -/
  domain : Str
  /-- The kind of record asked for. -/
  qtype : ℕ := 0
  /-- When it was asked. -/
  timestamp : TimePoint
  /-- How generated the name looks. -/
  dgaScore : Double
  /-- The name is on a list. -/
  blocked : Bool

/-- The members of `DnsMonitorEngine` that the analysis changes. -/
structure Engine (κ ο : Type) where
  /-- Queries seen. -/
  eventsProcessed : UInt64
  /-- Threats raised. -/
  threatsDetected : UInt64
  /-- The callback for threats, if installed. -/
  threatCb : Option κ
  /-- The callback for observations, if installed. -/
  observationCb : Option ο
  /-- The last queries, oldest first. -/
  queryLog : List DnsQueryRecord
  /-- The names asked for so far. -/
  seenDomains : Finset Str

/-- A freshly constructed engine. -/
def create {κ ο : Type} : Engine κ ο := ⟨0,0,none,none,[],∅⟩

/-- The engine and its mutex. -/
structure State (κ ο : Type) where
  /-- The members. -/
  engine : Engine κ ο
  /-- The mutex is held. -/
  held : Bool

/-- `DGA_THRESHOLD`, the double nearest to 0.70. -/
def dgaThreshold : Double := .ofScaled false 0x16666666666666 (-53)

/-- The double nearest to 0.95. -/
def nineteenTwentieths : Double := .ofScaled false 0x1E666666666666 (-53)

/-- The double nearest to 0.9. -/
def nineTenths : Double := .ofScaled false 0x1CCCCCCCCCCCCD (-53)

/-- The comparison `a > b` of doubles. -/
def gt (a b : Double) : Bool := ge a b && !ge b a

/-- `MAX_QUERY_LOG`. -/
def maxQueryLog : ℕ := 5000

/-- `kMaliciousDomains`. -/
def kMaliciousDomains : List Str :=
  ["malware-c2.com".toList,"evil-payload.net".toList,"darkside-ransomware.net".toList,
    "cobalt-strike-c2.com".toList,"mimikatz-download.xyz".toList,"emotet-dropper.club".toList,
    "trickbot-panel.top".toList,"ryuk-payment.onion.ws".toList,"conti-leak.cc".toList,
    "lockbit-blog.xyz".toList,"blackcat-ransomware.net".toList,"revil-payment.cc".toList,
    "lazarus-apt.top".toList,"apt28-implant.net".toList,"apt29-beacon.xyz".toList,
    "cobaltstrike.github.io.evil.com".toList,"havoc-c2-framework.net".toList,
    "sliver-implant.club".toList,"bruteratel-c4.top".toList,"nighthawk-c2.xyz".toList]

/-- `init_blocklist`. Nothing changes `blocklist_` afterwards. -/
def initBlocklist : Finset Str := kMaliciousDomains.toFinset

section Locking

variable {κ ο : Type}

/-- Construction of a `std::lock_guard`. -/
def acquire (state : State κ ο) : Except Failure (State κ ο) :=
  if state.held then .error .selfLock else .ok { state with held := true }

/-- Destruction of a `std::lock_guard`. -/
def release (state : State κ ο) : State κ ο := { state with held := false }

/-- A call of a copied callback. -/
def invoke (callback : Engine κ ο → Option (Engine κ ο)) (state : State κ ο) :
    Except Failure (State κ ο) :=
  if state.held then .error .callbackUnderLock
  else match callback state.engine with
    | some engine => .ok { state with engine := engine }
    | none => .error .noReturn

/-- Copy a callback under the mutex and call the copy outside it. -/
def deliver {α : Type} (callbackOf : Engine κ ο → Option α)
    (run : α → Engine κ ο → Option (Engine κ ο)) (state : State κ ο) :
    Except Failure (State κ ο) := do
  let inner ← acquire state
  let outer := release inner
  match callbackOf inner.engine with
  | some cb => invoke (run cb) outer
  | none => return outer

/-- A call that starts with the mutex free ends with it free, or in a
callback that does not come back. -/
def Frees (result : Except Failure (State κ ο)) : Prop :=
  result=.error .noReturn ∨ ∃ engine,result=.ok ⟨engine,false⟩

/-- A free mutex can be taken. -/
theorem acquire_free (engine : Engine κ ο) : acquire ⟨engine,false⟩=.ok ⟨engine,true⟩ :=
  if_neg Bool.false_ne_true

/-- A held mutex cannot. -/
theorem acquire_held (engine : Engine κ ο) : acquire ⟨engine,true⟩=.error .selfLock := if_pos rfl

/-- One call after another. -/
theorem Frees.bind {result : Except Failure (State κ ο)}
    {next : State κ ο → Except Failure (State κ ο)} (h : Frees result)
    (hnext : ∀ engine,Frees (next ⟨engine,false⟩)) : Frees (result >>= next) := by
  rcases h with rfl|⟨engine,rfl⟩
  · exact .inl rfl
  · exact hnext engine

/-- A callback called outside the lock. -/
theorem invoke_frees (callback : Engine κ ο → Option (Engine κ ο)) (engine : Engine κ ο) :
    Frees (invoke callback ⟨engine,false⟩) := by
  unfold invoke
  rw [if_neg Bool.false_ne_true]
  cases hcallback : callback engine with
  | none => exact .inl rfl
  | some next => exact .inr ⟨next,rfl⟩

/-- Delivery with the mutex free. -/
theorem deliver_frees {α : Type} (callbackOf : Engine κ ο → Option α)
    (run : α → Engine κ ο → Option (Engine κ ο)) (engine : Engine κ ο) :
    Frees (deliver callbackOf run ⟨engine,false⟩) := by
  unfold deliver
  rw [acquire_free]
  cases hcopy : callbackOf engine with
  | none => exact .inr ⟨engine,by simp only [bind,Except.bind,hcopy]; rfl⟩
  | some cb =>
    have hinvoke := invoke_frees (run cb) engine
    simpa only [bind,Except.bind,hcopy,release] using hinvoke

/-- Delivery with the mutex held takes it a second time. -/
theorem deliver_held {α : Type} (callbackOf : Engine κ ο → Option α)
    (run : α → Engine κ ο → Option (Engine κ ο)) (engine : Engine κ ο) :
    deliver callbackOf run ⟨engine,true⟩=.error .selfLock := by
  unfold deliver
  rw [acquire_held]
  rfl

end Locking

section Analysis

variable {κ ο : Type} (runThreat : κ → ThreatEvent → Engine κ ο → Option (Engine κ ο))
  (runObservation : ο → SecurityObservation → Engine κ ο → Option (Engine κ ο))

/-- The event that `emit_threat` builds. -/
def threatEvent (cat : ThreatCategory) (desc : Str) : ThreatEvent :=
  { ThreatEvent.default with
    level := levelValue .high
    category := cat.value
    description := desc }

/-- `emit_threat`. -/
def emitThreat (state : State κ ο) (cat : ThreatCategory) (desc : Str) :
    Except Failure (State κ ο) :=
  deliver Engine.threatCb (fun cb => runThreat cb (threatEvent cat desc))
    { state with
      engine := { state.engine with threatsDetected := state.engine.threatsDetected+1 } }

/-- The observation that `emit_observation` builds. -/
def dnsObservation (kind : ObservationKind) (level : ThreatLevel) (confidence : Double)
    (evidence : Str) : SecurityObservation where
  sourceId := "dns-monitor".toList
  kind := kind
  suggestedLevel := level
  confidence := confidence
  deterministic := decide (kind=.dnsAnomaly) && gt confidence nineTenths
  processId := 0
  processName := []
  filePath := []
  sha256 := []
  evidence := evidence

/-- `emit_observation`. -/
def emitObservation (state : State κ ο) (kind : ObservationKind) (level : ThreatLevel)
    (confidence : Double) (evidence : Str) : Except Failure (State κ ο) :=
  deliver Engine.observationCb
    (fun cb => runObservation cb (dnsObservation kind level confidence evidence)) state

/-- `query_log_.push_back` and the bound on the log. -/
def pushQuery (log : List DnsQueryRecord) (record : DnsQueryRecord) : List DnsQueryRecord :=
  if maxQueryLog < (log++[record]).length then (log++[record]).tail else log++[record]

variable (dgaScore : Str → Double) (blocklist : Finset Str)

/-- The record of a query. -/
def queryRecord (domain : Str) (now : TimePoint) : DnsQueryRecord where
  domain := domain
  timestamp := now
  dgaScore := dgaScore domain
  blocked := decide (domain ∈ blocklist)

/-- The part of `analyze_domain` that logs the query. -/
def logQuery (state : State κ ο) (domain : Str) (now : TimePoint) :
    Except Failure (State κ ο) := do
  let counted := { state with
    engine := { state.engine with eventsProcessed := state.engine.eventsProcessed+1 } }
  let inner ← acquire counted
  return release { inner with engine := { inner.engine with
    queryLog := pushQuery inner.engine.queryLog (queryRecord dgaScore blocklist domain now) } }

/-- The branch of `analyze_domain` for a blocked domain. -/
def reportBlocked (state : State κ ο) (domain : Str) : Except Failure (State κ ο) := do
  let warned ← emitThreat runThreat state .dnsTunnel
    ("Blocked malicious domain query: ".toList++domain)
  emitObservation runObservation warned .dnsAnomaly .critical nineteenTwentieths
    ("Query to known malicious domain: ".toList++domain)

/-- The branch of `analyze_domain` for a domain that looks generated. -/
def reportSuspected (state : State κ ο) (domain : Str) : Except Failure (State κ ο) := do
  let inner ← acquire state
  if domain ∈ inner.engine.seenDomains then return release inner
  else do
    let added := { inner with
      engine := { inner.engine with seenDomains := insert domain inner.engine.seenDomains } }
    let warned ← emitThreat runThreat added .dgaDomain
      ("Suspected DGA domain (score=".toList++toFixed2 (dgaScore domain)++"): ".toList++domain)
    let observed ← emitObservation runObservation warned .dnsAnomaly .high (dgaScore domain)
      ("Suspected DGA domain: ".toList++domain)
    return release observed

/-- `analyze_domain`. -/
def analyzeDomain (state : State κ ο) (domain : Str) (now : TimePoint) :
    Except Failure (State κ ο) := do
  let logged ← logQuery dgaScore blocklist state domain now
  if domain ∈ blocklist then reportBlocked runThreat runObservation logged domain
  else if ge (dgaScore domain) dgaThreshold then
    reportSuspected runThreat runObservation dgaScore logged domain
  else return logged

section Locks

variable {engine : Engine κ ο} {domain : Str} {now : TimePoint}

/-- The engine after the query has been logged. -/
def logged (engine : Engine κ ο) (domain : Str) (now : TimePoint) : Engine κ ο :=
  { engine with
    eventsProcessed := engine.eventsProcessed+1
    queryLog := pushQuery engine.queryLog (queryRecord dgaScore blocklist domain now) }

/-- Logging takes the mutex and gives it back. -/
theorem logQuery_eq : logQuery dgaScore blocklist ⟨engine,false⟩ domain now=
    .ok ⟨logged dgaScore blocklist engine domain now,false⟩ := by
  unfold logQuery
  dsimp only
  rw [acquire_free]
  rfl

/-- A blocked domain is reported with the mutex free. -/
theorem reportBlocked_frees :
    Frees (reportBlocked runThreat runObservation ⟨engine,false⟩ domain) :=
  (deliver_frees _ _ _).bind fun next => deliver_frees _ _ next

/-- A suspected domain that has been seen is not reported again. -/
theorem reportSuspected_seen (hseen : domain ∈ engine.seenDomains) :
    reportSuspected runThreat runObservation dgaScore ⟨engine,false⟩ domain=
      .ok ⟨engine,false⟩ := by
  unfold reportSuspected
  rw [acquire_free]
  exact if_pos hseen

/-- A suspected domain that has not been seen takes the mutex twice. -/
theorem reportSuspected_new (hnew : domain ∉ engine.seenDomains) :
    reportSuspected runThreat runObservation dgaScore ⟨engine,false⟩ domain=
      .error .selfLock := by
  unfold reportSuspected
  rw [acquire_free]
  have hheld := deliver_held Engine.threatCb (fun cb => runThreat cb (threatEvent .dgaDomain
    ("Suspected DGA domain (score=".toList++toFixed2 (dgaScore domain)++"): ".toList++domain)))
    { engine with
      seenDomains := insert domain engine.seenDomains
      threatsDetected := engine.threatsDetected+1 }
  simp only [bind,Except.bind,if_neg hnew,emitThreat,hheld]

/-- The whole analysis either frees the mutex or takes it twice, the latter
for an unseen domain that is not blocked and scores high. -/
theorem analyzeDomain_cases :
    (Frees (analyzeDomain runThreat runObservation dgaScore blocklist ⟨engine,false⟩ domain now) ∧
        (domain ∈ blocklist ∨ ge (dgaScore domain) dgaThreshold=false ∨
          domain ∈ engine.seenDomains)) ∨
      (analyzeDomain runThreat runObservation dgaScore blocklist ⟨engine,false⟩ domain now=
          .error .selfLock ∧
        ¬(domain ∈ blocklist ∨ ge (dgaScore domain) dgaThreshold=false ∨
          domain ∈ engine.seenDomains)) := by
  unfold analyzeDomain
  rw [logQuery_eq]
  simp only [bind,Except.bind]
  by_cases hblocked : domain ∈ blocklist
  · rw [if_pos hblocked]
    exact .inl ⟨reportBlocked_frees runThreat runObservation,.inl hblocked⟩
  · rw [if_neg hblocked]
    cases hscore : ge (dgaScore domain) dgaThreshold with
    | false => exact .inl ⟨.inr ⟨_,rfl⟩,.inr (.inl rfl)⟩
    | true =>
      rw [if_pos rfl]
      by_cases hseen : domain ∈ engine.seenDomains
      · have hsame := @reportSuspected_seen κ ο runThreat runObservation dgaScore
          (logged dgaScore blocklist engine domain now) domain hseen
        exact .inl ⟨.inr ⟨_,hsame⟩,.inr (.inr hseen)⟩
      · have hfail := @reportSuspected_new κ ο runThreat runObservation dgaScore
          (logged dgaScore blocklist engine domain now) domain hseen
        refine .inr ⟨hfail,?_⟩
        rintro (hin|hlow|hin)
        · exact hblocked hin
        · exact Bool.false_ne_true hlow.symm
        · exact hseen hin

/-- No callback is invoked while the mutex is held. -/
theorem analyzeDomain_callbacks :
    analyzeDomain runThreat runObservation dgaScore blocklist ⟨engine,false⟩ domain now≠
      .error .callbackUnderLock := by
  rcases @analyzeDomain_cases κ ο runThreat runObservation dgaScore blocklist engine domain now
    with ⟨hfree|⟨next,hnext⟩,-⟩|⟨hself,-⟩
  · rw [hfree]
    exact fun heq => nomatch heq
  · rw [hnext]
    exact fun heq => nomatch heq
  · rw [hself]
    exact fun heq => nomatch heq

/-- The analysis takes the mutex only while it is free, exactly for a domain
that is blocked, scores low or has been seen. -/
theorem analyzeDomain_no_selfLock_iff (engine : Engine κ ο) (domain : Str) (now : TimePoint) :
    analyzeDomain runThreat runObservation dgaScore blocklist ⟨engine,false⟩ domain now≠
        .error .selfLock ↔
      domain ∈ blocklist ∨ ge (dgaScore domain) dgaThreshold=false ∨
        domain ∈ engine.seenDomains := by
  rcases @analyzeDomain_cases κ ο runThreat runObservation dgaScore blocklist engine domain now
    with ⟨hfree|⟨next,hnext⟩,hsafe⟩|⟨hself,hrisky⟩
  · rw [hfree]
    exact ⟨fun _ => hsafe,fun _ heq => nomatch heq⟩
  · rw [hnext]
    exact ⟨fun _ => hsafe,fun _ heq => nomatch heq⟩
  · rw [hself]
    exact ⟨fun hne => (hne rfl).elim,fun hsafe => (hrisky hsafe).elim⟩

/-- The score 0.7978723404255319, which `dga_score` computes for the name of
the next theorem. -/
def generatedScore : Double := .ofScaled false 0x19882B93105726 (-53)

/-- The first query of a name of sixteen consonants takes the mutex twice. -/
theorem analyzeDomain_selfLock :
    analyzeDomain (fun _ _ engine => some engine) (fun _ _ engine => some engine)
      (fun domain => if domain="bcdfghjklmnpqrst.com".toList then generatedScore else zero)
      initBlocklist ⟨(create : Engine Unit Unit),false⟩ "bcdfghjklmnpqrst.com".toList 0=
      .error .selfLock := by
  have hblocked : "bcdfghjklmnpqrst.com".toList ∉ initBlocklist := by decide +kernel
  have hscore : ge generatedScore dgaThreshold=true := by decide +kernel
  unfold analyzeDomain
  rw [logQuery_eq]
  simp only [bind,Except.bind,if_neg hblocked,if_true,hscore]
  exact reportSuspected_new _ _ _ (Finset.notMem_empty _)

end Locks

section Spelling

/-- A spelling of a domain that resolves to the same name: other letter case,
or a trailing dot added, or both. -/
def SameName (domain variant : Str) : Prop :=
  variant.map toLower=domain.map toLower ∨ variant.map toLower=domain.map toLower++['.']

/-- The `blocked` flag of the newest record of the log. -/
def newestBlocked (engine : Engine κ ο) : Option Bool :=
  engine.queryLog.getLast?.map DnsQueryRecord.blocked

/-- The flag that the analysis of a domain records. -/
def recordedBlocked (engine : Engine κ ο) (domain : Str) (now : TimePoint) :
    Except Failure (Option Bool) :=
  (logQuery dgaScore blocklist ⟨engine,false⟩ domain now).map fun state =>
    newestBlocked state.engine

/-- The newest record of the log is that of the query. -/
theorem logged_newest (engine : Engine κ ο) (domain : Str) (now : TimePoint) :
    newestBlocked (logged dgaScore blocklist engine domain now)=
      some (decide (domain ∈ blocklist)) := by
  have hlast : (engine.queryLog++[queryRecord dgaScore blocklist domain now]).getLast?=
      some (queryRecord dgaScore blocklist domain now) := List.getLast?_concat
  unfold newestBlocked logged pushQuery
  dsimp only
  split
  · next hlong =>
    have hrest : engine.queryLog≠[] := by
      rintro hempty
      rw [hempty,List.nil_append,List.length_singleton] at hlong
      exact absurd hlong (by decide)
    rw [List.tail_append_of_ne_nil hrest,List.getLast?_concat]
    rfl
  · rw [hlast]
    rfl

/-- The recorded flag is the membership of the domain in the list. -/
theorem recordedBlocked_eq (engine : Engine κ ο) (domain : Str) (now : TimePoint) :
    recordedBlocked dgaScore blocklist engine domain now=
      .ok (some (decide (domain ∈ blocklist))) := by
  rw [recordedBlocked,logQuery_eq,Except.map,logged_newest]

/-- The blocked names are in lower case. -/
theorem kMaliciousDomains_lower : ∀ entry ∈ kMaliciousDomains,entry.map toLower=entry := by
  decide +kernel

/-- No blocked name ends with a dot. -/
theorem kMaliciousDomains_undotted : ∀ entry ∈ kMaliciousDomains,entry.getLast?≠some '.' := by
  decide +kernel

/-- Lower case of lower case. -/
theorem map_toLower_twice (s : Str) : (s.map toLower).map toLower=s.map toLower := by
  rw [List.map_map]
  exact List.map_congr_left fun c _ => toLower_toLower c

/-- A blocked spelling is the lower case of its name. -/
theorem blocked_spelling {domain variant : Str} (hsame : SameName domain variant)
    (hblocked : variant ∈ initBlocklist) : variant=domain.map toLower := by
  have member := List.mem_toFinset.mp hblocked
  have hlower := kMaliciousDomains_lower variant member
  rcases hsame with hcase|hdot
  · rw [←hlower,hcase]
  · rw [hlower] at hdot
    refine (kMaliciousDomains_undotted variant member ?_).elim
    rw [hdot]
    exact List.getLast?_concat

/-- `check_domain` answers all spellings of a name alike. -/
theorem checkDomain_spelling (intel : ThreatIntelEngine) {domain variant : Str}
    (hsame : SameName domain variant) :
    checkDomain intel variant=checkDomain intel domain := by
  have hnormal : normalizeDomain variant=normalizeDomain domain := by
    unfold normalizeDomain
    rcases hsame with hcase|hdot
    · rw [hcase]
    · rw [hdot]
      exact List.rdropWhile_concat_pos _ _ _ (by decide)
  rw [checkDomain,checkDomain,hnormal]

/-- The flag that the analysis records for a query depends on the spelling of
the name exactly when its lower case is on the list. -/
theorem blocked_spelling_iff (engine : Engine κ ο) (domain : Str) (now : TimePoint) :
    (∀ (variant : Str) (other : Engine κ ο) (later : TimePoint),SameName domain variant →
        recordedBlocked dgaScore initBlocklist other variant later=
          recordedBlocked dgaScore initBlocklist engine domain now) ↔
      domain.map toLower ∉ initBlocklist := by
  simp only [recordedBlocked_eq,Except.ok.injEq,Option.some.injEq,decide_eq_decide]
  constructor
  · intro hagree hlower
    have hcase : SameName domain (domain.map toLower) := .inl (map_toLower_twice domain)
    have hdot : SameName domain (domain.map toLower++['.']) := by
      refine .inr ?_
      rw [List.map_append,map_toLower_twice]
      rfl
    have hplain := (hagree _ engine now hcase).mp hlower
    have hdotted := (hagree _ engine now hdot).mpr hplain
    have hlength := congrArg List.length (blocked_spelling hdot hdotted)
    rw [List.length_append,List.length_singleton] at hlength
    omega
  · intro hfree variant other later hsame
    have hself : SameName domain domain := .inl rfl
    exact ⟨fun hin => (hfree (blocked_spelling hsame hin ▸ hin)).elim,
      fun hin => (hfree (blocked_spelling hself hin ▸ hin)).elim⟩

/-- A blocked name in upper case is recorded as not blocked. -/
theorem blocked_spelling_upper :
    SameName "malware-c2.com".toList "MALWARE-C2.COM".toList ∧
      recordedBlocked (fun _ => zero) initBlocklist (create : Engine Unit Unit)
        "malware-c2.com".toList 0=.ok (some true) ∧
      recordedBlocked (fun _ => zero) initBlocklist (create : Engine Unit Unit)
        "MALWARE-C2.COM".toList 0=.ok (some false) := by
  refine ⟨.inl (by decide),?_,?_⟩
  · rw [recordedBlocked_eq]
    decide +kernel
  · rw [recordedBlocked_eq]
    decide +kernel

end Spelling

end Analysis

end Gcad.DnsMonitor
