import Gcad.Report

/-!
# Markup of the report

The angle brackets of a page are its markup. Every string of the report
data is escaped and every number is written in digits, so the markup of the
page depends on the data only through the number and the sort of its rows
and through whether there are alerts. The score of a finding is the
exception: it is written as a character, and two scores are brackets.
-/

namespace Gcad.ReportMarkup

open Common LedgerText Threat Report

/-- An angle bracket. -/
def isBracket (c : Char) : Bool := c = '<' || c = '>'

/-- The angle brackets of a text in their order. -/
def markup (text : Str) : Str := text.filter isBracket

section text

/-- Markup of two texts in a row. -/
theorem markup_append (a b : Str) : markup (a++b)=markup a++markup b := List.filter_append ..

/-- A text without brackets has no markup. -/
theorem markup_eq_nil {text : Str} (h : ∀ c ∈ text, isBracket c=false) : markup text=[] := by
  rw [markup,List.filter_eq_nil_iff]
  intro c hc
  rw [h c hc]
  exact Bool.false_ne_true

/-- Escaping leaves no brackets. -/
theorem markup_htmlEscape (s : Str) : markup (htmlEscape s)=[] := by
  induction s with
  | nil => rfl
  | cons c s ih =>
    have htail : markup (s.flatMap _)=[] := ih
    rw [htmlEscape,List.flatMap_cons,markup_append,htail,List.append_nil]
    split_ifs with hamp hlt hgt hquot
    · decide
    · decide
    · decide
    · decide
    · exact markup_eq_nil (by simp [isBracket,hlt,hgt])

/-- Digits are not brackets. -/
theorem markup_toDecimal (n : ℕ) : markup (toDecimal n)=[] := by
  refine markup_eq_nil fun c hc => ?_
  have hdigit := isDigit_of_mem_toDecimal hc
  by_contra hbracket
  rw [Bool.not_eq_false,isBracket,Bool.or_eq_true,decide_eq_true_iff,decide_eq_true_iff] at hbracket
  rcases hbracket with rfl | rfl <;> exact absurd hdigit (by decide)

/-- A signed number has no brackets. -/
theorem markup_toSignedDecimal (z : ℤ) : markup (toSignedDecimal z)=[] := by
  unfold toSignedDecimal
  split_ifs
  · rw [← List.singleton_append,markup_append,markup_toDecimal]
    decide
  · exact markup_toDecimal _

/-- A padded number has no brackets. -/
theorem markup_twoDigits (n : ℕ) : markup (twoDigits n)=[] := by
  unfold twoDigits
  rw [markup_append,markup_toDecimal]
  split_ifs <;> rfl

/-- A formatted time has no brackets. -/
theorem markup_formatEventTime (localtime : ℤ → Tm) (tp : TimePoint) :
    markup (formatEventTime localtime tp)=[] := by
  unfold formatEventTime strftime
  simp only [markup_append,markup_toSignedDecimal,markup_twoDigits,List.nil_append,List.append_nil]
  decide

/-- Rows with the same keys have the same markup if the markup of a row is
determined by its key. -/
theorem markup_flatMap {α κ : Type*} (key : α → κ) {row : α → Str} {xs ys : List α}
    (hkeys : xs.map key=ys.map key)
    (hrow : ∀ x ∈ xs, ∀ y ∈ ys, key x=key y → markup (row x)=markup (row y)) :
    markup (xs.flatMap row)=markup (ys.flatMap row) := by
  induction xs generalizing ys with
  | nil =>
    rw [List.map_nil,eq_comm,List.map_eq_nil_iff] at hkeys
    rw [hkeys]
  | cons x xs ih =>
    cases ys with
    | nil => cases hkeys
    | cons y ys =>
      rw [List.map_cons,List.map_cons,List.cons.injEq] at hkeys
      have hfirst := hrow x List.mem_cons_self y List.mem_cons_self hkeys.1
      have hrest := ih hkeys.2 fun x' hx y' hy =>
        hrow x' (List.mem_cons_of_mem x hx) y' (List.mem_cons_of_mem y hy)
      rw [List.flatMap_cons,List.flatMap_cons,markup_append,markup_append,hfirst,hrest]

/-- Lists with the same keys are empty together. -/
theorem isEmpty_congr {α κ : Type*} {key : α → κ} {xs ys : List α} (h : xs.map key=ys.map key) :
    xs.isEmpty=ys.isEmpty := by
  have hempty := congrArg List.isEmpty h
  rwa [List.isEmpty_map,List.isEmpty_map] at hempty

end text

/-- Two reports with the same list lengths, flags and enumeration values. -/
structure SameShape (a b : ReportData) : Prop where
  /-- As many engines, with the same running flags. -/
  engines : a.engines.map (·.running)=b.engines.map (·.running)
  /-- The same categories in the histogram. -/
  categories : a.categoryHistogram.map Prod.fst=b.categoryHistogram.map Prod.fst
  /-- As many events, with the same levels, categories and flags. -/
  events : a.recentEvents.map (fun e => (e.level,e.category,e.quarantined,e.rolledBack))=
    b.recentEvents.map fun e => (e.level,e.category,e.quarantined,e.rolledBack)
  /-- As many findings, with the same levels. -/
  findings : a.findings.map (·.level)=b.findings.map (·.level)

/-- No score of the report is written as a bracket. -/
def ScoresWithoutBracket (data : ReportData) : Prop :=
  ∀ finding ∈ data.findings, finding.riskScore≠60 ∧ finding.riskScore≠62

section sections

variable {a b : ReportData}

/-- The head has fixed markup. -/
theorem markup_pageHead : markup (pageHead a)=markup (pageHead b) := by
  unfold pageHead
  simp only [markup_append,markup_htmlEscape]

/-- The foot has fixed markup. -/
theorem markup_pageFoot : markup (pageFoot a)=markup (pageFoot b) := by
  unfold pageFoot
  simp only [markup_append,markup_htmlEscape]

/-- The cards depend on whether there are alerts. -/
theorem markup_summaryCards (h : a.totalAlerts=0 ↔ b.totalAlerts=0) :
    markup (summaryCards a)=markup (summaryCards b) := by
  have hcard : markup (alertsCard a)=markup (alertsCard b) := by
    have hpos : 0 < a.totalAlerts ↔ 0 < b.totalAlerts := by
      rw [UInt64.pos_iff_ne_zero,UInt64.pos_iff_ne_zero,Ne,Ne,h]
    unfold alertsCard
    by_cases ha : 0 < a.totalAlerts
    · rw [if_pos ha,if_pos (hpos.mp ha)]
      simp only [markup_append,markup_toDecimal]
    · rw [if_neg ha,if_neg fun hb => ha (hpos.mpr hb)]
  unfold summaryCards
  simp only [markup_append,markup_toDecimal,markup_toSignedDecimal,hcard]

/-- The engine table depends on the running flags. -/
theorem markup_engineStatusTable (h : a.engines.map (·.running)=b.engines.map (·.running)) :
    markup (engineStatusTable a)=markup (engineStatusTable b) := by
  have hrows : markup (a.engines.flatMap engineRow)=markup (b.engines.flatMap engineRow) := by
    refine markup_flatMap (·.running) h fun x _ y _ hrunning => ?_
    have hrunning : x.running=y.running := hrunning
    unfold engineRow
    simp only [markup_append,markup_htmlEscape,markup_toDecimal,hrunning]
  unfold engineStatusTable
  simp only [markup_append,hrows]

/-- The bars have fixed markup. -/
theorem markup_severityDistribution :
    markup (severityDistribution a)=markup (severityDistribution b) := by
  have hbar : ∀ i, markup (severityBar a.severityHistogram i)=
      markup (severityBar b.severityHistogram i) := by
    intro i
    unfold severityBar
    simp only [markup_append,markup_toDecimal,markup_toSignedDecimal]
  have hbars : ∀ indices : List (Fin 5),
      markup (indices.flatMap (severityBar a.severityHistogram))=
        markup (indices.flatMap (severityBar b.severityHistogram)) := by
    intro indices
    induction indices with
    | nil => rw [List.flatMap_nil,List.flatMap_nil]
    | cons i indices ih =>
      rw [List.flatMap_cons,List.flatMap_cons,markup_append,markup_append,ih,hbar]
  unfold severityDistribution
  rw [markup_append,markup_append,hbars]

/-- The category table depends on the categories. -/
theorem markup_categoryBreakdown
    (h : a.categoryHistogram.map Prod.fst=b.categoryHistogram.map Prod.fst) :
    markup (categoryBreakdown a)=markup (categoryBreakdown b) := by
  have hrows : markup (a.categoryHistogram.flatMap categoryRow)=
      markup (b.categoryHistogram.flatMap categoryRow) := by
    refine markup_flatMap Prod.fst h fun x _ y _ hcategory => ?_
    unfold categoryRow
    simp only [markup_append,markup_toDecimal,hcategory]
  unfold categoryBreakdown
  rw [isEmpty_congr h]
  split_ifs
  · rfl
  · simp only [markup_append,hrows]

/-- The technique table depends on the categories. -/
theorem markup_mitreMapping
    (h : a.categoryHistogram.map Prod.fst=b.categoryHistogram.map Prod.fst) :
    markup (mitreMapping a)=markup (mitreMapping b) := by
  have hrows : markup (a.categoryHistogram.flatMap mitreRow)=
      markup (b.categoryHistogram.flatMap mitreRow) := by
    refine markup_flatMap Prod.fst h fun x _ y _ _ => ?_
    unfold mitreRow
    simp only [markup_append,markup_htmlEscape,markup_toDecimal]
  unfold mitreMapping
  rw [isEmpty_congr h]
  split_ifs
  · rfl
  · simp only [markup_append,hrows]

/-- The timeline depends on the levels and categories. -/
theorem markup_recentEvents (localtime : ℤ → Tm)
    (h : a.recentEvents.map (fun e => (e.level,e.category,e.quarantined,e.rolledBack))=
      b.recentEvents.map fun e => (e.level,e.category,e.quarantined,e.rolledBack)) :
    markup (recentEvents localtime a)=markup (recentEvents localtime b) := by
  have hreverse := congrArg List.reverse h
  rw [← List.map_reverse,← List.map_reverse] at hreverse
  have hrows : markup (a.recentEvents.reverse.flatMap (eventRow localtime))=
      markup (b.recentEvents.reverse.flatMap (eventRow localtime)) := by
    refine markup_flatMap _ hreverse fun x _ y _ hkey => ?_
    rw [Prod.mk.injEq,Prod.mk.injEq] at hkey
    unfold eventRow
    simp only [markup_append,markup_htmlEscape,markup_formatEventTime,hkey.1,hkey.2.1]
  unfold recentEvents
  rw [isEmpty_congr h]
  split_ifs
  · rfl
  · simp only [markup_append,markup_toDecimal,hrows]

/-- A score that is not the code of a bracket has no markup. -/
theorem markup_riskScore {score : UInt8} (hlt : score≠60) (hgt : score≠62) :
    markup [Char.ofNat score.toNat]=[] := by
  have hcode : ∀ n < 256, n≠60 → n≠62 → isBracket (Char.ofNat n)=false := by
    decide +kernel
  refine markup_eq_nil fun c hc => ?_
  rw [List.mem_singleton] at hc
  subst hc
  refine hcode score.toNat score.toNat_lt (fun h => hlt ?_) (fun h => hgt ?_)
  · exact UInt8.toNat_inj.mp h
  · exact UInt8.toNat_inj.mp h

/-- The findings depend on their levels, as long as no score is a bracket. -/
theorem markup_securityFindings (h : a.findings.map (·.level)=b.findings.map (·.level))
    (ha : ScoresWithoutBracket a) (hb : ScoresWithoutBracket b) :
    markup (securityFindings a)=markup (securityFindings b) := by
  have hreverse := congrArg List.reverse h
  rw [← List.map_reverse,← List.map_reverse] at hreverse
  have hrows : markup (a.findings.reverse.flatMap findingRow)=
      markup (b.findings.reverse.flatMap findingRow) := by
    refine markup_flatMap _ hreverse fun x hx y hy hlevel => ?_
    have hx := ha x (List.mem_reverse.mp hx)
    have hy := hb y (List.mem_reverse.mp hy)
    have hlevel : x.level=y.level := hlevel
    unfold findingRow
    simp only [markup_append,markup_htmlEscape,markup_riskScore hx.1 hx.2,
      markup_riskScore hy.1 hy.2,hlevel]
  unfold securityFindings
  rw [isEmpty_congr h]
  split_ifs
  · rfl
  · simp only [markup_append,markup_toDecimal,hrows]

end sections

/-- Two reports with the same list lengths, flags and enumeration values
that agree on whether there are alerts have the same markup, as long as no
score is written as a bracket. -/
theorem generate_html_markup (localtime : ℤ → Tm) {a b : ReportData} (hshape : SameShape a b)
    (halerts : a.totalAlerts=0 ↔ b.totalAlerts=0) (ha : ScoresWithoutBracket a)
    (hb : ScoresWithoutBracket b) :
    markup (generateHtml localtime a)=markup (generateHtml localtime b) := by
  have hhead := markup_pageHead (a := a) (b := b)
  have hsummary := markup_summaryCards halerts
  have hengines := markup_engineStatusTable hshape.engines
  have hseverity := markup_severityDistribution (a := a) (b := b)
  have hcategories := markup_categoryBreakdown hshape.categories
  have hevents := markup_recentEvents localtime hshape.events
  have hfindings := markup_securityFindings hshape.findings ha hb
  have hmitre := markup_mitreMapping hshape.categories
  have hfoot := markup_pageFoot (a := a) (b := b)
  unfold generateHtml
  simp only [markup_append]
  rw [hhead,hsummary,hengines,hseverity,hcategories,hevents,hfindings,hmitre,hfoot]

/-- Between reports of one shape the number of brackets differs only by the
alerts and the findings. -/
theorem length_markup_generateHtml (localtime : ℤ → Tm) {a b : ReportData}
    (hshape : SameShape a b) :
    (markup (generateHtml localtime a)).length+(markup (alertsCard b)).length+
        (markup (securityFindings b)).length=
      (markup (generateHtml localtime b)).length+(markup (alertsCard a)).length+
        (markup (securityFindings a)).length := by
  have hhead := congrArg List.length (markup_pageHead (a := a) (b := b))
  have hengines := congrArg List.length (markup_engineStatusTable hshape.engines)
  have hseverity := congrArg List.length (markup_severityDistribution (a := a) (b := b))
  have hcategories := congrArg List.length (markup_categoryBreakdown hshape.categories)
  have hevents := congrArg List.length (markup_recentEvents localtime hshape.events)
  have hmitre := congrArg List.length (markup_mitreMapping hshape.categories)
  have hfoot := congrArg List.length (markup_pageFoot (a := a) (b := b))
  have hsummary : (markup (summaryCards a)).length+(markup (alertsCard b)).length=
      (markup (summaryCards b)).length+(markup (alertsCard a)).length := by
    unfold summaryCards
    simp only [markup_append,markup_toDecimal,markup_toSignedDecimal,List.length_append]
    omega
  unfold generateHtml
  simp only [markup_append,List.length_append]
  omega

/-- Midnight of the first of January 1970. -/
def epochTm : Tm := ⟨70,0,1,0,0,0⟩

/-- A report on nothing. -/
def emptyReport : ReportData := ⟨[],[],0,[],0,0,.replicate 5 0,[],[],[],0,0⟩

/-- A report with one engine, one category, one event and one finding. -/
def fixtureReport (text : Str) (count : UInt64) (score : UInt8) : ReportData where
  generatedAt := text
  gcadVersion := text
  uptimeSeconds := count.toNat
  engines := [⟨text,true,count,count⟩]
  totalEvents := count
  totalThreats := count
  severityHistogram := .replicate 5 count
  categoryHistogram := [(ThreatCategory.ransomware.value,count)]
  recentEvents := [{ ThreatEvent.default with description := text }]
  findings := [⟨levelValue .high,score,text⟩]
  totalAlerts := count+1
  unacknowledgedAlerts := count

/-- A script in every string of a report adds no markup. -/
theorem generate_html_markup_script :
    markup (generateHtml (fun _ => epochTm) (fixtureReport "<script>".toList 7 80))=
      markup (generateHtml (fun _ => epochTm) (fixtureReport [] 0 0)) := by
  refine generate_html_markup _ ⟨rfl,rfl,rfl,rfl⟩ ?_ ?_ ?_
  · decide
  · simp [ScoresWithoutBracket,fixtureReport]
  · simp [ScoresWithoutBracket,fixtureReport]

/-- A report on nothing but one alert. -/
def alertReport : ReportData := { emptyReport with totalAlerts := 1 }

/-- A counter and a score that change the markup: the card with the alerts
is written only when there are any, and the score 60 is written as an
opening bracket. -/
theorem generate_html_markup_varies :
    (SameShape emptyReport alertReport ∧
      markup (generateHtml (fun _ => epochTm) emptyReport)≠
        markup (generateHtml (fun _ => epochTm) alertReport)) ∧
    SameShape (fixtureReport [] 0 0) (fixtureReport [] 0 60) ∧
      markup (generateHtml (fun _ => epochTm) (fixtureReport [] 0 0))≠
        markup (generateHtml (fun _ => epochTm) (fixtureReport [] 0 60)) := by
  have hempty : SameShape emptyReport alertReport := ⟨rfl,rfl,rfl,rfl⟩
  have hfixture : SameShape (fixtureReport [] 0 0) (fixtureReport [] 0 60) := ⟨rfl,rfl,rfl,rfl⟩
  refine ⟨⟨hempty,fun h => ?_⟩,hfixture,fun h => ?_⟩
  · have hpage := length_markup_generateHtml (fun _ => epochTm) hempty
    have hcard : (markup (alertsCard emptyReport)).length≠
        (markup (alertsCard alertReport)).length := by decide +kernel
    have hfindings : (markup (securityFindings emptyReport)).length=
        (markup (securityFindings alertReport)).length := rfl
    rw [h,hfindings] at hpage
    omega
  · have hpage := length_markup_generateHtml (fun _ => epochTm) hfixture
    have hcard : (markup (alertsCard (fixtureReport [] 0 0))).length=
        (markup (alertsCard (fixtureReport [] 0 60))).length := rfl
    have hfindings : (markup (securityFindings (fixtureReport [] 0 0))).length≠
        (markup (securityFindings (fixtureReport [] 0 60))).length := by decide +kernel
    rw [h,hcard] at hpage
    omega

end Gcad.ReportMarkup
