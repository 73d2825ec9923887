import Gcad.LedgerText
import Gcad.Threat

/-!
# The HTML report

`ReportGenerator::generate_html` of report_generator.cpp. Markup is written
as literals; the strings of the data pass through `html_escape`, counters
and percentages are streamed as decimal numbers, and labels, colours and
techniques come from fixed tables. The risk score of a finding is a
`uint8_t`, which a stream writes as a character.
-/

namespace Gcad.Report

open Common LedgerText Threat

/-- `html_escape`. -/
def htmlEscape (s : Str) : Str :=
  s.flatMap fun c =>
    if c = '&' then "&amp;".toList
    else if c = '<' then "&lt;".toList
    else if c = '>' then "&gt;".toList
    else if c = '"' then "&quot;".toList
    else [c]

/-- `level_color`. -/
def levelColor (level : UInt8) : String :=
  match levelOf level with
  | some .safe => "#39d353"
  | some .low => "#58a6ff"
  | some .medium => "#d29922"
  | some .high => "#f0883e"
  | some .critical => "#f85149"
  | none => "#8b949e"

/-- `level_label`. -/
def levelLabel (level : UInt8) : String :=
  match levelOf level with
  | some .safe => "SAFE"
  | some .low => "LOW"
  | some .medium => "MEDIUM"
  | some .high => "HIGH"
  | some .critical => "CRITICAL"
  | none => "UNKNOWN"

/-- `category_label`. -/
def categoryLabel (cat : UInt16) : String :=
  match categoryOf cat with
  | some .none => "None"
  | some .memoryInjection => "Memory Injection"
  | some .processHollow => "Process Hollowing"
  | some .dllInjection => "DLL Injection"
  | some .apcInjection => "APC Injection"
  | some .reflectiveLoad => "Reflective Loading"
  | some .shellcode => "Shellcode"
  | some .networkScan => "Network Scan"
  | some .synFlood => "SYN Flood"
  | some .udpFlood => "UDP Flood"
  | some .dnsTunnel => "DNS Tunnel"
  | some .arpPoison => "ARP Poisoning"
  | some .icmpCovert => "ICMP Covert Channel"
  | some .rawSocketProbe => "Raw Socket Probe"
  | some .ransomware => "Ransomware"
  | some .fileEncrypt => "File Encryption"
  | some .registryTamper => "Registry Tamper"
  | some .backdoorAccount => "Backdoor Account"
  | some .evasionAmsi => "AMSI Evasion"
  | some .evasionEtw => "ETW Evasion"
  | some .evasionUnhook => "Unhooking"
  | some .directSyscall => "Direct Syscall"
  | some .ppidSpoof => "PPID Spoofing"
  | some .kerberosAttack => "Kerberos Attack"
  | some .ntlmCoerce => "NTLM Coerce"
  | some .credentialDump => "Credential Dump"
  | some .entropyAnomaly => "Entropy Anomaly"
  | some .suspiciousBinary => "Suspicious Binary"
  | some .filelessExec => "Fileless Execution"
  | some .antiForensic => "Anti-Forensic"
  | some .dgaDomain => "DGA Domain"
  | some .fileIntegrityViolation => "File Integrity Violation"
  | some .yaraRuleMatch => "YARA Rule Match"
  | some .kernelAttack => "Kernel / BYOVD Attack"
  | some .lolbinExecution => "LOLBin Execution"
  | some .malwarePacker => "Malware Packer / Crypter"
  | some .persistenceHijack => "Persistence / COM Hijacking"
  | _ => "Unknown"

/-- `MitreTtpInfo`. -/
structure MitreTtpInfo where
  /-- Name of the tactic. -/
  tactic : String
  /-- Number of the technique. -/
  techniqueId : String
  /-- What the technique is called. -/
  techniqueName : String

/-- `mitre_ttp_for_category`. -/
def mitreTtpForCategory (cat : UInt16) : MitreTtpInfo :=
  match categoryOf cat with
  | some .memoryInjection =>
    ⟨"Defense Evasion","T1055","Process Injection"⟩
  | some .processHollow =>
    ⟨"Defense Evasion","T1055.012","Process Hollowing"⟩
  | some .dllInjection =>
    ⟨"Defense Evasion","T1055.001","Dynamic-link Library Injection"⟩
  | some .apcInjection =>
    ⟨"Defense Evasion","T1055.004","Asynchronous Procedure Call"⟩
  | some .reflectiveLoad =>
    ⟨"Defense Evasion","T1620","Reflective Code Loading"⟩
  | some .shellcode =>
    ⟨"Execution","T1059","Command and Scripting Interpreter"⟩
  | some .networkScan =>
    ⟨"Discovery","T1046","Network Service Discovery"⟩
  | some .synFlood =>
    ⟨"Impact","T1498.001","Direct Network Flood (SYN)"⟩
  | some .udpFlood =>
    ⟨"Impact","T1498.001","Direct Network Flood (UDP)"⟩
  | some .dnsTunnel =>
    ⟨"Command and Control","T1071.004","DNS Communication"⟩
  | some .arpPoison =>
    ⟨"Credential Access","T1557.002","ARP Spoofing"⟩
  | some .icmpCovert =>
    ⟨"Command and Control","T1095","Non-Application Layer Protocol"⟩
  | some .rawSocketProbe =>
    ⟨"Discovery","T1046","Raw Socket Network Discovery"⟩
  | some .ransomware | some .fileEncrypt =>
    ⟨"Impact","T1486","Data Encrypted for Impact"⟩
  | some .registryTamper =>
    ⟨"Defense Evasion","T1112","Modify Registry"⟩
  | some .backdoorAccount =>
    ⟨"Persistence","T1136","Create Account"⟩
  | some .evasionAmsi =>
    ⟨"Defense Evasion","T1562.001","Disable or Modify Tools: AMSI"⟩
  | some .evasionEtw =>
    ⟨"Defense Evasion","T1562.006","Indicator Blocking: ETW Bypass"⟩
  | some .evasionUnhook =>
    ⟨"Defense Evasion","T1562.001","Unhooking Native APIs"⟩
  | some .directSyscall =>
    ⟨"Defense Evasion","T1106","Native API Direct Syscall"⟩
  | some .ppidSpoof =>
    ⟨"Defense Evasion","T1134.004","Parent PID Spoofing"⟩
  | some .kerberosAttack =>
    ⟨"Credential Access","T1558","Steal or Forge Kerberos Tickets"⟩
  | some .ntlmCoerce =>
    ⟨"Credential Access","T1187","Forced Authentication"⟩
  | some .credentialDump =>
    ⟨"Credential Access","T1003.001","LSASS Memory Dump"⟩
  | some .entropyAnomaly =>
    ⟨"Defense Evasion","T1027.002","Software Packing (High Entropy)"⟩
  | some .suspiciousBinary =>
    ⟨"Execution","T1204","User Execution: Malicious File"⟩
  | some .filelessExec =>
    ⟨"Execution","T1059.001","PowerShell Fileless Execution"⟩
  | some .antiForensic =>
    ⟨"Defense Evasion","T1070","Indicator Removal"⟩
  | some .dgaDomain =>
    ⟨"Command and Control","T1568.002","Domain Generation Algorithms"⟩
  | some .fileIntegrityViolation =>
    ⟨"Impact","T1565.001","Stored Data Manipulation"⟩
  | some .yaraRuleMatch =>
    ⟨"Execution","T1204.002","Malicious File Signature Match"⟩
  | some .kernelAttack =>
    ⟨"Privilege Escalation","T1068","Exploitation for Privilege Escalation (BYOVD)"⟩
  | some .lolbinExecution =>
    ⟨"Execution","T1218","System Binary Proxy Execution (LOLBins)"⟩
  | some .malwarePacker =>
    ⟨"Defense Evasion","T1027.002","Software Packing / Crypter"⟩
  | some .persistenceHijack =>
    ⟨"Persistence","T1546.015","Component Object Model Hijacking"⟩
  | _ =>
    ⟨"General","T1000","Unclassified Anomaly"⟩

/-- The fields of `std::tm` that the report formats. -/
structure Tm where
  /-- Years since 1900. -/
  year : ℤ
  /-- Month from zero. -/
  mon : Fin 12
  /-- Day of the month. -/
  mday : Fin 32
  /-- Hours since midnight. -/
  hour : Fin 24
  /-- Minute. -/
  min : Fin 60
  /-- Second, with room for a leap second. -/
  sec : Fin 61

/-- A number padded to two digits. -/
def twoDigits (n : ℕ) : Str := (if n < 10 then ['0'] else [])++toDecimal n

/-- `std::strftime` with the format of the report. -/
def strftime (tm : Tm) : Str :=
  toSignedDecimal (tm.year+1900)++"-".toList++twoDigits (tm.mon+1)++"-".toList++
    twoDigits tm.mday++" ".toList++twoDigits tm.hour++":".toList++twoDigits tm.min++":".toList++
    twoDigits tm.sec

/-- `ReportData::EngineInfo`. -/
structure EngineInfo where
  /-- Name of the engine. -/
  name : Str
  /-- The engine is running. -/
  running : Bool
  /-- Events it processed. -/
  eventsProcessed : UInt64
  /-- Threats it detected. -/
  threatsDetected : UInt64

/-- The fields of a `SecurityFinding` that the report reads. -/
structure FindingInfo where
  /-- Underlying value of the level. -/
  level : UInt8
  /-- Score of the finding. -/
  riskScore : UInt8
  /-- Why the finding was raised. -/
  rationale : Str

/-- `ReportData`. -/
structure ReportData where
  /-- Time of the report as text. -/
  generatedAt : Str
  /-- Version of the program. -/
  gcadVersion : Str
  /-- An `int64_t`. -/
  uptimeSeconds : ℤ
  /-- State of the engines. -/
  engines : List EngineInfo
  /-- Events of all engines. -/
  totalEvents : UInt64
  /-- Threats of all engines. -/
  totalThreats : UInt64
  /-- Events by level. -/
  severityHistogram : Vector UInt64 5
  /-- Events by category. -/
  categoryHistogram : List (UInt16×UInt64)
  /-- Latest events, oldest first. -/
  recentEvents : List ThreatEvent
  /-- Latest findings, oldest first. -/
  findings : List FindingInfo
  /-- Alerts that were raised. -/
  totalAlerts : UInt64
  /-- Alerts that nobody has read. -/
  unacknowledgedAlerts : UInt64

/-- The lines of the page up to the subtitle. -/
def headLines : List String :=
  ["<!DOCTYPE html>",
    "<html lang=\"en\">",
    "<head>",
    "<meta charset=\"utf-8\">",
    "<title>GCAD Security Report</title>",
    "<style>",
    "*\x7bmargin:0;padding:0;box-sizing:border-box\x7d",
    "body\x7bbackground:#0d1117;color:#e6edf3;font-family:'Segoe UI',system-ui,sans-serif;padding:24px;max-width:1000px;margin:auto\x7d",
    "h1\x7bfont-size:24px;margin-bottom:4px\x7d",
    "h2\x7bfont-size:18px;color:#58a6ff;margin:24px 0 12px;border-bottom:1px solid #30363d;padding-bottom:6px\x7d",
    ".subtitle\x7bcolor:#8b949e;margin-bottom:20px\x7d",
    ".summary\x7bdisplay:grid;grid-template-columns:repeat(auto-fit,minmax(180px,1fr));gap:12px;margin-bottom:24px\x7d",
    ".card\x7bbackground:#161b22;border:1px solid #30363d;border-radius:8px;padding:16px\x7d",
    ".card .label\x7bcolor:#8b949e;font-size:13px\x7d",
    ".card .value\x7bfont-size:28px;font-weight:600;margin-top:4px\x7d",
    "table\x7bwidth:100%;border-collapse:collapse;margin-bottom:16px\x7d",
    "th\x7btext-align:left;color:#8b949e;font-size:13px;padding:8px;border-bottom:1px solid #30363d\x7d",
    "td\x7bpadding:8px;border-bottom:1px solid #21262d;font-size:14px\x7d",
    "tr:hover\x7bbackground:#161b22\x7d",
    ".level\x7bfont-weight:600;font-size:12px;padding:2px 8px;border-radius:3px\x7d",
    ".bar-row\x7bdisplay:flex;align-items:center;gap:8px;margin:4px 0\x7d",
    ".bar-label\x7bwidth:70px;color:#8b949e;font-size:13px\x7d",
    ".bar\x7bheight:16px;border-radius:3px\x7d",
    ".bar-value\x7bcolor:#8b949e;font-size:13px\x7d",
    ".safe\x7bcolor:#39d353\x7d .low\x7bcolor:#58a6ff\x7d .medium\x7bcolor:#d29922\x7d .high\x7bcolor:#f0883e\x7d .critical\x7bcolor:#f85149\x7d",
    ".footer\x7bmargin-top:32px;color:#484f58;font-size:12px;text-align:center;border-top:1px solid #21262d;padding-top:12px\x7d",
    "</style>",
    "</head>",
    "<body>",
    "<h1>GCAD Security Report</h1>"]

/-- The page up to the summary. -/
def pageHead (data : ReportData) : Str :=
  (headLines.flatMap fun text => text.toList++['\n'])++
    "<p class=\"subtitle\">Generated: ".toList++htmlEscape data.generatedAt++
    " &mdash; GCAD v".toList++htmlEscape data.gcadVersion++"</p>\n".toList

/-- Number of running engines. -/
def runningEngines (engines : List EngineInfo) : ℕ := engines.countP (·.running)

/-- The card with the alerts, if there are any. -/
def alertsCard (data : ReportData) : Str :=
  if 0 < data.totalAlerts then
    "<div class=\"card\"><div class=\"label\">Alerts</div><div class=\"value\">".toList++
      toDecimal data.totalAlerts.toNat++" (".toList++toDecimal data.unacknowledgedAlerts.toNat++
      " unread)</div></div>\n".toList
  else []

/-- Summary cards; integer division truncates toward zero. -/
def summaryCards (data : ReportData) : Str :=
  let uptimeMin := data.uptimeSeconds.tdiv 60
  let uptimeHr := uptimeMin.tdiv 60
  "<div class=\"summary\">\n".toList++
    "<div class=\"card\"><div class=\"label\">Engines Online</div><div class=\"value\">".toList++
    toDecimal (runningEngines data.engines)++" / ".toList++toDecimal data.engines.length++
    "</div></div>\n".toList++
    "<div class=\"card\"><div class=\"label\">Total Events</div><div class=\"value\">".toList++
    toDecimal data.totalEvents.toNat++"</div></div>\n".toList++
    "<div class=\"card\"><div class=\"label\">Threats Detected</div><div class=\"value\">".toList++
    toDecimal data.totalThreats.toNat++"</div></div>\n".toList++
    "<div class=\"card\"><div class=\"label\">Uptime</div><div class=\"value\">".toList++
    toSignedDecimal uptimeHr++"h ".toList++toSignedDecimal (uptimeMin.tmod 60)++
    "m</div></div>\n".toList++alertsCard data++"</div>\n".toList

/-- A row of the engine table. -/
def engineRow (e : EngineInfo) : Str :=
  "<tr><td>".toList++htmlEscape e.name++"</td><td class=\"".toList++
    (if e.running then "safe" else "critical").toList++"\">".toList++
    (if e.running then "ACTIVE" else "STOPPED").toList++"</td><td>".toList++
    toDecimal e.eventsProcessed.toNat++"</td><td>".toList++toDecimal e.threatsDetected.toNat++
    "</td></tr>\n".toList

/-- Engine status table. -/
def engineStatusTable (data : ReportData) : Str :=
  "<h2>Engine Status</h2>\n<table><tr><th>Engine</th><th>Status</th>".toList++
    "<th>Events</th><th>Threats</th></tr>\n".toList++data.engines.flatMap engineRow++
    "</table>\n".toList

/-- The largest bar, at least one. -/
def maxSev (histogram : Vector UInt64 5) : UInt64 := histogram.toList.foldl max 1

/-- Width of a bar in percent: a product of 64 bits, a quotient narrowed to
an `int`, and at least one. -/
def barWidth (count maxSev : UInt64) : ℤ := max (count*100/maxSev).toUInt32.toInt32.toInt 1

/-- `sev_labels`. -/
def sevLabels : Vector String 5 := #v["SAFE","LOW","MEDIUM","HIGH","CRITICAL"]

/-- `sev_colors`. -/
def sevColors : Vector String 5 := #v["#39d353","#58a6ff","#d29922","#f0883e","#f85149"]

/-- One bar. -/
def severityBar (histogram : Vector UInt64 5) (i : Fin 5) : Str :=
  "<div class=\"bar-row\"><span class=\"bar-label\">".toList++sevLabels[i].toList++
    "</span><div class=\"bar\" style=\"width:".toList++
    toSignedDecimal (barWidth histogram[i] (maxSev histogram))++
    "%;background:".toList++sevColors[i].toList++
    "\"></div><span class=\"bar-value\">".toList++toDecimal histogram[i].toNat++
    "</span></div>\n".toList

/-- Severity distribution. -/
def severityDistribution (data : ReportData) : Str :=
  "<h2>Severity Distribution</h2>\n".toList++
    (List.finRange 5).flatMap (severityBar data.severityHistogram)

/-- A row of the category table. -/
def categoryRow (entry : UInt16×UInt64) : Str :=
  "<tr><td>".toList++(categoryLabel entry.1).toList++"</td><td>".toList++
    toDecimal entry.2.toNat++"</td></tr>\n".toList

/-- Category breakdown. -/
def categoryBreakdown (data : ReportData) : Str :=
  if data.categoryHistogram.isEmpty then []
  else
    "<h2>Threat Categories</h2>\n<table><tr><th>Category</th><th>Count</th></tr>\n".toList++
      data.categoryHistogram.flatMap categoryRow++"</table>\n".toList

section

variable (localtime : ℤ → Tm)

/-- `format_event_time`; the time zone of the machine is a parameter. -/
def formatEventTime (tp : TimePoint) : Str := strftime (localtime (epochSeconds tp))

/-- A row of the timeline. -/
def eventRow (event : ThreatEvent) : Str :=
  "<tr><td>".toList++formatEventTime localtime event.timestamp++"</td>".toList++
    "<td><span class=\"level\" style=\"color:".toList++
    (levelColor event.level).toList++"\">".toList++(levelLabel event.level).toList++
    "</span></td>".toList++
    "<td>".toList++(categoryLabel event.category).toList++"</td>".toList++
    "<td>".toList++htmlEscape event.description++"</td></tr>\n".toList

/-- Recent events, the latest first. -/
def recentEvents (data : ReportData) : Str :=
  if data.recentEvents.isEmpty then []
  else
    "<h2>Detection Timeline (last ".toList++toDecimal data.recentEvents.length++
      ")</h2>\n".toList++
      "<table><tr><th>Time</th><th>Level</th><th>Category</th><th>Description</th></tr>\n".toList++
      data.recentEvents.reverse.flatMap (eventRow localtime)++"</table>\n".toList

end

/-- A row of the findings; a `uint8_t` is streamed as a character. -/
def findingRow (finding : FindingInfo) : Str :=
  "<tr><td><span class=\"level\" style=\"color:".toList++
    (levelColor finding.level).toList++"\">".toList++(levelLabel finding.level).toList++
    "</span></td>".toList++
    "<td>".toList++[Char.ofNat finding.riskScore.toNat]++"</td>".toList++
    "<td>".toList++htmlEscape finding.rationale++"</td></tr>\n".toList

/-- Security findings, the latest first. -/
def securityFindings (data : ReportData) : Str :=
  if data.findings.isEmpty then []
  else
    "<h2>Security Findings (".toList++toDecimal data.findings.length++")</h2>\n".toList++
      "<table><tr><th>Level</th><th>Risk</th><th>Rationale</th></tr>\n".toList++
      data.findings.reverse.flatMap findingRow++"</table>\n".toList

/-- A row of the technique mapping. -/
def mitreRow (entry : UInt16×UInt64) : Str :=
  let ttp := mitreTtpForCategory entry.1
  "<tr><td><span class=\"badge\" style=\"background:#21262d;color:#58a6ff;".toList++
    "padding:2px 6px;border-radius:4px;\">".toList++
    htmlEscape ttp.tactic.toList++"</span></td>".toList++
    "<td><strong>".toList++htmlEscape ttp.techniqueId.toList++"</strong></td>".toList++
    "<td>".toList++htmlEscape ttp.techniqueName.toList++"</td>".toList++
    "<td>".toList++htmlEscape (categoryLabel entry.1).toList++"</td>".toList++
    "<td>".toList++toDecimal entry.2.toNat++"</td></tr>\n".toList

/-- Technique mapping. -/
def mitreMapping (data : ReportData) : Str :=
  "<h2>MITRE ATT&amp;CK&reg; Enterprise Matrix Mapping</h2>\n".toList++
    "<table><tr><th>Tactic</th><th>Technique ID</th><th>Technique Name</th>".toList++
    "<th>GCAD Category</th><th>Detections</th></tr>\n".toList++
    (if data.categoryHistogram.isEmpty then
      "<tr><td colspan=\"5\" style=\"color:#8b949e;text-align:center;\">".toList++
        "No active threats detected in this session.</td></tr>\n".toList
    else data.categoryHistogram.flatMap mitreRow)++"</table>\n".toList

/-- The end of the page. -/
def pageFoot (data : ReportData) : Str :=
  "<div class=\"footer\">GCAD v".toList++htmlEscape data.gcadVersion++
    " &mdash; Galoisconnection Antivirus &amp; Defense &mdash; ".toList++
    htmlEscape data.generatedAt++"</div>\n".toList++"</body>\n</html>\n".toList

/-- `generate_html`. -/
def generateHtml (localtime : ℤ → Tm) (data : ReportData) : Str :=
  pageHead data++summaryCards data++engineStatusTable data++severityDistribution data++
    categoryBreakdown data++recentEvents localtime data++securityFindings data++
    mitreMapping data++pageFoot data

/-- Every level has a label. -/
theorem levelLabel_ne_unknown (level : ThreatLevel) : levelLabel (levelValue level)≠"UNKNOWN" := by
  unfold levelLabel
  rw [levelOf_value]
  cases level <;> simp

/-- Two categories have no label. -/
theorem categoryLabel_eq_unknown_iff (category : ThreatCategory) :
    categoryLabel category.value="Unknown" ↔ category=.c2Beacon ∨ category=.devicePolicy := by
  unfold categoryLabel
  rw [categoryOf_value]
  cases category <;> simp

/-- Those two, and the absence of a threat, have no technique. -/
theorem mitreTtp_unclassified_iff (category : ThreatCategory) :
    (mitreTtpForCategory category.value).techniqueId="T1000" ↔
      category=.none ∨ category=.c2Beacon ∨ category=.devicePolicy := by
  unfold mitreTtpForCategory
  rw [categoryOf_value]
  cases category <;> simp

end Gcad.Report
