import Gcad.JsonRender
import Gcad.Threat

/-!
# Webhook payloads

The formatting functions of webhook_engine.cpp stream the strings of a
threat event between quotes without escaping them. A receiver recovers the
written members exactly when the process name and the description have no
character that JSON escapes and are UTF-8.
-/

namespace Gcad.Webhook

open Common Threat Json JsonRender

/-- `WebhookFormat`. -/
inductive WebhookFormat where
  | jsonGeneric
  | discord
  | slack
  | splunkHec
  | syslogCef
  deriving DecidableEq, Repr

/-- `format_generic_json`. -/
def formatGenericJson (event : ThreatEvent) : Str :=
  "\x7b\"alert\":\x7b".toList++
    "\"level\":".toList++toDecimal event.level.toNat++",".toList++
    "\"category\":".toList++toDecimal event.category.toNat++",".toList++
    "\"description\":\"".toList++event.description++"\",".toList++
    "\"process_name\":\"".toList++event.processName++"\",".toList++
    "\"process_id\":".toList++toDecimal event.processId.toNat++
    "\x7d\x7d".toList

/-- The colour of a Discord embed. -/
def discordColor (level : UInt8) : ℕ :=
  if level=levelValue .critical then 0xFF0000
  else if level=levelValue .high then 0xFF8800
  else 0xFFFF00

/-- `format_discord_payload`. -/
def formatDiscordPayload (event : ThreatEvent) : Str :=
  let color := discordColor event.level
  let title := if event.processName=[] then "System Security Alert".toList else event.processName
  "\x7b\"embeds\":[\x7b".toList++
    "\"title\":\"GCAD Threat Alert: ".toList++title++"\",".toList++
    "\"description\":\"".toList++event.description++"\",".toList++
    "\"color\":".toList++toDecimal color++",".toList++
    "\"fields\":[".toList++
    "\x7b\"name\":\"Process\",\"value\":\"".toList++event.processName++" (PID: ".toList++
      toDecimal event.processId.toNat++")\",\"inline\":true\x7d,".toList++
    "\x7b\"name\":\"Severity\",\"value\":\"".toList++toDecimal event.level.toNat++
      "\",\"inline\":true\x7d".toList++
    "]\x7d]\x7d".toList

/-- `format_slack_payload`. -/
def formatSlackPayload (event : ThreatEvent) : Str :=
  let tag := if event.processName=[] then "SECURITY".toList else event.processName
  "\x7b\"text\":\"[GCAD ALERT] ".toList++tag++": ".toList++event.description++"\"\x7d".toList

/-- `format_splunk_hec_payload`. -/
def formatSplunkHecPayload (event : ThreatEvent) : Str :=
  "\x7b\"sourcetype\":\"gcad:edr\",\"event\":\x7b".toList++
    "\"category\":".toList++toDecimal event.category.toNat++",".toList++
    "\"level\":".toList++toDecimal event.level.toNat++",".toList++
    "\"description\":\"".toList++event.description++"\",".toList++
    "\"process\":\"".toList++event.processName++"\",".toList++
    "\"pid\":".toList++toDecimal event.processId.toNat++
    "\x7d\x7d".toList

/-- `format_syslog_cef_payload`. -/
def formatSyslogCefPayload (event : ThreatEvent) : Str :=
  let src := if event.sourceIp=[] then "127.0.0.1".toList else event.sourceIp
  "CEF:0|Galoisconnection|GCAD|1.0|ALERT|".toList++toDecimal event.category.toNat++
    "|".toList++toDecimal event.level.toNat++
    "|src=".toList++src++
    " dproc=".toList++event.processName++
    " pid=".toList++toDecimal event.processId.toNat++
    " msg=".toList++event.description

/-- The switch of `worker_loop`. -/
def formatPayload (event : ThreatEvent) : WebhookFormat → Str
  | .discord => formatDiscordPayload event
  | .slack => formatSlackPayload event
  | .splunkHec => formatSplunkHecPayload event
  | .syslogCef => formatSyslogCefPayload event
  | .jsonGeneric => formatGenericJson event

/-- The members of a payload that hold neither the description nor the
process name: texts of numbers and fixed labels. -/
structure Labels where
  /-- Number of the level. -/
  level : Str
  /-- Number of the category. -/
  category : Str
  /-- Number of the process. -/
  processId : Str
  /-- Colour of the embed. -/
  color : Str
  /-- Kind of the Splunk source. -/
  sourcetype : Str
  /-- Caption of the process field. -/
  processCaption : Str
  /-- Caption of the severity field. -/
  severityCaption : Str
  /-- Text of the severity field. -/
  severity : Str

/-- What the labels of an event are. -/
def labelsOf (event : ThreatEvent) : Labels where
  level := toDecimal event.level.toNat
  category := toDecimal event.category.toNat
  processId := toDecimal event.processId.toNat
  color := toDecimal (discordColor event.level)
  sourcetype := "gcad:edr".toList
  processCaption := "Process".toList
  severityCaption := "Severity".toList
  severity := toDecimal event.level.toNat

/-- The value of a generic payload. -/
def genericValue (labels : Labels) (event : ThreatEvent) : Value :=
  .object [("alert".toList,.object
    [("level".toList,.number labels.level),
     ("category".toList,.number labels.category),
     ("description".toList,.string event.description),
     ("process_name".toList,.string event.processName),
     ("process_id".toList,.number labels.processId)])]

/-- The process text of a Discord field. -/
def discordProcess (event : ThreatEvent) : Str :=
  event.processName++" (PID: ".toList++toDecimal event.processId.toNat++")".toList

/-- The title of a Discord embed. -/
def discordTitle (event : ThreatEvent) : Str :=
  "GCAD Threat Alert: ".toList++
    if event.processName=[] then "System Security Alert".toList else event.processName

/-- The value of a Discord payload. -/
def discordValue (labels : Labels) (event : ThreatEvent) : Value :=
  .object [("embeds".toList,.array [.object
    [("title".toList,.string (discordTitle event)),
     ("description".toList,.string event.description),
     ("color".toList,.number labels.color),
     ("fields".toList,.array
       [.object
         [("name".toList,.string labels.processCaption),
          ("value".toList,.string (discordProcess event)),
          ("inline".toList,.bool true)],
        .object
         [("name".toList,.string labels.severityCaption),
          ("value".toList,.string labels.severity),
          ("inline".toList,.bool true)]])]])]

/-- The text of a Slack message. -/
def slackText (event : ThreatEvent) : Str :=
  "[GCAD ALERT] ".toList++
    (if event.processName=[] then "SECURITY".toList else event.processName)++
    ": ".toList++event.description

/-- The value of a Slack payload. -/
def slackValue (event : ThreatEvent) : Value := .object [("text".toList,.string (slackText event))]

/-- The value of a Splunk payload. -/
def splunkValue (labels : Labels) (event : ThreatEvent) : Value :=
  .object
    [("sourcetype".toList,.string labels.sourcetype),
     ("event".toList,.object
      [("category".toList,.number labels.category),
       ("level".toList,.number labels.level),
       ("description".toList,.string event.description),
       ("process".toList,.string event.processName),
       ("pid".toList,.number labels.processId)])]

/-- The payload is a JSON text whose members have the names of the format,
and the description and the process name stand in their members; the other
members may hold anything of their type. -/
structure Conveys (event : ThreatEvent) : Prop where
  /-- The generic payload. -/
  generic : ∃ labels, parse (formatGenericJson event)=some (genericValue labels event)
  /-- The Discord payload. -/
  discord : ∃ labels, parse (formatDiscordPayload event)=some (discordValue labels event)
  /-- The Slack payload. -/
  slack : parse (formatSlackPayload event)=some (slackValue event)
  /-- The Splunk payload. -/
  splunk : ∃ labels, parse (formatSplunkHecPayload event)=some (splunkValue labels event)

/-- A text that needs no escape in a JSON string: no quote, backslash or
control character, and UTF-8. -/
def NeedsNoEscape (text : Str) : Prop := Plain text ∧ utf8 text=true

/-- The generic text renders its value. -/
theorem formatGenericJson_eq (event : ThreatEvent) :
    formatGenericJson event=render (genericValue (labelsOf event) event) := by
  unfold formatGenericJson genericValue labelsOf
  generalize toDecimal event.level.toNat=level
  generalize toDecimal event.category.toNat=category
  generalize toDecimal event.processId.toNat=processId
  simp only [render,renderMembers,String.reduceToList,List.append_assoc,List.cons_append,
    List.nil_append]

set_option maxRecDepth 2000 in
/-- The Discord text renders its value. -/
theorem formatDiscordPayload_eq (event : ThreatEvent) :
    formatDiscordPayload event=render (discordValue (labelsOf event) event) := by
  unfold formatDiscordPayload discordValue discordTitle discordProcess labelsOf
  dsimp only
  generalize (if event.processName=[] then "System Security Alert".toList else event.processName)=
    title
  generalize toDecimal event.level.toNat=level
  generalize toDecimal event.processId.toNat=processId
  generalize toDecimal (discordColor event.level)=color
  simp only [render,renderMembers,renderElements,String.reduceToList,List.append_assoc,
    List.cons_append,List.nil_append]

/-- The Slack text renders its value. -/
theorem formatSlackPayload_eq (event : ThreatEvent) :
    formatSlackPayload event=render (slackValue event) := by
  unfold formatSlackPayload slackValue slackText
  generalize (if event.processName=[] then "SECURITY".toList else event.processName)=tag
  simp only [render,renderMembers,String.reduceToList,List.append_assoc,List.cons_append,
    List.nil_append]

/-- The Splunk text renders its value. -/
theorem formatSplunkHecPayload_eq (event : ThreatEvent) :
    formatSplunkHecPayload event=render (splunkValue (labelsOf event) event) := by
  unfold formatSplunkHecPayload splunkValue labelsOf
  generalize toDecimal event.level.toNat=level
  generalize toDecimal event.category.toNat=category
  generalize toDecimal event.processId.toNat=processId
  simp only [render,renderMembers,String.reduceToList,List.append_assoc,List.cons_append,
    List.nil_append]

/-- A fixed piece of text around a string: ASCII, and nothing to escape. -/
def Caption (text : Str) : Prop := Plain text ∧ ∀ c ∈ text, c.toNat < 0x80

instance (text : Str) : Decidable (Caption text) :=
  @instDecidableAnd _ _ inferInstance (List.decidableBAll _ text)

/-- Decimal digits are a caption. -/
theorem caption_toDecimal (n : ℕ) : Caption (toDecimal n) := by
  have hrange : ∀ c ∈ toDecimal n, 48 ≤ c.toNat ∧ c.toNat ≤ 57 := fun c hc =>
    isDigit_range (Nat.isDigit_of_mem_toDigits (by norm_num) (by norm_num) hc)
  refine ⟨fun c hc => ?_,fun c hc => by have := hrange c hc; omega⟩
  have hc := hrange c hc
  refine ⟨?_,?_,by omega⟩
  · rintro rfl
    exact absurd hc (by decide)
  · rintro rfl
    exact absurd hc (by decide)

/-- Parts of a plain text. -/
theorem plain_append (a b : Str) : Plain (a++b) ↔ Plain a ∧ Plain b := by
  simp only [Plain,List.forall_mem_append]

/-- A caption in front changes nothing. -/
theorem needsNoEscape_caption_append {caption : Str} (h : Caption caption) (text : Str) :
    NeedsNoEscape (caption++text) ↔ NeedsNoEscape text := by
  unfold NeedsNoEscape
  rw [plain_append,utf8_ascii_append h.2]
  simp [h.1]

/-- A caption behind changes nothing. -/
theorem needsNoEscape_append_caption {caption : Str} (h : Caption caption) (text : Str) :
    NeedsNoEscape (text++caption) ↔ NeedsNoEscape text := by
  unfold NeedsNoEscape
  rw [plain_append]
  cases caption with
  | nil => simp [Plain]
  | cons c caption =>
    have hascii : utf8 caption=true := by
      have hrest := utf8_ascii_append (fun d hd => h.2 d (List.mem_cons_of_mem c hd)) []
      rwa [List.append_nil] at hrest
    rw [utf8_append_ascii _ _ (h.2 c List.mem_cons_self),hascii]
    simp [h.1]

/-- A caption needs no escape. -/
theorem Caption.needsNoEscape {caption : Str} (h : Caption caption) : NeedsNoEscape caption := by
  have hempty := needsNoEscape_caption_append h []
  rw [List.append_nil] at hempty
  exact hempty.mpr ⟨by simp [Plain],rfl⟩

/-- A name with a caption in the place of the empty name. -/
theorem needsNoEscape_default {caption : Str} (h : Caption caption) (name : Str) :
    NeedsNoEscape (if name=[] then caption else name) ↔ NeedsNoEscape name := by
  by_cases hname : name=[]
  · rw [if_pos hname,hname]
    exact iff_of_true h.needsNoEscape ⟨by simp [Plain],rfl⟩
  · rw [if_neg hname]

/-- What is asked of a string leaf. -/
theorem string_readable (text : Str) :
    ((Leaf.string text).Verbatim ∧ (Leaf.string text).Utf8) ↔ NeedsNoEscape text := Iff.rfl

/-- Nothing is asked of a name. -/
theorem key_readable (text : Str) : ((Leaf.key text).Verbatim ∧ (Leaf.key text).Utf8) ↔ True :=
  iff_of_true ⟨trivial,trivial⟩ trivial

/-- Nothing is asked of a number. -/
theorem number_readable (text : Str) :
    ((Leaf.number text).Verbatim ∧ (Leaf.number text).Utf8) ↔ True :=
  iff_of_true ⟨trivial,trivial⟩ trivial

/-- A caption as a name. -/
theorem Caption.fixed_key {text : Str} (h : Caption text) : (Leaf.key text).Fixed :=
  h.needsNoEscape

/-- Decimal digits as a number. -/
theorem fixed_number (n : ℕ) : (Leaf.number (toDecimal n)).Fixed := ⟨n,rfl⟩

/-- The generic payload conveys its event exactly when both strings need no
escape. -/
theorem generic_iff (event : ThreatEvent) :
    (∃ labels, parse (formatGenericJson event)=some (genericValue labels event)) ↔
      NeedsNoEscape event.description ∧ NeedsNoEscape event.processName := by
  have hfixed : ∀ leaf ∈ leaves (genericValue (labelsOf event) event), leaf.Fixed := by
    simp only [genericValue,leaves,leavesMembers,List.cons_append,List.nil_append,
      List.forall_mem_cons]
    exact ⟨Caption.fixed_key (by decide),Caption.fixed_key (by decide),
      fixed_number _,Caption.fixed_key (by decide),fixed_number _,
      Caption.fixed_key (by decide),trivial,Caption.fixed_key (by decide),trivial,
      Caption.fixed_key (by decide),fixed_number _,by simp⟩
  have hcarries : ∀ labels,
      Carries (genericValue (labelsOf event) event) (genericValue labels event) := by
    intro labels
    exact .object (.cons _ (.object (.cons _ (.number _ _) (.cons _ (.number _ _)
      (.cons _ (.string (.inr rfl)) (.cons _ (.string (.inr rfl)) (.cons _ (.number _ _) .nil))))))
      .nil)
  rw [formatGenericJson_eq,exists_parse_iff (genericValue · event) hfixed hcarries]
  simp only [genericValue,leaves,leavesMembers,List.cons_append,List.nil_append,
    List.forall_mem_cons,string_readable,key_readable,number_readable,true_and]
  simp

/-- The title needs no escape exactly when the process name needs none. -/
theorem needsNoEscape_title (event : ThreatEvent) :
    NeedsNoEscape (discordTitle event) ↔ NeedsNoEscape event.processName := by
  unfold discordTitle
  rw [needsNoEscape_caption_append (by decide),needsNoEscape_default (by decide)]

/-- The process field needs no escape exactly when the process name needs
none. -/
theorem needsNoEscape_process (event : ThreatEvent) :
    NeedsNoEscape (discordProcess event) ↔ NeedsNoEscape event.processName := by
  unfold discordProcess
  rw [needsNoEscape_append_caption (by decide),
    needsNoEscape_append_caption (caption_toDecimal _),needsNoEscape_append_caption (by decide)]

/-- The message needs no escape exactly when both of its parts need none. -/
theorem needsNoEscape_slackText (event : ThreatEvent) :
    NeedsNoEscape (slackText event) ↔
      NeedsNoEscape event.description ∧ NeedsNoEscape event.processName := by
  have hname := needsNoEscape_default (show Caption "SECURITY".toList by decide) event.processName
  have hsplit : ∀ text : Str, NeedsNoEscape (text++": ".toList++event.description) ↔
      NeedsNoEscape text ∧ NeedsNoEscape event.description := by
    intro text
    have hutf8 : utf8 (text++": ".toList++event.description)=
        (utf8 text && utf8 event.description) := by
      rw [List.append_assoc]
      exact (utf8_append_ascii text (' '::event.description) (by decide)).trans
        (congrArg (utf8 text && ·) (utf8_cons_ascii event.description (by decide)))
    have hcolon : Plain ": ".toList := by decide
    unfold NeedsNoEscape
    rw [hutf8,plain_append,plain_append,Bool.and_eq_true]
    constructor
    · rintro ⟨⟨⟨htext,-⟩,hdescription⟩,hutf8⟩
      exact ⟨⟨htext,hutf8.1⟩,hdescription,hutf8.2⟩
    · rintro ⟨⟨htext,htextUtf8⟩,hdescription,hdescriptionUtf8⟩
      exact ⟨⟨⟨htext,hcolon⟩,hdescription⟩,htextUtf8,hdescriptionUtf8⟩
  unfold slackText
  rw [List.append_assoc,List.append_assoc,needsNoEscape_caption_append (by decide),
    ← List.append_assoc,hsplit,hname,and_comm]

/-- The Discord payload conveys its event exactly when both strings need no
escape. -/
theorem discord_iff (event : ThreatEvent) :
    (∃ labels, parse (formatDiscordPayload event)=some (discordValue labels event)) ↔
      NeedsNoEscape event.description ∧ NeedsNoEscape event.processName := by
  have hprocess : Caption (labelsOf event).processCaption := by
    show Caption "Process".toList
    decide
  have hseverity : Caption (labelsOf event).severityCaption := by
    show Caption "Severity".toList
    decide
  have hlevel : Caption (labelsOf event).severity := caption_toDecimal _
  have hfixed : ∀ leaf ∈ leaves (discordValue (labelsOf event) event), leaf.Fixed := by
    simp only [discordValue,leaves,leavesMembers,leavesElements,List.cons_append,List.nil_append,
      List.append_nil,List.forall_mem_cons]
    exact ⟨Caption.fixed_key (by decide),Caption.fixed_key (by decide),trivial,
      Caption.fixed_key (by decide),trivial,Caption.fixed_key (by decide),fixed_number _,
      Caption.fixed_key (by decide),Caption.fixed_key (by decide),trivial,
      Caption.fixed_key (by decide),trivial,Caption.fixed_key (by decide),
      Caption.fixed_key (by decide),trivial,Caption.fixed_key (by decide),trivial,
      Caption.fixed_key (by decide),by simp⟩
  have hcarries : ∀ labels,
      Carries (discordValue (labelsOf event) event) (discordValue labels event) := by
    intro labels
    refine .object (.cons _ (.array (.cons (.object (.cons _ (.string (.inr rfl))
      (.cons _ (.string (.inr rfl)) (.cons _ (.number _ _) (.cons _ (.array ?_) .nil))))) .nil))
      .nil)
    exact .cons (.object (.cons _ (.string (.inl hprocess.1)) (.cons _ (.string (.inr rfl))
      (.cons _ (.bool true) .nil)))) (.cons (.object (.cons _ (.string (.inl hseverity.1))
      (.cons _ (.string (.inl hlevel.1)) (.cons _ (.bool true) .nil)))) .nil)
  rw [formatDiscordPayload_eq,exists_parse_iff (discordValue · event) hfixed hcarries]
  simp only [discordValue,leaves,leavesMembers,leavesElements,List.cons_append,List.nil_append,
    List.append_nil,List.forall_mem_cons,string_readable,key_readable,number_readable,true_and,
    needsNoEscape_title,needsNoEscape_process,hprocess.needsNoEscape,hseverity.needsNoEscape,
    hlevel.needsNoEscape]
  constructor
  · rintro ⟨hname,hdescription,-⟩
    exact ⟨hdescription,hname⟩
  · rintro ⟨hdescription,hname⟩
    exact ⟨hname,hdescription,hname,by simp⟩

/-- The Slack payload conveys its event exactly when both strings need no
escape. -/
theorem slack_iff (event : ThreatEvent) :
    parse (formatSlackPayload event)=some (slackValue event) ↔
      NeedsNoEscape event.description ∧ NeedsNoEscape event.processName := by
  have hfixed : ∀ leaf ∈ leaves (slackValue event), leaf.Fixed := by
    simp only [slackValue,leaves,leavesMembers,List.cons_append,List.nil_append,
      List.forall_mem_cons]
    exact ⟨Caption.fixed_key (by decide),trivial,by simp⟩
  have hcarries : Unit → Carries (slackValue event) (slackValue event) :=
    fun _ => .object (.cons _ (.string (.inr rfl)) .nil)
  have hiff := exists_parse_iff (i := ()) (fun _ => slackValue event) hfixed hcarries
  rw [exists_const] at hiff
  rw [formatSlackPayload_eq,hiff]
  simp only [slackValue,leaves,leavesMembers,List.cons_append,List.nil_append,
    List.forall_mem_cons,string_readable,key_readable,true_and,needsNoEscape_slackText]
  simp

/-- The Splunk payload conveys its event exactly when both strings need no
escape. -/
theorem splunk_iff (event : ThreatEvent) :
    (∃ labels, parse (formatSplunkHecPayload event)=some (splunkValue labels event)) ↔
      NeedsNoEscape event.description ∧ NeedsNoEscape event.processName := by
  have hsource : Caption (labelsOf event).sourcetype := by
    show Caption "gcad:edr".toList
    decide
  have hfixed : ∀ leaf ∈ leaves (splunkValue (labelsOf event) event), leaf.Fixed := by
    simp only [splunkValue,leaves,leavesMembers,List.cons_append,List.nil_append,
      List.forall_mem_cons]
    exact ⟨Caption.fixed_key (by decide),trivial,Caption.fixed_key (by decide),
      Caption.fixed_key (by decide),fixed_number _,Caption.fixed_key (by decide),fixed_number _,
      Caption.fixed_key (by decide),trivial,Caption.fixed_key (by decide),trivial,
      Caption.fixed_key (by decide),fixed_number _,by simp⟩
  have hcarries : ∀ labels,
      Carries (splunkValue (labelsOf event) event) (splunkValue labels event) := by
    intro labels
    exact .object (.cons _ (.string (.inl hsource.1)) (.cons _ (.object (.cons _ (.number _ _)
      (.cons _ (.number _ _) (.cons _ (.string (.inr rfl)) (.cons _ (.string (.inr rfl))
      (.cons _ (.number _ _) .nil)))))) .nil))
  rw [formatSplunkHecPayload_eq,exists_parse_iff (splunkValue · event) hfixed hcarries]
  simp only [splunkValue,leaves,leavesMembers,List.cons_append,List.nil_append,
    List.forall_mem_cons,string_readable,key_readable,number_readable,true_and,
    hsource.needsNoEscape]
  simp

/-- The four JSON payloads of an event are well formed and carry its strings
exactly when neither string holds a quote, a backslash or a control
character and both are UTF-8. -/
theorem webhook_payloads_iff (event : ThreatEvent) :
    Conveys event ↔ NeedsNoEscape event.description ∧ NeedsNoEscape event.processName := by
  constructor
  · intro h
    exact (generic_iff event).mp h.generic
  · intro h
    exact ⟨(generic_iff event).mpr h,(discord_iff event).mpr h,(slack_iff event).mpr h,
      (splunk_iff event).mpr h⟩

/-- An event whose description quotes a word. -/
def quotingEvent : ThreatEvent :=
  { ThreatEvent.default with
    description := "blocked \"evil\"".toList
    processName := "a.exe".toList }

/-- None of the four payloads of a quoting event is a JSON text. -/
theorem webhook_payloads_malformed :
    parse (formatGenericJson quotingEvent)=none ∧ parse (formatDiscordPayload quotingEvent)=none ∧
      parse (formatSlackPayload quotingEvent)=none ∧
      parse (formatSplunkHecPayload quotingEvent)=none ∧ ¬Conveys quotingEvent := by
  have hslack : parse (formatSlackPayload quotingEvent)=none :=
    Option.isNone_iff_eq_none.mp (by decide +kernel)
  refine ⟨Option.isNone_iff_eq_none.mp (by decide +kernel),
    Option.isNone_iff_eq_none.mp (by decide +kernel),hslack,
    Option.isNone_iff_eq_none.mp (by decide +kernel),fun h => ?_⟩
  have hvalue := h.slack
  rw [hslack] at hvalue
  cases hvalue

end Gcad.Webhook
