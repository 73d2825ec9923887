import Gcad.DelimitedText
import Gcad.YaraScan

/-!
# Rule texts of the YARA engine

`YaraEngine::add_rule_from_string`. The text is read line by line into one
current rule, which a `rule` line stores and resets only when it has a
string. The lines of a rule without a usable string therefore stay in force
for the next rule of the same text, so a text is not read as its parts are
read one after the other. The exact condition under which it is, is that
nothing which such an open block set is still visible in the rule after it.
-/

namespace Gcad.YaraRules

open Common ByteView DelimitedText YaraSearch YaraScan

/-- `YaraString` with all its fields. -/
structure ParsedString extends YaraString where
  /-- Every character is followed by a zero byte. -/
  wide : Bool
  /-- The characters are single bytes. -/
  ascii : Bool
  deriving DecidableEq

/-- `YaraRule`; the parser leaves the description, the tags and the count at
their defaults. -/
structure ParsedRule where
  /-- Name of the rule. -/
  name : Str := []
  /-- Its strings, in file order. -/
  strings : List ParsedString := []
  /-- How many of them have to occur. -/
  condition : ConditionOp := .anyOfThem
  /-- Level of a match. -/
  threatLevel : ThreatLevel := .high
  deriving DecidableEq

section Strings

/-- `hex_val`. -/
def hexVal (c : Char) : Option ℕ :=
  if '0' ≤ c ∧ c ≤ '9' then some (c.toNat- '0'.toNat)
  else if 'a' ≤ c ∧ c ≤ 'f' then some (c.toNat- 'a'.toNat+10)
  else if 'A' ≤ c ∧ c ≤ 'F' then some (c.toNat- 'A'.toNat+10)
  else none

/-- The loop of `parse_hex_pattern`: pattern bytes with their masks. -/
def hexPairs : Str → Option (List (UInt8×UInt8))
  | [] => some []
  | [c] =>
    if c = ' ' ∨ c = '{' ∨ c = '}' then some []
    else if c = '?' then some [(0x00,0x00)]
    else none
  | c::d::rest =>
    if c = ' ' ∨ c = '{' ∨ c = '}' then hexPairs (d::rest)
    else if c = '?' then
      (if d = '?' then hexPairs rest else hexPairs (d::rest)).map fun pairs => (0x00,0x00)::pairs
    else
      match hexVal c,hexVal d with
      | some h,some l => (hexPairs rest).map fun pairs => (UInt8.ofNat (16*h+l),0xFF)::pairs
      | _,_ => none

/-- `parse_hex_pattern`: pattern and mask, or `none` for a pattern that is
malformed or empty. -/
def parseHexPattern (hexStr : Str) : Option (Bytes×Bytes) :=
  match hexPairs hexStr with
  | none => none
  | some pairs => if pairs=[] then none else some (pairs.map Prod.fst,pairs.map Prod.snd)

/-- `text_to_pattern`. -/
def textToPattern (text : Str) (wide : Bool) : Bytes :=
  text.flatMap fun c => if wide then [UInt8.ofNat c.toNat,0x00] else [UInt8.ofNat c.toNat]

/-- What stands after the first `c`. -/
def afterFirst (c : Char) (text : Str) : Str := (text.dropWhile fun d => d≠c).drop 1

/-- What stands before the last `c`. -/
def beforeLast (c : Char) (text : Str) : Str := (text.rdropWhile fun d => d≠c).dropLast

/-- What stands after the last `c`. -/
def afterLast (c : Char) (text : Str) : Str := text.rtakeWhile fun d => d≠c

/-- `text.find(part) != npos`. -/
def mentions (part : String) (text : Str) : Bool := part.toList <:+: text

/-- The string that a quoted literal defines; `rest` follows the first quote. -/
def literalString (id rest : Str) : Option ParsedString :=
  if '"' ∈ rest then
    let pattern := textToPattern (beforeLast '"' rest) (mentions "wide" (afterLast '"' rest))
    some { identifier := id,pattern := pattern,mask := List.replicate pattern.length 0xFF
           isHex := false,nocase := mentions "nocase" (afterLast '"' rest)
           wide := mentions "wide" (afterLast '"' rest)
           ascii := !mentions "wide" (afterLast '"' rest) }
  else none

/-- The string that a hexadecimal pattern defines; `rest` follows the brace. -/
def hexString (id rest : Str) : Option ParsedString :=
  if '}' ∈ rest then
    (parseHexPattern (beforeLast '}' rest)).map fun parsed =>
      { identifier := id,pattern := parsed.1,mask := parsed.2,isHex := true,nocase := false
        wide := false,ascii := true }
  else none

/-- The string that a trimmed line defines. -/
def stringOf (trimmed : Str) : Option ParsedString :=
  if trimmed.head?=some '$' ∧ '=' ∈ trimmed then
    let id := trimmed.takeWhile fun c => c ≠ ' ' && c ≠ '\t' && c ≠ '='
    let rest := afterFirst '=' trimmed
    if '"' ∈ rest then literalString id (afterFirst '"' rest)
    else if '{' ∈ rest then hexString id (afterFirst '{' rest)
    else none
  else none

end Strings

section Lines

/-- The line is neither empty nor a comment. -/
def significant (trimmed : Str) : Bool :=
  trimmed≠[] && trimmed.head?≠some '#' && !"//".toList.isPrefixOf trimmed

/-- `trimmed.starts_with("rule ") || trimmed.starts_with("rule:")`. -/
def isRuleLine (trimmed : Str) : Bool :=
  "rule ".toList.isPrefixOf trimmed || "rule:".toList.isPrefixOf trimmed

/-- The name that a `rule` line gives, if it gives one. -/
def ruleName (trimmed : Str) : Option Str :=
  let fromSeparator := (trimmed.drop 4).dropWhile fun c => c ≠ ' ' && c ≠ '\t' && c ≠ ':'
  let fromName := fromSeparator.dropWhile fun c => c = ' ' || c = '\t' || c = ':' || c = '{'
  if fromName=[] then none
  else some (fromName.takeWhile fun c => c ≠ ' ' && c ≠ '\t' && c ≠ ':' && c ≠ '{')

/-- The level that a line of a rule mentions. -/
def levelOf (trimmed : Str) : Option ThreatLevel :=
  if mentions "CRITICAL" trimmed then some .critical
  else if mentions "HIGH" trimmed then some .high
  else if mentions "MEDIUM" trimmed then some .medium
  else none

/-- The condition that a line of a rule mentions. -/
def conditionOf (trimmed : Str) : Option ConditionOp :=
  if mentions "all of them" trimmed then some .allOfThem
  else if mentions "any of them" trimmed then some .anyOfThem
  else none

/-- The name of the rule at a position when its text gives none. -/
def customName (position : ℕ) : Str := "CustomRule_".toList++toDecimal position

end Lines

section Parser

/-- What the loop of `add_rule_from_string` changes. -/
structure ParserState where
  /-- The engine's rules. -/
  rules : List ParsedRule
  /-- The rule that is being read. -/
  currentRule : ParsedRule := {}
  /-- A rule has begun. -/
  inRule : Bool := false
  /-- Some rule was added by this text. -/
  addedAny : Bool := false

/-- The current rule is stored if it has a string. -/
def ParserState.store (s : ParserState) : ParserState :=
  if s.inRule ∧ s.currentRule.strings≠[] then
    { s with rules := s.rules++[s.currentRule],currentRule := {},addedAny := true }
  else s

/-- The name of the current rule after a `rule` line. -/
def nameAfter (rules : List ParsedRule) (current : ParsedRule) (trimmed : Str) : Str :=
  let name := (ruleName trimmed).getD current.name
  if name=[] then customName (rules.length+1) else name

/-- The branch for a `rule` line. -/
def ParserState.beginRule (s : ParserState) (trimmed : Str) : ParserState :=
  { s with
    currentRule := { s.currentRule with name := nameAfter s.rules s.currentRule trimmed }
    inRule := true }

/-- What another line changes in the current rule. -/
def ParsedRule.readBody (rule : ParsedRule) (trimmed : Str) : ParsedRule :=
  { rule with
    strings := rule.strings++(stringOf trimmed).toList
    condition := (conditionOf trimmed).getD rule.condition
    threatLevel := (levelOf trimmed).getD rule.threatLevel }

/-- The loop body after trimming, for a line that is not skipped. -/
def ParserState.readTrimmed (s : ParserState) (trimmed : Str) : ParserState :=
  if isRuleLine trimmed then s.store.beginRule trimmed
  else if s.inRule then { s with currentRule := s.currentRule.readBody trimmed }
  else s

/-- The loop body of `add_rule_from_string`. -/
def ParserState.readLine (s : ParserState) (text : Str) : ParserState :=
  if significant (trim isBlank text) then s.readTrimmed (trim isBlank text) else s

/-- `add_rule_from_string`: the engine's rules afterwards and the value
returned. -/
def addRuleFromString (rules : List ParsedRule) (ruleText : Str) : List ParsedRule×Bool :=
  let s := ((pieces '\n' ruleText).foldl ParserState.readLine { rules := rules }).store
  (s.rules,s.addedAny)

end Parser

section Blocks

/-- The lines of a text that are not skipped, trimmed. -/
def lines (ruleText : Str) : List Str :=
  ((pieces '\n' ruleText).map (trim isBlank)).filter significant

/-- What the last line that gives a value gives. -/
def latest {β : Type*} (value : Str → Option β) (default : β) (block : List Str) : β :=
  block.foldl (fun current text => (value text).getD current) default

/-- The name a line gives. -/
def nameIn (text : Str) : Option Str := if isRuleLine text then ruleName text else none

/-- A value that only the other lines of a block give. -/
def bodyIn {β : Type*} (value : Str → Option β) (text : Str) : Option β :=
  if isRuleLine text then none else value text

/-- The strings that a block defines. -/
def stringsIn (block : List Str) : List ParsedString := block.filterMap (bodyIn stringOf)

/-- The rule that a block describes at a position of the engine's list. -/
def ruleOf (position : ℕ) (block : List Str) : ParsedRule where
  name := latest nameIn (customName position) block
  strings := stringsIn block
  condition := latest (bodyIn conditionOf) .anyOfThem block
  threatLevel := latest (bodyIn levelOf) .high block

/-- Closed blocks and the open one. A `rule` line closes a block that has a
string and is added to one that has none; lines before the first `rule` line
belong to no block. -/
def cut (blocks : List (List Str)×List Str) (text : Str) : List (List Str)×List Str :=
  if isRuleLine text then
    if stringsIn blocks.2≠[] then (blocks.1++[blocks.2],[text]) else (blocks.1,blocks.2++[text])
  else if blocks.2=[] then blocks
  else (blocks.1,blocks.2++[text])

/-- Closed blocks and the open block of a text. -/
def cuts (ruleText : Str) : List (List Str)×List Str := (lines ruleText).foldl cut ([],[])

/-- The blocks that become rules, the open one if it has a string. -/
def closing (blocks : List (List Str)×List Str) : List (List Str) :=
  if stringsIn blocks.2≠[] then blocks.1++[blocks.2] else blocks.1

/-- The rules of blocks that are stored from a position on. -/
def rulesFrom (position : ℕ) (blocks : List (List Str)) : List ParsedRule :=
  blocks.mapIdx fun i block => ruleOf (position+i+1) block

/-- The first line of a text that is not skipped is a `rule` line. -/
def beginsWithRule (ruleText : Str) : Bool := (lines ruleText).head?.any isRuleLine

/-- Nothing that an open block without a string has set is visible in the
rule of the block that continues it: the continuation sets it again, or the
open block left the default. -/
structure HarmlessCarry (position : ℕ) (opened next : List Str) : Prop where
  /-- The next block names the rule, or the open one did not. -/
  name : (∃ text ∈ next, (nameIn text).isSome) ∨
    latest nameIn (customName position) opened=customName position
  /-- The next block has a condition, or the open one left the default. -/
  condition : (∃ text ∈ next, (bodyIn conditionOf text).isSome) ∨
    latest (bodyIn conditionOf) .anyOfThem opened=.anyOfThem
  /-- The level. -/
  threatLevel : (∃ text ∈ next, (bodyIn levelOf text).isSome) ∨
    latest (bodyIn levelOf) .high opened=.high

end Blocks

section Latest

variable {β : Type*} {value : Str → Option β}

/-- A value set in a later part replaces that of an earlier part. -/
theorem latest_append (default : β) (first second : List Str) :
    latest value default (first++second)=latest value (latest value default first) second :=
  List.foldl_append

/-- One more line. -/
theorem latest_concat (default : β) (block : List Str) (text : Str) :
    latest value default (block++[text])=(value text).getD (latest value default block) :=
  latest_append default block [text]

/-- The default matters exactly when no line gives a value. -/
theorem latest_eq_iff {d e : β} {block : List Str} :
    latest value d block=latest value e block ↔ (∃ text ∈ block, (value text).isSome) ∨ d=e := by
  induction block generalizing d e with
  | nil =>
    have hnone : ¬∃ text ∈ ([] : List Str), (value text).isSome :=
      fun ⟨_,hm,_⟩ => List.not_mem_nil hm
    exact ⟨Or.inr,fun h => h.resolve_left hnone⟩
  | cons text rest ih =>
    have hstep : ∀ x, latest value x (text::rest)=latest value ((value text).getD x) rest :=
      fun x => List.foldl_cons ..
    rw [hstep,hstep,ih,List.exists_mem_cons_iff]
    cases value text with
    | none => simp only [Option.getD_none,Option.isSome_none,Bool.false_eq_true,false_or]
    | some v => simp only [Option.getD_some,Option.isSome_some,true_or,or_true]

end Latest

section Reading

/-- A block to which a line that is no `rule` line is added. -/
theorem ruleOf_body {text : Str} (htext : isRuleLine text=false) (position : ℕ) (block : List Str) :
    ruleOf position (block++[text])=(ruleOf position block).readBody text := by
  have hname : nameIn text=none := if_neg (Bool.eq_false_iff.mp htext)
  have hbody : ∀ {β : Type} (value : Str → Option β), bodyIn value text=value text :=
    fun value => if_neg (Bool.eq_false_iff.mp htext)
  have hstrings : stringsIn (block++[text])=stringsIn block++(stringOf text).toList := by
    unfold stringsIn
    rw [List.filterMap_append,List.filterMap_cons,hbody]
    cases stringOf text <;> rfl
  unfold ruleOf ParsedRule.readBody
  rw [latest_concat,latest_concat,latest_concat,hname,hbody,hbody,hstrings]
  rfl

/-- A `rule` line gives no string. -/
theorem stringsIn_rule {text : Str} (htext : isRuleLine text=true) (block : List Str) :
    stringsIn (block++[text])=stringsIn block := by
  have hbody : bodyIn stringOf text=none := if_pos htext
  unfold stringsIn
  rw [List.filterMap_append,List.filterMap_cons_none hbody]
  exact List.append_nil _

/-- A block to which a `rule` line is added. -/
theorem ruleOf_rule {text : Str} (htext : isRuleLine text=true) (position : ℕ) (block : List Str) :
    ruleOf position (block++[text])=
      { ruleOf position block with
        name := (ruleName text).getD (latest nameIn (customName position) block) } := by
  have hname : nameIn text=ruleName text := if_pos htext
  have hbody : ∀ {β : Type} (value : Str → Option β), bodyIn value text=none :=
    fun value => if_pos htext
  unfold ruleOf
  rw [latest_concat,latest_concat,latest_concat,hname,hbody,hbody,stringsIn_rule htext]
  rfl

/-- A name that a `rule` line gives is not empty. -/
theorem ruleName_ne_nil {text name : Str} (h : ruleName text=some name) : name≠[] := by
  unfold ruleName at h
  dsimp only at h
  split at h
  · cases h
  · next hne =>
    have hfirst := List.head_dropWhile_not _ hne
    obtain ⟨c,rest,hcons⟩ := List.exists_cons_of_ne_nil hne
    simp only [hcons,List.head_cons] at hfirst
    rw [← Option.some.inj h,hcons,List.takeWhile_cons_of_pos]
    · exact List.cons_ne_nil _ _
    · simpa using hfirst

/-- The name after a `rule` line: the name given, else the one before, else
the numbered one. -/
theorem nameAfter_eq (rules : List ParsedRule) (current : ParsedRule) (text : Str) :
    nameAfter rules current text=(ruleName text).getD
      (if current.name=[] then customName (rules.length+1) else current.name) := by
  unfold nameAfter
  dsimp only
  cases hname : ruleName text with
  | none => rfl
  | some name =>
    rw [Option.getD_some,Option.getD_some]
    exact if_neg (ruleName_ne_nil hname)

/-- The name of a block is not empty. -/
theorem latest_name_ne_nil {default : Str} (hdefault : default≠[]) (block : List Str) :
    latest nameIn default block≠[] := by
  induction block generalizing default with
  | nil => exact hdefault
  | cons text rest ih =>
    refine @ih ((nameIn text).getD default) ?_
    cases hname : nameIn text with
    | none => exact hdefault
    | some name =>
      unfold nameIn at hname
      split at hname
      · exact ruleName_ne_nil hname
      · cases hname

/-- The current rule while a block is open. -/
def currentOf (position : ℕ) (block : List Str) : ParsedRule :=
  if block=[] then {} else ruleOf position block

/-- A `rule` line names the current rule as the longer block does. -/
theorem currentOf_rule {text : Str} (htext : isRuleLine text=true) (rules : List ParsedRule)
    (block : List Str) :
    { currentOf (rules.length+1) block with
      name := nameAfter rules (currentOf (rules.length+1) block) text }=
      currentOf (rules.length+1) (block++[text]) := by
  have hopen : currentOf (rules.length+1) (block++[text])=ruleOf (rules.length+1) (block++[text]) :=
    if_neg (List.append_ne_nil_of_right_ne_nil _ (List.cons_ne_nil _ _))
  have hcustom : customName (rules.length+1)≠[] := List.append_ne_nil_of_left_ne_nil (by decide) _
  rw [hopen,ruleOf_rule htext,nameAfter_eq]
  unfold currentOf
  by_cases hblock : block=[]
  · rw [if_pos hblock,hblock,if_pos rfl]
    rfl
  · rw [if_neg hblock]
    have hname : (ruleOf (rules.length+1) block).name≠[] := latest_name_ne_nil hcustom block
    rw [if_neg hname]
    rfl

/-- Any other line changes the current rule as the longer block does. -/
theorem currentOf_body {text : Str} (htext : isRuleLine text=false) {block : List Str}
    (hblock : block≠[]) (position : ℕ) :
    (currentOf position block).readBody text=currentOf position (block++[text]) := by
  unfold currentOf
  rw [if_neg hblock,if_neg (List.append_ne_nil_of_left_ne_nil hblock _),ruleOf_body htext]

/-- The strings of the current rule. -/
theorem strings_currentOf (position : ℕ) (block : List Str) :
    (currentOf position block).strings=stringsIn block := by
  unfold currentOf
  split
  · next h => rw [h]; rfl
  · rfl

/-- Rules of blocks in two parts. -/
theorem rulesFrom_append (position : ℕ) (first second : List (List Str)) :
    rulesFrom position (first++second)=
      rulesFrom position first++rulesFrom (position+first.length) second := by
  unfold rulesFrom
  rw [List.mapIdx_append]
  congr 2
  funext i block
  have hposition : position+(i+first.length)+1=position+first.length+i+1 := by omega
  rw [hposition]

/-- The parser after some lines, whose blocks are given. -/
structure Follows (rules : List ParsedRule) (blocks : List (List Str)×List Str)
    (s : ParserState) : Prop where
  /-- The closed blocks are stored. -/
  stored : s.rules=rules++rulesFrom rules.length blocks.1
  /-- A rule has been added when a block is closed. -/
  added : s.addedAny = !blocks.1.isEmpty
  /-- The parser is in a rule when a block is open. -/
  opened : s.inRule = !blocks.2.isEmpty
  /-- The current rule is that of the open block. -/
  current : s.currentRule=currentOf (s.rules.length+1) blocks.2

variable {rules : List ParsedRule} {blocks : List (List Str)×List Str} {s : ParserState}

/-- The rule of a block that is closed takes the next position. -/
theorem Follows.store_closed (h : Follows rules blocks s) (hstrings : stringsIn blocks.2≠[]) :
    s.store={ s with rules := rules++rulesFrom rules.length (blocks.1++[blocks.2])
                     currentRule := {},addedAny := true } := by
  have hne : blocks.2≠[] := fun hnil => hstrings (by rw [hnil]; rfl)
  have hin : s.inRule=true := by
    rw [h.opened,Bool.not_eq_true',List.isEmpty_eq_false_iff]
    exact hne
  have hcurrent : s.currentRule.strings≠[] := by
    rw [h.current,strings_currentOf]
    exact hstrings
  have hlength : s.rules.length=rules.length+blocks.1.length := by
    rw [h.stored,List.length_append]
    exact congrArg _ List.length_mapIdx
  have hrule : s.currentRule=ruleOf (rules.length+blocks.1.length+1) blocks.2 := by
    rw [h.current,hlength]
    exact if_neg hne
  unfold ParserState.store
  rw [if_pos ⟨hin,hcurrent⟩,h.stored,hrule,rulesFrom_append,List.append_assoc]
  rfl

/-- A block without a string is not stored. -/
theorem Follows.store_open (h : Follows rules blocks s) (hstrings : stringsIn blocks.2=[]) :
    s.store=s := by
  refine if_neg fun hboth => hboth.2 ?_
  rw [h.current,strings_currentOf]
  exact hstrings

/-- The end of the text closes the last block. -/
theorem Follows.store (h : Follows rules blocks s) :
    (s.store.rules,s.store.addedAny)=
      (rules++rulesFrom rules.length (closing blocks), !(closing blocks).isEmpty) := by
  unfold closing
  by_cases hstrings : stringsIn blocks.2=[]
  · rw [h.store_open hstrings,if_neg (not_not_intro hstrings),h.stored,h.added]
  · rw [h.store_closed hstrings,if_pos hstrings]
    cases blocks.1 <;> rfl

/-- A `rule` line. -/
theorem Follows.rule {text : Str} (h : Follows rules blocks s) (htext : isRuleLine text=true) :
    Follows rules (cut blocks text) (s.readTrimmed text) := by
  unfold cut ParserState.readTrimmed
  rw [if_pos htext,if_pos htext]
  by_cases hstrings : stringsIn blocks.2=[]
  · rw [h.store_open hstrings,if_neg (not_not_intro hstrings)]
    refine ⟨h.stored,h.added,?_,?_⟩
    · rw [List.isEmpty_eq_false_iff.mpr
        (List.append_ne_nil_of_right_ne_nil _ (List.cons_ne_nil _ _))]
      rfl
    · have hcurrent := currentOf_rule htext s.rules blocks.2
      rw [← h.current] at hcurrent
      exact hcurrent
  · rw [h.store_closed hstrings,if_pos hstrings]
    refine ⟨rfl,?_,rfl,currentOf_rule htext _ []⟩
    rw [List.isEmpty_eq_false_iff.mpr
      (List.append_ne_nil_of_right_ne_nil _ (List.cons_ne_nil _ _))]
    rfl

/-- Any other line. -/
theorem Follows.body {text : Str} (h : Follows rules blocks s) (htext : isRuleLine text=false) :
    Follows rules (cut blocks text) (s.readTrimmed text) := by
  have hline := Bool.eq_false_iff.mp htext
  unfold cut ParserState.readTrimmed
  rw [if_neg hline,if_neg hline]
  by_cases hopen : blocks.2=[]
  · have hin : ¬s.inRule=true := by
      rw [h.opened,hopen]
      decide
    rw [if_neg hin,if_pos hopen]
    exact h
  · have hin : s.inRule=true := by
      rw [h.opened,List.isEmpty_eq_false_iff.mpr hopen]
      rfl
    rw [if_pos hin,if_neg hopen]
    refine ⟨h.stored,h.added,?_,?_⟩
    · rw [hin,List.isEmpty_eq_false_iff.mpr (List.append_ne_nil_of_left_ne_nil hopen _)]
      rfl
    · rw [h.current]
      exact currentOf_body htext hopen _

/-- The lines of a text, one after the other. -/
theorem Follows.run (h : Follows rules blocks s) (texts : List Str) :
    Follows rules (texts.foldl cut blocks) (texts.foldl ParserState.readTrimmed s) := by
  induction texts generalizing blocks s with
  | nil => exact h
  | cons text rest ih =>
    cases htext : isRuleLine text with
    | false => exact ih (h.body htext)
    | true => exact ih (h.rule htext)

/-- Skipped lines change nothing. -/
theorem foldl_readLine (texts : List Str) (s : ParserState) :
    texts.foldl ParserState.readLine s=
      ((texts.map (trim isBlank)).filter significant).foldl ParserState.readTrimmed s := by
  rw [List.foldl_filter,List.foldl_map]
  rfl

/-- Reading a text stores the rules of its blocks, and the value returned
says whether there are any. -/
theorem addRuleFromString_eq (rules : List ParsedRule) (ruleText : Str) :
    addRuleFromString rules ruleText=
      (rules++rulesFrom rules.length (closing (cuts ruleText)),
        !(closing (cuts ruleText)).isEmpty) := by
  have hstart : Follows rules ([],[]) { rules := rules } := ⟨(List.append_nil _).symm,rfl,rfl,rfl⟩
  have hread := (hstart.run (lines ruleText)).store
  unfold addRuleFromString
  dsimp only
  rw [foldl_readLine]
  exact hread

end Reading

section Composition

/-- Lines of a text that is continued on a new line. -/
theorem lines_append (a b : Str) : lines (a++ '\n'::b)=lines a++lines b := by
  have hlast : ((a.splitOn '\n').map (trim isBlank)).filter significant=lines a := by
    unfold lines pieces
    dsimp only
    split
    · next hempty =>
      have hne := List.splitOn_ne_nil '\n' a
      rw [List.getLast?_eq_some_getLast hne,Option.all_some,List.isEmpty_iff] at hempty
      have hsplit := List.dropLast_append_getLast hne
      rw [hempty] at hsplit
      nth_rewrite 1 [← hsplit]
      rw [List.map_append,List.filter_append]
      exact List.append_nil _
    · rfl
  unfold lines
  rw [pieces_append_cons,List.map_append,List.filter_append]
  exact congrArg (fun first => first++lines b) hlast

/-- Blocks that are closed already stay in front. -/
theorem foldl_cut_closed (closed : List (List Str)) (texts : List Str)
    (blocks : List (List Str)×List Str) :
    texts.foldl cut (closed++blocks.1,blocks.2)=
      (closed++(texts.foldl cut blocks).1,(texts.foldl cut blocks).2) := by
  induction texts generalizing blocks with
  | nil => rfl
  | cons text rest ih =>
    have hstep : cut (closed++blocks.1,blocks.2) text=
        (closed++(cut blocks text).1,(cut blocks text).2) := by
      unfold cut
      split_ifs <;> simp only [List.append_assoc]
    rw [List.foldl_cons,List.foldl_cons,hstep]
    exact ih (cut blocks text)

/-- Closing puts blocks that are closed already in front, too. -/
theorem closing_closed (closed : List (List Str)) (blocks : List (List Str)×List Str) :
    closing (closed++blocks.1,blocks.2)=closed++closing blocks := by
  unfold closing
  split
  · exact List.append_assoc ..
  · rfl

/-- Lines put in front of the first block. -/
def prepend (opened : List Str) : List (List Str) → List (List Str)
  | [] => []
  | block::rest => (opened++block)::rest

/-- Lines put in front of the first block, which may be the open one. -/
def carry (opened : List Str) (blocks : List (List Str)×List Str) : List (List Str)×List Str :=
  match blocks.1 with
  | [] => ([],opened++blocks.2)
  | _::_ => (prepend opened blocks.1,blocks.2)

section Carry

variable {opened : List Str}

/-- Lines without a string do not change the strings of the block. -/
theorem stringsIn_carried (hopened : stringsIn opened=[]) (block : List Str) :
    stringsIn (opened++block)=stringsIn block := by
  unfold stringsIn at hopened ⊢
  rw [List.filterMap_append,hopened,List.nil_append]

/-- The strings of the open block. -/
theorem stringsIn_carry (hopened : stringsIn opened=[]) (blocks : List (List Str)×List Str) :
    stringsIn (carry opened blocks).2=stringsIn blocks.2 := by
  unfold carry
  split
  · exact stringsIn_carried hopened _
  · rfl

/-- The open block is carried into the list of closed ones. -/
theorem carry_close (opened : List Str) (blocks : List (List Str)×List Str) (next : List Str) :
    carry opened (blocks.1++[blocks.2],next)=
      ((carry opened blocks).1++[(carry opened blocks).2],next) := by
  obtain ⟨closed,block⟩ := blocks
  cases closed <;> rfl

/-- The open block is carried along when it is continued. -/
theorem carry_extend (opened : List Str) (blocks : List (List Str)×List Str) (text : Str) :
    carry opened (blocks.1,blocks.2++[text])=
      ((carry opened blocks).1,(carry opened blocks).2++[text]) := by
  obtain ⟨closed,block⟩ := blocks
  cases closed with
  | nil => exact congrArg (Prod.mk []) (List.append_assoc ..).symm
  | cons first closed => rfl

/-- A line is cut off in the same place when the first block is longer. -/
theorem cut_carry (hopened : stringsIn opened=[]) {blocks : List (List Str)×List Str}
    (hblocks : blocks.2≠[]) (text : Str) :
    cut (carry opened blocks) text=carry opened (cut blocks text) := by
  have hlonger : (carry opened blocks).2≠[] := by
    unfold carry
    split
    · exact List.append_ne_nil_of_right_ne_nil _ hblocks
    · exact hblocks
  unfold cut
  rw [if_neg hblocks,if_neg hlonger,stringsIn_carry hopened,← carry_close,← carry_extend]
  split_ifs <;> rfl

/-- An open block stays open or is followed by one. -/
theorem cut_open {blocks : List (List Str)×List Str} (hblocks : blocks.2≠[]) (text : Str) :
    (cut blocks text).2≠[] := by
  unfold cut
  split_ifs
  · exact List.cons_ne_nil _ _
  · exact List.append_ne_nil_of_left_ne_nil hblocks _
  · exact List.append_ne_nil_of_left_ne_nil hblocks _

/-- All lines are cut off in the same places. -/
theorem foldl_cut_carry (hopened : stringsIn opened=[]) {blocks : List (List Str)×List Str}
    (hblocks : blocks.2≠[]) (texts : List Str) :
    texts.foldl cut (carry opened blocks)=carry opened (texts.foldl cut blocks) := by
  induction texts generalizing blocks with
  | nil => rfl
  | cons text rest ih =>
    rw [List.foldl_cons,cut_carry hopened hblocks]
    exact ih (cut_open hblocks text)

/-- The blocks that become rules are the same but for the first. -/
theorem closing_carry (hopened : stringsIn opened=[]) (blocks : List (List Str)×List Str) :
    closing (carry opened blocks)=prepend opened (closing blocks) := by
  unfold closing
  rw [stringsIn_carry hopened]
  obtain ⟨closed,block⟩ := blocks
  cases closed with
  | nil => split <;> rfl
  | cons first closed => split <;> rfl

/-- A carried block describes the same rule exactly when the carry is
harmless. -/
theorem ruleOf_carried_iff (hopened : stringsIn opened=[]) (position : ℕ) (block : List Str) :
    ruleOf position (opened++block)=ruleOf position block ↔
      HarmlessCarry position opened block := by
  unfold ruleOf
  rw [ParsedRule.mk.injEq,latest_append,latest_append,latest_append,latest_eq_iff,latest_eq_iff,
    latest_eq_iff,stringsIn_carried hopened]
  exact ⟨fun ⟨hname,_,hcondition,hlevel⟩ => ⟨hname,hcondition,hlevel⟩,
    fun h => ⟨h.name,rfl,h.condition,h.threatLevel⟩⟩

/-- The same for the rules of all blocks. -/
theorem rulesFrom_prepend_iff (hopened : stringsIn opened=[]) (position : ℕ)
    (blocks : List (List Str)) :
    rulesFrom position (prepend opened blocks)=rulesFrom position blocks ↔
      ∀ block ∈ blocks.head?, HarmlessCarry (position+1) opened block := by
  cases blocks with
  | nil => exact ⟨fun _ block h => absurd h (Option.not_mem_none block),fun _ => rfl⟩
  | cons block rest =>
    unfold rulesFrom prepend
    rw [List.mapIdx_cons,List.mapIdx_cons,List.cons.injEq,ruleOf_carried_iff hopened]
    exact ⟨fun h other hother => Option.some.inj hother ▸ h.1,fun h => ⟨h block rfl,rfl⟩⟩

end Carry

section Texts

variable {a b : Str}

/-- The blocks of a text that is continued on a new line. -/
theorem cuts_append (a b : Str) : cuts (a++ '\n'::b)=(lines b).foldl cut (cuts a) := by
  unfold cuts
  rw [lines_append,List.foldl_append]

/-- The blocks of a text that begins with a `rule` line. -/
theorem cuts_begin (hb : beginsWithRule b=true) : ∃ text rest, isRuleLine text=true ∧
    lines b=text::rest ∧ cuts b=rest.foldl cut ([],[text]) := by
  unfold beginsWithRule at hb
  unfold cuts
  cases hlines : lines b with
  | nil =>
    rw [hlines] at hb
    cases hb
  | cons text rest =>
    rw [hlines] at hb
    refine ⟨text,rest,hb,rfl,?_⟩
    rw [List.foldl_cons]
    exact congrArg (fun first => List.foldl cut first rest) (if_pos hb)

/-- A last block with a string ends where the second text begins. -/
theorem closing_append_closed (hb : beginsWithRule b=true) (ha : stringsIn (cuts a).2≠[]) :
    closing (cuts (a++ '\n'::b))=closing (cuts a)++closing (cuts b) := by
  obtain ⟨text,rest,htext,hlines,hcuts⟩ := cuts_begin hb
  have hfirst : cut (cuts a) text=(((cuts a).1++[(cuts a).2])++[],[text]) := by
    unfold cut
    rw [if_pos htext,if_pos ha,List.append_nil]
  have hclosing : closing (cuts a)=(cuts a).1++[(cuts a).2] := if_pos ha
  rw [cuts_append,hlines,List.foldl_cons,hfirst,foldl_cut_closed _ rest ([],[text]),← hcuts,
    closing_closed,hclosing]

/-- A last block without a string is continued by the second text. -/
theorem closing_append_open (hb : beginsWithRule b=true) (ha : stringsIn (cuts a).2=[]) :
    closing (cuts (a++ '\n'::b))=(cuts a).1++prepend (cuts a).2 (closing (cuts b)) := by
  obtain ⟨text,rest,htext,hlines,hcuts⟩ := cuts_begin hb
  have hfirst : cut (cuts a) text=((cuts a).1++(carry (cuts a).2 ([],[text])).1,
      (carry (cuts a).2 ([],[text])).2) := by
    unfold cut
    rw [if_pos htext,if_neg (not_not_intro ha)]
    exact congrArg (fun closed => (closed,(cuts a).2++[text])) (List.append_nil _).symm
  rw [cuts_append,hlines,List.foldl_cons,hfirst,foldl_cut_closed,
    foldl_cut_carry ha (List.cons_ne_nil _ _),← hcuts,closing_closed,closing_carry ha]

/-- A text followed by one that begins with a `rule` line is read as the two
texts are read one after the other exactly when the first leaves no open
block without a string whose name, condition or level shows in the first
rule of the second. -/
theorem parsing_compositional_iff (rules : List ParsedRule) (a b : Str)
    (hb : beginsWithRule b=true) :
    (addRuleFromString rules (a++ '\n'::b)).1=
        (addRuleFromString (addRuleFromString rules a).1 b).1 ↔
      stringsIn (cuts a).2≠[] ∨ ∀ block ∈ (closing (cuts b)).head?,
        HarmlessCarry (rules.length+(cuts a).1.length+1) (cuts a).2 block := by
  have hlength : ∀ blocks, (rules++rulesFrom rules.length blocks).length=
      rules.length+blocks.length := by
    intro blocks
    rw [List.length_append]
    exact congrArg _ List.length_mapIdx
  rw [addRuleFromString_eq,addRuleFromString_eq,addRuleFromString_eq]
  dsimp only
  rw [hlength]
  by_cases ha : stringsIn (cuts a).2=[]
  · have hclosing : closing (cuts a)=(cuts a).1 := if_neg (not_not_intro ha)
    rw [closing_append_open hb ha,hclosing,rulesFrom_append,List.append_assoc,
      List.append_cancel_left_eq,List.append_cancel_left_eq,rulesFrom_prepend_iff ha]
    exact ⟨Or.inr,fun h => h.resolve_left (not_not_intro ha)⟩
  · rw [closing_append_closed hb ha,rulesFrom_append,List.append_assoc]
    exact ⟨fun _ => Or.inl ha,fun _ => rfl⟩

set_option maxRecDepth 10000 in
/-- A rule with a string is complete when the next text begins. -/
theorem parsing_compositional_fixture :
    (addRuleFromString [] "rule a\n$x = \"t\"\nall of them\nrule b\n$y = \"u\"".toList).1=
      (addRuleFromString (addRuleFromString [] "rule a\n$x = \"t\"\nall of them".toList).1
        "rule b\n$y = \"u\"".toList).1 := by
  have hb : beginsWithRule "rule b\n$y = \"u\"".toList=true := by decide +kernel
  have ha : stringsIn (cuts "rule a\n$x = \"t\"\nall of them".toList).2≠[] := by decide +kernel
  exact (parsing_compositional_iff [] "rule a\n$x = \"t\"\nall of them".toList _ hb).mpr
    (Or.inl ha)

set_option maxRecDepth 10000 in
/-- The condition of a rule without a string passes to the next rule. -/
theorem parsing_not_compositional :
    beginsWithRule "rule b\n$x = \"t\"".toList=true ∧
    (addRuleFromString [] ("rule a\nall of them".toList++ '\n'::"rule b\n$x = \"t\"".toList)).1≠
      (addRuleFromString (addRuleFromString [] "rule a\nall of them".toList).1
        "rule b\n$x = \"t\"".toList).1 := by decide +kernel

end Texts

end Composition

end Gcad.YaraRules
