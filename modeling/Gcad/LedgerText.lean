import Gcad.Common
import Gcad.DelimitedText

/-!
# The text of the quarantine ledger

One record is one line of eight fields with a vertical bar between them.
Loading splits the text into lines and a line into fields, skips every
line that does not have seven or eight fields or whose numbers do not
parse, and raises the next number above every number it has read. Numbers
are read as `std::stoull` and `std::stoll` read them: leading white space
and one sign are accepted, and whatever follows the digits is ignored.
-/

namespace Gcad.LedgerText

open Common DelimitedText

/-- A quarantine record. -/
structure QuarantineRecord where
  /-- Number of the record, a `uint64_t`. -/
  id : ℕ
  /-- Finding for which the file was moved. -/
  findingId : ℕ
  /-- Path the file was moved from. -/
  originalPath : Str
  /-- Path of the file in the vault. -/
  vaultPath : Str
  /-- Hash of the file when it was moved. -/
  sha256AtQuarantine : Str
  /-- Time of the move. -/
  quarantinedAt : TimePoint
  /-- The file has been moved back. -/
  restored : Bool
  /-- The file has been destroyed. -/
  shredded : Bool
  deriving DecidableEq

/-- `std::to_string` of a signed integer. -/
def toSignedDecimal (z : ℤ) : Str :=
  if z < 0 then '-'::toDecimal z.natAbs else toDecimal z.natAbs

/-- How the ledger writes a flag. -/
def flagText (flag : Bool) : Str := if flag then ['1'] else ['0']

/-- The epoch of a time point in whole seconds; `duration_cast` truncates
toward zero. -/
def epochSeconds (time : TimePoint) : ℤ := time.tdiv (10^9)

/-- The eight fields of a record. -/
def ledgerFields (record : QuarantineRecord) : List Str :=
  [toDecimal record.id,toDecimal record.findingId,record.originalPath,record.vaultPath,
    record.sha256AtQuarantine,toSignedDecimal (epochSeconds record.quarantinedAt),
    flagText record.restored,flagText record.shredded]

/-- `ledger_line`. -/
def ledgerLine (record : QuarantineRecord) : Str := ['|'].intercalate (ledgerFields record)

/-- `has_unsafe_delimiter`. -/
def hasUnsafeDelimiter (value : Str) : Bool := value.elem '|' || value.elem '\n'

/-- `isspace` in the C locale. -/
def isSpace (c : Char) : Bool :=
  c = ' ' || (decide (9 ≤ c.toNat) && decide (c.toNat ≤ 13))

/-- The optional sign in front of the digits; true stands for a minus. -/
def readSign : Str → Bool×Str
  | '-'::rest => (true,rest)
  | '+'::rest => (false,rest)
  | rest => (false,rest)

/-- Sign and magnitude of the integer a text starts with. -/
def scanInteger (text : Str) : Option (Bool×ℕ) :=
  let signed := readSign (text.dropWhile isSpace)
  let digits := signed.2.takeWhile Char.isDigit
  if digits=[] then none else some (signed.1,Nat.ofDigitChars 10 digits 0)

/-- `std::stoull`: a minus sign is accepted and wraps around. -/
def stoull (text : Str) : Option ℕ :=
  (scanInteger text).bind fun scanned =>
    if 2^64 ≤ scanned.2 then none
    else some (if scanned.1 then (2^64-scanned.2)%2^64 else scanned.2)

/-- `std::stoll`. -/
def stoll (text : Str) : Option ℤ :=
  (scanInteger text).bind fun scanned =>
    let value : ℤ := if scanned.1 then -(scanned.2 : ℤ) else scanned.2
    if value < -2^63 ∨ 2^63 ≤ value then none else some value

/-- `std::stoi`; nothing is returned where it throws. -/
def stoi (text : Str) : Option ℤ :=
  (scanInteger text).bind fun scanned =>
    let value : ℤ := if scanned.1 then -(scanned.2 : ℤ) else scanned.2
    if value < -2^31 ∨ 2^31 ≤ value then none else some value

/-- The record in seven parsed fields and the eighth flag. -/
def readRecord (id findingId originalPath vaultPath sha256 epoch restored : Str)
    (shredded : Bool) : Option QuarantineRecord :=
  (stoull id).bind fun id => (stoull findingId).bind fun findingId =>
    (stoll epoch).map fun epoch =>
      ⟨id,findingId,originalPath,vaultPath,sha256,seconds epoch,decide (restored=['1']),shredded⟩

/-- The body of the loading loop for one line: the record, or nothing for
a line that is skipped. Seven fields are a record without the last flag. -/
def parseLine (line : Str) : Option QuarantineRecord :=
  if line=[] then none
  else match line.splitOn '|' with
  | [id,findingId,originalPath,vaultPath,sha256,epoch,restored] =>
    readRecord id findingId originalPath vaultPath sha256 epoch restored false
  | [id,findingId,originalPath,vaultPath,sha256,epoch,restored,shredded] =>
    readRecord id findingId originalPath vaultPath sha256 epoch restored (decide (shredded=['1']))
  | _ => none

/-- One round of the loading loop on the records and the next number. -/
def loadLine (loaded : List QuarantineRecord×ℕ) (line : Str) : List QuarantineRecord×ℕ :=
  match parseLine line with
  | none => loaded
  | some record => (loaded.1++[record],
      if loaded.2 ≤ record.id then (record.id+1)%2^64 else loaded.2)

/-- `load_ledger_locked` on the text of the ledger file. -/
def loadLedger (text : Str) : List QuarantineRecord×ℕ :=
  (text.splitOn '\n').foldl loadLine ([],1)

/-- Lines, each followed by a line break. -/
def unlines (lines : List Str) : Str := lines.flatMap fun line => line++['\n']

section Numbers

/-- Every character of a rendered number is a digit. -/
theorem isDigit_of_mem_toDecimal {n : ℕ} {c : Char} (h : c ∈ toDecimal n) : c.isDigit=true :=
  Nat.isDigit_of_mem_toDigits (by decide) (by decide) h

/-- A rendered number has a digit. -/
theorem toDecimal_ne_nil (n : ℕ) : toDecimal n≠[] := Nat.toDigits_ne_nil

/-- The value of a rendered number. -/
theorem ofDigitChars_toDecimal (n : ℕ) : Nat.ofDigitChars 10 (toDecimal n) 0=n :=
  Nat.ofDigitChars_ten_toDigits

/-- A digit is neither white space nor a sign nor a delimiter. -/
theorem isDigit_plain {c : Char} (h : c.isDigit=true) :
    isSpace c=false ∧ c ≠ '-' ∧ c ≠ '+' ∧ c ≠ '|' ∧ c ≠ '\n' := by
  refine ⟨?_,?_,?_,?_,?_⟩
  · by_contra hs
    simp only [isSpace,Bool.not_eq_false,Bool.or_eq_true,Bool.and_eq_true,decide_eq_true_eq] at hs
    have hd := Char.isDigit_iff_toNat.mp h
    rcases hs with rfl | hs
    · exact absurd h (by decide)
    · have h0 : '0'.toNat=48 := rfl
      omega
  all_goals
    rintro rfl
    exact absurd h (by decide)

/-- A text that begins with no sign keeps its characters. -/
theorem readSign_plain {c : Char} {rest : Str} (hminus : c ≠ '-') (hplus : c ≠ '+') :
    readSign (c::rest)=(false,c::rest) := by
  unfold readSign
  split
  · next heq => exact absurd (List.cons.inj heq).1 hminus
  · next heq => exact absurd (List.cons.inj heq).1 hplus
  · rfl

/-- A text of digits scans as its value without a sign. -/
theorem scanInteger_digits {digits : Str} (hne : digits≠[])
    (h : ∀ c ∈ digits, c.isDigit=true) :
    scanInteger digits=some (false,Nat.ofDigitChars 10 digits 0) := by
  obtain ⟨c,rest,rfl⟩ := List.exists_cons_of_ne_nil hne
  obtain ⟨hspace,hminus,hplus,-,-⟩ := isDigit_plain (h c List.mem_cons_self)
  have hdrop : (c::rest).dropWhile isSpace=c::rest := by
    rw [List.dropWhile_cons,hspace]
    rfl
  have hsign : readSign (c::rest)=(false,c::rest) := readSign_plain hminus hplus
  have htake : (c::rest).takeWhile Char.isDigit=c::rest := List.takeWhile_eq_self_iff.mpr h
  unfold scanInteger
  dsimp only
  rw [hdrop,hsign,htake,if_neg hne]

/-- A rendered number scans as itself. -/
theorem scanInteger_toDecimal (n : ℕ) : scanInteger (toDecimal n)=some (false,n) := by
  rw [scanInteger_digits (toDecimal_ne_nil n) fun c hc => isDigit_of_mem_toDecimal hc]
  rw [ofDigitChars_toDecimal]

/-- A rendered negative number scans with its sign. -/
theorem scanInteger_minus (n : ℕ) : scanInteger ('-'::toDecimal n)=some (true,n) := by
  have hdigits : (toDecimal n).takeWhile Char.isDigit=toDecimal n :=
    List.takeWhile_eq_self_iff.mpr fun c hc => isDigit_of_mem_toDecimal hc
  have hdrop : ('-'::toDecimal n).dropWhile isSpace = '-'::toDecimal n := by
    rw [List.dropWhile_cons]
    rfl
  unfold scanInteger
  dsimp only
  rw [hdrop]
  have hsign : readSign ('-'::toDecimal n)=(true,toDecimal n) := rfl
  rw [hsign]
  dsimp only
  rw [hdigits,if_neg (toDecimal_ne_nil n),ofDigitChars_toDecimal]

/-- Unsigned numbers within 64 bits are read back. -/
theorem stoull_toDecimal (n : ℕ) : stoull (toDecimal n)=if 2^64 ≤ n then none else some n := by
  rw [stoull,scanInteger_toDecimal]
  rfl

/-- Numbers within a machine integer are read back. -/
theorem stoi_toDecimal {n : ℕ} (h : n < 2^31) : stoi (toDecimal n)=some (n : ℤ) := by
  rw [stoi,scanInteger_toDecimal]
  simp only [Option.bind_some,Bool.false_eq_true,if_false]
  rw [if_neg (by omega)]

/-- Signed numbers within 64 bits are read back. -/
theorem stoll_toSignedDecimal (z : ℤ) :
    stoll (toSignedDecimal z)=if z < -2^63 ∨ 2^63 ≤ z then none else some z := by
  unfold toSignedDecimal stoll
  split
  · next hneg =>
    have hz : -(z.natAbs : ℤ)=z := by omega
    rw [scanInteger_minus]
    simp only [Option.bind_some,if_true,hz]
  · next hpos =>
    have hz : (z.natAbs : ℤ)=z := by omega
    rw [scanInteger_toDecimal]
    simp only [Option.bind_some,Bool.false_eq_true,if_false,hz]

/-- A character of a rendered signed number is a digit or a minus. -/
theorem plain_of_mem_toSignedDecimal {z : ℤ} {c : Char} (h : c ∈ toSignedDecimal z) :
    c ≠ '|' ∧ c ≠ '\n' := by
  have hdigit : ∀ d ∈ toDecimal z.natAbs, d ≠ '|' ∧ d ≠ '\n' :=
    fun d hd => (isDigit_plain (isDigit_of_mem_toDecimal hd)).2.2.2
  unfold toSignedDecimal at h
  split at h
  · rcases List.mem_cons.mp h with rfl | h
    · decide
    · exact hdigit c h
  · exact hdigit c h

end Numbers

section Lines

/-- A text that can stand in a field. -/
def Plain (text : Str) : Prop := ∀ c ∈ text, c ≠ '|' ∧ c ≠ '\n'

/-- The source's delimiter test is exactly the absence of the two
delimiters. -/
theorem hasUnsafeDelimiter_eq_false_iff (value : Str) :
    hasUnsafeDelimiter value=false ↔ Plain value := by
  unfold hasUnsafeDelimiter Plain
  rw [Bool.or_eq_false_iff,List.elem_eq_mem,List.elem_eq_mem,decide_eq_false_iff_not,
    decide_eq_false_iff_not]
  constructor
  · intro h c hc
    exact ⟨fun he => h.1 (he ▸ hc),fun he => h.2 (he ▸ hc)⟩
  · intro h
    exact ⟨fun hm => (h _ hm).1 rfl,fun hm => (h _ hm).2 rfl⟩

/-- The three text fields of a record hold no delimiter. -/
structure PlainRecord (record : QuarantineRecord) : Prop where
  /-- No delimiter in the original path. -/
  original : Plain record.originalPath
  /-- No delimiter in the vault path. -/
  vault : Plain record.vaultPath
  /-- No delimiter in the hash. -/
  sha256 : Plain record.sha256AtQuarantine

variable {record : QuarantineRecord}

/-- Then no field of the line holds one. -/
theorem PlainRecord.fields (h : PlainRecord record) : ∀ field ∈ ledgerFields record, Plain field := by
  have hdecimal : ∀ n, Plain (toDecimal n) :=
    fun n c hc => (isDigit_plain (isDigit_of_mem_toDecimal hc)).2.2.2
  have hflag : ∀ flag, Plain (flagText flag) := by
    intro flag c hc
    cases flag with
    | false => rw [List.mem_singleton.mp hc]; decide
    | true => rw [List.mem_singleton.mp hc]; decide
  intro field hfield
  simp only [ledgerFields,List.mem_cons,List.not_mem_nil,or_false] at hfield
  rcases hfield with rfl | rfl | rfl | rfl | rfl | rfl | rfl | rfl
  · exact hdecimal _
  · exact hdecimal _
  · exact h.original
  · exact h.vault
  · exact h.sha256
  · exact fun c hc => plain_of_mem_toSignedDecimal hc
  · exact hflag _
  · exact hflag _

/-- The line of such a record is one line. -/
theorem PlainRecord.line (h : PlainRecord record) : '\n' ∉ ledgerLine record :=
  not_mem_intercalate (by decide) fun field hf hc => (h.fields field hf _ hc).2 rfl

/-- The fields of the line are read back. -/
theorem PlainRecord.splitOn_line (h : PlainRecord record) :
    (ledgerLine record).splitOn '|'=ledgerFields record :=
  List.splitOn_intercalate '|' (fun field hf hc => (h.fields field hf _ hc).1 rfl)
    (List.cons_ne_nil _ _)

/-- A record whose numbers a 64-bit reader accepts. -/
structure ReadableNumbers (record : QuarantineRecord) : Prop where
  /-- The record's number fits. -/
  id : record.id < 2^64
  /-- The finding's number fits. -/
  findingId : record.findingId < 2^64
  /-- The epoch fits. -/
  epoch : -2^63 ≤ epochSeconds record.quarantinedAt ∧ epochSeconds record.quarantinedAt < 2^63

/-- Reading a written line gives the record back with its time cut to
whole seconds, and skips it exactly when a number does not fit. -/
theorem PlainRecord.parseLine_eq (h : PlainRecord record) [Decidable (ReadableNumbers record)] :
    parseLine (ledgerLine record)=if ReadableNumbers record then
      some {record with quarantinedAt := seconds (epochSeconds record.quarantinedAt)} else none := by
  have hne : ledgerLine record≠[] := by
    intro hnil
    have hsplit := h.splitOn_line
    rw [hnil] at hsplit
    have hlen : 1=8 := congrArg List.length hsplit
    omega
  have hflag : ∀ flag, decide (flagText flag=['1'])=flag := by
    intro flag
    cases flag <;> rfl
  unfold parseLine
  rw [if_neg hne,h.splitOn_line]
  simp only [ledgerFields,readRecord,stoull_toDecimal,stoll_toSignedDecimal,hflag]
  by_cases hread : ReadableNumbers record
  · rw [if_pos hread,if_neg (Nat.not_le.mpr hread.id),if_neg (Nat.not_le.mpr hread.findingId),
      if_neg (not_or.mpr ⟨not_lt.mpr hread.epoch.1,not_le.mpr hread.epoch.2⟩)]
    rfl
  · rw [if_neg hread]
    by_cases hid : 2^64 ≤ record.id
    · rw [if_pos hid]
      rfl
    · by_cases hfinding : 2^64 ≤ record.findingId
      · rw [if_neg hid,if_pos hfinding]
        rfl
      · have hepoch : epochSeconds record.quarantinedAt < -2^63 ∨
            2^63 ≤ epochSeconds record.quarantinedAt := by
          by_contra hin
          rw [not_or,not_lt,not_le] at hin
          exact hread ⟨Nat.not_le.mp hid,Nat.not_le.mp hfinding,hin⟩
        rw [if_neg hid,if_neg hfinding,if_pos hepoch]
        rfl

/-- What a written line is read back as, where it is read at all. -/
theorem PlainRecord.parseLine_eq_some (h : PlainRecord record) {read : QuarantineRecord}
    (hread : parseLine (ledgerLine record)=some read) :
    read={record with quarantinedAt := seconds (epochSeconds record.quarantinedAt)} := by
  classical
  rw [h.parseLine_eq] at hread
  split at hread
  · exact (Option.some.inj hread).symm
  · cases hread

/-- Complete lines are split again into themselves and an empty rest. -/
theorem splitOn_unlines {lines : List Str} (h : ∀ line ∈ lines, '\n' ∉ line) :
    (unlines lines).splitOn '\n'=lines++[[]] := by
  induction lines with
  | nil => rfl
  | cons line rest ih =>
    have hcons : unlines (line::rest)=line++ '\n'::unlines rest := by
      simp only [unlines,List.flatMap_cons,List.append_assoc,List.singleton_append]
    rw [hcons,List.splitOn_append_cons_self_of_not_mem (h line List.mem_cons_self),
      ih fun other ho => h other (List.mem_cons_of_mem _ ho)]
    rfl

end Lines

section Loading

/-- A record is read from a text exactly when some line of it parses. -/
theorem foldl_loadLine_records (lines : List Str) (loaded : List QuarantineRecord×ℕ) :
    (lines.foldl loadLine loaded).1=loaded.1++lines.filterMap parseLine := by
  induction lines generalizing loaded with
  | nil => rw [List.foldl_nil,List.filterMap_nil,List.append_nil]
  | cons line rest ih =>
    rw [List.foldl_cons,ih,List.filterMap_cons]
    unfold loadLine
    split
    · next hnone => rw [hnone]
    · next record hsome => simp only [hsome,List.append_assoc,List.singleton_append]

/-- The loaded records are those of the lines that parse, in their order. -/
theorem loadLedger_records (text : Str) :
    (loadLedger text).1=(text.splitOn '\n').filterMap parseLine :=
  foldl_loadLine_records _ _

/-- The loop keeps the next number above every number read, as long as no
number is the largest one. -/
theorem foldl_loadLine_next (lines : List Str) (loaded : List QuarantineRecord×ℕ) {bound : ℕ}
    (hbound : bound < 2^64) (hnext : 1 ≤ loaded.2 ∧ loaded.2 ≤ bound)
    (hread : ∀ line ∈ lines, ∀ record, parseLine line=some record → record.id < bound)
    (habove : ∀ record ∈ loaded.1, record.id < loaded.2) :
    (1 ≤ (lines.foldl loadLine loaded).2 ∧ (lines.foldl loadLine loaded).2 ≤ bound) ∧
      ∀ record ∈ (lines.foldl loadLine loaded).1, record.id < (lines.foldl loadLine loaded).2 := by
  induction lines generalizing loaded with
  | nil => exact ⟨hnext,habove⟩
  | cons line rest ih =>
    have hrest : ∀ other ∈ rest, ∀ record, parseLine other=some record → record.id < bound :=
      fun other ho => hread other (List.mem_cons_of_mem _ ho)
    rw [List.foldl_cons]
    cases hparse : parseLine line with
    | none =>
      have hstep : loadLine loaded line=loaded := by rw [loadLine,hparse]
      rw [hstep]
      exact ih loaded hnext hrest habove
    | some record =>
      have hid := hread line List.mem_cons_self record hparse
      have hmod : (record.id+1)%2^64=record.id+1 := Nat.mod_eq_of_lt (by omega)
      have hstep : loadLine loaded line=(loaded.1++[record],
          if loaded.2 ≤ record.id then record.id+1 else loaded.2) := by
        rw [loadLine,hparse]
        simp only [hmod]
      rw [hstep]
      apply ih
      · dsimp only
        split <;> omega
      · exact hrest
      · intro other ho
        dsimp only at ho ⊢
        rcases List.mem_append.mp ho with ho | ho
        · have hold := habove other ho
          split <;> omega
        · rw [List.mem_singleton.mp ho]
          split <;> omega

end Loading

end Gcad.LedgerText
