import Gcad.ByteView
import Gcad.LedgerText

/-!
# IPv4 addresses as text

`parse_ipv4` and `ip_to_string` of firewall_engine.cpp. The loop ends as soon
as four octets have been read, and `std::from_chars` reads the digits a field
begins with, so what follows the fourth octet and what follows the digits of a
field is never looked at. The result zero stands for a text that is not an
address.
-/

namespace Gcad.Ipv4Text

open Common LedgerText

/-- `std::from_chars` into a `uint32_t`: the number a text begins with, with
no blank and no sign, or an error where there is none or it is too large. -/
def fromChars (sub : Str) : Option ℕ :=
  let digits := sub.takeWhile Char.isDigit
  if digits=[] then none
  else if 2^32 ≤ Nat.ofDigitChars 10 digits 0 then none
  else some (Nat.ofDigitChars 10 digits 0)

/-- The octet of a field, or nothing where `parse_ipv4` returns zero at once. -/
def readOctet (sub : Str) : Option ℕ :=
  match fromChars sub with
  | none => none
  | some val => if 255 < val then none else some val

/-- The loop of `parse_ipv4` with the octets read so far, the characters since
`start` and the characters still to come. -/
def parseLoop (octets : List ℕ) (sub : Str) : Str → Option (List ℕ)
  | [] =>
    if octets.length < 4 then
      match readOctet sub with
      | none => none
      | some val => some (octets++[val])
    else some octets
  | c::rest =>
    if octets.length < 4 then
      if c = '.' then
        match readOctet sub with
        | none => none
        | some val => parseLoop (octets++[val]) [] rest
      else parseLoop octets (sub++[c]) rest
    else some octets

/-- Four octets as one word, the first one on top. -/
def joinOctets (a b c d : ℕ) : UInt32 :=
  UInt32.ofNat a<<<24 ||| UInt32.ofNat b<<<16 ||| UInt32.ofNat c<<<8 ||| UInt32.ofNat d

/-- `parse_ipv4`. -/
def parseIpv4 (s : Str) : UInt32 :=
  match parseLoop [] [] s with
  | some [a,b,c,d] => joinOctets a b c d
  | _ => 0

/-- The four octets of a word, the top one first. -/
def octetsOf (ip : UInt32) : List ℕ :=
  [((ip>>>24) &&& 0xFF).toNat,((ip>>>16) &&& 0xFF).toNat,((ip>>>8) &&& 0xFF).toNat,
    (ip &&& 0xFF).toNat]

/-- `ip_to_string`; `snprintf` keeps what fits into `buf`. -/
def ipToString (ip : UInt32) : Str :=
  (['.'].intercalate ((octetsOf ip).map toDecimal)).take 15

/-- A decimal octet: digits only, of a value up to 255. -/
structure Octet (field : Str) : Prop where
  /-- There is a digit. -/
  nonempty : field≠[]
  /-- There is nothing but digits. -/
  digits : ∀ c ∈ field,c.isDigit=true
  /-- The value fits. -/
  small : Nat.ofDigitChars 10 field 0 ≤ 255

/-- Four decimal octets separated by single dots, with nothing else. -/
def Quad (s a b c d : Str) : Prop :=
  s=['.'].intercalate [a,b,c,d] ∧ Octet a ∧ Octet b ∧ Octet c ∧ Octet d

/-- The big-endian value of four numbers. -/
def bigEndian (a b c d : ℕ) : ℕ := ((a*256+b)*256+c)*256+d

/-- The value of four decimal fields. -/
def quadValue (a b c d : Str) : ℕ :=
  bigEndian (Nat.ofDigitChars 10 a 0) (Nat.ofDigitChars 10 b 0) (Nat.ofDigitChars 10 c 0)
    (Nat.ofDigitChars 10 d 0)

/-- A text is read as it should be: the result is not zero exactly for a
dotted quad other than that of zero, and a dotted quad gives its value. -/
structure ReadExactly (s : Str) : Prop where
  /-- The accepted texts are the dotted quads. -/
  accepted : parseIpv4 s≠0 ↔ ∃ a b c d,Quad s a b c d ∧ quadValue a b c d≠0
  /-- A dotted quad gives its value. -/
  value : ∀ a b c d,Quad s a b c d → (parseIpv4 s).toNat=quadValue a b c d

/-- A text whose first four fields begin with octets, not all zero, has these
fields only, and they are digits only. -/
def NothingIgnored (s : Str) : Prop :=
  ∀ a b c d more m n p q,s.splitOn '.'=a::b::c::d::more →
    readOctet a=some m → readOctet b=some n → readOctet c=some p → readOctet d=some q →
      bigEndian m n p q≠0 → more=[] ∧ ∀ field ∈ [a,b,c,d],∀ x ∈ field,x.isDigit=true

/-- Read up to a number of fields. -/
def readFields : ℕ → List Str → Option (List ℕ)
  | 0,_ => some []
  | _+1,[] => some []
  | room+1,field::rest =>
    match readOctet field with
    | none => none
    | some val => (readFields room rest).map (val::·)

/-- The loop reads the fields of the text until there are four octets. -/
theorem parseLoop_eq (octets : List ℕ) (sub rest head : Str) (tail : List Str)
    (h : rest.splitOn '.'=head::tail) :
    parseLoop octets sub rest=
      (readFields (4-octets.length) ((sub++head)::tail)).map (octets++·) := by
  induction rest generalizing octets sub head tail with
  | nil =>
    rw [List.splitOn_nil] at h
    obtain ⟨rfl,rfl⟩ := List.cons.inj h
    rw [parseLoop,List.append_nil]
    split_ifs with hroom
    · obtain ⟨room,hr⟩ : ∃ room,4-octets.length=room+1 := ⟨3-octets.length,by omega⟩
      rw [hr,readFields]
      cases readOctet sub with
      | none => rfl
      | some val =>
        cases room with
        | zero => rfl
        | succ room => rfl
    · have hr : 4-octets.length=0 := by omega
      rw [hr,readFields,Option.map_some,List.append_nil]
  | cons c rest ih =>
    obtain ⟨next,later,hsplit⟩ := List.exists_cons_of_ne_nil (List.splitOn_ne_nil '.' rest)
    rw [parseLoop]
    split_ifs with hroom hdot
    · obtain ⟨room,hr⟩ : ∃ room,4-octets.length=room+1 := ⟨3-octets.length,by omega⟩
      rw [hdot,List.splitOn_cons_eq_if_modifyHead,if_pos (BEq.refl _),hsplit] at h
      obtain ⟨rfl,rfl⟩ := List.cons.inj h
      rw [hr,readFields,List.append_nil]
      cases readOctet sub with
      | none => rfl
      | some val =>
        have hlength : 4-(octets++[val]).length=room := by
          rw [List.length_append,List.length_singleton]
          omega
        dsimp only
        rw [ih (octets++[val]) [] next later hsplit,hlength,List.nil_append,Option.map_map]
        congr 1
        funext values
        exact List.append_assoc _ _ _
    · have hne : ¬(c== '.')=true := fun heq => hdot (eq_of_beq heq)
      rw [List.splitOn_cons_eq_if_modifyHead,if_neg hne,hsplit,List.modifyHead_cons] at h
      obtain ⟨rfl,rfl⟩ := List.cons.inj h
      rw [ih octets (sub++[c]) next later hsplit,List.append_assoc,List.singleton_append]
    · have hr : 4-octets.length=0 := by omega
      rw [hr,readFields,Option.map_some,List.append_nil]

/-- A field is read as an octet when it begins with a number up to 255. -/
theorem readOctet_some {field : Str} {val : ℕ} (h : readOctet field=some val) :
    field≠[] ∧ val=Nat.ofDigitChars 10 (field.takeWhile Char.isDigit) 0 ∧ val ≤ 255 := by
  unfold readOctet fromChars at h
  dsimp only at h
  by_cases hempty : field.takeWhile Char.isDigit=[]
  · rw [if_pos hempty] at h
    exact absurd h nofun
  · have hne : field≠[] := fun hnil => hempty (by rw [hnil]; rfl)
    rw [if_neg hempty] at h
    by_cases hlarge : 2^32 ≤ Nat.ofDigitChars 10 (field.takeWhile Char.isDigit) 0
    · rw [if_pos hlarge] at h
      exact absurd h nofun
    · rw [if_neg hlarge] at h
      dsimp only at h
      split_ifs at h with hhigh
      have hval := Option.some.inj h
      exact ⟨hne,hval.symm,by omega⟩

/-- A decimal octet is read as its value. -/
theorem Octet.read {field : Str} (h : Octet field) :
    readOctet field=some (Nat.ofDigitChars 10 field 0) := by
  have htake : field.takeWhile Char.isDigit=field := List.takeWhile_eq_self_iff.mpr h.digits
  have hsmall := h.small
  unfold readOctet fromChars
  dsimp only
  rw [htake,if_neg h.nonempty,if_neg (by omega)]
  dsimp only
  rw [if_neg (by omega)]

/-- A field of digits that is read as an octet is a decimal octet. -/
theorem octet_of_read {field : Str} {val : ℕ} (h : readOctet field=some val)
    (digits : ∀ c ∈ field,c.isDigit=true) : Octet field := by
  obtain ⟨hne,hval,hsmall⟩ := readOctet_some h
  rw [List.takeWhile_eq_self_iff.mpr digits] at hval
  exact ⟨hne,digits,hval ▸ hsmall⟩

/-- An octet shifted to its place. -/
theorem octet_shift {x : ℕ} (hx : x ≤ 255) {k : UInt32} (hk : k.toNat ≤ 24) :
    (UInt32.ofNat x<<<k).toNat=x*2^k.toNat := by
  have hword : (UInt32.ofNat x).toNat=x := UInt32.toNat_ofNat_of_lt' (show x < 2^32 by omega)
  have hplace : x*2^k.toNat ≤ 255*2^24 :=
    Nat.mul_le_mul hx (Nat.pow_le_pow_right (by decide) hk)
  rw [UInt32.toNat_shiftLeft,hword,Nat.mod_eq_of_lt (show k.toNat < 32 by omega),Nat.shiftLeft_eq]
  exact Nat.mod_eq_of_lt (by omega)

/-- Four shifted octets add up to their big-endian value. -/
theorem joinOctets_toNat {a b c d : ℕ} (ha : a ≤ 255) (hb : b ≤ 255) (hc : c ≤ 255)
    (hd : d ≤ 255) : (joinOctets a b c d).toNat=bigEndian a b c d := by
  have htop : (UInt32.ofNat a<<<24).toNat=a*2^24 := octet_shift ha (by decide)
  have hthird : (UInt32.ofNat b<<<16).toNat=b*2^16 := octet_shift hb (by decide)
  have hsecond : (UInt32.ofNat c<<<8).toNat=c*2^8 := octet_shift hc (by decide)
  have hfirst : (UInt32.ofNat d).toNat=d := UInt32.toNat_ofNat_of_lt' (show d < 2^32 by omega)
  have hjoin : ∀ {high low width : ℕ},low < 2^width →
      high*2^width ||| low=high*2^width+low := by
    intro high low width hlow
    rw [←Nat.shiftLeft_eq,Nat.lor_comm,ByteView.or_shift width hlow,Nat.shiftLeft_eq,Nat.add_comm]
  have hlow : c*2^8 ||| d=c*2^8+d := hjoin (by omega)
  have hmiddle : b*2^16 ||| (c*2^8+d)=b*2^16+(c*2^8+d) := hjoin (by omega)
  have hall : a*2^24 ||| (b*2^16+(c*2^8+d))=a*2^24+(b*2^16+(c*2^8+d)) := hjoin (by omega)
  rw [joinOctets,UInt32.toNat_or,UInt32.toNat_or,UInt32.toNat_or,htop,hthird,hsecond,hfirst,
    Nat.lor_assoc,Nat.lor_assoc,hlow,hmiddle,hall,bigEndian]
  omega

/-- The first of several octets comes from the first field. -/
theorem readFields_succ {room : ℕ} {fields : List Str} {val : ℕ} {values : List ℕ} :
    readFields (room+1) fields=some (val::values) ↔ ∃ field rest,fields=field::rest ∧
      readOctet field=some val ∧ readFields room rest=some values := by
  cases fields with
  | nil =>
    rw [readFields]
    exact ⟨nofun,fun ⟨field,rest,h,_⟩ => absurd h nofun⟩
  | cons field rest =>
    rw [readFields]
    constructor
    · intro h
      cases hread : readOctet field with
      | none =>
        rw [hread] at h
        exact absurd h nofun
      | some first =>
        rw [hread] at h
        obtain ⟨later,hlater,heq⟩ := Option.map_eq_some_iff.mp h
        obtain ⟨rfl,rfl⟩ := List.cons.inj heq
        exact ⟨field,rest,rfl,hread,hlater⟩
    · rintro ⟨field,rest,heq,hread,hlater⟩
      obtain ⟨rfl,rfl⟩ := List.cons.inj heq
      rw [hread]
      dsimp only
      rw [hlater,Option.map_some]

/-- The first four fields of a text begin with four octets. -/
def Starts (s : Str) (m n p q : ℕ) : Prop :=
  ∃ a b c d more,s.splitOn '.'=a::b::c::d::more ∧
    readOctet a=some m ∧ readOctet b=some n ∧ readOctet c=some p ∧ readOctet d=some q

/-- The loop ends with four octets when the first four fields begin with them. -/
theorem parseLoop_four (s : Str) (m n p q : ℕ) :
    parseLoop [] [] s=some [m,n,p,q] ↔ Starts s m n p q := by
  cases hsplit : s.splitOn '.' with
  | nil => exact absurd hsplit (List.splitOn_ne_nil _ _)
  | cons head tail =>
    have hmap : (readFields 4 (head::tail)).map ([]++·)=readFields 4 (head::tail) := Option.map_id'
    rw [parseLoop_eq [] [] s head tail hsplit,List.nil_append,List.length_nil,Nat.sub_zero,hmap,
      Starts,hsplit]
    constructor
    · intro h
      obtain ⟨a,fields,hfields,ha,h⟩ := readFields_succ.mp h
      obtain ⟨b,fields,rfl,hb,h⟩ := readFields_succ.mp h
      obtain ⟨c,fields,rfl,hc,h⟩ := readFields_succ.mp h
      obtain ⟨d,fields,rfl,hd,h⟩ := readFields_succ.mp h
      exact ⟨a,b,c,d,fields,hfields,ha,hb,hc,hd⟩
    · rintro ⟨a,b,c,d,more,hfields,ha,hb,hc,hd⟩
      rw [hfields]
      exact readFields_succ.mpr ⟨a,_,rfl,ha,readFields_succ.mpr ⟨b,_,rfl,hb,
        readFields_succ.mpr ⟨c,_,rfl,hc,readFields_succ.mpr ⟨d,_,rfl,hd,rfl⟩⟩⟩⟩

/-- A text that begins with four octets gives their value. -/
theorem Starts.parse {s : Str} {m n p q : ℕ} (h : Starts s m n p q) :
    (parseIpv4 s).toNat=bigEndian m n p q := by
  rw [parseIpv4,(parseLoop_four s m n p q).mpr h]
  obtain ⟨a,b,c,d,more,-,ha,hb,hc,hd⟩ := h
  exact joinOctets_toNat (readOctet_some ha).2.2 (readOctet_some hb).2.2 (readOctet_some hc).2.2
    (readOctet_some hd).2.2

/-- A text that gives an address begins with four octets. -/
theorem starts_of_parse {s : Str} (h : parseIpv4 s≠0) : ∃ m n p q,Starts s m n p q := by
  unfold parseIpv4 at h
  split at h
  · next m n p q heq => exact ⟨m,n,p,q,(parseLoop_four s m n p q).mp heq⟩
  · exact absurd rfl h

/-- The fields of a dotted quad. -/
theorem Quad.starts {s a b c d : Str} (h : Quad s a b c d) :
    s.splitOn '.'=[a,b,c,d] ∧ Starts s (Nat.ofDigitChars 10 a 0) (Nat.ofDigitChars 10 b 0)
      (Nat.ofDigitChars 10 c 0) (Nat.ofDigitChars 10 d 0) := by
  obtain ⟨hs,ha,hb,hc,hd⟩ := h
  have hdot : ∀ {field : Str},Octet field → '.' ∉ field := by
    intro field hoctet hmember
    exact absurd (hoctet.digits '.' hmember) (by decide)
  have hplain : ∀ field ∈ [a,b,c,d], '.' ∉ field := by
    simp only [List.forall_mem_cons]
    exact ⟨hdot ha,hdot hb,hdot hc,hdot hd,fun _ h => absurd h List.not_mem_nil⟩
  have hsplit : s.splitOn '.'=[a,b,c,d] := by
    rw [hs]
    exact List.splitOn_intercalate '.' hplain (List.cons_ne_nil _ _)
  exact ⟨hsplit,a,b,c,d,[],hsplit,ha.read,hb.read,hc.read,hd.read⟩

/-- A dotted quad gives its value. -/
theorem Quad.parse {s a b c d : Str} (h : Quad s a b c d) :
    (parseIpv4 s).toNat=quadValue a b c d := h.starts.2.parse

/-- When nothing is ignored, a text that gives an address is a dotted quad. -/
theorem NothingIgnored.quad {s : Str} (nothing : NothingIgnored s) (h : parseIpv4 s≠0) :
    ∃ a b c d,Quad s a b c d := by
  obtain ⟨m,n,p,q,hstarts⟩ := starts_of_parse h
  have hparse := hstarts.parse
  obtain ⟨a,b,c,d,more,hsplit,ha,hb,hc,hd⟩ := hstarts
  have hvalue : bigEndian m n p q≠0 := by
    rw [←hparse]
    intro hzero
    exact h (UInt32.toNat_inj.mp hzero)
  obtain ⟨rfl,hdigits⟩ := nothing a b c d more m n p q hsplit ha hb hc hd hvalue
  simp only [List.forall_mem_cons] at hdigits
  obtain ⟨hda,hdb,hdc,hdd,-⟩ := hdigits
  have hs : s=['.'].intercalate [a,b,c,d] := by
    rw [←hsplit,List.intercalate_splitOn]
  exact ⟨a,b,c,d,hs,octet_of_read ha hda,octet_of_read hb hdb,octet_of_read hc hdc,
    octet_of_read hd hdd⟩

/-- The address of a dotted quad is zero when its value is. -/
theorem Quad.parse_ne_zero_iff {s a b c d : Str} (h : Quad s a b c d) :
    parseIpv4 s≠0 ↔ quadValue a b c d≠0 := by
  rw [←h.parse]
  exact not_congr UInt32.toNat_inj.symm

/-- A text is read as it should be exactly when nothing of it is ignored. -/
theorem readExactly_iff (s : Str) : ReadExactly s ↔ NothingIgnored s := by
  constructor
  · intro exactly a b c d more m n p q hsplit ha hb hc hd hvalue
    have hstarts : Starts s m n p q := ⟨a,b,c,d,more,hsplit,ha,hb,hc,hd⟩
    have hne : parseIpv4 s≠0 := by
      intro hzero
      have hparse := hstarts.parse
      rw [hzero] at hparse
      exact hvalue hparse.symm
    obtain ⟨a',b',c',d',hquad,-⟩ := exactly.accepted.mp hne
    have hfields := hsplit.symm.trans hquad.starts.1
    obtain ⟨-,ha,hb,hc,hd⟩ := hquad
    injection hfields with h1 hfields
    injection hfields with h2 hfields
    injection hfields with h3 hfields
    injection hfields with h4 hfields
    rw [h1,h2,h3,h4]
    refine ⟨hfields,?_⟩
    simp only [List.forall_mem_cons]
    exact ⟨ha.digits,hb.digits,hc.digits,hd.digits,fun _ h => absurd h List.not_mem_nil⟩
  · intro nothing
    refine ⟨⟨fun hne => ?_,?_⟩,fun a b c d hquad => hquad.parse⟩
    · obtain ⟨a,b,c,d,hquad⟩ := nothing.quad hne
      exact ⟨a,b,c,d,hquad,hquad.parse_ne_zero_iff.mp hne⟩
    · rintro ⟨a,b,c,d,hquad,hvalue⟩
      exact hquad.parse_ne_zero_iff.mpr hvalue

/-- The octets of a word are octets, and their big-endian value is the word. -/
theorem octetsOf_value (ip : UInt32) : ∃ a b c d,octetsOf ip=[a,b,c,d] ∧
    (a ≤ 255 ∧ b ≤ 255 ∧ c ≤ 255 ∧ d ≤ 255) ∧ bigEndian a b c d=ip.toNat := by
  have hlow : ∀ x : UInt32,(x &&& 0xFF).toNat=x.toNat%256 := by
    intro x
    rw [UInt32.toNat_and]
    exact Nat.and_two_pow_sub_one_eq_mod x.toNat 8
  have hlt := ip.toNat_lt
  refine ⟨_,_,_,_,rfl,?_,?_⟩
  · rw [hlow,hlow,hlow,hlow]
    omega
  · rw [hlow,hlow,hlow,hlow,UInt32.toNat_shiftRight,UInt32.toNat_shiftRight,
      UInt32.toNat_shiftRight,Nat.shiftRight_eq_div_pow,Nat.shiftRight_eq_div_pow,
      Nat.shiftRight_eq_div_pow,bigEndian]
    change (((ip.toNat/2^24%256)*256+ip.toNat/2^16%256)*256+ip.toNat/2^8%256)*256+
      ip.toNat%256=ip.toNat
    omega

/-- A rendered octet is a decimal octet of at most three digits. -/
theorem octet_toDecimal {n : ℕ} (h : n ≤ 255) :
    Octet (toDecimal n) ∧ (toDecimal n).length ≤ 3 := by
  refine ⟨⟨toDecimal_ne_nil n,fun c hc => isDigit_of_mem_toDecimal hc,?_⟩,?_⟩
  · rw [ofDigitChars_toDecimal]
    exact h
  · exact Nat.toDigits_length 10 n 3 (by decide) (by omega)

/-- A rendered address is a dotted quad and fits into the buffer. -/
theorem ipToString_quad (ip : UInt32) :
    ∃ a b c d,Quad (ipToString ip) a b c d ∧ quadValue a b c d=ip.toNat := by
  obtain ⟨a,b,c,d,hoctets,⟨ha,hb,hc,hd⟩,hvalue⟩ := octetsOf_value ip
  obtain ⟨hqa,hla⟩ := octet_toDecimal ha
  obtain ⟨hqb,hlb⟩ := octet_toDecimal hb
  obtain ⟨hqc,hlc⟩ := octet_toDecimal hc
  obtain ⟨hqd,hld⟩ := octet_toDecimal hd
  refine ⟨toDecimal a,toDecimal b,toDecimal c,toDecimal d,⟨?_,hqa,hqb,hqc,hqd⟩,?_⟩
  · rw [ipToString,hoctets]
    refine List.take_of_length_le ?_
    simp only [List.map_cons,List.map_nil,List.intercalate_cons_cons,List.intercalate_singleton,
      List.length_append,List.length_singleton]
    omega
  · rw [quadValue,ofDigitChars_toDecimal,ofDigitChars_toDecimal,ofDigitChars_toDecimal,
      ofDigitChars_toDecimal]
    exact hvalue

/-- `parse_ipv4` reads a text as it should exactly when nothing of the text is
ignored, and it reads back every address that `ip_to_string` writes. -/
theorem parse_ipv4_iff (s : Str) (ip : UInt32) :
    (ReadExactly s ↔ NothingIgnored s) ∧ parseIpv4 (ipToString ip)=ip := by
  refine ⟨readExactly_iff s,?_⟩
  obtain ⟨a,b,c,d,hquad,hvalue⟩ := ipToString_quad ip
  exact UInt32.toNat_inj.mp (hquad.parse.trans hvalue)

/-- A text of five numbers is read as the address of the first four. -/
theorem five_numbers_accepted : ¬ReadExactly "1.2.3.4.5".toList := by
  intro exactly
  have hne : parseIpv4 "1.2.3.4.5".toList≠0 := by decide
  obtain ⟨a,b,c,d,hquad,-⟩ := exactly.accepted.mp hne
  have hsplit : "1.2.3.4.5".toList.splitOn '.'=[['1'],['2'],['3'],['4'],['5']] := by
    decide +kernel
  have hlength : 5=4 := congrArg List.length (hsplit.symm.trans hquad.starts.1)
  exact absurd hlength (by decide)

end Gcad.Ipv4Text
