import Gcad.CheckedLogic

/-!
# Parsing a DNS query

`DnsMonitorEngine::parse_dns_query` with every read of the packet checked.
The grammar of a query is stated on its bytes, with the largest label length
as a parameter: the standard allows 63, and the parser, which refuses only
length bytes with both high bits set, allows 191. Nothing but that bound
separates the two.
-/

namespace Gcad.DnsQuery

open ByteView CheckedLoop CheckedLogic

/-- The byte `'.'`. -/
def dot : UInt8 := 0x2E

/-- Append a label to the name read so far. -/
def appendLabel (domain label : Bytes) : Bytes :=
  if domain.isEmpty then domain++label else domain++dot::label

/-- The label loop from an offset on: the offset behind the name, or nothing
where the loop returns `false`, and the name read until then. -/
def parseLabels (data : Bytes) (offset : ℕ) (domain : Bytes) : Checked (Option ℕ×Bytes) :=
  if offset < data.length then do
    let labelLen ← readByte data offset
    if labelLen=0 then return (some (offset+1),domain)
    else if labelLen &&& 0xC0=0xC0 then return (none,domain)
    else if data.length < offset+1+labelLen then return (none,domain)
    else do
      let label ← readSlice data (offset+1) labelLen
      parseLabels data (offset+1+labelLen) (appendLabel domain label)
  else return (some offset,domain)
termination_by data.length-offset

/-- The returned value and the two reference arguments. -/
structure Parsed where
  /-- Return value. -/
  accepted : Bool
  /-- The labels joined by dots. -/
  outDomain : Bytes
  /-- The kind of record asked for. -/
  outQtype : ℕ
  deriving DecidableEq

/-- `parse_dns_query` of a packet, with the old values of the references. -/
def parseDnsQuery (data outDomain : Bytes) (outQtype : ℕ) : Checked Parsed :=
  if data.length < 12 then return ⟨false,outDomain,outQtype⟩
  else do
    let high ← readByte data 4
    let low ← readByte data 5
    let qdcount := low ||| high <<< 8
    if qdcount=0 then return ⟨false,outDomain,outQtype⟩
    else do
      let (stop,domain) ← parseLabels data 12 []
      match stop with
      | none => return ⟨false,domain,outQtype⟩
      | some offset =>
        if data.length < offset+4 then return ⟨false,domain,outQtype⟩
        else do
          let high ← readByte data offset
          let low ← readByte data (offset+1)
          return ⟨!domain.isEmpty,domain,low ||| high <<< 8⟩

section Grammar

/-- A label with its length byte. -/
def wireLabel (label : Bytes) : Bytes := UInt8.ofNat label.length::label

/-- The labels of a name on the wire, without the zero byte. -/
def wireLabels (labels : List Bytes) : Bytes := labels.flatMap wireLabel

/-- The text of a name. -/
def joinLabels (labels : List Bytes) : Bytes := [dot].intercalate labels

/-- Every label has a length from one to the limit. -/
def Sized (limit : ℕ) (labels : List Bytes) : Prop :=
  ∀ label ∈ labels,1 ≤ label.length ∧ label.length ≤ limit

/-- A packet that holds a query for a name and a type. -/
structure Query (limit : ℕ) (data : Bytes) (labels : List Bytes) (qtype : ℕ) : Prop where
  /-- There is a header. -/
  header : 12 ≤ data.length
  /-- `QDCOUNT` is at least one. -/
  count : 1 ≤ 256*byteAt data 4+byteAt data 5
  /-- There is a label. -/
  named : labels≠[]
  /-- The lengths of the labels. -/
  sized : Sized limit labels
  /-- The labels, a zero byte and at least four further bytes follow, of which
  the first two are the type. -/
  wire : ∃ t0 t1 c0 c1 rest,data.drop 12=wireLabels labels++0::t0::t1::c0::c1::rest ∧
    qtype=256*t0.toNat+t1.toNat

/-- The labels of a query for a limit are sized for a larger one. -/
theorem Query.mono {limit larger : ℕ} {data : Bytes} {labels : List Bytes} {qtype : ℕ}
    (h : Query limit data labels qtype) (hle : limit ≤ larger) :
    Query larger data labels qtype :=
  ⟨h.header,h.count,h.named,fun label member =>
    ⟨(h.sized label member).1,(h.sized label member).2.trans hle⟩,h.wire⟩

/-- The length byte of a label. -/
theorem labelLength {label : Bytes} (h : label.length ≤ 191) :
    (UInt8.ofNat label.length).toNat=label.length := by
  rw [UInt8.toNat_ofNat',Nat.mod_eq_of_lt (by omega)]

/-- The wire form of a name determines its labels and what follows it. -/
theorem wireLabels_inj {labels others : List Bytes} {rest behind : Bytes}
    (h : Sized 191 labels) (hothers : Sized 191 others)
    (heq : wireLabels labels++0::rest=wireLabels others++0::behind) :
    labels=others ∧ rest=behind := by
  have hzero : ∀ {label : Bytes},1 ≤ label.length ∧ label.length ≤ 191 →
      UInt8.ofNat label.length≠0 := by
    intro label hlabel hbyte
    have hnat := labelLength hlabel.2
    rw [hbyte,UInt8.toNat_zero] at hnat
    omega
  induction labels generalizing others with
  | nil =>
    cases others with
    | nil => exact ⟨rfl,(List.cons.inj heq).2⟩
    | cons other others =>
      exact (hzero (hothers other List.mem_cons_self) (List.cons.inj heq).1.symm).elim
  | cons label labels ih =>
    cases others with
    | nil => exact (hzero (h label List.mem_cons_self) (List.cons.inj heq).1).elim
    | cons other others =>
      have hlabel := h label List.mem_cons_self
      have hother := hothers other List.mem_cons_self
      simp only [wireLabels,List.flatMap_cons,wireLabel,List.cons_append,List.append_assoc,
        List.cons.injEq] at heq
      have hlength : label.length=other.length := by
        rw [←labelLength hlabel.2,heq.1,labelLength hother.2]
      obtain ⟨hsame,htail⟩ := List.append_inj heq.2 hlength
      obtain ⟨hrest,hbehind⟩ := ih (fun l member => h l (List.mem_cons_of_mem _ member))
        (fun l member => hothers l (List.mem_cons_of_mem _ member)) htail
      exact ⟨by rw [hsame,hrest],hbehind⟩

/-- Appending labels to a name that is not empty puts a dot before each. -/
theorem foldl_appendLabel {domain : Bytes} (h : domain≠[]) (labels : List Bytes) :
    labels.foldl appendLabel domain=domain++labels.flatMap fun label => dot::label := by
  induction labels generalizing domain with
  | nil => exact (List.append_nil domain).symm
  | cons label labels ih =>
    have happend : appendLabel domain label=domain++dot::label :=
      if_neg (by simpa only [List.isEmpty_iff] using h)
    rw [List.foldl_cons,happend,ih (by simp),List.flatMap_cons,List.append_assoc]

/-- The name that the loop builds is the text of the labels. -/
theorem foldl_joinLabels {limit : ℕ} {labels : List Bytes} (h : Sized limit labels) :
    labels.foldl appendLabel []=joinLabels labels := by
  have hjoin : ∀ (label : Bytes) (labels : List Bytes),
      joinLabels (label::labels)=label++labels.flatMap fun label => dot::label := by
    intro label labels
    induction labels generalizing label with
    | nil => simp [joinLabels]
    | cons next labels ih =>
      rw [joinLabels,List.intercalate_cons_cons,List.flatMap_cons]
      have hnext := ih next
      rw [joinLabels] at hnext
      rw [hnext]
      simp
  cases labels with
  | nil => rfl
  | cons label labels =>
    have hlabel : label≠[] := List.length_pos_iff.mp (h label List.mem_cons_self).1
    rw [List.foldl_cons,hjoin]
    exact foldl_appendLabel hlabel labels

/-- The text of a name with a label is not empty. -/
theorem joinLabels_ne_nil {limit : ℕ} {labels : List Bytes} (h : Sized limit labels)
    (hnamed : labels≠[]) : labels.foldl appendLabel []≠[] := by
  cases labels with
  | nil => exact (hnamed rfl).elim
  | cons label labels =>
    have hlabel : label≠[] := List.length_pos_iff.mp (h label List.mem_cons_self).1
    rw [List.foldl_cons]
    have hsame : appendLabel [] label=label := rfl
    rw [hsame,foldl_appendLabel hlabel]
    exact fun hempty => hlabel (List.append_eq_nil_iff.mp hempty).1

end Grammar

section Loop

variable {data : Bytes} {offset : ℕ}

/-- The first byte of what is left of the packet. -/
theorem readByte_of_drop {b : UInt8} {rest : Bytes} (h : data.drop offset=b::rest) :
    offset < data.length ∧ readByte data offset=.ok b.toNat ∧ data.drop (offset+1)=rest := by
  have hlt : offset < data.length := by
    have hlength := congrArg List.length h
    rw [List.length_drop,List.length_cons] at hlength
    omega
  refine ⟨hlt,readByte_eq_ok.mpr ⟨hlt,?_⟩,?_⟩
  · have hget : data[offset]?=some b := by
      rw [←List.head?_drop,h,List.head?_cons]
    rw [byteAt,hget,Option.getD_some]
  · rw [←List.tail_drop,h,List.tail_cons]

/-- The first bytes of what is left of the packet. -/
theorem readSlice_of_drop {label rest : Bytes} (hle : offset ≤ data.length)
    (h : data.drop offset=label++rest) :
    offset+label.length ≤ data.length ∧ readSlice data offset label.length=.ok label ∧
      data.drop (offset+label.length)=rest := by
  have hlength := congrArg List.length h
  rw [List.length_drop,List.length_append] at hlength
  have hroom : offset+label.length ≤ data.length := by omega
  refine ⟨hroom,readSlice_eq_ok.mpr ⟨hroom,?_⟩,?_⟩
  · rw [slice,h,List.take_left]
  · rw [←List.drop_drop,h,List.drop_left]

/-- The two high bits of a length byte. -/
theorem reserved_iff {labelLen : ℕ} (h : labelLen < 256) :
    labelLen &&& 0xC0=0xC0 ↔ 192 ≤ labelLen := by
  have hall : ∀ n < 256,n &&& 0xC0=0xC0 ↔ 192 ≤ n := by decide +kernel
  exact hall labelLen h

/-- The loop reads the labels of a name in front of its zero byte. -/
theorem parseLabels_complete {labels : List Bytes} (h : Sized 191 labels) {rest : Bytes}
    (hdrop : data.drop offset=wireLabels labels++0::rest) (domain : Bytes) :
    ∃ stop,parseLabels data offset domain=.ok (some stop,labels.foldl appendLabel domain) ∧
      stop ≤ data.length ∧ data.drop stop=rest := by
  induction labels generalizing offset domain with
  | nil =>
    obtain ⟨hlt,hread,hrest⟩ := readByte_of_drop hdrop
    refine ⟨offset+1,?_,hlt,hrest⟩
    rw [parseLabels,if_pos hlt,bind_of_ok hread,if_pos UInt8.toNat_zero]
    rfl
  | cons label labels ih =>
    have hlabel := h label List.mem_cons_self
    have hlen := labelLength hlabel.2
    rw [wireLabels,List.flatMap_cons,wireLabel,List.cons_append,List.cons_append,
      List.append_assoc] at hdrop
    obtain ⟨hlt,hread,hbehind⟩ := readByte_of_drop hdrop
    obtain ⟨hroom,hslice,hnext⟩ := readSlice_of_drop hlt hbehind
    obtain ⟨stop,hloop,hstop⟩ := ih (fun l member => h l (List.mem_cons_of_mem _ member)) hnext
      (appendLabel domain label)
    have hmask : ¬label.length &&& 0xC0=0xC0 := by
      rw [reserved_iff (by omega)]
      omega
    refine ⟨stop,?_,hstop⟩
    rw [hlen] at hread
    rw [parseLabels,if_pos hlt,bind_of_ok hread,if_neg (by omega),if_neg hmask,
      if_neg (by omega),bind_of_ok hslice]
    exact hloop

/-- The loop returns. Where it ends with four bytes left, it has read the
labels of a name and its zero byte. -/
theorem parseLabels_sound (domain : Bytes) :
    Returns (parseLabels data offset domain) fun result =>
      ∀ stop,result.1=some stop → stop+4 ≤ data.length →
        ∃ labels,Sized 191 labels ∧ result.2=labels.foldl appendLabel domain ∧
          data.drop offset=wireLabels labels++0::data.drop stop := by
  induction hn : data.length-offset using Nat.strong_induction_on generalizing offset domain with
  | _ n ih =>
    rw [parseLabels]
    refine returns_ite (fun hlt => ?_) (fun hend => returns_pure ?_)
    · obtain ⟨b,hb⟩ : ∃ b,data[offset]?=some b := ⟨_,List.getElem?_eq_getElem hlt⟩
      have hcons : data.drop offset=b::data.drop (offset+1) := by
        rw [List.drop_eq_getElem_cons hlt,(List.getElem?_eq_some_iff.mp hb).2]
      obtain ⟨-,hread,-⟩ := readByte_of_drop hcons
      have hbyte := b.toNat_lt
      rw [bind_of_ok hread]
      refine returns_ite (fun hzero => returns_pure ?_) (fun hnonzero => ?_)
      · rintro stop ⟨rfl⟩ -
        have hb0 : b=0 := UInt8.toNat_inj.mp hzero
        refine ⟨[],fun label member => absurd member List.not_mem_nil,rfl,?_⟩
        rw [hcons,hb0]
        rfl
      refine returns_ite (fun _ => returns_pure ?_) (fun hmask => ?_)
      · intro stop hstop
        exact absurd hstop (Option.some_ne_none stop).symm
      refine returns_ite (fun _ => returns_pure ?_) (fun hroom => ?_)
      · intro stop hstop
        exact absurd hstop (Option.some_ne_none stop).symm
      obtain ⟨label,hslice,hlabel⟩ :=
        @readSlice_returns data (offset+1) b.toNat (by omega)
      rw [bind_of_ok hslice]
      have hnext := ih (data.length-(offset+1+b.toNat)) (by omega) (appendLabel domain label) rfl
      refine hnext.mono fun result hresult stop hstop hleft => ?_
      obtain ⟨labels,hsized,hjoin,hdrop⟩ := hresult stop hstop hleft
      have hlow : b.toNat < 192 := by
        rw [reserved_iff hbyte] at hmask
        omega
      refine ⟨label::labels,?_,hjoin,?_⟩
      · intro other member
        rcases List.mem_cons.mp member with rfl|member
        · omega
        · exact hsized other member
      · have hbytes : UInt8.ofNat label.length=b := by
          rw [hlabel,UInt8.ofNat_toNat]
        have htake := (readSlice_eq_ok.mp hslice).2
        have hsplit : data.drop (offset+1)=label++data.drop (offset+1+b.toNat) := by
          rw [←@List.drop_drop _ b.toNat (offset+1),←htake,slice,List.take_append_drop]
        have hwire : wireLabels (label::labels)=b::(label++wireLabels labels) := by
          rw [wireLabels,List.flatMap_cons,wireLabel,hbytes]
          rfl
        rw [hcons,hsplit,hdrop,hwire,List.cons_append,List.append_assoc]
    · rintro stop ⟨rfl⟩ hleft
      omega

end Loop

section Parser

variable {data : Bytes}

/-- A packet that holds a query with labels of up to 191 bytes is accepted,
with the text of its name and its type. -/
theorem parseDnsQuery_complete {labels : List Bytes} {qtype : ℕ}
    (h : Query 191 data labels qtype) (outDomain : Bytes) (outQtype : ℕ) :
    parseDnsQuery data outDomain outQtype=.ok ⟨true,joinLabels labels,qtype⟩ := by
  have hheader := h.header
  have hcount := h.count
  obtain ⟨t0,t1,c0,c1,rest,hwire,rfl⟩ := h.wire
  obtain ⟨stop,hloop,hstop,hrest⟩ := parseLabels_complete h.sized hwire []
  have hhigh : readByte data 4=.ok (byteAt data 4) := readByte_eq_ok.mpr ⟨by omega,rfl⟩
  have hlow : readByte data 5=.ok (byteAt data 5) := readByte_eq_ok.mpr ⟨by omega,rfl⟩
  have hqdcount : byteAt data 5 ||| byteAt data 4 <<< 8≠0 := by
    rw [or_shift 8 (byteAt_lt data 5)]
    omega
  obtain ⟨-,hfirst,hbehind⟩ := readByte_of_drop hrest
  obtain ⟨-,hsecond,-⟩ := readByte_of_drop hbehind
  have hleft : stop+4 ≤ data.length := by
    have hlength := congrArg List.length hrest
    simp only [List.length_drop,List.length_cons] at hlength
    omega
  have htype : t1.toNat ||| t0.toNat <<< 8=256*t0.toNat+t1.toNat := by
    rw [or_shift 8 t1.toNat_lt]
    omega
  have hname : (!(labels.foldl appendLabel []).isEmpty)=true := by
    simpa using joinLabels_ne_nil h.sized h.named
  unfold parseDnsQuery
  rw [if_neg (by omega),bind_of_ok hhigh,bind_of_ok hlow,if_neg hqdcount,bind_of_ok hloop]
  dsimp only
  rw [if_neg (by omega),bind_of_ok hfirst,bind_of_ok hsecond,htype,hname,
    foldl_joinLabels h.sized]
  rfl

/-- The parser returns, and what it accepts is a query with labels of up to
191 bytes. -/
theorem parseDnsQuery_sound (outDomain : Bytes) (outQtype : ℕ) :
    Returns (parseDnsQuery data outDomain outQtype) fun parsed =>
      parsed.accepted=true → ∃ labels qtype,Query 191 data labels qtype := by
  have hrefused : ∀ (domain : Bytes) (qtype : ℕ),Returns
      (pure ⟨false,domain,qtype⟩ : Checked Parsed) fun parsed =>
        parsed.accepted=true → ∃ labels qtype,Query 191 data labels qtype :=
    fun domain qtype => returns_pure fun haccepted => absurd haccepted Bool.false_ne_true
  refine returns_ite (fun _ => hrefused _ _) (fun hheader => ?_)
  have hhigh : readByte data 4=.ok (byteAt data 4) := readByte_eq_ok.mpr ⟨by omega,rfl⟩
  have hlow : readByte data 5=.ok (byteAt data 5) := readByte_eq_ok.mpr ⟨by omega,rfl⟩
  rw [bind_of_ok hhigh,bind_of_ok hlow]
  refine returns_ite (fun _ => hrefused _ _) (fun hcount => ?_)
  rw [or_shift 8 (byteAt_lt data 5)] at hcount
  refine (parseLabels_sound []).bind fun result hresult => ?_
  obtain ⟨stop,domain⟩ := result
  cases stop with
  | none => exact hrefused _ _
  | some stop =>
    refine returns_ite (fun _ => hrefused _ _) (fun hleft => ?_)
    obtain ⟨labels,hsized,hjoin,hdrop⟩ := hresult stop rfl (by omega)
    refine (readByte_returns (by omega)).bind fun high _ => ?_
    refine (readByte_returns (by omega)).bind fun low _ => ?_
    refine returns_pure fun haccepted => ?_
    have hnamed : labels≠[] := by
      rintro rfl
      have hempty : domain=[] := hjoin
      rw [hempty] at haccepted
      exact absurd haccepted Bool.false_ne_true
    obtain ⟨t0,t1,c0,c1,rest,hrest⟩ : ∃ t0 t1 c0 c1 rest,
        data.drop stop=t0::t1::c0::c1::rest := by
      have hlength : 4 ≤ (data.drop stop).length := by
        rw [List.length_drop]
        omega
      match hbytes : data.drop stop,hlength with
      | t0::t1::c0::c1::rest,_ => exact ⟨t0,t1,c0,c1,rest,rfl⟩
    rw [hrest] at hdrop
    exact ⟨labels,_,by omega,by omega,hnamed,hsized,t0,t1,c0,c1,rest,hdrop,rfl⟩

/-- The parser accepts exactly the grammar of the standard on a packet, gives
its name and its type, and reads inside the packet. -/
def ParsesGrammar (data : Bytes) : Prop :=
  ∀ (outDomain : Bytes) (outQtype : ℕ),∃ parsed,
    parseDnsQuery data outDomain outQtype=.ok parsed ∧
    (parsed.accepted=true ↔ ∃ labels qtype,Query 63 data labels qtype) ∧
    ∀ labels qtype,Query 63 data labels qtype →
      parsed.outDomain=joinLabels labels ∧ parsed.outQtype=qtype

/-- A packet holds one query. -/
theorem Query.unique {labels others : List Bytes} {qtype other : ℕ}
    (h : Query 191 data labels qtype) (hother : Query 191 data others other) :
    labels=others := by
  obtain ⟨t0,t1,c0,c1,rest,hwire,-⟩ := h.wire
  obtain ⟨u0,u1,d0,d1,behind,hwire',-⟩ := hother.wire
  exact (wireLabels_inj h.sized hother.sized (hwire.symm.trans hwire')).1

/-- Where the parser meets the grammar, the labels it accepts are short. -/
theorem ParsesGrammar.short (hparses : ParsesGrammar data) {labels : List Bytes} {qtype : ℕ}
    (h : Query 191 data labels qtype) {label : Bytes} (member : label ∈ labels) :
    label.length ≤ 63 := by
  obtain ⟨parsed,hparsed,haccepted,-⟩ := hparses [] 0
  rw [parseDnsQuery_complete h,Except.ok.injEq] at hparsed
  obtain ⟨others,other,hother⟩ := haccepted.mp (by rw [←hparsed])
  have hsame := h.unique (hother.mono (by omega))
  exact (hother.sized label (hsame ▸ member)).2

/-- The parser meets the grammar on every packet but those that are queries
save for a label of 64 to 191 bytes. -/
theorem parses_grammar_iff (data : Bytes) :
    ParsesGrammar data ↔
      ∀ labels qtype,Query 191 data labels qtype → ∀ label ∈ labels,label.length ≤ 63 := by
  constructor
  · intro hparses labels qtype hquery label member
    exact hparses.short hquery member
  · intro hlabels outDomain outQtype
    obtain ⟨parsed,hparsed,hsound⟩ := @parseDnsQuery_sound data outDomain outQtype
    have hexact : ∀ labels qtype,Query 63 data labels qtype →
        parsed=⟨true,joinLabels labels,qtype⟩ := by
      intro labels qtype hquery
      have hcomplete := parseDnsQuery_complete (hquery.mono (by omega)) outDomain outQtype
      rw [hparsed,Except.ok.injEq] at hcomplete
      exact hcomplete
    refine ⟨parsed,hparsed,⟨fun haccepted => ?_,?_⟩,?_⟩
    · obtain ⟨labels,qtype,hquery⟩ := hsound haccepted
      exact ⟨labels,qtype,hquery.header,hquery.count,hquery.named,fun label member =>
        ⟨(hquery.sized label member).1,hlabels labels qtype hquery label member⟩,hquery.wire⟩
    · rintro ⟨labels,qtype,hquery⟩
      rw [hexact labels qtype hquery]
    · intro labels qtype hquery
      rw [hexact labels qtype hquery]
      exact ⟨rfl,rfl⟩

/-- A packet whose one label has a given length. -/
def packet (n : ℕ) : Bytes :=
  [0,1,1,0,0,1,0,0,0,0,0,0]++wireLabels [List.replicate n 0x61]++[0,0,1,0,1]

/-- A label of 64 letters is accepted although no label may be that long. -/
theorem parses_grammar_long : ¬ParsesGrammar (packet 64) := by
  intro hparses
  have hquery : Query 191 (packet 64) [List.replicate 64 0x61] 1 :=
    ⟨by decide,by decide,List.cons_ne_nil _ _,fun label member => by
      rw [List.mem_singleton.mp member,List.length_replicate]
      omega,0,1,0,1,[],rfl,rfl⟩
  have hshort := hparses.short hquery (List.mem_singleton_self _)
  rw [List.length_replicate] at hshort
  omega

end Parser

end Gcad.DnsQuery
