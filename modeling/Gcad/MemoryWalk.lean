import Gcad.ScanVerdict

/-!
# The walk through the memory of a process

`scan_process_memory` of deep_scanner.cpp. The system is asked for one region
after the other; what is committed, executable and no guard is read and scanned
as a buffer, until a budget of bytes is spent. The process runs on meanwhile, so
every turn of the loop finds a memory of its own. Whatever the system answers,
the addresses grow and the walk ends.
-/

namespace Gcad.MemoryWalk

open Common ByteView ScanVerdict

/-- The fields of `MEMORY_BASIC_INFORMATION` that are looked at. -/
structure MemoryInfo where
  /-- Where the region starts. -/
  baseAddress : UInt64
  /-- How many bytes it has. -/
  regionSize : UInt64
  /-- Committed, reserved or free. -/
  state : UInt32
  /-- What may be done with its pages. -/
  protect : UInt32

/-- The memory of a process as the system shows it. -/
structure Memory where
  /-- What the system answers about an address. -/
  query : UInt64 → Option MemoryInfo
  /-- What is read at an address; no bytes where the call fails. -/
  read : UInt64 → ℕ → Bytes

/-- `kMaxRegion`. -/
def kMaxRegion : ℕ := 16*1024*1024

/-- `kMaxPerProc`. -/
def kMaxPerProc : ℕ := 64*1024*1024

/-- `MEM_COMMIT`. -/
def memCommit : UInt32 := 0x1000

/-- `exec_mask`. -/
def execMask : UInt32 := 0xF0

/-- `PAGE_GUARD`. -/
def pageGuard : UInt32 := 0x100

/-- The conditions under which a region is read. -/
def MemoryInfo.wanted (info : MemoryInfo) : Bool :=
  info.state=memCommit ∧ info.protect &&& execMask≠0 ∧ info.protect &&& pageGuard=0

/-- A region that is scanned, with the bytes that were read. -/
structure Region where
  /-- Where the bytes were read. -/
  base : UInt64
  /-- What was read. -/
  bytes : Bytes

/-- What is scanned of a region. -/
def Memory.piece (memory : Memory) (info : MemoryInfo) : Option Region :=
  let bytes := (memory.read info.baseAddress (min info.regionSize.toNat kMaxRegion)).take
    (min info.regionSize.toNat kMaxRegion)
  if info.wanted=true ∧ bytes≠[] then some ⟨info.baseAddress,bytes⟩ else none

/-- One turn of the loop: the address of the next turn and what is scanned, or
the end of the loop. -/
def visit (memory : Memory) (addr : UInt64) : Option (UInt64×Option Region) :=
  match memory.query addr with
  | none => none
  | some info =>
    let next := info.baseAddress+info.regionSize
    if next ≤ addr then none else some (next,memory.piece info)

/-- The addresses of the turns grow. -/
theorem visit_advances {memory : Memory} {addr next : UInt64} {found : Option Region}
    (h : visit memory addr=some (next,found)) : addr.toNat < next.toNat := by
  unfold visit at h
  cases hquery : memory.query addr with
  | none => simp [hquery] at h
  | some info =>
    simp only [hquery] at h
    split_ifs at h with hstop
    obtain ⟨rfl,-⟩ := Prod.mk.inj (Option.some.inj h)
    rw [UInt64.le_iff_toNat_le] at hstop
    omega

/-- How many bytes are scanned. -/
def total (found : List Region) : ℕ := (found.map fun region => region.bytes.length).sum

section Walk

variable (memory : ℕ → Memory) (cancelled : ℕ → Bool)

/-- The loop: the regions that are scanned from a turn on. -/
def walk (turn : ℕ) (addr : UInt64) (scanned : ℕ) : List Region :=
  if cancelled turn=true ∨ kMaxPerProc ≤ scanned then []
  else
    match _hvisit : visit (memory turn) addr with
    | none => []
    | some (next,none) => walk (turn+1) next scanned
    | some (next,some region) =>
      region::walk (turn+1) next (scanned+region.bytes.length)
termination_by 2^64-addr.toNat
decreasing_by
  all_goals
    have hgrow := visit_advances _hvisit
    have hsize := next.toNat_lt
    omega

/-- The text with which `scan_buffer` is told where the bytes come from. -/
def origin (pid : UInt32) (pname : Str) (base : UInt64) : Str :=
  "PID ".toList++toDecimal pid.toNat++" (".toList++pname++") @ 0x".toList++
    Nat.toDigits 16 base.toNat

/-- `scan_process_memory`: the results it files and reports, in their order. -/
def scanProcessMemory (scanner : Scanner) (pid : UInt32) (pname : Str) : List ScanResult :=
  (walk memory cancelled 0 0 0).filterMap fun region =>
    scanBuffer scanner region.bytes (origin pid pname region.base)

end Walk

/-- Regions that follow each other without gaps from an address on. -/
def Tiles : ℕ → List MemoryInfo → Prop
  | _,[] => True
  | start,info::rest => info.baseAddress.toNat=start ∧ 0 < info.regionSize.toNat ∧
      start+info.regionSize.toNat < 2^64 ∧ Tiles (start+info.regionSize.toNat) rest

/-- The address behind regions that follow each other from an address on. -/
def endOf (start : ℕ) (regions : List MemoryInfo) : ℕ :=
  start+(regions.map fun info => info.regionSize.toNat).sum

/-- An address space that keeps its regions while their contents may change.
What the system answers inside of a region, from its second page on, is left
open. -/
structure Laid (memory : ℕ → Memory) (regions : List MemoryInfo) : Prop where
  /-- The regions tile the space from address zero on. -/
  tiles : Tiles 0 regions
  /-- Asked at the start of a region the system answers with it. -/
  query : ∀ turn,∀ info ∈ regions,(memory turn).query info.baseAddress=some info
  /-- Behind the last region it has no answer. -/
  behind : ∀ turn addr,endOf 0 regions ≤ addr.toNat → (memory turn).query addr=none

/-- What there is to scan in a space, a region at its turn. -/
def pieces (memory : ℕ → Memory) : ℕ → List MemoryInfo → List Region
  | _,[] => []
  | turn,info::rest => ((memory turn).piece info).toList++pieces memory (turn+1) rest

/-- The regions up to the one that spends the budget. -/
def spend : ℕ → List Region → List Region
  | _,[] => []
  | scanned,region::rest =>
    if kMaxPerProc ≤ scanned then [] else region::spend (scanned+region.bytes.length) rest

/-- The bytes of the first region lie before those of the second. -/
def Before (first second : Region) : Prop :=
  first.base.toNat+first.bytes.length ≤ second.base.toNat

section Facts

variable {memory : ℕ → Memory} {cancelled : ℕ → Bool}

/-- A scanned piece is the beginning of a region that is wanted. -/
theorem piece_eq_some {memory : Memory} {info : MemoryInfo} {region : Region}
    (h : memory.piece info=some region) :
    info.wanted=true ∧ region.base=info.baseAddress ∧ region.bytes≠[] ∧
      region.bytes.length ≤ info.regionSize.toNat ∧ region.bytes.length ≤ kMaxRegion := by
  simp only [Memory.piece] at h
  split_ifs at h with hread
  cases h
  refine ⟨hread.1,rfl,hread.2,?_,?_⟩
  · simp only [List.length_take]
    omega
  · simp only [List.length_take]
    omega

/-- A turn that scans comes from a piece. -/
theorem visit_piece {memory : Memory} {addr next : UInt64} {region : Region}
    (h : visit memory addr=some (next,some region)) :
    ∃ info,memory.piece info=some region := by
  unfold visit at h
  cases hquery : memory.query addr with
  | none => simp [hquery] at h
  | some info =>
    simp only [hquery] at h
    split_ifs at h
    exact ⟨info,(Prod.mk.inj (Option.some.inj h)).2⟩

/-- A loop that is stopped scans nothing. -/
theorem walk_stop {turn : ℕ} {addr : UInt64} {scanned : ℕ}
    (h : cancelled turn=true ∨ kMaxPerProc ≤ scanned) :
    walk memory cancelled turn addr scanned=[] := by
  rw [walk,if_pos h]

/-- Where the system has no answer the loop ends. -/
theorem walk_end {turn : ℕ} {addr : UInt64} {scanned : ℕ}
    (h : visit (memory turn) addr=none) : walk memory cancelled turn addr scanned=[] := by
  rw [walk]
  split_ifs
  · rfl
  · split <;> simp_all

/-- One turn of the loop. -/
theorem walk_turn {turn : ℕ} {addr next : UInt64} {scanned : ℕ} {found : Option Region}
    (hgo : ¬(cancelled turn=true ∨ kMaxPerProc ≤ scanned))
    (h : visit (memory turn) addr=some (next,found)) :
    walk memory cancelled turn addr scanned=
      found.toList++walk memory cancelled (turn+1) next (scanned+total found.toList) := by
  rw [walk,if_neg hgo]
  split
  · next hnone => simp [hnone] at h
  · next hpass =>
    rw [hpass] at h
    obtain ⟨rfl,rfl⟩ := Prod.mk.inj (Option.some.inj h)
    simp [total]
  · next hread =>
    rw [hread] at h
    obtain ⟨rfl,rfl⟩ := Prod.mk.inj (Option.some.inj h)
    simp [total]

/-- The budget is overspent by less than a region. -/
theorem walk_total (turn : ℕ) (addr : UInt64) (scanned : ℕ)
    (h : scanned < kMaxPerProc+kMaxRegion) :
    scanned+total (walk memory cancelled turn addr scanned) < kMaxPerProc+kMaxRegion := by
  fun_induction walk memory cancelled turn addr scanned with
  | case1 turn addr scanned hstop => simpa [total] using h
  | case2 turn addr scanned hgo hend => simpa [total] using h
  | case3 turn addr scanned hgo next hpass ih => exact ih h
  | case4 turn addr scanned hgo next region hread ih =>
    obtain ⟨info,hpiece⟩ := visit_piece hread
    have hsize := (piece_eq_some hpiece).2.2.2.2
    have hrest := ih (by omega)
    simp only [total,List.map_cons,List.sum_cons] at hrest ⊢
    omega

/-- Nothing is scanned once the budget is spent. -/
theorem spend_full {scanned : ℕ} (h : kMaxPerProc ≤ scanned) (regions : List Region) :
    spend scanned regions=[] := by
  cases regions with
  | nil => rfl
  | cons region rest => exact if_pos h

/-- What a turn scans is spent first. -/
theorem spend_turn {scanned : ℕ} (h : scanned < kMaxPerProc) (found : Option Region)
    (rest : List Region) :
    spend scanned (found.toList++rest)=
      found.toList++spend (scanned+total found.toList) rest := by
  cases found with
  | none => simp [total]
  | some region =>
    have hgo : ¬kMaxPerProc ≤ scanned := by omega
    simp [spend,hgo,total]

/-- The budget leaves regions out and adds none. -/
theorem spend_sublist (scanned : ℕ) (regions : List Region) :
    (spend scanned regions).Sublist regions := by
  induction regions generalizing scanned with
  | nil => exact .slnil
  | cons region rest ih =>
    rw [spend]
    split_ifs
    · exact List.nil_sublist _
    · exact (ih _).cons_cons region

/-- A budget that is large enough leaves nothing out. -/
theorem spend_all (scanned : ℕ) (regions : List Region) (hbytes : ∀ r ∈ regions,r.bytes≠[])
    (h : scanned+total regions ≤ kMaxPerProc) : spend scanned regions=regions := by
  induction regions generalizing scanned with
  | nil => rfl
  | cons region rest ih =>
    have hpos := List.length_pos_of_ne_nil (hbytes region List.mem_cons_self)
    simp only [total,List.map_cons,List.sum_cons] at h
    have hgo : ¬kMaxPerProc ≤ scanned := by omega
    rw [spend,if_neg hgo,
      ih _ (fun r hr => hbytes r (List.mem_cons_of_mem _ hr)) (by simp only [total]; omega)]

/-- The pieces of a space are not empty. -/
theorem pieces_bytes (turn : ℕ) (regions : List MemoryInfo) :
    ∀ r ∈ pieces memory turn regions,r.bytes≠[] := by
  induction regions generalizing turn with
  | nil => simp [pieces]
  | cons info rest ih =>
    intro r hr
    rw [pieces,List.mem_append,Option.mem_toList] at hr
    rcases hr with hr | hr
    · exact (piece_eq_some hr).2.2.1
    · exact ih (turn+1) r hr

/-- The pieces of a space lie one behind the other. -/
theorem pieces_before (turn start : ℕ) {regions : List MemoryInfo} (h : Tiles start regions) :
    (∀ r ∈ pieces memory turn regions,start ≤ r.base.toNat) ∧
      (pieces memory turn regions).Pairwise Before := by
  induction regions generalizing turn start with
  | nil => simp [pieces]
  | cons info rest ih =>
    obtain ⟨hbase,-,-,hrest⟩ := h
    obtain ⟨hbehind,hpairs⟩ := ih (turn+1) _ hrest
    cases hpiece : (memory turn).piece info with
    | none =>
      simp only [pieces,hpiece,Option.toList_none,List.nil_append]
      exact ⟨fun r hr => (Nat.le_add_right ..).trans (hbehind r hr),hpairs⟩
    | some region =>
      obtain ⟨-,hregion,-,hsize,-⟩ := piece_eq_some hpiece
      simp only [pieces,hpiece,Option.toList_some,List.singleton_append,List.forall_mem_cons,
        List.pairwise_cons]
      refine ⟨⟨by rw [hregion,hbase],fun r hr => (Nat.le_add_right ..).trans (hbehind r hr)⟩,
        fun r hr => ?_,hpairs⟩
      have hnext := hbehind r hr
      simp only [Before,hregion]
      omega

/-- In a space with fixed regions the walk scans the pieces in their order
until the budget is spent, or until it is cancelled. -/
theorem walk_laid {regions : List MemoryInfo} (laid : Laid memory regions)
    {rest : List MemoryInfo} (turn : ℕ) (addr : UInt64) (scanned : ℕ)
    (htiles : Tiles addr.toNat rest) (hrest : ∀ info ∈ rest,info ∈ regions)
    (hend : endOf addr.toNat rest=endOf 0 regions) :
    walk memory cancelled turn addr scanned <+: spend scanned (pieces memory turn rest) ∧
      ((∀ k,cancelled k=false) →
        walk memory cancelled turn addr scanned=spend scanned (pieces memory turn rest)) := by
  induction rest generalizing turn addr scanned with
  | nil =>
    have hquery : (memory turn).query addr=none := laid.behind turn addr hend.ge
    have hvisit : visit (memory turn) addr=none := by rw [visit,hquery]
    simp [walk_end hvisit,pieces,spend]
  | cons info rest ih =>
    obtain ⟨hbase,hsize,hfits,hnext⟩ := htiles
    by_cases hstop : cancelled turn=true ∨ kMaxPerProc ≤ scanned
    · rw [walk_stop hstop]
      refine ⟨List.nil_prefix,fun hgo => ?_⟩
      have hfull := hstop.resolve_left (by simp [hgo])
      rw [spend_full hfull]
    · have hin := hrest info List.mem_cons_self
      have haddr : info.baseAddress=addr := UInt64.toNat_inj.mp hbase
      have hquery : (memory turn).query addr=some info := by
        rw [←haddr]
        exact laid.query turn info hin
      have hsum : (info.baseAddress+info.regionSize).toNat=
          addr.toNat+info.regionSize.toNat := by
        rw [UInt64.toNat_add,hbase,Nat.mod_eq_of_lt hfits]
      have hgrow : ¬info.baseAddress+info.regionSize ≤ addr := by
        rw [UInt64.le_iff_toNat_le,hsum]
        omega
      have hvisit : visit (memory turn) addr=
          some (info.baseAddress+info.regionSize,(memory turn).piece info) := by
        simp only [visit,hquery,if_neg hgrow]
      have hbudget : scanned < kMaxPerProc := by
        push Not at hstop
        exact hstop.2
      have hlast : endOf (info.baseAddress+info.regionSize).toNat rest=endOf 0 regions := by
        rw [←hend,hsum,endOf,endOf,List.map_cons,List.sum_cons,Nat.add_assoc]
      obtain ⟨hfront,hall⟩ := ih (turn+1) (info.baseAddress+info.regionSize)
        (scanned+total ((memory turn).piece info).toList) (by rwa [hsum])
        (fun other hother => hrest other (List.mem_cons_of_mem _ hother)) hlast
      rw [walk_turn hstop hvisit,pieces,spend_turn hbudget]
      exact ⟨(List.prefix_append_right_inj _).mpr hfront,fun hgo => by rw [hall hgo]⟩

/-- What a buffer is found to hold is a signature or at least medium. -/
theorem scanBuffer_justified {scanner : Scanner} {data : Bytes} {text : Str}
    {result : ScanResult} (h : scanBuffer scanner data text=some result) :
    Justified scanner text result := by
  rcases Option.or_eq_some_iff.mp h with hsig | ⟨-,hrest⟩
  · exact checkSignatureMatch_justified hsig
  · rcases Option.or_eq_some_iff.mp hrest with hcode | ⟨-,hentropy⟩
    · exact checkShellcode_justified hcode
    · exact checkEntropyAnomaly_justified hentropy

end Facts

/-- Whatever the system answers, the scan of a process ends, reads less than 80
megabytes, and reports signatures or what is at least medium of the regions it
read. Where the regions stay while their contents change, no byte is read twice,
and the regions that are committed, executable and no guards are scanned in the
order of their addresses until the budget is spent: all of them if they fit. -/
theorem process_memory_scanned (scanner : Scanner) (pid : UInt32) (pname : Str)
    (memory : ℕ → Memory) (cancelled : ℕ → Bool) :
    let found := walk memory cancelled 0 0 0
    total found < kMaxPerProc+kMaxRegion ∧
      (∀ result ∈ scanProcessMemory memory cancelled scanner pid pname,∃ region ∈ found,
        Justified scanner (origin pid pname region.base) result) ∧
      ∀ regions,Laid memory regions →
        found <+: spend 0 (pieces memory 0 regions) ∧ found.Pairwise Before ∧
          ((∀ k,cancelled k=false) → found=spend 0 (pieces memory 0 regions) ∧
            (total (pieces memory 0 regions) ≤ kMaxPerProc →
              found=pieces memory 0 regions)) := by
  intro found
  have hbudget : 0 < kMaxPerProc+kMaxRegion := by decide
  refine ⟨by simpa using walk_total 0 0 0 hbudget,fun result hresult => ?_,
    fun regions laid => ?_⟩
  · obtain ⟨region,hregion,hscan⟩ := List.mem_filterMap.mp hresult
    exact ⟨region,hregion,scanBuffer_justified hscan⟩
  · obtain ⟨hfront,hall⟩ : found <+: spend 0 (pieces memory 0 regions) ∧
        ((∀ k,cancelled k=false) → found=spend 0 (pieces memory 0 regions)) :=
      walk_laid laid 0 0 0 laid.tiles (fun info hinfo => hinfo) rfl
    have hsub : found.Sublist (pieces memory 0 regions) :=
      hfront.sublist.trans (spend_sublist 0 _)
    refine ⟨hfront,(pieces_before 0 0 laid.tiles).2.sublist hsub,fun hgo =>
      ⟨hall hgo,fun hfits => (hall hgo).trans ?_⟩⟩
    exact spend_all 0 _ (pieces_bytes 0 regions) (by omega)

/-- A free page at address zero. -/
def freePage : MemoryInfo := ⟨0,0x1000,0x10000,0x01⟩

/-- Two pages of code behind it. -/
def codeRegion : MemoryInfo := ⟨0x1000,0x2000,memCommit,0x20⟩

/-- The space of a process with these regions. Asked at the second page of code
the system answers with the rest of the region. -/
def codeSpace : Memory where
  query addr :=
    if addr < 0x1000 then some freePage
    else if addr < 0x2000 then some codeRegion
    else if addr < 0x3000 then some ⟨0x2000,0x1000,memCommit,0x20⟩
    else none
  read _ _ := [0x90,0xC3]

/-- The two regions are laid out in it. -/
theorem laid_codeSpace : Laid (fun _ => codeSpace) [freePage,codeRegion] := by
  refine ⟨⟨rfl,by decide,by decide,rfl,by decide,by decide,trivial⟩,fun _ info member => ?_,
    fun _ addr hbehind => ?_⟩
  · rcases List.mem_cons.mp member with rfl | member
    · rfl
    · rw [List.mem_singleton.mp member]
      rfl
  · have hfar : 0x3000 ≤ addr.toNat := hbehind
    have hnot : ∀ limit : UInt64,limit.toNat ≤ 0x3000 → ¬addr < limit := by
      intro limit hlimit hlt
      rw [UInt64.lt_iff_toNat_lt] at hlt
      omega
    simp only [codeSpace]
    rw [if_neg (hnot _ (by decide)),if_neg (hnot _ (by decide)),if_neg (hnot _ (by decide))]

/-- The code is scanned once. -/
theorem process_memory_scanned_codeSpace :
    walk (fun _ => codeSpace) (fun _ => false) 0 0 0=[⟨0x1000,[0x90,0xC3]⟩] := by
  have hlaid := (process_memory_scanned ⟨[],⟨fun _ => .nan,fun _ => .nan⟩,fun _ _ => .nan⟩ 7 []
    (fun _ => codeSpace) fun _ => false).2.2 _ laid_codeSpace
  exact (hlaid.2.2 fun _ => rfl).2 (by decide)

end Gcad.MemoryWalk
