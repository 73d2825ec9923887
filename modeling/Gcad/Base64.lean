import Gcad.ByteView
import Gcad.Insertions

/-!
# Decoding Base64 payloads

`LolbinsEngine::decode_base64`. The decoder keeps a 32-bit accumulator, out
of which the oldest digits are shifted, and a bit counter that starts below
zero; it skips characters that are no digits and stops at the padding. Two
zero bytes at odd places make it read the bytes as UTF-16. The standard
encoding is stated on groups of three bytes.
-/

namespace Gcad.Base64

open ByteView Insertions

/-- The characters of the standard encoding, in the order of their values. -/
def alphabet : Bytes :=
  "ABCDEFGHIJKLMNOPQRSTUVWXYZabcdefghijklmnopqrstuvwxyz0123456789+/".toList.map fun c =>
    UInt8.ofNat c.toNat

/-- The padding character `'='`. -/
def pad : UInt8 := 0x3D

/-- The character of a value below 64. -/
def digit (value : ℕ) : UInt8 := alphabet[value]?.getD 0

/-- The standard encoding with padding. -/
def encode : Bytes → Bytes
  | a::b::c::rest =>
    digit (a.toNat/4)::digit (a.toNat%4*16+b.toNat/16)::digit (b.toNat%16*4+c.toNat/64)::
      digit (c.toNat%64)::encode rest
  | [a,b] => [digit (a.toNat/4),digit (a.toNat%4*16+b.toNat/16),digit (b.toNat%16*4),pad]
  | [a] => [digit (a.toNat/4),digit (a.toNat%4*16),pad,pad]
  | [] => []

/-- A character that is neither in the alphabet nor the padding. -/
def Junk (c : UInt8) : Prop := c ∉ alphabet ∧ c≠pad

/-- `b64_table`. -/
def b64Table : List ℤ :=
  [-1,-1,-1,-1,-1,-1,-1,-1,-1,-1,-1,-1,-1,-1,-1,-1,
   -1,-1,-1,-1,-1,-1,-1,-1,-1,-1,-1,-1,-1,-1,-1,-1,
   -1,-1,-1,-1,-1,-1,-1,-1,-1,-1,-1,62,-1,-1,-1,63,
   52,53,54,55,56,57,58,59,60,61,-1,-1,-1,0,-1,-1,
   -1,0,1,2,3,4,5,6,7,8,9,10,11,12,13,14,
   15,16,17,18,19,20,21,22,23,24,25,-1,-1,-1,-1,-1,
   -1,26,27,28,29,30,31,32,33,34,35,36,37,38,39,40,
   41,42,43,44,45,46,47,48,49,50,51,-1,-1,-1,-1,-1,
   -1,-1,-1,-1,-1,-1,-1,-1,-1,-1,-1,-1,-1,-1,-1,-1,
   -1,-1,-1,-1,-1,-1,-1,-1,-1,-1,-1,-1,-1,-1,-1,-1,
   -1,-1,-1,-1,-1,-1,-1,-1,-1,-1,-1,-1,-1,-1,-1,-1,
   -1,-1,-1,-1,-1,-1,-1,-1,-1,-1,-1,-1,-1,-1,-1,-1,
   -1,-1,-1,-1,-1,-1,-1,-1,-1,-1,-1,-1,-1,-1,-1,-1,
   -1,-1,-1,-1,-1,-1,-1,-1,-1,-1,-1,-1,-1,-1,-1,-1,
   -1,-1,-1,-1,-1,-1,-1,-1,-1,-1,-1,-1,-1,-1,-1,-1,
   -1,-1,-1,-1,-1,-1,-1,-1,-1,-1,-1,-1,-1,-1,-1,-1]

/-- The table entry of a character. -/
def tableAt (c : UInt8) : ℤ := b64Table[c.toNat]?.getD (-1)

/-- `val` after one more digit. -/
def accumulate (val : UInt32) (d : ℕ) : UInt32 := val <<< 6 ||| UInt32.ofNat d

/-- The loop that fills `raw_bytes`, from a value of `val` and `bits` on. -/
def decodeLoop (val : UInt32) (bits : ℤ) : Bytes → Bytes
  | [] => []
  | c::rest =>
    if c=pad then []
    else
      let d := tableAt c
      if d= -1 then decodeLoop val bits rest
      else
        let val := accumulate val d.toNat
        let bits := bits+6
        if 0 ≤ bits then
          UInt8.ofNat (val.toNat >>> bits.toNat &&& 0xFF)::decodeLoop val (bits-8) rest
        else decodeLoop val bits rest

/-- The loop over pairs of bytes. -/
def utf16Loop : Bytes → Bytes
  | low::high::rest =>
    let w := low.toNat ||| high.toNat <<< 8
    if 32 ≤ w ∧ w ≤ 126 then UInt8.ofNat w::utf16Loop rest
    else if w=0x0A ∨ w=0x0D ∨ w=0x09 then UInt8.ofNat w::utf16Loop rest
    else utf16Loop rest
  | _ => []

/-- The test that sets `is_utf16le`. -/
def IsUtf16le (raw : Bytes) : Prop := 4 ≤ raw.length ∧ raw[1]?=some 0 ∧ raw[3]?=some 0

instance (raw : Bytes) : Decidable (IsUtf16le raw) := inferInstanceAs (Decidable (_ ∧ _ ∧ _))

/-- `decode_base64`. -/
def decodeBase64 (b64 : Bytes) : Option Bytes :=
  if b64=[] then none
  else
    let raw := decodeLoop 0 (-8) b64
    if raw=[] then none
    else if IsUtf16le raw then some (utf16Loop raw)
    else some raw

section Table

/-- The table inverts the alphabet. -/
theorem tableAt_digit {n : ℕ} (h : n < 64) : tableAt (digit n)=n ∧ digit n≠pad := by
  have hall : ∀ n < 64,tableAt (digit n)=n ∧ digit n≠pad := by decide +kernel
  exact hall n h

/-- The alphabet is the digits of the values below 64. -/
theorem alphabet_digit {c : UInt8} (h : c ∈ alphabet) : ∃ n < 64,digit n=c := by
  have hlength : alphabet.length=64 := by decide +kernel
  obtain ⟨n,hn,hc⟩ := List.mem_iff_getElem.mp h
  refine ⟨n,hlength ▸ hn,?_⟩
  rw [digit,List.getElem?_eq_getElem hn,Option.getD_some,hc]

/-- The table has no digit for junk. -/
theorem tableAt_junk {c : UInt8} (h : Junk c) : tableAt c= -1 := by
  have hall : ∀ c : UInt8,tableAt c= -1 ∨ c=pad ∨ alphabet[(tableAt c).toNat]?=some c :=
    forall_byte (by decide +kernel)
  rcases hall c with hnone|hpad|hdigit
  · exact hnone
  · exact (h.2 hpad).elim
  · exact (h.1 (List.mem_of_getElem? hdigit)).elim

/-- The table has a digit for every character of the alphabet. -/
theorem tableAt_alphabet {c : UInt8} (h : c ∈ alphabet) : 0 ≤ tableAt c := by
  obtain ⟨n,hn,rfl⟩ := alphabet_digit h
  rw [(tableAt_digit hn).1]
  exact Int.natCast_nonneg n

end Table

section Loop

variable {val : UInt32}

/-- The accumulator as a number. -/
theorem accumulate_toNat (val : UInt32) {d : ℕ} (h : d < 64) :
    (accumulate val d).toNat=(val.toNat*64+d)%2^32 := by
  have hor : val.toNat*64%2^32 ||| d=val.toNat*64%2^32+d := by
    have hsplit : val.toNat*64%2^32=(val.toNat%2^26) <<< 6 := by
      rw [Nat.shiftLeft_eq]
      omega
    rw [hsplit,Nat.lor_comm,or_shift 6 h,Nat.shiftLeft_eq,Nat.add_comm]
  have hshift : (val <<< 6).toNat=val.toNat*64%2^32 := by
    rw [UInt32.toNat_shiftLeft,Nat.shiftLeft_eq]
    rfl
  rw [accumulate,UInt32.toNat_or,hshift,UInt32.toNat_ofNat',Nat.mod_eq_of_lt (by omega : d < 2^32),
    hor]
  omega

/-- The byte that leaves the accumulator. -/
theorem emitted_eq (val : UInt32) (b : ℕ) :
    UInt8.ofNat (val.toNat >>> b &&& 0xFF)=UInt8.ofNat (val.toNat/2^b) := by
  apply UInt8.toNat_inj.mp
  have hmask : (0xFF : ℕ)=2^8-1 := rfl
  rw [UInt8.toNat_ofNat',UInt8.toNat_ofNat',Nat.shiftRight_eq_div_pow,hmask,
    Nat.and_two_pow_sub_one_eq_mod,Nat.mod_mod]

/-- One digit of the loop. -/
theorem decodeLoop_digit {d : ℕ} (h : d < 64) (val : UInt32) (bits : ℤ) (rest : Bytes) :
    decodeLoop val bits (digit d::rest)=
      if 0 ≤ bits+6 then
        UInt8.ofNat ((accumulate val d).toNat/2^(bits+6).toNat)::
          decodeLoop (accumulate val d) (bits+6-8) rest
      else decodeLoop (accumulate val d) (bits+6) rest := by
  obtain ⟨htable,hpad⟩ := tableAt_digit h
  have hdigit : ¬(d : ℤ)= -1 := by omega
  rw [decodeLoop,if_neg hpad]
  dsimp only
  rw [htable,if_neg hdigit,Int.toNat_natCast,emitted_eq]

/-- The first two digits of a group yield a byte. -/
theorem decodeLoop_second {d e : ℕ} (hd : d < 64) (he : e < 64) (val : UInt32) (rest : Bytes) :
    decodeLoop val (-8) (digit d::digit e::rest)=
      UInt8.ofNat (d*4+e/16)::decodeLoop (accumulate (accumulate val d) e) (-4) rest := by
  rw [decodeLoop_digit hd,if_neg (by decide),decodeLoop_digit he,if_pos (by decide)]
  congr 1
  have hfirst := accumulate_toNat val hd
  have hsecond := accumulate_toNat (accumulate val d) he
  apply UInt8.toNat_inj.mp
  have hbits : ((-8+6+6 : ℤ)).toNat=4 := rfl
  rw [UInt8.toNat_ofNat',UInt8.toNat_ofNat',hbits]
  omega

/-- The third digit of a group yields a byte. -/
theorem decodeLoop_third {d e : ℕ} (hd : d < 64) (he : e < 64) (val : UInt32) (rest : Bytes) :
    decodeLoop (accumulate val d) (-4) (digit e::rest)=
      UInt8.ofNat (d%16*16+e/4)::decodeLoop (accumulate (accumulate val d) e) (-6) rest := by
  rw [decodeLoop_digit he,if_pos (by decide)]
  congr 1
  have hfirst := accumulate_toNat val hd
  have hsecond := accumulate_toNat (accumulate val d) he
  apply UInt8.toNat_inj.mp
  have hbits : ((-4+6 : ℤ)).toNat=2 := rfl
  rw [UInt8.toNat_ofNat',UInt8.toNat_ofNat',hbits]
  omega

/-- The fourth digit of a group yields a byte. -/
theorem decodeLoop_fourth {d e : ℕ} (hd : d < 64) (he : e < 64) (val : UInt32) (rest : Bytes) :
    decodeLoop (accumulate val d) (-6) (digit e::rest)=
      UInt8.ofNat (d%4*64+e)::decodeLoop (accumulate (accumulate val d) e) (-8) rest := by
  rw [decodeLoop_digit he,if_pos (by decide)]
  congr 1
  have hfirst := accumulate_toNat val hd
  have hsecond := accumulate_toNat (accumulate val d) he
  apply UInt8.toNat_inj.mp
  have hbits : ((-6+6 : ℤ)).toNat=0 := rfl
  rw [UInt8.toNat_ofNat',UInt8.toNat_ofNat',hbits]
  omega

/-- The loop ends at the padding. -/
theorem decodeLoop_pad (val : UInt32) (bits : ℤ) (rest : Bytes) :
    decodeLoop val bits (pad::rest)=[] := by
  rw [decodeLoop,if_pos rfl]

/-- The loop inverts the standard encoding, from any accumulator. -/
theorem decodeLoop_encode (x : Bytes) (val : UInt32) : decodeLoop val (-8) (encode x)=x := by
  have hbyte : ∀ (n : ℕ) (b : UInt8),n%256=b.toNat → UInt8.ofNat n=b := by
    intro n b hn
    apply UInt8.toNat_inj.mp
    rw [UInt8.toNat_ofNat']
    exact hn
  induction x using encode.induct generalizing val with
  | case1 a b c rest ih =>
    have ha := a.toNat_lt
    have hb := b.toNat_lt
    have hc := c.toNat_lt
    rw [encode,decodeLoop_second (by omega) (by omega),decodeLoop_third (by omega) (by omega),
      decodeLoop_fourth (by omega) (by omega),ih,hbyte _ a (by omega),hbyte _ b (by omega),
      hbyte _ c (by omega)]
  | case2 a b =>
    have ha := a.toNat_lt
    have hb := b.toNat_lt
    rw [encode,decodeLoop_second (by omega) (by omega),decodeLoop_third (by omega) (by omega),
      decodeLoop_pad,hbyte _ a (by omega),hbyte _ b (by omega)]
  | case3 a =>
    have ha := a.toNat_lt
    rw [encode,decodeLoop_second (by omega) (by omega),decodeLoop_pad,hbyte _ a (by omega)]
  | case4 => rfl

/-- Inserted junk is skipped. -/
theorem decodeLoop_inserted {s t : Bytes} (h : Inserted Junk s t) (val : UInt32) (bits : ℤ) :
    decodeLoop val bits t=decodeLoop val bits s := by
  induction h generalizing val bits with
  | nil => rfl
  | keep c _ ih =>
    unfold decodeLoop
    simp only [ih]
  | insert hc _ ih =>
    rw [decodeLoop,if_neg hc.2]
    dsimp only
    rw [if_pos (tableAt_junk hc),ih]

end Loop

section RoundTrip

/-- UTF-16LE of characters below 256. -/
def utf16le (s : Bytes) : Bytes := s.flatMap fun c => [c,0]

/-- Printable ASCII. -/
def Printable (s : Bytes) : Prop := ∀ c ∈ s,32 ≤ c.toNat ∧ c.toNat ≤ 126

/-- The decoder up to the choice of the character width. -/
theorem decodeBase64_encode {x text : Bytes} (hx : x≠[]) (h : Inserted Junk (encode x) text) :
    decodeBase64 text=if IsUtf16le x then some (utf16Loop x) else some x := by
  have hloop : decodeLoop 0 (-8) text=x := by
    rw [decodeLoop_inserted h,decodeLoop_encode]
  have htext : text≠[] := by
    rintro rfl
    exact hx hloop.symm
  rw [decodeBase64,if_neg htext]
  dsimp only
  rw [hloop,if_neg hx]

/-- The pairs of printable characters are read back. -/
theorem utf16Loop_utf16le {s : Bytes} (h : Printable s) : utf16Loop (utf16le s)=s := by
  induction s with
  | nil => rfl
  | cons c s ih =>
    have hc := h c List.mem_cons_self
    have hstep : utf16le (c::s)=c::0::utf16le s := rfl
    have hw : c.toNat ||| (0 : UInt8).toNat <<< 8=c.toNat := by
      rw [UInt8.toNat_zero,Nat.zero_shiftLeft,Nat.or_zero]
    rw [hstep,utf16Loop,hw,if_pos hc,UInt8.ofNat_toNat,
      ih fun d member => h d (List.mem_cons_of_mem _ member)]

/-- Two characters are enough for the width test. -/
theorem isUtf16le_utf16le {s : Bytes} (h : 2 ≤ s.length) : IsUtf16le (utf16le s) := by
  match s,h with
  | c::d::s,_ => exact ⟨by simp [utf16le],rfl,rfl⟩

/-- Decoding the standard encoding gives the bytes back, with junk inserted
anywhere; decoding the encoding of UTF-16LE text gives the text. -/
theorem decode_base64_round_trip :
    (∀ x text : Bytes,x≠[] → ¬IsUtf16le x → Inserted Junk (encode x) text →
        decodeBase64 text=some x) ∧
      ∀ s text : Bytes,Printable s → 2 ≤ s.length →
        Inserted Junk (encode (utf16le s)) text → decodeBase64 text=some s := by
  refine ⟨fun x text hx hplain h => ?_,fun s text hs hlen h => ?_⟩
  · rw [decodeBase64_encode hx h,if_neg hplain]
  · have hwide := isUtf16le_utf16le hlen
    have hne : utf16le s≠[] := by
      intro hempty
      rw [hempty] at hwide
      exact absurd hwide.1 (by decide)
    rw [decodeBase64_encode hne h,if_pos hwide,utf16Loop_utf16le hs]

/-- The bytes of `hi` with a line break in their encoding, and `ab` in
UTF-16LE. -/
theorem decode_base64_round_trip_hi :
    decodeBase64 [0x61,0x47,0x0A,0x6B,0x3D]=some [0x68,0x69] ∧
      decodeBase64 (encode (utf16le [0x61,0x62]))=some [0x61,0x62] :=
  ⟨decode_base64_round_trip.1 [0x68,0x69] _ (List.cons_ne_nil _ _) (by decide)
      (.keep _ (.keep _ (.insert ⟨by decide,by decide⟩ (.keep _ (.keep _ .nil))))),
    decode_base64_round_trip.2 [0x61,0x62] _
      (List.forall_mem_cons.mpr ⟨by decide,List.forall_mem_singleton.mpr (by decide)⟩)
      le_rfl (.refl _)⟩

end RoundTrip

end Gcad.Base64
