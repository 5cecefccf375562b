import LineBasic.Source

/-!
# Bytes that are a text

Decoding gives a text exactly if the bytes are the encoding of that text, so bytes are
refused exactly if they are the encoding of no text. A character is read in two parts: its
first byte, which promises how many more there are and bounds the next, and the bytes that
follow, of six bits each. The second part is one induction on the bytes still owed.
-/
namespace LineBasic.Source

/-- The bits of a code ahead of those in its last bytes, six bits in each. -/
def leading : Nat → Nat → Nat
  | 0, code => code
  | owed + 1, code => leading owed code / 64

/-- The last bytes of the character with a code. -/
def trail : Nat → Nat → Bytes
  | 0, _ => []
  | owed + 1, code => UInt8.ofNat (leading owed code % 64 + 0x80) :: trail owed code

theorem cons_eq_trail_iff {owed code : Nat} {byte : UInt8} {bytes rest : Bytes} :
    byte :: bytes = trail (owed + 1) code ++ rest ↔
      byte = UInt8.ofNat (leading owed code % 64 + 0x80) ∧ bytes = trail owed code ++ rest := by
  rw [trail, List.cons_append, List.cons.injEq]

@[simp] theorem length_trail (owed code : Nat) : (trail owed code).length = owed := by
  induction owed with
  | zero => rfl
  | succ owed ih => rw [trail, List.length_cons, ih]

theorem toNat_byte {n : Nat} (h : n < 256) : (UInt8.ofNat n).toNat = n :=
  UInt8.toNat_ofNat_of_lt' h

namespace Partial

/-- A code that a partial character may be completed to. -/
structure Promises (p : Partial) (code : Nat) : Prop where
  bits : leading p.owed code = p.bits
  low : p.low ≤ leading (p.owed - 1) code % 64 + 0x80
  high : leading (p.owed - 1) code % 64 + 0x80 ≤ p.high

/-- A partial character that owes some bytes, the next of which has six bits. -/
structure Continues (p : Partial) (owed : Nat) : Prop where
  owed : p.owed = owed + 1
  low : 0x80 ≤ p.low
  high : p.high ≤ 0xBF

/-- What one more byte leaves of the promise. -/
theorem Continues.promises_iff {p : Partial} {owed : Nat} (h : p.Continues owed) (byte : UInt8)
    (code : Nat) :
    p.Promises code ∧ byte = UInt8.ofNat (leading owed code % 64 + 0x80) ↔
      p.low ≤ byte.toNat ∧ byte.toNat ≤ p.high ∧
        leading owed code = p.bits * 64 + (byte.toNat - 0x80) := by
  have hlow := h.low
  have hhigh := h.high
  have hdiv : leading p.owed code = leading owed code / 64 := by
    rw [h.owed, leading]
  have hnext : leading (p.owed - 1) code = leading owed code := by
    rw [h.owed, Nat.add_sub_cancel]
  generalize leading owed code = first at hdiv hnext ⊢
  constructor
  · rintro ⟨⟨hbits, hleast, hmost⟩, rfl⟩
    rw [hdiv] at hbits
    rw [hnext] at hleast hmost
    rw [toNat_byte (by omega)]
    omega
  · rintro ⟨hleast, hmost, hfirst⟩
    have hbyte : first % 64 + 0x80 = byte.toNat := by omega
    refine ⟨⟨by rw [hdiv]; omega, by rw [hnext]; omega, by rw [hnext]; omega⟩, ?_⟩
    rw [hbyte, UInt8.ofNat_toNat]

/-- The partial character with one more byte. -/
def extended (p : Partial) (byte : UInt8) : Partial :=
  { p with
    bits := p.bits * 64 + (byte.toNat - 0x80)
    owed := p.owed - 1
    low := 0x80
    high := 0xBF }

theorem Continues.extended {p : Partial} {owed : Nat} (h : p.Continues (owed + 1))
    (byte : UInt8) : (p.extended byte).Continues owed where
  owed := by
    have howed := h.owed
    simp only [Partial.extended]
    omega
  low := Nat.le_refl _
  high := Nat.le_refl _

theorem Continues.promises_extended {p : Partial} {owed : Nat} (h : p.Continues (owed + 1))
    (byte : UInt8) (code : Nat) :
    (p.extended byte).Promises code ↔
      leading (owed + 1) code = p.bits * 64 + (byte.toNat - 0x80) := by
  have howed : (p.extended byte).owed = owed + 1 := (h.extended byte).owed
  have hbits : (p.extended byte).bits = p.bits * 64 + (byte.toNat - 0x80) := rfl
  constructor
  · intro hpromises
    rw [← hbits, ← hpromises.bits, howed]
  · intro hcode
    refine ⟨by rw [howed, hbits, hcode], ?_, ?_⟩
    · exact Nat.le_add_left _ _
    · exact Nat.add_le_add_right (Nat.le_of_lt_succ (Nat.mod_lt _ (by decide))) _

end Partial

/-- One byte of a character that has begun. -/
theorem decodeFrom_cons_iff {p : Partial} {owed : Nat} (h : p.Continues owed) (pos : Nat)
    (done : Text) (byte : UInt8) (bytes : Bytes) (text : Text) :
    decodeFrom pos done (some p) (byte :: bytes) = .ok text ↔
      p.low ≤ byte.toNat ∧ byte.toNat ≤ p.high ∧
        (if owed = 0 then
          decodeFrom (pos + 1) (Char.ofNat (p.bits * 64 + (byte.toNat - 0x80)) :: done) none bytes
        else decodeFrom (pos + 1) done (some (p.extended byte)) bytes) = .ok text := by
  have howed := h.owed
  have hlast : p.owed = 1 ↔ owed = 0 := by omega
  rw [decodeFrom]
  by_cases hrange : p.low ≤ byte.toNat ∧ byte.toNat ≤ p.high
  · rw [if_neg (by simpa using hrange)]
    simp only [hlast, hrange, true_and]
    rfl
  · have hout : byte.toNat < p.low ∨ p.high < byte.toNat := by omega
    rw [if_pos (by simpa using hout)]
    constructor
    · intro hfault
      cases hfault
    · rintro ⟨hlow, hhigh, -⟩
      exact absurd ⟨hlow, hhigh⟩ hrange

/-- The bytes owed are those of a promised code. -/
theorem decodeFrom_some_iff {p : Partial} {owed : Nat} (h : p.Continues owed) (pos : Nat)
    (done : Text) (bytes : Bytes) (text : Text) :
    decodeFrom pos done (some p) bytes = .ok text ↔
      ∃ code rest, p.Promises code ∧ bytes = trail (owed + 1) code ++ rest ∧
        decodeFrom (pos + (owed + 1)) (Char.ofNat code :: done) none rest = .ok text := by
  induction owed generalizing p pos bytes with
  | zero =>
      cases bytes with
      | nil => simp [decodeFrom, trail]
      | cons byte bytes =>
          rw [decodeFrom_cons_iff h, if_pos rfl]
          constructor
          · rintro ⟨hlow, hhigh, hrest⟩
            obtain ⟨hpromises, hbyte⟩ :=
              (h.promises_iff byte _).2 ⟨hlow, hhigh, rfl⟩
            exact ⟨_, bytes, hpromises, cons_eq_trail_iff.2 ⟨hbyte, rfl⟩, hrest⟩
          · rintro ⟨code, rest, hpromises, hbytes, hrest⟩
            obtain ⟨hbyte, rfl⟩ := cons_eq_trail_iff.1 hbytes
            obtain ⟨hlow, hhigh, hcode⟩ := (h.promises_iff byte code).1 ⟨hpromises, hbyte⟩
            rw [leading] at hcode
            rw [hcode] at hrest
            exact ⟨hlow, hhigh, hrest⟩
  | succ owed ih =>
      cases bytes with
      | nil => simp [decodeFrom, trail]
      | cons byte bytes =>
          have hpos : pos + 1 + (owed + 1) = pos + (owed + 1 + 1) := by omega
          rw [decodeFrom_cons_iff h, if_neg (Nat.succ_ne_zero owed), ih (h.extended byte), hpos]
          simp only [h.promises_extended]
          constructor
          · rintro ⟨hlow, hhigh, code, rest, hcode, rfl, hrest⟩
            obtain ⟨hpromises, hbyte⟩ := (h.promises_iff byte code).2 ⟨hlow, hhigh, hcode⟩
            exact ⟨code, rest, hpromises, cons_eq_trail_iff.2 ⟨hbyte, rfl⟩, hrest⟩
          · rintro ⟨code, rest, hpromises, hbytes, hrest⟩
            obtain ⟨hbyte, rfl⟩ := cons_eq_trail_iff.1 hbytes
            obtain ⟨hlow, hhigh, hcode⟩ := (h.promises_iff byte code).1 ⟨hpromises, hbyte⟩
            exact ⟨hlow, hhigh, code, rest, hcode, rfl, hrest⟩

/-- The three kinds of first bytes, by the number of bytes that follow. -/
inductive Leads (byte : UInt8) (pos : Nat) : Nat → Partial → Prop
  | two (low : 0xC2 ≤ byte.toNat) (high : byte.toNat ≤ 0xDF) :
      Leads byte pos 0 ⟨byte, pos, byte.toNat - 0xC0, 1, 0x80, 0xBF⟩
  | three (low : 0xE0 ≤ byte.toNat) (high : byte.toNat ≤ 0xEF) :
      Leads byte pos 1 ⟨byte, pos, byte.toNat - 0xE0, 2,
        if byte.toNat = 0xE0 then 0xA0 else 0x80, if byte.toNat = 0xED then 0x9F else 0xBF⟩
  | four (low : 0xF0 ≤ byte.toNat) (high : byte.toNat ≤ 0xF4) :
      Leads byte pos 2 ⟨byte, pos, byte.toNat - 0xF0, 3,
        if byte.toNat = 0xF0 then 0x90 else 0x80, if byte.toNat = 0xF4 then 0x8F else 0xBF⟩

namespace Leads

variable {byte : UInt8} {pos owed : Nat} {p : Partial}

theorem lead?_eq (h : Leads byte pos owed p) : lead? byte pos = some p := by
  cases h with
  | two low high => simp [lead?, low, high]
  | three low high =>
      have hnot : ¬ byte.toNat ≤ 0xDF := by omega
      simp [lead?, low, high, hnot]
  | four low high =>
      have hnot : ¬ byte.toNat ≤ 0xDF := by omega
      have hnot' : ¬ byte.toNat ≤ 0xEF := by omega
      simp [lead?, low, high, hnot, hnot']

theorem of_lead? (h : lead? byte pos = some p) : ∃ owed, Leads byte pos owed p := by
  unfold lead? at h
  simp only [Bool.and_eq_true, decide_eq_true_eq] at h
  split at h
  · rename_i hrange
    cases h
    exact ⟨0, .two hrange.1 hrange.2⟩
  split at h
  · rename_i hrange
    cases h
    exact ⟨1, .three hrange.1 hrange.2⟩
  split at h
  · rename_i hrange
    cases h
    exact ⟨2, .four hrange.1 hrange.2⟩
  · cases h

theorem not_ascii (h : Leads byte pos owed p) : ¬ byte.toNat < 0x80 := by
  cases h <;> omega

theorem continues (h : Leads byte pos owed p) : p.Continues owed := by
  cases h with
  | two low high => exact ⟨rfl, Nat.le_refl _, Nat.le_refl _⟩
  | three low high => constructor <;> simp only <;> split <;> omega
  | four low high => constructor <;> simp only <;> split <;> omega

end Leads

theorem toNat_ofNat_of_valid {code : Nat} (h : code.isValidChar) :
    (Char.ofNat code).toNat = code := by
  unfold Char.ofNat
  rw [dif_pos h]
  rfl

/-- The first byte of a character, and the six bits of each byte behind it. -/
theorem encodeChar_eq (c : Char) :
    String.utf8EncodeChar c =
      if c.toNat < 0x80 then [UInt8.ofNat c.toNat]
      else if c.toNat < 0x800 then UInt8.ofNat (c.toNat / 64 + 0xC0) :: trail 1 c.toNat
      else if c.toNat < 0x10000 then UInt8.ofNat (c.toNat / 4096 + 0xE0) :: trail 2 c.toNat
      else UInt8.ofNat (c.toNat / 262144 + 0xF0) :: trail 3 c.toNat := by
  have hvalid : c.toNat < 0x110000 := by
    have hvalid : c.toNat.isValidChar := c.valid
    rcases hvalid with h | h <;> omega
  simp only [String.utf8EncodeChar, Char.toNat_val, trail, leading, Nat.div_div_eq_div_mul,
    Nat.reduceMul]
  generalize c.toNat = code at hvalid ⊢
  by_cases hone : code < 0x80
  · rw [if_pos (by omega), if_pos hone]
  rw [if_neg (by omega), if_neg hone]
  by_cases htwo : code < 0x800
  · rw [if_pos (by omega), if_pos htwo, Nat.mod_eq_of_lt (a := code / 64) (by omega)]
  rw [if_neg (by omega), if_neg htwo]
  by_cases hthree : code < 0x10000
  · rw [if_pos (by omega), if_pos hthree, Nat.mod_eq_of_lt (a := code / 4096) (by omega)]
  · rw [if_neg (by omega), if_neg hthree, Nat.mod_eq_of_lt (a := code / 262144) (by omega)]

/-- What a first byte promises is encoded with this byte. -/
theorem Leads.encodes {byte : UInt8} {pos owed : Nat} {p : Partial}
    (h : Leads byte pos owed p) {code : Nat} (hcode : p.Promises code) :
    String.utf8EncodeChar (Char.ofNat code) = byte :: trail (owed + 1) code := by
  obtain ⟨hbits, hlow, hhigh⟩ := hcode
  have hbyte : ∀ {n : Nat}, n = byte.toNat → UInt8.ofNat n = byte := by
    rintro n rfl
    exact UInt8.ofNat_toNat
  cases h with
  | two low high =>
      simp only [Nat.reduceSub, leading] at hbits hlow hhigh
      have hvalid : code.isValidChar := .inl (by omega)
      rw [encodeChar_eq, toNat_ofNat_of_valid hvalid, if_neg (by omega), if_pos (by omega),
        hbyte (by omega)]
  | three low high =>
      -- The bounds of the second byte leave out what is shorter in two bytes, and surrogates.
      simp only [Nat.reduceSub, leading] at hbits hlow hhigh
      have hvalid : code.isValidChar := by
        unfold Nat.isValidChar
        split at hlow <;> split at hhigh <;> omega
      have hmost : ¬ code < 0x800 := by
        split at hlow <;> omega
      rw [encodeChar_eq, toNat_ofNat_of_valid hvalid, if_neg (by omega), if_neg hmost,
        if_pos (by omega), hbyte (by omega)]
  | four low high =>
      simp only [Nat.reduceSub, leading] at hbits hlow hhigh
      have hmost : ¬ code < 0x10000 := by
        split at hlow <;> omega
      have hvalid : code.isValidChar := by
        refine .inr ⟨by omega, ?_⟩
        split at hhigh <;> omega
      rw [encodeChar_eq, toNat_ofNat_of_valid hvalid, if_neg (by omega), if_neg (by omega),
        if_neg hmost, hbyte (by omega)]

/-- Every character beyond the first 128 has a first byte that promises it. -/
theorem exists_leads (pos : Nat) {c : Char} (h : ¬ c.toNat < 0x80) :
    ∃ byte owed p, Leads byte pos owed p ∧ p.Promises c.toNat ∧
      String.utf8EncodeChar c = byte :: trail (owed + 1) c.toNat := by
  have hvalid : c.toNat.isValidChar := c.valid
  unfold Nat.isValidChar at hvalid
  rw [encodeChar_eq, if_neg h]
  generalize c.toNat = code at h hvalid ⊢
  split
  · rename_i htwo
    have hfirst := toNat_byte (n := code / 64 + 0xC0) (by omega)
    refine ⟨_, 0, _, .two (by omega) (by omega), ⟨?_, ?_, ?_⟩, rfl⟩
    · simp only [hfirst, leading]
      omega
    · exact Nat.le_add_left _ _
    · simp only [Nat.reduceSub, leading]
      omega
  split
  · rename_i htwo hthree
    have hfirst := toNat_byte (n := code / 4096 + 0xE0) (by omega)
    refine ⟨_, 1, _, .three (by omega) (by omega), ⟨?_, ?_, ?_⟩, rfl⟩
    · simp only [hfirst, leading]
      omega
    · simp only [hfirst, Nat.reduceSub, leading]
      split <;> omega
    · simp only [hfirst, Nat.reduceSub, leading]
      split <;> omega
  · rename_i htwo hthree
    have hfirst := toNat_byte (n := code / 262144 + 0xF0) (by omega)
    refine ⟨_, 2, _, .four (by omega) (by omega), ⟨?_, ?_, ?_⟩, rfl⟩
    · simp only [hfirst, leading]
      omega
    · simp only [hfirst, Nat.reduceSub, leading]
      split <;> omega
    · simp only [hfirst, Nat.reduceSub, leading]
      split <;> omega

/-- A character is a single byte or is begun by a first byte that promises it. -/
theorem encodeChar_cases (pos : Nat) (c : Char) :
    (∃ byte : UInt8, byte.toNat < 0x80 ∧ Char.ofNat byte.toNat = c ∧
        String.utf8EncodeChar c = [byte]) ∨
      ∃ byte owed p, Leads byte pos owed p ∧ p.Promises c.toNat ∧
        String.utf8EncodeChar c = byte :: trail (owed + 1) c.toNat := by
  by_cases hascii : c.toNat < 0x80
  · have hbyte : (UInt8.ofNat c.toNat).toNat = c.toNat := toNat_byte (by omega)
    refine .inl ⟨UInt8.ofNat c.toNat, by omega, ?_, ?_⟩
    · rw [hbyte, Char.ofNat_toNat]
    · rw [encodeChar_eq, if_pos hascii]
  · exact .inr (exists_leads pos hascii)

theorem encodeChar_ascii {byte : UInt8} (h : byte.toNat < 0x80) :
    String.utf8EncodeChar (Char.ofNat byte.toNat) = [byte] := by
  rw [encodeChar_eq, toNat_ofNat_of_valid (.inl (by omega)), if_pos h, UInt8.ofNat_toNat]

/-- Decoding reads the bytes of one character after the other. -/
theorem decodeFrom_none_iff (pos : Nat) (done : Text) (byte : UInt8) (bytes : Bytes)
    (text : Text) :
    decodeFrom pos done none (byte :: bytes) = .ok text ↔
      ∃ c rest, byte :: bytes = String.utf8EncodeChar c ++ rest ∧
        decodeFrom (pos + (String.utf8EncodeChar c).length) (c :: done) none rest = .ok text := by
  rw [decodeFrom]
  constructor
  · intro h
    split at h
    · rename_i hascii
      refine ⟨Char.ofNat byte.toNat, bytes, ?_, ?_⟩
      · rw [encodeChar_ascii hascii]
        rfl
      · rwa [encodeChar_ascii hascii]
    split at h
    · rename_i p hlead
      obtain ⟨owed, hleads⟩ := Leads.of_lead? hlead
      obtain ⟨code, rest, hpromises, rfl, hrest⟩ := (decodeFrom_some_iff hleads.continues ..).1 h
      have hencode := hleads.encodes hpromises
      refine ⟨Char.ofNat code, rest, by rw [hencode]; rfl, ?_⟩
      rw [hencode, List.length_cons, length_trail, ← hrest]
      congr 1
      omega
    · cases h
  · rintro ⟨c, rest, hbytes, hrest⟩
    rcases encodeChar_cases pos c with
      ⟨first, hascii, rfl, hencode⟩ | ⟨first, owed, p, hleads, hpromises, hencode⟩
    · rw [hencode] at hbytes hrest
      obtain ⟨rfl, rfl⟩ := List.cons.inj hbytes
      rw [if_pos hascii]
      exact hrest
    · rw [hencode] at hbytes hrest
      obtain ⟨rfl, rfl⟩ := List.cons.inj hbytes
      rw [if_neg hleads.not_ascii, hleads.lead?_eq]
      refine (decodeFrom_some_iff hleads.continues ..).2 ⟨c.toNat, rest, hpromises, rfl, ?_⟩
      rw [Char.ofNat_toNat, ← hrest, List.length_cons, length_trail]
      congr 1
      omega

theorem encode_cons (c : Char) (text : Text) :
    encode (c :: text) = String.utf8EncodeChar c ++ encode text := by
  rw [encode, List.flatMap_cons]
  rfl

theorem decodeFrom_encode (pos : Nat) (done text : Text) :
    decodeFrom pos done none (encode text) = .ok (done.reverse ++ text) := by
  induction text generalizing pos done with
  | nil =>
      rw [List.append_nil]
      rfl
  | cons c text ih =>
      have hne : String.utf8EncodeChar c ≠ [] := String.utf8EncodeChar_ne_nil
      obtain ⟨byte, bytes, hbytes⟩ := List.exists_cons_of_ne_nil hne
      have hcons : encode (c :: text) = byte :: (bytes ++ encode text) := by
        rw [encode_cons, hbytes, List.cons_append]
      rw [hcons, decodeFrom_none_iff]
      refine ⟨c, encode text, by rw [← hcons, encode_cons], ?_⟩
      rw [ih, List.reverse_cons, List.append_assoc]
      rfl

theorem encode_of_decodeFrom {pos : Nat} {done text : Text} {bytes : Bytes}
    (h : decodeFrom pos done none bytes = .ok text) :
    ∃ rest, text = done.reverse ++ rest ∧ encode rest = bytes := by
  -- Each character takes a byte at least, so the bytes that are left get fewer.
  induction hlength : bytes.length using Nat.strongRecOn generalizing pos done bytes with
  | ind length ih =>
      subst hlength
      cases bytes with
      | nil =>
          cases h
          exact ⟨[], by simp, rfl⟩
      | cons byte bytes =>
          obtain ⟨c, left, hbytes, hleft⟩ := (decodeFrom_none_iff ..).1 h
          have hpos : 0 < (String.utf8EncodeChar c).length :=
            List.length_pos_iff.2 String.utf8EncodeChar_ne_nil
          have hshort : left.length < (byte :: bytes).length := by
            rw [hbytes, List.length_append]
            omega
          obtain ⟨rest, rfl, rfl⟩ := ih _ hshort hleft rfl
          exact ⟨c :: rest, by simp, by rw [hbytes, encode_cons]⟩

/-- Bytes are decoded to a text exactly if they are its encoding. -/
theorem decode_iff (bytes : Bytes) (text : Text) :
    decode bytes = .ok text ↔ encode text = bytes := by
  constructor
  · intro h
    obtain ⟨rest, rfl, hbytes⟩ := encode_of_decodeFrom h
    exact hbytes
  · rintro rfl
    exact decodeFrom_encode 0 [] text

end LineBasic.Source
