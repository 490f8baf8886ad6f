import WindowTally.Text.Utf8
import Mathlib.Data.List.Basic

/-!
# UTF-8 is read as it is written

A character is written in one to four bytes, by the size of its number. Reading the
bytes of a text gives the text again, wherever it stands (`decodeFrom_encode`), and no other
bytes are read as that text (`encode_of_decodeFrom`). The byte of the line feed is written
for the line feed only (`lineFeed_mem_encode`).
-/
namespace WindowTally.Utf8

open String (utf8EncodeChar)

/-! ## Bytes as numbers -/

theorem toNat_byte {n : Nat} (h : n < 256) : (UInt8.ofNat n).toNat = n := by
  rw [UInt8.toNat_ofNat']
  exact Nat.mod_eq_of_lt h

theorem width_eq (a : UInt8) : width a =
    if a.toNat < 0x80 then some 1
    else if a.toNat < 0xC2 then none
    else if a.toNat < 0xE0 then some 2
    else if a.toNat < 0xF0 then some 3
    else if a.toNat < 0xF5 then some 4
    else none := rfl

theorem isContinuation_iff (b : UInt8) :
    isContinuation b = true ↔ 0x80 ≤ b.toNat ∧ b.toNat ≤ 0xBF := by
  simp [isContinuation, UInt8.le_iff_toNat_le]

/-- The second byte continues the character, within narrower bounds after four of the first
bytes. -/
theorem isSecond_iff (a b : UInt8) : isSecond a b = true ↔
    (0x80 ≤ b.toNat ∧ b.toNat ≤ 0xBF) ∧
    (a.toNat = 0xE0 → 0xA0 ≤ b.toNat) ∧ (a.toNat = 0xED → b.toNat ≤ 0x9F) ∧
    (a.toNat = 0xF0 → 0x90 ≤ b.toNat) ∧ (a.toNat = 0xF4 → b.toNat ≤ 0x8F) := by
  unfold isSecond
  simp only [← UInt8.toNat_inj, isContinuation, UInt8.le_iff_toNat_le, UInt8.reduceToNat]
  split
  · simp
    omega
  split
  · simp
    omega
  split
  · simp
    omega
  split
  · simp
    omega
  · simp
    omega

/-! ## One character -/

theorem utf8EncodeChar_eq (c : Char) : utf8EncodeChar c =
    if c.toNat ≤ 0x7F then [UInt8.ofNat c.toNat]
    else if c.toNat ≤ 0x7FF then
      [UInt8.ofNat (c.toNat / 64 % 32 + 192), UInt8.ofNat (c.toNat % 64 + 128)]
    else if c.toNat ≤ 0xFFFF then
      [UInt8.ofNat (c.toNat / 4096 % 16 + 224), UInt8.ofNat (c.toNat / 64 % 64 + 128),
        UInt8.ofNat (c.toNat % 64 + 128)]
    else
      [UInt8.ofNat (c.toNat / 262144 % 8 + 240), UInt8.ofNat (c.toNat / 4096 % 64 + 128),
        UInt8.ofNat (c.toNat / 64 % 64 + 128), UInt8.ofNat (c.toNat % 64 + 128)] := rfl

/-- What is read of the bytes of one character, and what follows. -/
def Reads (c : Char) (bytes : List UInt8) : Prop :=
  ∀ pos rest, decodeFrom pos (bytes ++ rest) =
    (decodeFrom (pos + bytes.length) rest).map (c :: ·)

theorem reads_one {c : Char} (h : c.toNat < 0x80) : Reads c [UInt8.ofNat c.toNat] := by
  have ha := toNat_byte (show c.toNat < 256 by omega)
  have hwidth : width (UInt8.ofNat c.toNat) = some 1 := by rw [width_eq, ha, if_pos h]
  intro pos rest
  rw [List.singleton_append, decodeFrom.eq_def]
  simp only [hwidth, ha, Char.ofNat_toNat]
  rfl

theorem reads_two {c : Char} (hlow : 0x80 ≤ c.toNat) (hhigh : c.toNat < 0x800) :
    Reads c [UInt8.ofNat (c.toNat / 64 % 32 + 192), UInt8.ofNat (c.toNat % 64 + 128)] := by
  have ha := toNat_byte (show c.toNat / 64 % 32 + 192 < 256 by omega)
  have hb := toNat_byte (show c.toNat % 64 + 128 < 256 by omega)
  generalize UInt8.ofNat (c.toNat / 64 % 32 + 192) = a at ha ⊢
  generalize UInt8.ofNat (c.toNat % 64 + 128) = b at hb ⊢
  have hwidth : width a = some 2 := by
    rw [width_eq, if_neg (by omega), if_neg (by omega), if_pos (by omega)]
  have hsecond : isSecond a b = true := (isSecond_iff a b).2 (by omega)
  have hchar : char2 a b = c := by
    rw [char2, payload, show a.toNat % 32 * 64 + b.toNat % 64 = c.toNat by omega, Char.ofNat_toNat]
  intro pos rest
  simp only [List.cons_append, List.nil_append, decodeFrom, hwidth, hsecond, hchar, if_true]
  rfl

theorem reads_three {c : Char} (hlow : 0x800 ≤ c.toNat) (hhigh : c.toNat < 0x10000)
    (hvalid : c.toNat.isValidChar) :
    Reads c [UInt8.ofNat (c.toNat / 4096 % 16 + 224), UInt8.ofNat (c.toNat / 64 % 64 + 128),
      UInt8.ofNat (c.toNat % 64 + 128)] := by
  have ha := toNat_byte (show c.toNat / 4096 % 16 + 224 < 256 by omega)
  have hb := toNat_byte (show c.toNat / 64 % 64 + 128 < 256 by omega)
  have hd := toNat_byte (show c.toNat % 64 + 128 < 256 by omega)
  generalize UInt8.ofNat (c.toNat / 4096 % 16 + 224) = a at ha ⊢
  generalize UInt8.ofNat (c.toNat / 64 % 64 + 128) = b at hb ⊢
  generalize UInt8.ofNat (c.toNat % 64 + 128) = d at hd ⊢
  have hwidth : width a = some 3 := by
    rw [width_eq, if_neg (by omega), if_neg (by omega), if_neg (by omega), if_pos (by omega)]
  have hsecond : isSecond a b = true := by
    rw [isSecond_iff]
    rcases hvalid with hvalid | hvalid <;> omega
  have hthird : isContinuation d = true := (isContinuation_iff d).2 (by omega)
  have hchar : char3 a b d = c := by
    rw [char3, payload, payload,
      show a.toNat % 16 * 4096 + b.toNat % 64 * 64 + d.toNat % 64 = c.toNat by omega,
      Char.ofNat_toNat]
  intro pos rest
  simp only [List.cons_append, List.nil_append, decodeFrom, hwidth, hsecond, hthird, hchar]
  rfl

theorem reads_four {c : Char} (hlow : 0x10000 ≤ c.toNat) (hhigh : c.toNat < 0x110000) :
    Reads c [UInt8.ofNat (c.toNat / 262144 % 8 + 240), UInt8.ofNat (c.toNat / 4096 % 64 + 128),
      UInt8.ofNat (c.toNat / 64 % 64 + 128), UInt8.ofNat (c.toNat % 64 + 128)] := by
  have ha := toNat_byte (show c.toNat / 262144 % 8 + 240 < 256 by omega)
  have hb := toNat_byte (show c.toNat / 4096 % 64 + 128 < 256 by omega)
  have hd := toNat_byte (show c.toNat / 64 % 64 + 128 < 256 by omega)
  have he := toNat_byte (show c.toNat % 64 + 128 < 256 by omega)
  generalize UInt8.ofNat (c.toNat / 262144 % 8 + 240) = a at ha ⊢
  generalize UInt8.ofNat (c.toNat / 4096 % 64 + 128) = b at hb ⊢
  generalize UInt8.ofNat (c.toNat / 64 % 64 + 128) = d at hd ⊢
  generalize UInt8.ofNat (c.toNat % 64 + 128) = e at he ⊢
  have hwidth : width a = some 4 := by
    rw [width_eq, if_neg (by omega), if_neg (by omega), if_neg (by omega), if_neg (by omega),
      if_pos (by omega)]
  have hsecond : isSecond a b = true := (isSecond_iff a b).2 (by omega)
  have hthird : isContinuation d = true := (isContinuation_iff d).2 (by omega)
  have hfourth : isContinuation e = true := (isContinuation_iff e).2 (by omega)
  have hchar : char4 a b d e = c := by
    rw [char4, payload, payload, payload,
      show a.toNat % 8 * 262144 + b.toNat % 64 * 4096 + d.toNat % 64 * 64 + e.toNat % 64 =
        c.toNat by omega, Char.ofNat_toNat]
  intro pos rest
  simp only [List.cons_append, List.nil_append, decodeFrom, hwidth, hsecond, hthird, hfourth,
    hchar]
  rfl

theorem reads_utf8EncodeChar (c : Char) : Reads c (utf8EncodeChar c) := by
  have hvalid : c.toNat.isValidChar := c.valid
  have hlast : c.toNat < 0x110000 := by
    rcases hvalid with hvalid | hvalid <;> omega
  rw [utf8EncodeChar_eq]
  split
  · exact reads_one (by omega)
  split
  · exact reads_two (by omega) (by omega)
  split
  · exact reads_three (by omega) (by omega) hvalid
  · exact reads_four (by omega) hlast

/-! ## Texts -/

theorem decodeFrom_encode (pos : Nat) (cs : List Char) : decodeFrom pos (encode cs) = .ok cs := by
  induction cs generalizing pos with
  | nil => rfl
  | cons c cs ih =>
    have hfirst := reads_utf8EncodeChar c pos (encode cs)
    rw [ih] at hfirst
    exact hfirst

theorem decode_encode (cs : List Char) : decode (encode cs) = .ok cs := decodeFrom_encode 0 cs

theorem encode_append (cs cs' : List Char) : encode (cs ++ cs') = encode cs ++ encode cs' :=
  List.flatMap_append

theorem lineFeed_mem_utf8EncodeChar {c : Char} (h : 10 ∈ utf8EncodeChar c) : c = '\n' := by
  have hbyte {n : Nat} (hn : n < 256) (h : 10 = UInt8.ofNat n) : n = 10 := by
    rw [← toNat_byte hn, ← h]
    rfl
  have hother {n : Nat} (hlow : 128 ≤ n) (hhigh : n < 256) : 10 ≠ UInt8.ofNat n := by
    intro h
    have hten := hbyte hhigh h
    omega
  rw [utf8EncodeChar_eq] at h
  split at h
  · have hten := hbyte (by omega) (List.mem_singleton.1 h)
    rw [← Char.ofNat_toNat c, hten]
  -- In more than one byte none is below 128.
  split at h
  · simp only [List.mem_cons, List.not_mem_nil, or_false] at h
    rcases h with h | h <;> exact absurd h (hother (by omega) (by omega))
  split at h
  · simp only [List.mem_cons, List.not_mem_nil, or_false] at h
    rcases h with h | h | h <;> exact absurd h (hother (by omega) (by omega))
  · simp only [List.mem_cons, List.not_mem_nil, or_false] at h
    rcases h with h | h | h | h <;> exact absurd h (hother (by omega) (by omega))

/-- Only a line feed is written with its byte. -/
theorem lineFeed_mem_encode {cs : List Char} (h : 10 ∈ encode cs) : '\n' ∈ cs := by
  obtain ⟨c, hc, hbyte⟩ := List.mem_flatMap.1 h
  exact lineFeed_mem_utf8EncodeChar hbyte ▸ hc

/-! ## What is read is written so -/

theorem byte_eq {n : Nat} {a : UInt8} (h : n = a.toNat) : UInt8.ofNat n = a := by
  rw [h]
  exact UInt8.ofNat_toNat

/-- How many bytes a character has bounds the first of them. -/
theorem width_eq_some {a : UInt8} {n : Nat} (h : width a = some n) :
    (n = 1 ∧ a.toNat < 0x80) ∨ (n = 2 ∧ 0xC2 ≤ a.toNat ∧ a.toNat < 0xE0) ∨
      (n = 3 ∧ 0xE0 ≤ a.toNat ∧ a.toNat < 0xF0) ∨ (n = 4 ∧ 0xF0 ≤ a.toNat ∧ a.toNat < 0xF5) := by
  rw [width_eq] at h
  grind

theorem toNat_ofNat {n : Nat} (h : n.isValidChar) : (Char.ofNat n).toNat = n := by
  rw [Char.ofNat, dif_pos h]
  rfl

section
variable {a b c d : UInt8}

theorem utf8EncodeChar_char1 (ha : width a = some 1) :
    utf8EncodeChar (Char.ofNat a.toNat) = [a] := by
  have hfirst := width_eq_some ha
  have hchar : (Char.ofNat a.toNat).toNat = a.toNat := toNat_ofNat (.inl (by omega))
  rw [utf8EncodeChar_eq, hchar, if_pos (by omega), UInt8.ofNat_toNat]

theorem utf8EncodeChar_char2 (ha : width a = some 2) (hb : isSecond a b = true) :
    utf8EncodeChar (char2 a b) = [a, b] := by
  have hfirst := width_eq_some ha
  have hsecond := (isSecond_iff a b).1 hb
  have hvalid : (a.toNat % 32 * 64 + b.toNat % 64).isValidChar := .inl (by omega)
  have hchar : (char2 a b).toNat = a.toNat % 32 * 64 + b.toNat % 64 := toNat_ofNat hvalid
  rw [utf8EncodeChar_eq, hchar, if_neg (by omega), if_pos (by omega), byte_eq (a := a) (by omega),
    byte_eq (a := b) (by omega)]

theorem utf8EncodeChar_char3 (ha : width a = some 3) (hb : isSecond a b = true)
    (hc : isContinuation c = true) : utf8EncodeChar (char3 a b c) = [a, b, c] := by
  have hfirst := width_eq_some ha
  have hsecond := (isSecond_iff a b).1 hb
  have hthird := (isContinuation_iff c).1 hc
  have hvalid : (a.toNat % 16 * 4096 + b.toNat % 64 * 64 + c.toNat % 64).isValidChar := by
    unfold Nat.isValidChar
    omega
  have hchar : (char3 a b c).toNat = a.toNat % 16 * 4096 + b.toNat % 64 * 64 + c.toNat % 64 :=
    toNat_ofNat hvalid
  rw [utf8EncodeChar_eq, hchar, if_neg (by omega), if_neg (by omega), if_pos (by omega),
    byte_eq (a := a) (by omega), byte_eq (a := b) (by omega), byte_eq (a := c) (by omega)]

theorem utf8EncodeChar_char4 (ha : width a = some 4) (hb : isSecond a b = true)
    (hc : isContinuation c = true) (hd : isContinuation d = true) :
    utf8EncodeChar (char4 a b c d) = [a, b, c, d] := by
  have hfirst := width_eq_some ha
  have hsecond := (isSecond_iff a b).1 hb
  have hthird := (isContinuation_iff c).1 hc
  have hfourth := (isContinuation_iff d).1 hd
  have hvalid : (a.toNat % 8 * 262144 + b.toNat % 64 * 4096 + c.toNat % 64 * 64 +
      d.toNat % 64).isValidChar := by
    unfold Nat.isValidChar
    omega
  have hchar : (char4 a b c d).toNat =
      a.toNat % 8 * 262144 + b.toNat % 64 * 4096 + c.toNat % 64 * 64 + d.toNat % 64 :=
    toNat_ofNat hvalid
  rw [utf8EncodeChar_eq, hchar, if_neg (by omega), if_neg (by omega), if_neg (by omega),
    byte_eq (a := a) (by omega), byte_eq (a := b) (by omega), byte_eq (a := c) (by omega),
    byte_eq (a := d) (by omega)]

end

theorem encode_cons (c : Char) (cs : List Char) :
    encode (c :: cs) = utf8EncodeChar c ++ encode cs :=
  List.flatMap_cons

theorem map_cons_eq_ok {c : Char} {read : Except Fault (List Char)} {cs : List Char}
    (h : read.map (c :: ·) = .ok cs) : ∃ cs', read = .ok cs' ∧ cs = c :: cs' := by
  cases read with
  | error fault => cases h
  | ok cs' => exact ⟨cs', rfl, (Except.ok.inj h).symm⟩

/-- What bytes are read as is written in these bytes. -/
theorem encode_of_decodeFrom {pos : Nat} {bytes : List UInt8} {cs : List Char}
    (h : decodeFrom pos bytes = .ok cs) : encode cs = bytes := by
  fun_induction decodeFrom pos bytes generalizing cs with
  | case1 pos =>
    cases h
    rfl
  | case2 pos a rest hwidth ih =>
    obtain ⟨cs, hrest, rfl⟩ := map_cons_eq_ok h
    rw [encode_cons, utf8EncodeChar_char1 hwidth, ih hrest]
    rfl
  | case4 pos a hwidth b rest hb ih =>
    obtain ⟨cs, hrest, rfl⟩ := map_cons_eq_ok h
    rw [encode_cons, utf8EncodeChar_char2 hwidth hb, ih hrest]
    rfl
  | case11 pos a hwidth b c rest hb hc ih =>
    simp only [Bool.not_eq_true', Bool.not_eq_false] at hb hc
    obtain ⟨cs, hrest, rfl⟩ := map_cons_eq_ok h
    rw [encode_cons, utf8EncodeChar_char3 hwidth hb hc, ih hrest]
    rfl
  | case21 pos a hwidth b c d rest hb hc hd ih =>
    simp only [Bool.not_eq_true', Bool.not_eq_false] at hb hc hd
    obtain ⟨cs, hrest, rfl⟩ := map_cons_eq_ok h
    rw [encode_cons, utf8EncodeChar_char4 hwidth hb hc hd, ih hrest]
    rfl
  -- nothing is read in any other case
  | _ => cases h

theorem decode_eq_ok_iff {bytes : List UInt8} {cs : List Char} :
    decode bytes = .ok cs ↔ encode cs = bytes := by
  constructor
  · exact encode_of_decodeFrom
  · rintro rfl
    exact decode_encode cs

theorem encode_toList (s : String) : encode s.toList = s.toUTF8.data.toList := by
  have hbytes := congrArg ByteArray.data (String.utf8Encode_toList (b := s))
  rw [List.utf8Encode] at hbytes
  rw [String.toUTF8, ← hbytes]
  simp [encode]

end WindowTally.Utf8
