-- SUMMARY: The bytes that are decoded are the UTF-8 forms of texts, and they are decoded to these texts.
import Mathlib.Data.List.Basic
import Storyboard.Text.Utf8

/-!
# Decoding and encoding

A leading byte announces how many bytes follow, and `follow` reads them. Together they
read the UTF-8 form of one character and nothing else (`Reads.encoded`,
`reads_of_encoded`), so a sequence of bytes is decoded to a text just if it is the text's
UTF-8 form (`decode_eq_ok_iff`).
-/

namespace Storyboard.Text.Utf8

/-! ## Bytes that follow -/

section Follow

variable {low high bits seen n code : Nat} {bytes rest : List UInt8}

theorem follow_zero_eq_ok :
    follow low high bits seen 0 bytes = .ok (code, rest) ↔ code = bits ∧ rest = bytes := by
  simp [follow, eq_comm]

theorem follow_succ_eq_ok :
    follow low high bits seen (n + 1) bytes = .ok (code, rest) ↔
      ∃ b more, bytes = b :: more ∧ (low ≤ b.toNat ∧ b.toNat ≤ high) ∧
        follow 0x80 0xBF (bits * 64 + (b.toNat - 0x80)) (seen + 1) n more = .ok (code, rest) := by
  cases bytes with
  | nil => simp [follow]
  | cons b more =>
    by_cases hb : low ≤ b.toNat ∧ b.toNat ≤ high
    · simp [follow, hb]
    · simp [follow, hb]

end Follow

/-! ## Leading bytes -/

section Lead

variable {b : UInt8}

theorem ofByte?_one (h : b.toNat < 0x80) :
    Lead.ofByte? b = some ⟨0, 0x80, 0xBF, b.toNat⟩ := by
  simp only [Lead.ofByte?, if_pos h]

theorem ofByte?_two (h : 0xC2 ≤ b.toNat) (h' : b.toNat < 0xE0) :
    Lead.ofByte? b = some ⟨1, 0x80, 0xBF, b.toNat - 0xC0⟩ := by
  unfold Lead.ofByte?
  simp only
  rw [if_neg (by omega), if_neg (by omega), if_pos h']

/-- The bounds for the first byte behind a leading byte of three leave out overlong forms and
    surrogates. -/
theorem ofByte?_three (h : 0xE0 ≤ b.toNat) (h' : b.toNat < 0xF0) :
    Lead.ofByte? b = some ⟨2, if b.toNat = 0xE0 then 0xA0 else 0x80,
      if b.toNat = 0xED then 0x9F else 0xBF, b.toNat - 0xE0⟩ := by
  unfold Lead.ofByte?
  simp only
  rw [if_neg (by omega), if_neg (by omega), if_neg (by omega)]
  by_cases hfirst : b.toNat = 0xE0
  · simp [hfirst]
  · by_cases hsurrogate : b.toNat = 0xED
    · simp [hsurrogate]
    · simp [hfirst, hsurrogate, h']

/-- The bounds for the first byte behind a leading byte of four leave out overlong forms and what is
    above the last code point. -/
theorem ofByte?_four (h : 0xF0 ≤ b.toNat) (h' : b.toNat < 0xF5) :
    Lead.ofByte? b = some ⟨3, if b.toNat = 0xF0 then 0x90 else 0x80,
      if b.toNat = 0xF4 then 0x8F else 0xBF, b.toNat - 0xF0⟩ := by
  unfold Lead.ofByte?
  simp only
  rw [if_neg (by omega), if_neg (by omega), if_neg (by omega), if_neg (by omega), if_neg (by omega),
    if_neg (by omega)]
  by_cases hfirst : b.toNat = 0xF0
  · simp [hfirst]
  · by_cases hlast : b.toNat = 0xF4
    · simp [hlast]
    · rw [if_neg hfirst, if_pos (by omega), if_neg hfirst, if_neg hlast]

theorem ofByte?_eq_none (h : 0x80 ≤ b.toNat ∧ b.toNat < 0xC2 ∨ 0xF5 ≤ b.toNat) :
    Lead.ofByte? b = none := by
  unfold Lead.ofByte?
  simp only
  rcases h with ⟨h, h'⟩ | h
  · rw [if_neg (by omega), if_pos h']
  · repeat rw [if_neg (by omega)]

end Lead

/-! ## The bytes of one character -/

/-- With the bytes behind it, the byte is read as a character with this code, and the rest is
    left. -/
def Reads (b : UInt8) (bytes : List UInt8) (code : Nat) (rest : List UInt8) : Prop :=
  ∃ l, Lead.ofByte? b = some l ∧ follow l.low l.high l.bits 1 l.follow bytes = .ok (code, rest)

section Reads

variable {b : UInt8} {bytes rest : List UInt8} {code : Nat}

theorem reads_one_iff (h : b.toNat < 0x80) :
    Reads b bytes code rest ↔ bytes = rest ∧ code = b.toNat := by
  rw [Reads, ofByte?_one h]
  simp only [Option.some.injEq, exists_eq_left', follow_zero_eq_ok]
  tauto

theorem reads_two_iff (h : 0xC2 ≤ b.toNat) (h' : b.toNat < 0xE0) :
    Reads b bytes code rest ↔ ∃ c, bytes = c :: rest ∧ (0x80 ≤ c.toNat ∧ c.toNat ≤ 0xBF) ∧
      code = (b.toNat - 0xC0) * 64 + (c.toNat - 0x80) := by
  rw [Reads, ofByte?_two h h']
  simp only [Option.some.injEq, exists_eq_left', follow_succ_eq_ok, follow_zero_eq_ok]
  constructor
  · rintro ⟨c, more, rfl, hc, hcode, rfl⟩
    exact ⟨c, rfl, hc, hcode⟩
  · rintro ⟨c, rfl, hc, hcode⟩
    exact ⟨c, rest, rfl, hc, hcode, rfl⟩

theorem reads_three_iff (h : 0xE0 ≤ b.toNat) (h' : b.toNat < 0xF0) :
    Reads b bytes code rest ↔ ∃ c d, bytes = c :: d :: rest ∧
      ((if b.toNat = 0xE0 then 0xA0 else 0x80) ≤ c.toNat ∧
        c.toNat ≤ if b.toNat = 0xED then 0x9F else 0xBF) ∧
      (0x80 ≤ d.toNat ∧ d.toNat ≤ 0xBF) ∧
      code = ((b.toNat - 0xE0) * 64 + (c.toNat - 0x80)) * 64 + (d.toNat - 0x80) := by
  rw [Reads, ofByte?_three h h']
  simp only [Option.some.injEq, exists_eq_left', follow_succ_eq_ok, follow_zero_eq_ok]
  constructor
  · rintro ⟨c, more, rfl, hc, d, more, rfl, hd, hcode, rfl⟩
    exact ⟨c, d, rfl, hc, hd, hcode⟩
  · rintro ⟨c, d, rfl, hc, hd, hcode⟩
    exact ⟨c, d :: rest, rfl, hc, d, rest, rfl, hd, hcode, rfl⟩

theorem reads_four_iff (h : 0xF0 ≤ b.toNat) (h' : b.toNat < 0xF5) :
    Reads b bytes code rest ↔ ∃ c d e, bytes = c :: d :: e :: rest ∧
      ((if b.toNat = 0xF0 then 0x90 else 0x80) ≤ c.toNat ∧
        c.toNat ≤ if b.toNat = 0xF4 then 0x8F else 0xBF) ∧
      (0x80 ≤ d.toNat ∧ d.toNat ≤ 0xBF) ∧ (0x80 ≤ e.toNat ∧ e.toNat ≤ 0xBF) ∧
      code = (((b.toNat - 0xF0) * 64 + (c.toNat - 0x80)) * 64 + (d.toNat - 0x80)) * 64 +
        (e.toNat - 0x80) := by
  rw [Reads, ofByte?_four h h']
  simp only [Option.some.injEq, exists_eq_left', follow_succ_eq_ok, follow_zero_eq_ok]
  constructor
  · rintro ⟨c, more, rfl, hc, d, more, rfl, hd, e, more, rfl, he, hcode, rfl⟩
    exact ⟨c, d, e, rfl, hc, hd, he, hcode⟩
  · rintro ⟨c, d, e, rfl, hc, hd, he, hcode⟩
    exact ⟨c, d :: e :: rest, rfl, hc, d, e :: rest, rfl, hd, e, rest, rfl, he, hcode, rfl⟩

theorem not_reads (h : 0x80 ≤ b.toNat ∧ b.toNat < 0xC2 ∨ 0xF5 ≤ b.toNat) :
    ¬ Reads b bytes code rest := by
  rintro ⟨l, hl, -⟩
  rw [ofByte?_eq_none h] at hl
  cases hl

end Reads

/-! ## Characters -/

section Encode

variable {v : Nat}

theorem val_ofNat (h : v.isValidChar) : (Char.ofNat v).val.toNat = v := by
  rw [Char.ofNat, dif_pos h]
  rfl

theorem encode_one (h : v < 0x80) :
    String.utf8EncodeChar (Char.ofNat v) = [UInt8.ofNat v] := by
  simp only [String.utf8EncodeChar, val_ofNat (v := v) (.inl (by omega))]
  rw [if_pos (by omega)]

theorem encode_two (h : 0x80 ≤ v) (h' : v < 0x800) :
    String.utf8EncodeChar (Char.ofNat v) =
      [UInt8.ofNat (v / 64 + 0xC0), UInt8.ofNat (v % 64 + 0x80)] := by
  simp only [String.utf8EncodeChar, val_ofNat (v := v) (.inl (by omega))]
  rw [if_neg (by omega), if_pos (by omega), Nat.mod_eq_of_lt (by omega)]

theorem encode_three (hv : v.isValidChar) (h : 0x800 ≤ v) (h' : v < 0x10000) :
    String.utf8EncodeChar (Char.ofNat v) =
      [UInt8.ofNat (v / 4096 + 0xE0), UInt8.ofNat (v / 64 % 64 + 0x80),
        UInt8.ofNat (v % 64 + 0x80)] := by
  simp only [String.utf8EncodeChar, val_ofNat hv]
  rw [if_neg (by omega), if_neg (by omega), if_pos (by omega), Nat.mod_eq_of_lt (by omega)]

theorem encode_four (h : 0x10000 ≤ v) (h' : v < 0x110000) :
    String.utf8EncodeChar (Char.ofNat v) =
      [UInt8.ofNat (v / 262144 + 0xF0), UInt8.ofNat (v / 4096 % 64 + 0x80),
        UInt8.ofNat (v / 64 % 64 + 0x80), UInt8.ofNat (v % 64 + 0x80)] := by
  simp only [String.utf8EncodeChar, val_ofNat (v := v) (.inr ⟨by omega, h'⟩)]
  rw [if_neg (by omega), if_neg (by omega), if_neg (by omega), Nat.mod_eq_of_lt (by omega)]

theorem eq_ofNat {b : UInt8} (h : b.toNat = v) : b = UInt8.ofNat v := by
  rw [← h, UInt8.ofNat_toNat]

theorem toNat_ofNat (h : v < 0x100) : (UInt8.ofNat v).toNat = v :=
  Nat.mod_eq_of_lt h

end Encode

section Character

variable {b : UInt8} {bytes rest : List UInt8} {code : Nat}

/-- What is read as a character is its UTF-8 form. -/
theorem Reads.encoded (h : Reads b bytes code rest) :
    code.isValidChar ∧ b :: bytes = String.utf8EncodeChar (Char.ofNat code) ++ rest := by
  by_cases h1 : b.toNat < 0x80
  · obtain ⟨rfl, rfl⟩ := (reads_one_iff h1).1 h
    refine ⟨.inl (by omega), ?_⟩
    rw [encode_one h1, ← eq_ofNat rfl]
    rfl
  by_cases h2 : 0xC2 ≤ b.toNat ∧ b.toNat < 0xE0
  · obtain ⟨c, rfl, hc, hcode⟩ := (reads_two_iff h2.1 h2.2).1 h
    refine ⟨.inl (by omega), ?_⟩
    rw [encode_two (by omega) (by omega)]
    simp only [List.cons_append, List.nil_append, List.cons.injEq, and_true]
    exact ⟨eq_ofNat (by omega), eq_ofNat (by omega)⟩
  by_cases h3 : 0xE0 ≤ b.toNat ∧ b.toNat < 0xF0
  · obtain ⟨c, d, rfl, hc, hd, hcode⟩ := (reads_three_iff h3.1 h3.2).1 h
    -- the bounds on the second byte leave out surrogates and overlong forms
    have hvalid : code.isValidChar := by
      unfold Nat.isValidChar
      split_ifs at hc <;> omega
    have hlow : 0x800 ≤ code := by split_ifs at hc <;> omega
    have hbyte : 0x80 ≤ c.toNat ∧ c.toNat ≤ 0xBF := by split_ifs at hc <;> omega
    refine ⟨hvalid, ?_⟩
    rw [encode_three hvalid hlow (by omega)]
    simp only [List.cons_append, List.nil_append, List.cons.injEq, and_true]
    exact ⟨eq_ofNat (by omega), eq_ofNat (by omega), eq_ofNat (by omega)⟩
  by_cases h4 : 0xF0 ≤ b.toNat ∧ b.toNat < 0xF5
  · obtain ⟨c, d, e, rfl, hc, hd, he, hcode⟩ := (reads_four_iff h4.1 h4.2).1 h
    have hrange : 0x10000 ≤ code ∧ code < 0x110000 := by split_ifs at hc <;> omega
    have hbyte : 0x80 ≤ c.toNat ∧ c.toNat ≤ 0xBF := by split_ifs at hc <;> omega
    refine ⟨.inr ⟨by omega, hrange.2⟩, ?_⟩
    rw [encode_four hrange.1 hrange.2]
    simp only [List.cons_append, List.nil_append, List.cons.injEq, and_true]
    exact ⟨eq_ofNat (by omega), eq_ofNat (by omega), eq_ofNat (by omega), eq_ofNat (by omega)⟩
  · exact absurd h (not_reads (by omega))

/-- The UTF-8 form of a character is read as the character. -/
theorem reads_of_encoded (hv : code.isValidChar)
    (h : b :: bytes = String.utf8EncodeChar (Char.ofNat code) ++ rest) :
    Reads b bytes code rest := by
  by_cases h1 : code < 0x80
  · rw [encode_one h1] at h
    obtain ⟨rfl, rfl⟩ := List.cons.inj h
    have hb := toNat_ofNat (v := code) (by omega)
    exact (reads_one_iff (by omega)).2 ⟨rfl, hb.symm⟩
  by_cases h2 : code < 0x800
  · rw [encode_two (by omega) h2] at h
    obtain ⟨rfl, rfl⟩ := List.cons.inj h
    have hb := toNat_ofNat (v := code / 64 + 0xC0) (by omega)
    have hc := toNat_ofNat (v := code % 64 + 0x80) (by omega)
    exact (reads_two_iff (by omega) (by omega)).2 ⟨_, rfl, by omega, by omega⟩
  by_cases h3 : code < 0x10000
  · rw [encode_three hv (by omega) h3] at h
    obtain ⟨rfl, rfl⟩ := List.cons.inj h
    have hb := toNat_ofNat (v := code / 4096 + 0xE0) (by omega)
    have hc := toNat_ofNat (v := code / 64 % 64 + 0x80) (by omega)
    have hd := toNat_ofNat (v := code % 64 + 0x80) (by omega)
    refine (reads_three_iff (by omega) (by omega)).2 ⟨_, _, rfl, ?_, by omega, by omega⟩
    unfold Nat.isValidChar at hv
    split_ifs <;> omega
  · have h4 : code < 0x110000 := by
      unfold Nat.isValidChar at hv
      omega
    rw [encode_four (by omega) h4] at h
    obtain ⟨rfl, rfl⟩ := List.cons.inj h
    have hb := toNat_ofNat (v := code / 262144 + 0xF0) (by omega)
    have hc := toNat_ofNat (v := code / 4096 % 64 + 0x80) (by omega)
    have hd := toNat_ofNat (v := code / 64 % 64 + 0x80) (by omega)
    have he := toNat_ofNat (v := code % 64 + 0x80) (by omega)
    refine (reads_four_iff (by omega) (by omega)).2
      ⟨_, _, _, rfl, ?_, by omega, by omega, by omega⟩
    split_ifs <;> omega

end Character

/-! ## Texts -/

theorem decodeFrom_cons_eq_ok {position : Nat} {b : UInt8} {bytes : List UInt8} {s : List Char} :
    decodeFrom position (b :: bytes) = .ok s ↔
      ∃ l code rest chars, Lead.ofByte? b = some l ∧
        follow l.low l.high l.bits 1 l.follow bytes = .ok (code, rest) ∧
        decodeFrom (position + l.follow + 1) rest = .ok chars ∧ s = Char.ofNat code :: chars := by
  rw [decodeFrom]
  constructor
  · intro h
    split at h
    next => cases h
    next l hlead =>
      split at h
      next => cases h
      next code rest hfollow =>
        cases hchars : decodeFrom (position + l.follow + 1) rest with
        | error f =>
          rw [hchars] at h
          cases h
        | ok chars =>
          rw [hchars] at h
          cases h
          exact ⟨l, code, rest, chars, hlead, hfollow, hchars, rfl⟩
  · rintro ⟨l, code, rest, chars, hlead, hfollow, hchars, rfl⟩
    split
    next hnone =>
      rw [hlead] at hnone
      cases hnone
    next l' hlead' =>
      rw [hlead] at hlead'
      cases hlead'
      split
      next hfault =>
        rw [hfollow] at hfault
        cases hfault
      next code' rest' hfollow' =>
        rw [hfollow] at hfollow'
        cases hfollow'
        rw [hchars]
        rfl

/-- Bytes are decoded to a text just if they are its UTF-8 form. -/
theorem decodeFrom_eq_ok_iff {position : Nat} {bytes : List UInt8} {s : List Char} :
    decodeFrom position bytes = .ok s ↔ bytes = s.flatMap String.utf8EncodeChar := by
  induction hn : bytes.length using Nat.strongRecOn generalizing position bytes s with
  | ind n ih =>
    subst hn
    cases bytes with
    | nil =>
      rw [decodeFrom, eq_comm, Except.ok.injEq, eq_comm (a := []), List.flatMap_eq_nil_iff]
      constructor
      · rintro rfl c hc
        cases hc
      · intro hall
        cases s with
        | nil => rfl
        | cons c chars => exact absurd (hall c (List.mem_cons_self ..)) String.utf8EncodeChar_ne_nil
    | cons b bytes =>
      rw [decodeFrom_cons_eq_ok]
      constructor
      · rintro ⟨l, code, rest, chars, hlead, hfollow, hchars, rfl⟩
        obtain ⟨-, hform⟩ := Reads.encoded ⟨l, hlead, hfollow⟩
        have hshorter := follow_length hfollow
        rw [ih rest.length (Nat.lt_succ_of_le hshorter) rfl] at hchars
        rw [hform, hchars, List.flatMap_cons]
      · intro hform
        cases s with
        | nil => cases hform
        | cons c chars =>
          rw [List.flatMap_cons, ← Char.ofNat_toNat c] at hform
          obtain ⟨l, hlead, hfollow⟩ := reads_of_encoded c.valid hform
          have hshorter := follow_length hfollow
          refine ⟨l, c.toNat, _, chars, hlead, hfollow, ?_, by rw [Char.ofNat_toNat]⟩
          exact (ih _ (Nat.lt_succ_of_le hshorter) rfl).2 rfl

/-- Bytes are decoded to a text just if they are its UTF-8 form. -/
theorem decode_eq_ok_iff {bytes : List UInt8} {s : List Char} :
    decode bytes = .ok s ↔ bytes = s.flatMap String.utf8EncodeChar :=
  decodeFrom_eq_ok_iff

end Storyboard.Text.Utf8
