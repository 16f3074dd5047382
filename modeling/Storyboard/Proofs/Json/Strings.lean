-- SUMMARY: Strings are read back from what they are written as, also where one character takes two escapes.
import Storyboard.Json.Reader
import Storyboard.Json.Writer
import Storyboard.Proofs.Except

/-!
# Strings that are read back

A string is written code point by code point, and a character that has no 16-bit unit
of its own is written as two units. Reading gives the units (`readPoints_flatMap`) and
then joins those that belong together. So a string is read back if joining leaves it as
it is (`readString_writeString`): this is so for every text of characters
(`joined_ofChars`), and for every string that has been read (`joined_joinPairs`).
-/

namespace Storyboard

/-! ## Joined texts -/

namespace CodePoints

/-- No two neighbours in the text are the halves of one character. -/
def Joined (s : CodePoints) : Prop :=
  s.joinPairs = s

/-- Two halves of one character become this character. -/
theorem joinPairs_of_join? {a b : Fin 0x800} {c : Char} (h : CodePoint.join? a b = some c)
    (s : CodePoints) : joinPairs (.half a :: .half b :: s) = .char c :: joinPairs s := by
  rw [joinPairs, h]

theorem joinPairs_char (c : Char) (s : CodePoints) :
    joinPairs (.char c :: s) = .char c :: joinPairs s := by
  rw [joinPairs]
  nofun

/-- A half stays where it is if it makes up no character with what comes next. -/
theorem joinPairs_half {a : Fin 0x800} {s : CodePoints}
    (h : ∀ b, s.head? = some (.half b) → CodePoint.join? a b = none) :
    joinPairs (.half a :: s) = .half a :: joinPairs s := by
  cases s with
  | nil => rfl
  | cons p s =>
    cases p with
    | char c =>
      rw [joinPairs]
      nofun
    | half b => rw [joinPairs, h b rfl]

theorem joined_ofChars (s : List Char) : Joined (ofChars s) := by
  induction s with
  | nil => rfl
  | cons c s ih => exact (joinPairs_char c _).trans (congrArg _ ih)

/-- Joining never puts a half first that was not first before. -/
theorem head?_joinPairs {s : CodePoints} {b : Fin 0x800}
    (h : (joinPairs s).head? = some (.half b)) : s.head? = some (.half b) := by
  fun_cases joinPairs s with
  | case1 => exact h
  | case2 a b' rest c hc =>
    rw [joinPairs_of_join? hc] at h
    cases h
  | case3 a b' rest hnone =>
    rw [joinPairs, hnone] at h
    exact h
  | case4 p rest hp =>
    rw [joinPairs] at h
    · exact h
    · exact hp

/-- What has been joined is joined. -/
theorem joined_joinPairs (s : CodePoints) : Joined s.joinPairs := by
  unfold Joined
  fun_induction joinPairs s with
  | case1 => rfl
  | case2 a b rest c hc ih => rw [joinPairs_char, ih]
  | case3 a b rest hnone ih =>
    rw [joinPairs_half, ih]
    intro b' hb'
    cases head?_joinPairs hb'
    exact hnone
  | case4 p rest hp ih =>
    cases p with
    | char c => rw [joinPairs_char, ih]
    | half a =>
      rw [joinPairs_half, ih]
      intro b hb
      cases rest with
      | nil => cases hb
      | cons q rest =>
        cases head?_joinPairs hb
        exact (hp a b rest rfl rfl).elim

end CodePoints

/-! ## Units -/

namespace CodePoint

/-- The code points that the escapes of a code point stand for one by one: itself, or the two halves
    of a character that has no 16-bit unit. -/
def units : CodePoint → CodePoints
  | char c =>
    if c.toNat ≤ 0xFFFF then [char c]
    else
      [ofUnit (0xD800 + (c.toNat - 0x10000) / 0x400), ofUnit (0xDC00 + (c.toNat - 0x10000) % 0x400)]
  | half n => [half n]

theorem toNat_lt (c : Char) : c.toNat < 0xD800 ∨ 0xDFFF < c.toNat ∧ c.toNat < 0x110000 :=
  c.valid

theorem ofUnit_char (c : Char) : ofUnit c.toNat = char c := by
  have hnone : ¬ (0xD800 ≤ c.toNat ∧ c.toNat < 0xE000) := by
    have := toNat_lt c
    omega
  rw [ofUnit, dif_neg hnone, Char.ofNat_toNat]

theorem ofUnit_half (n : Fin 0x800) : ofUnit (0xD800 + n) = half n := by
  have hrange : 0xD800 ≤ 0xD800 + n.val ∧ 0xD800 + n.val < 0xE000 := by omega
  rw [ofUnit, dif_pos hrange]
  exact congrArg half (Fin.ext (Nat.add_sub_cancel_left ..))

/-- A character without a 16-bit unit is that of its halves, of which the first is a high one. -/
theorem exists_halves {c : Char} (h : 0xFFFF < c.toNat) :
    ∃ a b : Fin 0x800, units (char c) = [half a, half b] ∧ a.val < 0x400 ∧
      join? a b = some c := by
  have hhigh : (c.toNat - 0x10000) / 0x400 < 0x400 := by
    have := toNat_lt c
    omega
  have hlow : (c.toNat - 0x10000) % 0x400 < 0x400 := Nat.mod_lt _ (by decide)
  refine ⟨⟨(c.toNat - 0x10000) / 0x400, by omega⟩, ⟨0x400 + (c.toNat - 0x10000) % 0x400, by omega⟩,
    ?_, hhigh, ?_⟩
  · rw [units, if_neg (Nat.not_le.2 h), ← ofUnit_half, ← ofUnit_half]
    simp only [← Nat.add_assoc, Nat.reduceAdd]
  · have hcode : 0x10000 + (c.toNat - 0x10000) / 0x400 * 0x400 +
        (0x400 + (c.toNat - 0x10000) % 0x400 - 0x400) = c.toNat := by
      omega
    rw [join?, if_pos ⟨hhigh, Nat.le_add_right ..⟩]
    exact congrArg some ((congrArg Char.ofNat hcode).trans (Char.ofNat_toNat c))

end CodePoint

namespace CodePoints

/-- A text that starts with a half is joined if the rest is, and the half makes up no character with
    what comes next. -/
theorem Joined.of_half {a : Fin 0x800} {s : CodePoints} (h : Joined (.half a :: s)) :
    s.Joined ∧ ∀ b, s.head? = some (.half b) → CodePoint.join? a b = none := by
  have hnone : ∀ b, s.head? = some (.half b) → CodePoint.join? a b = none := by
    intro b hb
    obtain ⟨rest, rfl⟩ := List.head?_eq_some_iff.1 hb
    rw [Joined, joinPairs] at h
    cases hj : CodePoint.join? a b with
    | none => rfl
    | some c =>
      rw [hj] at h
      cases h
  rw [Joined, joinPairs_half hnone] at h
  exact ⟨List.tail_eq_of_cons_eq h, hnone⟩

theorem Joined.of_char {c : Char} {s : CodePoints} (h : Joined (.char c :: s)) : s.Joined := by
  rw [Joined, joinPairs_char] at h
  exact List.tail_eq_of_cons_eq h

/-- A half that the units of a text start with is the first of the text, or a high one. -/
theorem head?_flatMap_units {s : CodePoints} {b : Fin 0x800}
    (h : (s.flatMap CodePoint.units).head? = some (.half b)) :
    s.head? = some (.half b) ∨ b.val < 0x400 := by
  cases s with
  | nil => cases h
  | cons p s =>
    cases p with
    | half n =>
      cases h
      exact .inl rfl
    | char c =>
      rw [List.flatMap_cons] at h
      by_cases hc : c.toNat ≤ 0xFFFF
      · rw [CodePoint.units, if_pos hc] at h
        cases h
      · obtain ⟨a, b', hunits, ha, -⟩ := CodePoint.exists_halves (Nat.lt_of_not_le hc)
        rw [hunits] at h
        cases h
        exact .inr ha

/-- The units of a joined text are joined to this text. -/
theorem joinPairs_flatMap_units {s : CodePoints} (h : s.Joined) :
    joinPairs (s.flatMap CodePoint.units) = s := by
  induction s with
  | nil => rfl
  | cons p s ih =>
    rw [List.flatMap_cons]
    cases p with
    | char c =>
      have hs := ih h.of_char
      by_cases hc : c.toNat ≤ 0xFFFF
      · rw [CodePoint.units, if_pos hc, List.singleton_append, joinPairs_char, hs]
      · obtain ⟨a, b, hunits, -, hjoin⟩ := CodePoint.exists_halves (Nat.lt_of_not_le hc)
        rw [hunits]
        exact (joinPairs_of_join? hjoin _).trans (congrArg _ hs)
    | half a =>
      obtain ⟨hjoined, hnone⟩ := h.of_half
      rw [CodePoint.units, List.singleton_append, joinPairs_half, ih hjoined]
      intro b hb
      rcases head?_flatMap_units hb with hb | hb
      · exact hnone b hb
      · -- a high half is never the second of a character
        exact if_neg fun hpair => Nat.not_le.2 hb hpair.2

end CodePoints

namespace Json

/-! ## Escapes -/

theorem hexValue?_digitChar : ∀ d < 16, hexValue? (Nat.digitChar d) = some d := by
  decide

/-- The last hexadecimal digit, and those before it. -/
theorem hex_succ {width : Nat} (h : 0 < width) (n : Nat) :
    Text.hex (width + 1) n = Text.hex width (n / 16) ++ [Nat.digitChar (n % 16)] := by
  unfold Text.hex
  by_cases hn : n < 16
  · have hzero : Nat.toDigits 16 0 = ['0'] := rfl
    rw [Nat.toDigits_of_lt_base hn, Nat.div_eq_of_lt hn, Nat.mod_eq_of_lt hn, hzero]
    simp only [List.length_singleton, Nat.add_sub_cancel]
    rw [← List.replicate_succ', Nat.sub_add_cancel h]
  · have hlength : (Nat.toDigits 16 (n / 16) ++ [Nat.digitChar (n % 16)]).length =
        (Nat.toDigits 16 (n / 16)).length + 1 := by
      simp
    rw [Nat.toDigits_of_base_le (by decide) (Nat.le_of_not_lt hn)]
    simp only [hlength, Nat.add_sub_add_right, List.append_assoc]

/-- The four digits of a unit. -/
theorem hex_four {n : Nat} (h : n < 0x10000) :
    Text.hex 4 n = [Nat.digitChar (n / 16 / 16 / 16), Nat.digitChar (n / 16 / 16 % 16),
      Nat.digitChar (n / 16 % 16), Nat.digitChar (n % 16)] := by
  have hone : Text.hex 1 (n / 16 / 16 / 16) = [Nat.digitChar (n / 16 / 16 / 16)] := by
    rw [Text.hex, Nat.toDigits_of_lt_base (by omega)]
    rfl
  rw [hex_succ (by decide), hex_succ (by decide), hex_succ (by decide), hone]
  rfl

/-- The digits of a unit are read as the unit. -/
theorem unitValue?_digits {n : Nat} (h : n < 0x10000) :
    unitValue? (Nat.digitChar (n / 16 / 16 / 16)) (Nat.digitChar (n / 16 / 16 % 16))
      (Nat.digitChar (n / 16 % 16)) (Nat.digitChar (n % 16)) = some n := by
  unfold unitValue?
  rw [hexValue?_digitChar _ (by omega), hexValue?_digitChar _ (by omega),
    hexValue?_digitChar _ (by omega), hexValue?_digitChar _ (by omega)]
  refine congrArg some ?_
  omega

/-- The ways in which a character is written: by a short escape, as it is, by the escape of its
    unit, or by those of its two units. -/
theorem escapeChar_cases (c : Char) :
    (∃ e, escapeChar c = ['\\', e] ∧ shortEscape? e = some c ∧ c.toNat ≤ 0xFFFF) ∨
      (escapeChar c = [c] ∧ c ≠ '"' ∧ c ≠ '\\' ∧ 0x20 ≤ c.toNat ∧ c.toNat ≤ 0xFFFF) ∨
      (escapeChar c = escapeUnit c.toNat ∧ c.toNat ≤ 0xFFFF) ∨
      (escapeChar c = escapeUnit (0xD800 + (c.toNat - 0x10000) / 0x400) ++
          escapeUnit (0xDC00 + (c.toNat - 0x10000) % 0x400) ∧ 0xFFFF < c.toNat) := by
  by_cases hshort : c ∈ ['"', '\\', '\n', '\r', '\t', '\x0c', '\x08']
  · refine .inl ?_
    simp only [List.mem_cons, List.not_mem_nil, or_false] at hshort
    rcases hshort with rfl | rfl | rfl | rfl | rfl | rfl | rfl <;> exact ⟨_, rfl, rfl, by decide⟩
  · simp only [List.mem_cons, List.not_mem_nil, or_false, not_or] at hshort
    obtain ⟨hquote, hslash, hfeed, hreturn, htab, hform, hback⟩ := hshort
    have hform' : c.toNat ≠ 0x0C := fun h => hform (Char.toNat_inj.1 h)
    have hback' : c.toNat ≠ 0x08 := fun h => hback (Char.toNat_inj.1 h)
    simp only [escapeChar, if_neg hquote, if_neg hslash, if_neg hfeed, if_neg hreturn, if_neg htab,
      if_neg hform', if_neg hback']
    refine .inr ?_
    split
    next h =>
      simp only [Bool.and_eq_true, decide_eq_true_eq] at h
      exact .inl ⟨rfl, hquote, hslash, h.1, by omega⟩
    next =>
      split
      next h => exact .inr (.inl ⟨rfl, h⟩)
      next h => exact .inr (.inr ⟨rfl, Nat.lt_of_not_le h⟩)

section Points

variable {opening rest after : List Char} {points : CodePoints}

/-- Before what is read as code points, the escape of a unit is read as its code point. -/
theorem readPoints_escapeUnit (h : readPoints opening rest = .ok (points, after)) {n : Nat}
    (hn : n < 0x10000) :
    readPoints opening (escapeUnit n ++ rest) = .ok (.ofUnit n :: points, after) := by
  have hmore : rest.isEmpty = false := by
    cases rest with
    | nil => cases h
    | cons c rest => rfl
  rw [escapeUnit, hex_four hn]
  simp only [List.cons_append, List.nil_append, readPoints, unitValue?_digits hn, hmore, h]
  rfl

/-- A short escape is read as its character. -/
theorem readPoints_shortEscape (h : readPoints opening rest = .ok (points, after)) {e c : Char}
    (he : shortEscape? e = some c) :
    readPoints opening ('\\' :: e :: rest) = .ok (.char c :: points, after) := by
  have hunit : e ≠ 'u' := by
    rintro rfl
    cases he
  rw [readPoints, he]
  · simp only [h]
    rfl
  · exact fun _ _ _ _ _ heq _ => hunit heq
  · exact hunit

/-- Any other character is read as it is. -/
theorem readPoints_plain (h : readPoints opening rest = .ok (points, after)) {c : Char}
    (hquote : c ≠ '"') (hslash : c ≠ '\\') (hcontrol : 0x20 ≤ c.toNat) :
    readPoints opening (c :: rest) = .ok (.char c :: points, after) := by
  rw [readPoints, if_neg (Nat.not_lt.2 hcontrol), h]
  · rfl
  · exact hquote
  · exact fun heq _ => hslash heq
  · exact fun _ _ _ _ _ heq _ => hslash heq
  · exact fun _ heq _ => hslash heq
  · exact fun _ _ heq _ => hslash heq

/-- A code point as it is written is read as its units. -/
theorem readPoints_escape (h : readPoints opening rest = .ok (points, after)) (p : CodePoint) :
    readPoints opening (escape p ++ rest) = .ok (p.units ++ points, after) := by
  cases p with
  | half n =>
    have hread := readPoints_escapeUnit h (n := 0xD800 + n) (by omega)
    rw [CodePoint.ofUnit_half] at hread
    exact hread
  | char c =>
    rw [escape]
    obtain ⟨e, heq, he, hc⟩ | ⟨heq, hquote, hslash, hcontrol, hc⟩ | ⟨heq, hc⟩ | ⟨heq, hc⟩ :=
      escapeChar_cases c
    · rw [heq, CodePoint.units, if_pos hc]
      exact readPoints_shortEscape h he
    · rw [heq, CodePoint.units, if_pos hc]
      exact readPoints_plain h hquote hslash hcontrol
    · rw [heq, CodePoint.units, if_pos hc, ← CodePoint.ofUnit_char]
      exact readPoints_escapeUnit h (by omega)
    · have hbound := CodePoint.toNat_lt c
      rw [heq, CodePoint.units, if_neg (Nat.not_le.2 hc), List.append_assoc]
      exact readPoints_escapeUnit (readPoints_escapeUnit h (by omega)) (by omega)

/-- A string as it is written is read as its units, up to the closing quote. -/
theorem readPoints_flatMap (opening : List Char) (s : CodePoints) (rest : List Char) :
    readPoints opening (s.flatMap escape ++ '"' :: rest) =
      .ok (s.flatMap CodePoint.units, rest) := by
  induction s with
  | nil => rw [List.flatMap_nil, List.nil_append, readPoints, List.flatMap_nil]
  | cons p s ih =>
    rw [List.flatMap_cons, List.flatMap_cons, List.append_assoc]
    exact readPoints_escape ih p

end Points

/-! ## Whole strings -/

/-- A joined string is read back. -/
theorem readString_writeString {s : CodePoints} (h : s.Joined) (rest : List Char) :
    readString (s.flatMap escape ++ '"' :: rest) = .ok (s, rest) := by
  unfold readString
  rw [readPoints_flatMap]
  exact congrArg (fun t => Except.ok (t, rest)) (CodePoints.joinPairs_flatMap_units h)

/-- What is read is joined. -/
theorem joined_of_readString {text rest : List Char} {s : CodePoints}
    (h : readString text = .ok (s, rest)) : s.Joined := by
  obtain ⟨⟨points, rest'⟩, -, h⟩ := bind_eq_ok h
  cases h
  exact CodePoints.joined_joinPairs points

end Json

end Storyboard
