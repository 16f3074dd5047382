-- SUMMARY: Scripts whose runs of digits are short enough for a numeral compile, whatever their commands.
import Storyboard.Proofs.Script.Overlong

/-!
# Scripts with short numerals

A script is compiled unless a numeral in one of its commands, or one in the wording of a
fault, is too long to be read. The numerals of a command are runs of digits that stand in
it, and so is a position that the wording quotes; any other position is that of a character
of the command. So all commands of a script are readable if its own runs of digits are short
enough, and if it is not so long that a place in it has too many digits
(`Moderate.readable_of_mem_split`).
-/

namespace Storyboard.Script

open Text (isDigit)
open Text.Numeral (maxDigits)

/-! ## Digits that stand in a text -/

/-- No run of digits of the text is too long for a numeral, nor are the digits of a place in it. -/
structure Moderate (s : List Char) : Prop where
  runs : ∀ w, w <:+: s → (∀ d ∈ w, isDigit d = true) → w.length ≤ maxDigits
  places : ∀ p, p < s.length → (Nat.toDigits 10 p).length ≤ maxDigits

theorem Moderate.part {s t : List Char} (h : Moderate s) (ht : t <:+: s) : Moderate t where
  runs w hw := h.runs w (hw.trans ht)
  places p hp := h.places p (Nat.lt_of_lt_of_le hp ht.length_le)

theorem Moderate.of_length {s : List Char} (h : s.length ≤ maxDigits) : Moderate s where
  runs w hw _ := Nat.le_trans hw.length_le h
  places p hp := by
    refine (Nat.length_toDigits_le_iff (by decide) (by decide)).2 ?_
    exact Nat.lt_trans (Nat.lt_of_lt_of_le hp h) (Nat.lt_pow_self (by decide))

/-- The first position that a text mentions is a run of its digits. -/
theorem digits_of_findPosition? {s digits : List Char} (h : findPosition? s = some digits) :
    digits <:+: s ∧ ∀ d ∈ digits, isDigit d = true := by
  induction s with
  | nil => cases h
  | cons c s ih =>
    rw [findPosition?] at h
    cases hstart : positionAt? (c :: s) with
    | none =>
      rw [hstart, Option.none_or] at h
      obtain ⟨hpart, hdigits⟩ := ih h
      exact ⟨List.infix_cons hpart, hdigits⟩
    | some here =>
      rw [hstart, Option.some_or] at h
      cases h
      obtain ⟨rest, hrest, hdigits⟩ := Option.bind_eq_some_iff.1 hstart
      have hsuffix : rest <:+ c :: s := by
        rcases Option.or_eq_some_iff.1 hrest with hword | ⟨-, hword⟩
        · exact ⟨_, (Text.dropStart?_eq_some.1 hword).symm⟩
        · exact ⟨_, (Text.dropStart?_eq_some.1 hword).symm⟩
      simp only at hdigits
      split at hdigits
      next => cases hdigits
      next =>
        cases hdigits
        refine ⟨(List.takeWhile_prefix isDigit).isInfix.trans hsuffix.isInfix, ?_⟩
        exact fun d hd => List.mem_takeWhile_imp hd

/-! ## Numerals of a text -/

section Lexemes

variable {w text rest : List Char} {kind : TokenKind}

/-- The text of a token stands in its lexeme. -/
theorem Lexical.text_infix (h : Lexical w (some (kind, text)) rest) : text <:+: w := by
  cases h with
  | @literal q => exact ⟨[q], [q], rfl⟩
  | numeral hd hw hr => exact List.infix_refl _
  | word hs hw hr => exact List.infix_refl _
  | dash hr => exact List.infix_refl _
  | mark hk => exact List.infix_refl _

/-- Numerals are runs of digits. -/
theorem Lexical.isDigit_of_integer (h : Lexical w (some (kind, text)) rest)
    (hkind : kind = .integer) : ∀ d ∈ text, isDigit d = true := by
  cases h with
  | literal hq hb => cases hkind
  | numeral hd hw hr => exact List.forall_mem_cons.2 ⟨hd, hw⟩
  | word hs hw hr =>
    unfold wordKind at hkind
    split at hkind <;> cases hkind
  | dash hr => cases hkind
  | @mark c kind rest hk =>
    subst hkind
    unfold markKind? at hk
    repeat' split at hk
    all_goals cases hk

end Lexemes

theorem text_infix_of_mem_scan {s : List Char} {t : Token} (h : t ∈ (scan s).tokens) :
    t.text.toList <:+: s := by
  obtain ⟨chars, rest, hdrop, hlex⟩ := Token.standsIn_of_mem_scan h
  have hchars : chars <:+: s.drop t.position := by
    rw [hdrop]
    exact (List.prefix_append chars rest).isInfix
  exact (hlex.text_infix.trans hchars).trans (List.drop_suffix t.position s).isInfix

theorem isDigit_of_mem_scan {s : List Char} {t : Token} (h : t ∈ (scan s).tokens)
    (hkind : t.kind = .integer) : ∀ d ∈ t.text.toList, isDigit d = true := by
  obtain ⟨chars, rest, -, hlex⟩ := Token.standsIn_of_mem_scan h
  exact hlex.isDigit_of_integer hkind

theorem Grammar.Cell.integer {ts : List Token} {n : Token} (h : Grammar.Cell ts n) :
    n ∈ ts ∧ n.kind = .integer := by
  cases h with
  | intro hl hn hd hv hr => exact ⟨by simp, hn⟩

/-- A row number that is certain is one of the tokens, and a numeral. -/
theorem Grammar.Settled.integer {ts : List Token} {n : Token} (h : Grammar.Settled ts n) :
    n ∈ ts ∧ n.kind = .integer := by
  cases h with
  | row hh hr hrows hn hc => exact ⟨by simp, hn⟩
  | cell hh hk hc hr hn => exact ⟨by simp, hn⟩
  | seed hh hseeds hcell hcomma hb =>
    obtain ⟨hmem, hkind⟩ := hcell.integer
    exact ⟨by simp [hmem], hkind⟩

theorem Grammar.LastRow.integer {ts : List Token} {n : Token} (h : Grammar.LastRow ts n) :
    n ∈ ts ∧ n.kind = .integer := by
  cases h with
  | intro hh hr hrows hn => exact ⟨by simp, hn⟩

/-- A numeral that is too long is one of the tokens of the text. -/
theorem integer_of_overlong {text : List Char} {n : Token} (h : Overlong text n) :
    n ∈ (scan text).tokens ∧ n.kind = .integer := by
  obtain ⟨-, ⟨ts, hts, hsettled⟩ | ⟨-, hlast⟩⟩ := h
  · obtain ⟨hmem, hkind⟩ := hsettled.integer
    exact ⟨hts.subset hmem, hkind⟩
  · exact hlast.integer

/-! ## Scripts that compile -/

namespace Moderate

variable {text : List Char}

theorem exists_faultPosition (h : Moderate text) {f : Fault} (hf : f.Just text) :
    ∃ p, faultPosition f = .ok p := by
  have hplace : ∀ {p : Nat}, f.place? = some p →
      ∃ n, Text.Numeral.read (Nat.toDigits 10 p) = .ok n := by
    intro p hp
    obtain ⟨piece, hblames, hstands⟩ := hf.standsAt hp
    exact ⟨_, Text.Numeral.read_eq_ok.2
      ⟨h.places p (hstands.lt_length hblames.ne_nil), rfl⟩⟩
  cases f with
  | illegal c p =>
    obtain ⟨n, hn⟩ := hplace rfl
    rw [faultPosition_illegal, hn]
    exact ⟨some n, rfl⟩
  | unexpected w p =>
    rw [faultPosition_unexpected]
    cases hw : findPosition? w.toList with
    | none =>
      obtain ⟨n, hn⟩ := hplace rfl
      rw [Option.getD_none, hn]
      exact ⟨some n, rfl⟩
    | some digits =>
      -- the position stands in the token, and the token in the text
      obtain ⟨before, t, after, htokens, rfl, -⟩ := hf
      have hmem : t ∈ (scan text).tokens := by
        rw [htokens]
        exact List.mem_append_right before (List.mem_cons_self ..)
      obtain ⟨hpart, hdigits⟩ := digits_of_findPosition? hw
      have hlength := h.runs digits (hpart.trans (text_infix_of_mem_scan hmem)) hdigits
      rw [Option.getD_some, Text.Numeral.read_eq_ok.2 ⟨hlength, rfl⟩]
      exact ⟨_, rfl⟩
  | endOfInput => exact ⟨none, faultPosition_endOfInput⟩

/-- A text with short numerals is judged as a command or as none. -/
theorem readable (h : Moderate text) : Readable text where
  rows n hn := by
    obtain ⟨hmem, hkind⟩ := integer_of_overlong hn
    have hlength := h.runs _ (text_infix_of_mem_scan hmem) (isDigit_of_mem_scan hmem hkind)
    exact Nat.not_le_of_lt hn.1 hlength
  position f hf := exists_faultPosition_iff.1 (h.exists_faultPosition (just_of_parse hf))

/-- The commands of a script with short numerals are readable. -/
theorem readable_of_mem_split {script : List Char} (h : Moderate script) :
    ∀ c ∈ split script, Readable c.text := by
  intro c hc
  obtain ⟨before, after, hs, -⟩ := exists_of_mem_split hc
  exact (h.part ⟨before, after, by rw [hs, List.append_assoc]⟩).readable

end Moderate

/-- A script compiles just if its commands are readable. -/
theorem exists_compile_iff (tables : List Table) {script : List Char} :
    (∃ c, compile tables script = .ok c) ↔ ∀ c ∈ split script, Readable c.text := by
  have hjudged : (judge tables [] (split script)).2 = none ↔ ∀ c ∈ split script, Readable c.text :=
    judge_eq_none_iff.trans (forall₂_congr fun c _ => exists_interpret_iff tables c.text)
  rw [← hjudged]
  constructor
  · rintro ⟨c, hc⟩
    exact congrArg Prod.snd (compile_eq_ok_iff.1 hc)
  · exact fun hnone => ⟨⟨_⟩, compile_eq_ok_iff.2 (Prod.ext rfl hnone)⟩

end Storyboard.Script
