-- SUMMARY: The position that is given for a fault is that of what it blames, unless the token that it quotes mentions another position.
import Storyboard.Proofs.Script.Blame
import Storyboard.Proofs.Script.Verdict

/-!
# Positions of faults

The position of a fault is read off its wording: it is the first number there that is
called a position. The wording quotes the token that it blames, so this token is read
first (`faultPosition_unexpected`). If the token mentions no position, or first of all
its own (`Fault.Candid`), the position is true, for a command by itself and in a
script, and otherwise it is not (`position_iff_candid`).
-/

namespace Storyboard

/-! ## Numerals -/

namespace Text

theorem digitValue?_of_isDigit {c : Char} (h : c.isDigit = true) :
    digitValue? c = some (c.toNat - '0'.toNat) := by
  have hrange : 0x30 ≤ c.toNat ∧ c.toNat < 0x30 + 10 := by
    simp only [Char.isDigit, Bool.and_eq_true, decide_eq_true_eq, ge_iff_le, UInt32.le_iff_toNat_le]
      at h
    exact ⟨h.1, Nat.lt_succ_of_le h.2⟩
  unfold digitValue? digitZeros
  rw [List.find?_cons_of_pos (by simpa using hrange)]
  rfl

theorem digitValue?_of_mem_toDigits {n : Nat} {c : Char} (h : c ∈ Nat.toDigits 10 n) :
    digitValue? c = some (c.toNat - '0'.toNat) :=
  digitValue?_of_isDigit (Nat.isDigit_of_mem_toDigits (by decide) (by decide) h)

theorem isDigit_of_mem_toDigits {n : Nat} {c : Char} (h : c ∈ Nat.toDigits 10 n) :
    isDigit c = true := by
  unfold isDigit
  rw [digitValue?_of_mem_toDigits h]
  rfl

namespace Numeral

/-- The decimal digits of a number stand for it. -/
theorem value_toDigits (n : Nat) : value (Nat.toDigits 10 n) = n := by
  have hfold : value (Nat.toDigits 10 n) = Nat.ofDigitChars 10 (Nat.toDigits 10 n) 0 := by
    unfold value Nat.ofDigitChars
    refine List.foldl_ext _ _ _ fun sum c hc => ?_
    rw [digitValue?_of_mem_toDigits hc]
    rfl
  exact hfold.trans Nat.ofDigitChars_ten_toDigits

theorem eq_value_of_read {digits : List Char} {n : Option Nat}
    (h : (read digits).map some = .ok n) : n = some (value digits) := by
  cases hread : read digits with
  | error e =>
    rw [hread] at h
    cases h
  | ok m =>
    rw [hread] at h
    cases h
    exact congrArg some (read_eq_ok.1 hread).2.symm

end Numeral

end Text

namespace Script

/-! ## Positions that a text mentions -/

/-- A mention of a position does not go on over a quote. -/
theorem positionAt?_append_quote (s t : List Char) :
    positionAt? (s ++ '\'' :: t) = positionAt? s := by
  have hdigits : ∀ rest : List Char,
      (rest ++ '\'' :: t).takeWhile Text.isDigit = rest.takeWhile Text.isDigit := by
    intro rest
    have hquote : Text.isDigit '\'' = false := by decide
    rw [List.takeWhile_append]
    split
    next hall =>
      have hself := (List.takeWhile_prefix Text.isDigit (l := rest)).eq_of_length hall
      rw [List.takeWhile_cons_of_neg (by simp [hquote]), List.append_nil, hself]
    next => rfl
  unfold positionAt?
  rw [Text.dropStart?_append (by decide), Text.dropStart?_append (by decide), ← Option.map_or]
  cases (Text.dropStart? "at position ".toList s).or (Text.dropStart? "(position ".toList s) with
  | none => rfl
  | some rest => simp only [Option.map_some, Option.bind_eq_bind, Option.bind_some, hdigits]

/-- Of a text with a quote in it, what stands before the quote is searched first. -/
theorem findPosition?_append_quote (s t : List Char) :
    findPosition? (s ++ '\'' :: t) = (findPosition? s).or (findPosition? t) := by
  induction s with
  | nil =>
    have hnone : positionAt? ('\'' :: t) = none := positionAt?_append_quote [] t
    simp only [List.nil_append, findPosition?, hnone, Option.none_or]
  | cons c s ih =>
    have hstart := positionAt?_append_quote (c :: s) t
    rw [List.cons_append] at hstart
    simp only [List.cons_append, findPosition?, hstart, ih, Option.or_assoc]

/-- Behind the word for a position the whole numeral is taken. -/
theorem findPosition?_of_start {s digits rest : List Char}
    (h : (Text.dropStart? "at position ".toList s).or (Text.dropStart? "(position ".toList s) =
      some (digits ++ rest))
    (hne : digits ≠ []) (hd : ∀ c ∈ digits, Text.isDigit c = true)
    (hr : ∀ c, rest.head? = some c → Text.isDigit c = false) :
    findPosition? s = some digits := by
  have hstart : positionAt? s = some digits := by
    unfold positionAt?
    simp only [h, Option.bind_eq_bind, Option.bind_some, Text.takeWhile_span hd hr]
    exact if_neg (by simpa using hne)
  cases s with
  | nil => cases hstart
  | cons c s =>
    rw [findPosition?, hstart]
    rfl

theorem findPosition?_blank (s : List Char) : findPosition? (' ' :: s) = findPosition? s := by
  have hnone : positionAt? (' ' :: s) = none := rfl
  rw [findPosition?, hnone, Option.none_or]

/-! ## Positions that messages give -/

/-- In a wording that quotes a text and gives a position behind it, the text is searched first. -/
theorem findPosition?_quoting {before word rest : List Char} (quoted : List Char) (p : Nat)
    (hbefore : findPosition? before = none)
    (hword : word = "at position ".toList ∨ word = "(position ".toList)
    (hrest : ∀ c, rest.head? = some c → Text.isDigit c = false) :
    findPosition? (before ++ '\'' :: (quoted ++ '\'' :: ' ' ::
      (word ++ (Nat.toDigits 10 p ++ rest)))) =
      some ((findPosition? quoted).getD (Nat.toDigits 10 p)) := by
  have hstart : (Text.dropStart? "at position ".toList (word ++ (Nat.toDigits 10 p ++ rest))).or
      (Text.dropStart? "(position ".toList (word ++ (Nat.toDigits 10 p ++ rest))) =
        some (Nat.toDigits 10 p ++ rest) := by
    rcases hword with rfl | rfl
    · rw [Text.dropStart?_eq_some.2 rfl, Option.some_or]
    · rw [Text.dropStart?_eq_some.2 rfl]
      rfl
  have hafter := findPosition?_of_start hstart Nat.toDigits_ne_nil
    (fun c => Text.isDigit_of_mem_toDigits) hrest
  simp only [findPosition?_append_quote, findPosition?_blank, hbefore, hafter, Option.none_or]
  cases findPosition? quoted with
  | none => rfl
  | some digits => rfl

/-- The position of an illegal character is the one in its wording. -/
theorem faultPosition_illegal (c : Char) (p : Nat) :
    faultPosition (.illegal c p) = (Text.Numeral.read (Nat.toDigits 10 p)).map some := by
  have hmessage : (Fault.illegal c p).message.toList =
      "Illegal character ".toList ++ '\'' ::
        ([c] ++ '\'' :: ' ' :: ("at position ".toList ++ (Nat.toDigits 10 p ++ []))) := by
    have hquote : "Illegal character '".toList = "Illegal character ".toList ++ ['\''] := rfl
    have hunquote : "' at position ".toList = '\'' :: ' ' :: "at position ".toList := rfl
    have hchar : c.toString.toList = [c] := by simp
    unfold Fault.message
    rw [String.toList_append, String.toList_append, String.toList_append, hquote, hunquote, hchar,
      Nat.toString_eq_repr, Nat.toList_repr, List.append_nil, List.append_assoc,
      List.append_assoc, List.append_assoc]
    rfl
  have hnone : findPosition? [c] = none := by
    simp [findPosition?, positionAt?, Text.dropStart?]
  have hend : ∀ d : Char, [].head? = some d → Text.isDigit d = false := by
    intro d hd
    cases hd
  unfold faultPosition positionIn
  rw [hmessage, findPosition?_quoting [c] p rfl (.inl rfl) hend, hnone]
  rfl

/-- The position of a token is the first that its text mentions, or else the one behind it. -/
theorem faultPosition_unexpected (w : String) (p : Nat) :
    faultPosition (.unexpected w p) =
      (Text.Numeral.read ((findPosition? w.toList).getD (Nat.toDigits 10 p))).map some := by
  have hmessage : (Fault.unexpected w p).message.toList =
      "Syntax error at ".toList ++ '\'' ::
        (w.toList ++ '\'' :: ' ' :: ("(position ".toList ++ (Nat.toDigits 10 p ++ [')']))) := by
    have hquote : "Syntax error at '".toList = "Syntax error at ".toList ++ ['\''] := rfl
    have hunquote : "' (position ".toList = '\'' :: ' ' :: "(position ".toList := rfl
    unfold Fault.message
    rw [String.toList_append, String.toList_append, String.toList_append, String.toList_append,
      hquote, hunquote, Nat.toString_eq_repr, Nat.toList_repr, List.append_assoc,
      List.append_assoc, List.append_assoc, List.append_assoc]
    rfl
  have hbracket : ∀ c, [')'].head? = some c → Text.isDigit c = false := by
    intro c hc
    cases hc
    rfl
  unfold faultPosition positionIn
  rw [hmessage, findPosition?_quoting w.toList p rfl (.inr rfl) hbracket]

theorem faultPosition_endOfInput : faultPosition .endOfInput = .ok none := by
  decide

/-! ## True positions -/

namespace Fault

/-- The position of what the fault blames; the end of the text has none. -/
def place? : Fault → Option Nat
  | illegal _ p => some p
  | unexpected _ p => some p
  | endOfInput => none

/-- The piece is what the fault blames: a character, or the characters of a token. -/
def Blames (piece : List Char) : Fault → Prop
  | illegal c _ => piece = [c]
  | unexpected w _ => ∃ kind rest, Lexical piece (some (kind, w.toList)) rest
  | endOfInput => False

/-- The token that the wording quotes mentions no position, or first of all its own. -/
def Candid : Fault → Prop
  | unexpected w p => ∀ digits, findPosition? w.toList = some digits →
      Text.Numeral.value digits = p
  | _ => True

theorem Blames.ne_nil {piece : List Char} {f : Fault} (h : f.Blames piece) : piece ≠ [] := by
  rintro rfl
  cases f with
  | illegal c p => cases h
  | unexpected w p =>
    obtain ⟨kind, rest, hlex⟩ := h
    cases hlex
  | endOfInput => exact h

/-- What a just fault blames stands at its place. -/
theorem Just.standsAt {text : List Char} {f : Fault} (h : f.Just text) {p : Nat}
    (hp : f.place? = some p) : ∃ piece, f.Blames piece ∧ StandsAt piece p text := by
  cases f with
  | illegal c position =>
    cases hp
    exact ⟨[c], rfl, standsAt_of_getElem? (getElem?_of_illegal h.1)⟩
  | unexpected w position =>
    cases hp
    obtain ⟨before, t, after, htokens, rfl, rfl, -⟩ := h
    have hmem : t ∈ (scan text).tokens := by
      rw [htokens]
      exact List.mem_append_right before (List.mem_cons_self ..)
    obtain ⟨piece, rest, hdrop, hlex⟩ := Token.standsIn_of_mem_scan hmem
    exact ⟨piece, ⟨t.kind, rest, hlex⟩, ⟨rest, hdrop.symm⟩⟩
  | endOfInput => cases hp

end Fault

/-- The position that the wording of a fault gives is the true one just if the wording is candid. -/
theorem eq_place?_iff {f : Fault} {position : Option Nat} (h : faultPosition f = .ok position) :
    position = f.place? ↔ f.Candid := by
  cases f with
  | illegal c p =>
    rw [faultPosition_illegal] at h
    rw [Text.Numeral.eq_value_of_read h, Text.Numeral.value_toDigits]
    exact iff_of_true rfl trivial
  | unexpected w p =>
    rw [faultPosition_unexpected] at h
    rw [Text.Numeral.eq_value_of_read h]
    unfold Fault.place? Fault.Candid
    cases hw : findPosition? w.toList with
    | none =>
      rw [Option.getD_none, Text.Numeral.value_toDigits]
      refine iff_of_true rfl fun digits hd => ?_
      rw [hw] at hd
      cases hd
    | some digits =>
      simp only [Option.getD_some, Option.some.injEq]
      constructor
      · intro hvalue other hother
        rw [hw] at hother
        cases hother
        exact hvalue
      · intro hcandid
        exact hcandid digits hw
  | endOfInput =>
    rw [faultPosition_endOfInput] at h
    cases h
    exact iff_of_true rfl trivial

/-- A rejection for a fault has the true position just if the wording of the fault is candid. -/
theorem position_of_interpret {tables : List Table} {text : List Char} {f : Fault} {o : Outcome}
    (hp : parse text = .error (.fault f)) (ho : interpret tables text = .ok o) :
    ∃ position, o = .rejected (.malformed text f) position ∧ (position = f.place? ↔ f.Candid) := by
  obtain ⟨f', position, hp', hposition, rfl⟩ | ⟨c, cause, hp', -⟩ | ⟨c, r, hp', -⟩ :=
    interpret_cases ho
  · rw [hp] at hp'
    cases hp'
    exact ⟨position, rfl, eq_place?_iff hposition⟩
  · rw [hp] at hp'
    cases hp'
  · rw [hp] at hp'
    cases hp'

/-- A problem of a script with a position is a fault of a command, shifted by its offset. -/
theorem exists_of_position {tables : List Table} {script : List Char} {compiled : Compiled}
    (h : compile tables script = .ok compiled) {d : Diagnostic} (hd : d ∈ compiled.diagnostics)
    {q : Nat} (hq : d.position = some q) :
    d.command ∈ split script ∧ ∃ f p, parse d.command.text = .error (.fault f) ∧
      faultPosition f = .ok (some p) ∧ q = d.command.offset + p := by
  obtain ⟨v, hv, hvd⟩ := List.mem_flatMap.1 hd
  unfold Verdict.diagnostics at hvd
  obtain ⟨hmem, ⟨f, position, hp, hposition, ho⟩ | ⟨cause, ho⟩ | ⟨c, r, -, -, ho⟩⟩ :=
    cases_of_mem_verdicts h hv
  · rw [ho] at hvd
    cases List.mem_singleton.1 hvd
    obtain ⟨p, rfl, rfl⟩ := Option.map_eq_some_iff.1 hq
    exact ⟨hmem, f, p, hp, hposition, rfl⟩
  · rw [ho] at hvd
    cases List.mem_singleton.1 hvd
    cases hq
  · -- a caution has no position
    rw [ho] at hvd
    obtain ⟨caution, -, rfl⟩ := List.mem_map.1 hvd
    cases hq

/-- The position of a problem of a script is true just if the wording of its fault is candid, and
    then it lies in the command, and what is blamed stands there. -/
theorem position_of_compile {tables : List Table} {script : List Char} {compiled : Compiled}
    (h : compile tables script = .ok compiled) {d : Diagnostic} (hd : d ∈ compiled.diagnostics)
    {q : Nat} (hq : d.position = some q) :
    ∃ f, parse d.command.text = .error (.fault f) ∧
      (f.place?.map (d.command.offset + ·) = some q ↔ f.Candid) ∧
      (f.Candid → d.command.offset ≤ q ∧ q < d.command.stop ∧
        ∃ piece, f.Blames piece ∧ StandsAt piece q script) := by
  obtain ⟨hmem, f, p, hp, hposition, rfl⟩ := exists_of_position h hd hq
  have hplace := eq_place?_iff hposition
  refine ⟨f, hp, ?_, fun hcandid => ?_⟩
  · rw [← hplace]
    cases f.place? with
    | none => simp
    | some p' =>
      simp only [Option.map_some, Option.some.injEq, Nat.add_left_cancel_iff]
      exact eq_comm
  · obtain ⟨piece, hblames, hstands⟩ := (just_of_parse hp).standsAt (hplace.2 hcandid).symm
    have hlt := hstands.lt_length hblames.ne_nil
    refine ⟨Nat.le_add_right .., Nat.add_lt_add_left hlt _, piece, hblames, ?_⟩
    exact hstands.trans (standsAt_of_mem_split hmem)

/-- The position of a fault is that of the character or token with which no command goes on, and
    none at the end of a text, just if the wording of the fault is candid. In a script it then lies
    in the command, and the character or token stands there. -/
theorem position_iff_candid (tables : List Table) :
    (∀ text f o, parse text = .error (.fault f) → interpret tables text = .ok o →
      ∃ position, o = .rejected (.malformed text f) position ∧ f.Just text ∧
        (∀ p, f.place? = some p → ∃ piece, f.Blames piece ∧ StandsAt piece p text) ∧
        (position = f.place? ↔ f.Candid)) ∧
    ∀ script compiled, compile tables script = .ok compiled →
      ∀ d ∈ compiled.diagnostics, ∀ q, d.position = some q →
        ∃ f, parse d.command.text = .error (.fault f) ∧ f.Just d.command.text ∧
          (f.place?.map (d.command.offset + ·) = some q ↔ f.Candid) ∧
          (f.Candid → d.command.offset ≤ q ∧ q < d.command.stop ∧
            ∃ piece, f.Blames piece ∧ StandsAt piece q script) := by
  constructor
  · intro text f o hp ho
    obtain ⟨position, rfl, hposition⟩ := position_of_interpret hp ho
    have hjust := just_of_parse hp
    exact ⟨position, rfl, hjust, fun p => hjust.standsAt, hposition⟩
  · intro script compiled h d hd q hq
    obtain ⟨f, hp, hposition, htrue⟩ := position_of_compile h hd hq
    exact ⟨f, hp, just_of_parse hp, hposition, htrue⟩

/-- A text with a word that no command has. -/
def plural : List Char :=
  "highlight in table 'T' rows 1".toList

/-- A script with the text as a command, not at its start. -/
def late : List Char :=
  ";\n ".toList ++ plural

theorem position_iff_candid_plural :
    parse plural = .error (.fault (.unexpected "rows" 23)) ∧
      interpret [] plural =
        .ok (.rejected (.malformed plural (.unexpected "rows" 23)) (some 23)) ∧
      (Fault.unexpected "rows" 23).Just plural ∧
      (∃ piece, (Fault.unexpected "rows" 23).Blames piece ∧ StandsAt piece 23 plural) ∧
      ∃ compiled d, compile [] late = .ok compiled ∧ d ∈ compiled.diagnostics ∧
        d.command = ⟨3, plural⟩ ∧ d.position = some 26 ∧ d.command.offset ≤ 26 ∧
        26 < d.command.stop ∧
        ∃ piece, (Fault.unexpected "rows" 23).Blames piece ∧ StandsAt piece 26 late := by
  have hp : parse plural = .error (.fault (.unexpected "rows" 23)) := by decide +kernel
  have ho : interpret [] plural =
      .ok (.rejected (.malformed plural (.unexpected "rows" 23)) (some 23)) := by decide +kernel
  have hc : compile [] late = .ok
      ⟨[⟨⟨3, plural⟩, .rejected (.malformed plural (.unexpected "rows" 23)) (some 23)⟩]⟩ := by
    decide +kernel
  have hcandid : (Fault.unexpected "rows" 23).Candid := by
    have hnone : findPosition? "rows".toList = none := rfl
    intro digits hdigits
    rw [hnone] at hdigits
    cases hdigits
  obtain ⟨position, -, hjust, hstands, -⟩ := (position_iff_candid []).1 plural _ _ hp ho
  refine ⟨hp, ho, hjust, hstands 23 rfl, _, _, hc, List.mem_singleton.2 rfl, rfl, rfl, ?_⟩
  obtain ⟨f, hf, -, -, htrue⟩ :=
    (position_iff_candid []).2 late _ hc _ (List.mem_singleton.2 rfl) 26 rfl
  obtain rfl : Fault.unexpected "rows" 23 = f := by
    have hsame := hp.symm.trans hf
    cases hsame
    rfl
  exact htrue hcandid

/-- A text with a literal that mentions a position, where no command has a literal. -/
def misleading : List Char :=
  "highlight in table 'T' 'at position 99'".toList

/-- The position that the literal mentions is given in place of its own, and it does not even lie
    in the command. -/
theorem not_candid_misleading :
    parse misleading = .error (.fault (.unexpected "at position 99" 23)) ∧
      (Fault.unexpected "at position 99" 23).place? = some 23 ∧
      interpret [] misleading =
        .ok (.rejected (.malformed misleading (.unexpected "at position 99" 23)) (some 99)) ∧
      ∃ compiled d, compile [] misleading = .ok compiled ∧ d ∈ compiled.diagnostics ∧
        d.position = some 99 ∧ ¬ 99 < d.command.stop := by
  have hc : compile [] misleading = .ok
      ⟨[⟨⟨0, misleading⟩,
        .rejected (.malformed misleading (.unexpected "at position 99" 23)) (some 99)⟩]⟩ := by
    decide +kernel
  refine ⟨by decide +kernel, rfl, by decide +kernel, _, _, hc, List.mem_singleton.2 rfl, rfl, ?_⟩
  decide

end Script

end Storyboard
