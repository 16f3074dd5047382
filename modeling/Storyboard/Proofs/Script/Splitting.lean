-- SUMMARY: The splitter and the scanner agree on where literals and comments are, so that a script of commands is split back into them.
import Storyboard.Proofs.Script.Lexeme
import Storyboard.Script.Split

/-!
# Splitting scripts of whole commands

The splitter goes through a script in units of its own: a literal, a comment, or else a
single character. Through a lexeme of a command it goes without a cut
(`Lexical.stretches_append`), hence through the whole command
(`Cuts.stretches_append`), as long as its literals close on their line before
something that may follow them, and no comment runs on into what comes next. A
command is also no idle text, since some line starts with a token
(`Cuts.isIdle_eq_false`). So a script that was put together from commands is split
into these commands (`split_script`).
-/

namespace Storyboard.Script

/-! ## Units of the splitter -/

/-- Characters that are nothing special to the splitter. -/
def isPlain (c : Char) : Bool :=
  c ≠ ';' && !isQuote c && c ≠ '-'

/-- A class of characters without the special ones. -/
theorem isPlain_of_class {p : Char → Bool} (h : [';', '\'', '"', '-'].any p = false) {c : Char}
    (hc : p c = true) : isPlain c = true := by
  have hne : ∀ d ∈ [';', '\'', '"', '-'], c ≠ d := by
    rintro d hd rfl
    exact List.any_eq_false.1 h c hd hc
  simp only [List.mem_cons, List.not_mem_nil, or_false, forall_eq_or_imp, forall_eq] at hne
  simp [isPlain, isQuote, hne]

theorem extendFirst_extendFirst (s t : List Char) (l : List (List Char)) :
    extendFirst s (extendFirst t l) = extendFirst (s ++ t) l := by
  cases l <;> simp [extendFirst]

theorem extendFirst_nil {l : List (List Char)} (h : l ≠ []) : extendFirst [] l = l := by
  cases l with
  | nil => exact absurd rfl h
  | cons first more => rfl

theorem unitExtra_quote {q : Char} (h : isQuote q = true) (rest : List Char) :
    unitExtra q rest = (literalLength? q rest).getD 0 := by
  rw [unitExtra, if_pos (by simpa [isQuote] using h)]

theorem unitExtra_comment (w : List Char) :
    unitExtra '-' ('-' :: w) = (('-' :: w).takeWhile (· ≠ '\n')).length := by
  rw [unitExtra, if_neg (by decide), if_pos (by simp)]

theorem unitExtra_eq_zero {c : Char} {rest : List Char} (hq : isQuote c = false)
    (hd : c = '-' → rest.head? ≠ some '-') : unitExtra c rest = 0 := by
  rw [unitExtra, if_neg (by simpa [isQuote] using hq), if_neg]
  simp only [Bool.and_eq_true, decide_eq_true_eq, not_and]
  exact hd

/-- Whether what comes next may follow a literal. -/
def endsLiteral : List Char → Bool
  | [] => true
  | c :: _ => literalFollow.contains c

/-- Up to the next quote of its kind, a quote opens a literal if that is on the same line and
    before something that may follow a literal. -/
theorem literalLength?_span {q : Char} {body : List Char} (hq : q ∉ body) (after : List Char) :
    literalLength? q (body ++ q :: after) =
      if '\n' ∉ body ∧ endsLiteral after = true then some (body.length + 1) else none := by
  simp only [literalLength?, Text.takeWhile_ne_append hq, List.drop_left]
  by_cases hn : '\n' ∈ body
  · rw [if_pos (by simpa using hn), if_neg (by simp [hn])]
  · rw [if_neg (by simpa using hn)]
    cases after with
    | nil => rw [if_pos ⟨hn, rfl⟩]
    | cons c after => simp only [endsLiteral, hn, not_false_eq_true, true_and]

/-! ## Going through a text without a cut -/

theorem stretches_append_of_plain {w : List Char} (h : ∀ c ∈ w, isPlain c = true) (t : List Char) :
    stretches (w ++ t) = extendFirst w (stretches t) := by
  induction w with
  | nil => exact (extendFirst_nil (stretches_ne_nil t)).symm
  | cons c w ih =>
    have hc := h c (List.mem_cons_self ..)
    simp only [isPlain, Bool.and_eq_true, decide_eq_true_eq, Bool.not_eq_true'] at hc
    obtain ⟨⟨hsemi, hquote⟩, hdash⟩ := hc
    have hunit : unitExtra c (w ++ t) = 0 := unitExtra_eq_zero hquote fun h => absurd h hdash
    rw [List.cons_append, stretches_cons hsemi, hunit, List.take_zero, List.drop_zero,
      ih fun d hd => h d (List.mem_cons_of_mem c hd), extendFirst_extendFirst]
    rfl

theorem stretches_append_of_unit {c : Char} {w t : List Char} (h : c ≠ ';')
    (hu : unitExtra c (w ++ t) = w.length) :
    stretches (c :: (w ++ t)) = extendFirst (c :: w) (stretches t) := by
  rw [stretches_cons h, hu, List.take_left, List.drop_left]

theorem ne_semicolon_of_isQuote {c : Char} (h : isQuote c = true) : c ≠ ';' := by
  rintro rfl
  cases h

/-- The splitter goes through a lexeme without a cut, whatever comes behind the text: a literal
    that closes as it must, a comment with a line feed behind it. -/
theorem Lexical.stretches_append {w rest t : List Char} {token : Option (TokenKind × List Char)}
    (h : Lexical w token rest)
    (hl : ∀ body, token = some (.string, body) →
      '\n' ∉ body ∧ endsLiteral (rest ++ t) = true)
    (hc : token = none → w.head? = some '-' → rest ≠ [])
    (hd : rest = [] → t.head? ≠ some '-') :
    stretches (w ++ (rest ++ t)) = extendFirst w (stretches (rest ++ t)) := by
  cases h with
  | gap hg =>
    refine stretches_append_of_plain (fun c hm => ?_) _
    cases List.mem_singleton.1 hm
    exact isPlain_of_class (by decide) hg
  | @literal q body rest hq hb =>
    obtain ⟨hn, hf⟩ := hl body rfl
    have hu : unitExtra q (body ++ [q] ++ (rest ++ t)) = (body ++ [q]).length := by
      rw [unitExtra_quote hq, List.append_assoc]
      change (literalLength? q (body ++ q :: (rest ++ t))).getD 0 = _
      rw [literalLength?_span hb, if_pos ⟨hn, hf⟩, List.length_append]
      rfl
    exact stretches_append_of_unit (ne_semicolon_of_isQuote hq) hu
  | @numeral c w rest hd hw hr =>
    refine stretches_append_of_plain (fun d hm => ?_) _
    refine isPlain_of_class (p := Text.isDigit) (by decide) ?_
    rcases List.mem_cons.1 hm with rfl | hm
    · exact hd
    · exact hw d hm
  | @word c w rest hs hw hr =>
    refine stretches_append_of_plain (fun d hm => ?_) _
    rcases List.mem_cons.1 hm with rfl | hm
    · exact isPlain_of_class (p := isWordStart) (by decide) hs
    · exact isPlain_of_class (p := isWordPart) (by decide) (hw d hm)
  | @comment w rest hn hr =>
    obtain ⟨d, rest, rfl⟩ := List.exists_cons_of_ne_nil (hc rfl rfl)
    cases hr d rfl
    refine stretches_append_of_unit (w := '-' :: w) (by decide) ?_
    have hline : '\n' ∉ '-' :: w := by simp [hn]
    rw [List.cons_append, unitExtra_comment]
    change (('-' :: w ++ '\n' :: (rest ++ t)).takeWhile (· ≠ '\n')).length = _
    rw [Text.takeWhile_ne_append hline]
  | dash hr =>
    refine stretches_append_of_unit (w := []) (by decide) ?_
    refine unitExtra_eq_zero (by decide) fun _ => ?_
    cases rest with
    | nil => exact hd rfl
    | cons c rest => exact hr
  | @mark c kind rest hk =>
    refine stretches_append_of_plain (fun d hm => ?_) _
    cases List.mem_singleton.1 hm
    exact isPlain_of_class (p := fun c => (markKind? c).isSome) (by decide) (by simp [hk])

/-! ## Going through a command -/

/-- Every comment ends at a line feed: there is none on the last line. -/
def CommentsEnd : List Lexeme → Prop
  | [] => True
  | l :: ls => (l.isComment = true → '\n' ∈ Lexeme.join ls) ∧ CommentsEnd ls

/-- Every literal stands on one line, and behind it is the end of the text or a character that may
    follow a literal. -/
def LiteralsEnd : List Lexeme → Prop
  | [] => True
  | l :: ls =>
    (∀ body ∈ l.body?, '\n' ∉ body ∧ endsLiteral (Lexeme.join ls) = true) ∧ LiteralsEnd ls

instance decidableCommentsEnd : (ls : List Lexeme) → Decidable (CommentsEnd ls)
  | [] => inferInstanceAs (Decidable True)
  | l :: ls =>
    have := decidableCommentsEnd ls
    inferInstanceAs (Decidable ((l.isComment = true → '\n' ∈ Lexeme.join ls) ∧ CommentsEnd ls))

instance decidableLiteralsEnd : (ls : List Lexeme) → Decidable (LiteralsEnd ls)
  | [] => inferInstanceAs (Decidable True)
  | l :: ls =>
    have := decidableLiteralsEnd ls
    inferInstanceAs (Decidable
      ((∀ body ∈ l.body?, '\n' ∉ body ∧ endsLiteral (Lexeme.join ls) = true) ∧ LiteralsEnd ls))

/-- What may stand behind a command: nothing, a gap or a semicolon. -/
def Ends (t : List Char) : Prop :=
  ∀ c ∈ t.head?, isGap c = true ∨ c = ';'

theorem Ends.endsLiteral {t : List Char} (h : Ends t) : endsLiteral t = true := by
  cases t with
  | nil => rfl
  | cons c t =>
    rcases h c rfl with hg | rfl
    · simp only [isGap, Bool.or_eq_true, decide_eq_true_eq] at hg
      rcases hg with ((rfl | rfl) | rfl) | rfl <;> rfl
    · rfl

theorem Ends.head?_ne {t : List Char} (h : Ends t) : t.head? ≠ some '-' := by
  intro hc
  rcases h '-' hc with hg | hs
  · exact absurd hg (by decide)
  · exact absurd hs (by decide)

/-- The splitter goes through a command without a cut. -/
theorem Cuts.stretches_append {ls : List Lexeme} {s t : List Char} (h : Cuts ls s)
    (hc : CommentsEnd ls) (hl : LiteralsEnd ls) (ht : Ends t) :
    stretches (s ++ t) = extendFirst s (stretches t) := by
  induction h with
  | nil => exact (extendFirst_nil (stretches_ne_nil t)).symm
  | @cons l ls rest hlex hcuts ih =>
    obtain ⟨hcomment, hc⟩ := hc
    obtain ⟨hliteral, hl⟩ := hl
    rw [hcuts.join_eq] at hcomment hliteral
    have hstep : stretches (l.chars ++ (rest ++ t)) = extendFirst l.chars (stretches (rest ++ t)) := by
      refine hlex.stretches_append (fun body hb => ?_) (fun hnone hdash => ?_) fun _ => ht.head?_ne
      · obtain ⟨hn, hf⟩ := hliteral body (by simp [Lexeme.body?, hb])
        refine ⟨hn, ?_⟩
        cases rest with
        | nil => exact ht.endsLiteral
        | cons d rest => exact hf
      · exact List.ne_nil_of_mem (hcomment (by simp [Lexeme.isComment, hnone, hdash]))
    rw [List.append_assoc, hstep, ih hc hl, extendFirst_extendFirst]

/-! ## Commands are not idle -/

theorem isDigit_not_isBlank {c : Char} (h : Text.isDigit c = true) : Text.isBlank c = false := by
  simp only [Text.isDigit, Text.digitValue?, Option.isSome_map, Option.isSome_iff_exists] at h
  obtain ⟨z, hz⟩ := h
  have hmem := List.mem_of_find?_eq_some hz
  have hrange := List.find?_some hz
  simp only [Bool.and_eq_true, decide_eq_true_eq] at hrange
  have hzeros : ∀ z ∈ Text.digitZeros, 0x30 ≤ z ∧ (z + 10 ≤ 0x85 ∨ 0xA1 ≤ z) ∧
      (z + 10 ≤ 0x1680 ∨ 0x1681 ≤ z) ∧ (z + 10 ≤ 0x2000 ∨ 0x3001 ≤ z) := by decide
  obtain ⟨h1, h2, h3, h4⟩ := hzeros z hmem
  simp only [Text.isBlank, Bool.or_eq_false_iff, Bool.and_eq_false_iff, decide_eq_false_iff_not,
    beq_eq_false_iff_ne, ne_eq]
  omega

theorem isWordStart_not_isBlank {c : Char} (h : isWordStart c = true) : Text.isBlank c = false := by
  have hrange := toNat_of_isWordStart h
  simp only [Text.isBlank, Bool.or_eq_false_iff, Bool.and_eq_false_iff, decide_eq_false_iff_not,
    beq_eq_false_iff_ne, ne_eq]
  omega

theorem mark_not_isBlank {c : Char} {kind : TokenKind} (h : markKind? c = some kind) :
    Text.isBlank c = false := by
  have hany : [',', '[', ']', '{', '}'].any Text.isBlank = false := by decide
  exact Bool.eq_false_iff.2 (List.any_eq_false.1 hany c (mem_marks h))

theorem isQuote_not_isBlank {q : Char} (h : isQuote q = true) : Text.isBlank q = false := by
  have hmem := mem_of_isQuote h
  simp only [List.mem_cons, List.not_mem_nil, or_false] at hmem
  rcases hmem with rfl | rfl <;> decide

/-- No token starts with a blank, and none with two dashes. -/
theorem Lexical.head_of_token {w rest : List Char} {token : TokenKind × List Char}
    (h : Lexical w (some token) rest) :
    ∃ c more, w = c :: more ∧ Text.isBlank c = false ∧
      (c = '-' → (more ++ rest).head? ≠ some '-') := by
  cases h with
  | @literal q body rest hq hb =>
    refine ⟨q, _, rfl, ?_, ?_⟩
    · simp only [isQuote, Bool.or_eq_true, decide_eq_true_eq] at hq
      rcases hq with rfl | rfl <;> decide
    · rintro rfl
      cases hq
  | @numeral c w rest hd hw hr =>
    refine ⟨c, w, rfl, isDigit_not_isBlank hd, ?_⟩
    rintro rfl
    exact absurd hd (by decide)
  | @word c w rest hs hw hr =>
    refine ⟨c, w, rfl, isWordStart_not_isBlank hs, ?_⟩
    rintro rfl
    exact absurd hs (by decide)
  | dash hr => exact ⟨'-', [], rfl, by decide, fun _ => hr⟩
  | @mark c kind rest hk =>
    refine ⟨c, [], rfl, mark_not_isBlank hk, ?_⟩
    rintro rfl
    cases hk

theorem isBlank_of_isGap {c : Char} (h : isGap c = true) : Text.isBlank c = true := by
  simp only [isGap, Bool.or_eq_true, decide_eq_true_eq] at h
  rcases h with ((rfl | rfl) | rfl) | rfl <;> decide

theorem isIdle_append_lineFeed {w : List Char} (h : '\n' ∉ w) (s : List Char) :
    isIdle (w ++ '\n' :: s) = (isIdleLine w && isIdle s) := by
  rw [isIdle, Text.lines_append_lineFeed h]
  rfl

/-- A blank at the start of a text makes no difference. -/
theorem isIdle_cons_of_isBlank {c : Char} (h : Text.isBlank c = true) (s : List Char) :
    isIdle (c :: s) = isIdle s := by
  by_cases hc : c = '\n'
  · subst hc
    exact isIdle_append_lineFeed (w := []) (by simp) s
  · obtain ⟨line, more, hl, hcl⟩ := Text.lines_cons hc s
    have hline : isIdleLine (c :: line) = isIdleLine line := by
      rw [isIdleLine, isIdleLine, Text.strip, Text.strip, Text.stripLeft,
        List.dropWhile_cons_of_pos h]
      rfl
    rw [isIdle, isIdle, hcl, hl, List.all_cons, List.all_cons, hline]

/-- A text is not idle if it starts with a character that is not blank and starts no comment. -/
theorem isIdle_cons_eq_false {c : Char} (hb : Text.isBlank c = false) {s : List Char}
    (hd : c = '-' → s.head? ≠ some '-') : isIdle (c :: s) = false := by
  have hc : c ≠ '\n' := by
    rintro rfl
    exact absurd hb (by decide)
  obtain ⟨line, more, hl, hcl⟩ := Text.lines_cons hc s
  have hline : isIdleLine (c :: line) = false := by
    rw [isIdleLine, Text.strip_cons hb, List.isEmpty_cons, Bool.false_or,
      Option.isSome_eq_false_iff, Option.isNone_iff_eq_none, Option.eq_none_iff_forall_ne_some]
    intro rest hrest
    obtain ⟨rfl, hw⟩ := List.cons.inj (Text.dropStart?_eq_some.1 hrest)
    refine hd rfl (Text.head?_of_lines_eq_cons hl ?_)
    rw [← Text.stripRight_append line, hw]
    rfl
  rw [isIdle, hcl, List.all_cons, hline, Bool.false_and]

/-- A command has a line that is neither blank nor a comment. -/
theorem Cuts.isIdle_eq_false {ls : List Lexeme} {s : List Char} (h : Cuts ls s)
    (ht : ∃ l ∈ ls, l.token.isSome = true) : isIdle s = false := by
  induction h with
  | nil => simp at ht
  | @cons l ls rest hlex hcuts ih =>
    obtain ⟨chars, token⟩ := l
    cases token with
    | some token =>
      obtain ⟨c, more, rfl, hb, hd⟩ := hlex.head_of_token
      exact isIdle_cons_eq_false hb hd
    | none =>
      have hrest : ∃ l ∈ ls, l.token.isSome = true := by
        obtain ⟨l, hm, hl⟩ := ht
        rcases List.mem_cons.1 hm with rfl | hm
        · cases hl
        · exact ⟨l, hm, hl⟩
      have hidle := ih hrest
      cases hlex with
      | gap hg => rw [← hidle]; exact isIdle_cons_of_isBlank (isBlank_of_isGap hg) rest
      | @comment w rest hn hr =>
        cases rest with
        | nil => exact absurd hidle (by decide)
        | cons d rest =>
          cases hr d rfl
          rw [isIdle_cons_of_isBlank (by decide)] at hidle
          rw [isIdle_append_lineFeed (by simp [hn]), hidle, Bool.and_false]

/-! ## Scripts of commands -/

/-- A text that is a command wherever it stands between semicolons: it is cut into tokens, at least
    one, it has no blanks at its ends, and its comments and literals end as they must. -/
structure Standing (s : List Char) : Prop where
  legal : (scan s).illegal = none
  tokens : (scan s).tokens ≠ []
  trimmed : Text.strip s = s
  comments : CommentsEnd (lexemes s)
  literals : LiteralsEnd (lexemes s)

namespace Standing

variable {s : List Char}

theorem isIdle_eq_false (h : Standing s) : isIdle s = false := by
  refine (cuts_lexemes h.legal).isIdle_eq_false ?_
  by_contra hno
  refine h.tokens (List.map_eq_nil_iff.1 ((tokens_scanFrom 0 1 s).trans ?_))
  refine List.filterMap_eq_nil_iff.2 fun l hl => ?_
  have hnone : l.token = none := by
    cases ht : l.token with
    | none => rfl
    | some token => exact absurd ⟨l, hl, by rw [ht]; rfl⟩ hno
  rw [hnone]
  rfl

theorem ne_nil (h : Standing s) : s ≠ [] := by
  rintro rfl
  exact absurd h.isIdle_eq_false (by decide)

end Standing

/-- A command text with the gaps before it and behind it. -/
structure Inset where
  before : List Char
  text : List Char
  behind : List Char
deriving DecidableEq, Repr

namespace Inset

/-- The text with its gaps. -/
def chars (p : Inset) : List Char :=
  p.before ++ (p.text ++ p.behind)

/-- The script in which a semicolon stands between every two of the texts. -/
def script (ps : List Inset) : List Char :=
  List.intercalate [';'] (ps.map chars)

/-- The texts with their places in the script, which starts at an offset. -/
def commands (start : Nat) : List Inset → List CommandText
  | [] => []
  | p :: rest =>
    { offset := start + p.before.length, text := p.text }
      :: commands (start + p.chars.length + 1) rest

/-- Between gaps and at its ends stands a command. -/
structure Fits (p : Inset) : Prop where
  before : ∀ c ∈ p.before, isGap c = true
  behind : ∀ c ∈ p.behind, isGap c = true
  text : Standing p.text

variable {p : Inset}

/-- The splitter goes through a command and the gaps around it without a cut. -/
theorem Fits.stretches_append (h : p.Fits) {t : List Char} (ht : Ends t) :
    stretches (p.chars ++ t) = extendFirst p.chars (stretches t) := by
  have hplain : ∀ w : List Char, (∀ c ∈ w, isGap c = true) → ∀ c ∈ w, isPlain c = true :=
    fun w hw c hc => isPlain_of_class (by decide) (hw c hc)
  have hends : Ends (p.behind ++ t) := by
    intro c hc
    cases hb : p.behind with
    | nil =>
      rw [hb] at hc
      exact ht c hc
    | cons d w =>
      rw [hb] at hc
      cases hc
      exact .inl (h.behind c (by rw [hb]; exact List.mem_cons_self ..))
  have hcuts := cuts_lexemes h.text.legal
  rw [chars, List.append_assoc, List.append_assoc,
    stretches_append_of_plain (hplain _ h.before),
    hcuts.stretches_append h.text.comments h.text.literals hends,
    stretches_append_of_plain (hplain _ h.behind), extendFirst_extendFirst, extendFirst_extendFirst,
    List.append_assoc]

/-- The stretch of a command and the gaps around it holds just the command. -/
theorem Fits.commandIn? (h : p.Fits) (start : Nat) :
    commandIn? start p.chars = some { offset := start + p.before.length, text := p.text } := by
  have hne := h.text.ne_nil
  obtain ⟨hleft, hstrip⟩ := Text.strip_margins (fun c hc => isBlank_of_isGap (h.before c hc))
    (fun c hc => isBlank_of_isGap (h.behind c hc)) h.text.trimmed hne
  have hidle : (p.text.isEmpty || isIdle p.text) = false := by
    simp [h.text.isIdle_eq_false, hne]
  simp only [Script.commandIn?, chars, hleft, hstrip, hidle]
  simp

/-- The stretches of a script of commands are the commands with the gaps around them. -/
theorem stretches_script {ps : List Inset} (h : ∀ p ∈ ps, p.Fits) (hne : ps ≠ []) :
    stretches (script ps) = ps.map chars := by
  induction ps with
  | nil => exact absurd rfl hne
  | cons p ps ih =>
    have hp := h p (List.mem_cons_self ..)
    cases ps with
    | nil =>
      have := hp.stretches_append (t := []) (by simp [Ends])
      simpa [script, extendFirst] using this
    | cons q ps =>
      have hrest := ih (fun p hm => h p (List.mem_cons_of_mem _ hm)) (by simp)
      have hscript : script (p :: q :: ps) = p.chars ++ ';' :: script (q :: ps) := by
        simp [script, List.intercalate]
      rw [hscript, hp.stretches_append (by simp [Ends]), stretches_semicolon, hrest]
      simp [extendFirst]

theorem commandsFrom_chars {ps : List Inset} (h : ∀ p ∈ ps, p.Fits) (start : Nat) :
    commandsFrom start (ps.map chars) = commands start ps := by
  induction ps generalizing start with
  | nil => rfl
  | cons p ps ih =>
    have hp := (h p (List.mem_cons_self ..)).commandIn? start
    rw [List.map_cons, commandsFrom, hp, ih fun p hm => h p (List.mem_cons_of_mem _ hm)]
    rfl

end Inset

/-- A script of commands is split into these commands, each at the place where it was put. -/
theorem split_script (ps : List Inset) (h : ∀ p ∈ ps, p.Fits) :
    split (Inset.script ps) = Inset.commands 0 ps := by
  cases ps with
  | nil => decide +kernel
  | cons p ps =>
    rw [split, Inset.stretches_script h (by simp), Inset.commandsFrom_chars h]

/-- A command with semicolons, dashes and the other quote in its literals, and with a comment that
    holds a semicolon and a quote. -/
def Inset.tangled : Inset where
  before := "\r\n ".toList
  text := "add in table 'a;--\"b' -- it's; not over\ncolumn \"it's;\" cells[\x7b1-'--;'\x7d]".toList
  behind := "\t".toList

/-- A command that ends with a literal. -/
def Inset.closing : Inset where
  before := " ".toList
  text := "highlight in table 'T' column\t'-- C;'".toList
  behind := []

/-- The tangled command and the closing one around a semicolon are split apart. -/
theorem split_script_tangled :
    (∀ p ∈ [Inset.tangled, Inset.closing], p.Fits) ∧
      split (Inset.script [Inset.tangled, Inset.closing]) =
        [⟨3, Inset.tangled.text⟩, ⟨77, Inset.closing.text⟩] := by
  have h : ∀ p ∈ [Inset.tangled, Inset.closing], p.Fits := by
    simp only [List.mem_cons, List.not_mem_nil, or_false, forall_eq_or_imp, forall_eq]
    constructor
    · exact ⟨List.all_eq_true.1 (by decide), List.all_eq_true.1 (by decide), by decide +kernel,
        by decide +kernel, by decide +kernel, by decide +kernel, by decide +kernel⟩
    · exact ⟨List.all_eq_true.1 (by decide), List.all_eq_true.1 (by decide), by decide +kernel,
        by decide +kernel, by decide +kernel, by decide +kernel, by decide +kernel⟩
  refine ⟨h, ?_⟩
  rw [split_script _ h]
  decide

end Storyboard.Script
