-- SUMMARY: What becomes of the last command and the last lexeme of a text when more is written behind it.
import Storyboard.Proofs.Script.Locating
import Storyboard.Proofs.Script.Residue
import Storyboard.Proofs.Script.Stray

/-!
# Texts with more behind them

What is written behind a text can change its end. For the splitter this is the stretch
behind the last semicolon: a further semicolon ends it, and nothing else, unless a comment
at the end takes the semicolon in, which then goes to the last command
(`split_semicolon_cases`). For the scanner this is the last lexeme: a comment takes in what
stands behind it up to the end of the line (`scanFrom_append_of_comment`), another lexeme
is ended by a blank or a semicolon (`scanFrom_append_of_parts`), and behind an illegal
character nothing is read (`scanFrom_append_of_illegal`).
-/

namespace Storyboard.Script

/-! ## The stretch behind the last semicolon -/

/-- What stands before the last of joined stretches is as long as the others with their semicolons. -/
theorem exists_intercalate_concat (init : List (List Char)) (last : List Char) :
    ∃ before, List.intercalate [';'] (init ++ [last]) = before ++ last ∧
      before.length = extent init := by
  induction init with
  | nil => exact ⟨[], by simp [List.intercalate], rfl⟩
  | cons stretch init ih =>
    obtain ⟨before, hbefore, hlength⟩ := ih
    refine ⟨stretch ++ ';' :: before, ?_, ?_⟩
    · rw [List.cons_append, List.intercalate_cons_of_ne_nil (by simp), hbefore]
      simp
    · simp only [List.length_append, List.length_cons, hlength, extent]
      omega

/-- A script is what stands up to its last stretch, and this stretch. -/
theorem exists_last_stretch (s : List Char) :
    ∃ init last before, stretches s = init ++ [last] ∧ s = before ++ last ∧
      before.length = extent init := by
  obtain ⟨init, last, hs⟩ : ∃ init last, stretches s = init ++ [last] :=
    ⟨_, _, (List.dropLast_concat_getLast (stretches_ne_nil s)).symm⟩
  obtain ⟨before, hbefore, hlength⟩ := exists_intercalate_concat init last
  rw [← hs, join_stretches] at hbefore
  exact ⟨init, last, before, hs, hbefore, hlength⟩

/-- Commands end before the end of their stretches. -/
theorem stop_lt_of_mem_commandsFrom {start : Nat} {l : List (List Char)} {c : CommandText}
    (h : c ∈ commandsFrom start l) : c.stop < start + extent l := by
  induction l generalizing start with
  | nil => simp [commandsFrom] at h
  | cons stretch more ih =>
    rw [extent]
    rcases List.mem_append.1 h with h | h
    · obtain ⟨before, after, rfl, hoff, -⟩ := exists_of_commandIn? (Option.mem_toList.1 h)
      simp only [CommandText.stop, hoff, List.length_append]
      omega
    · have := ih h
      omega

theorem suffix_of_extendFirst {w last last' : List Char} {init init' : List (List Char)}
    (h : extendFirst w (init' ++ [last']) = init ++ [last]) : last' <:+ last := by
  have hlast := congrArg List.getLast? h
  rw [List.getLast?_concat] at hlast
  cases init' with
  | nil =>
    cases hlast
    exact List.suffix_append w last'
  | cons first more =>
    rw [List.cons_append, extendFirst, ← List.cons_append, List.getLast?_concat] at hlast
    cases hlast
    exact List.suffix_refl last

/-- A script that ends within a comment has a last stretch that does so. -/
theorem exists_dashes_of_endsInComment {s : List Char} (h : endsInComment s = true)
    {init : List (List Char)} {last : List Char} (hs : stretches s = init ++ [last]) :
    ∃ u w, last = u ++ '-' :: '-' :: w ∧ '\n' ∉ w := by
  fun_induction endsInComment s generalizing init last with
  | case1 => cases h
  | case2 c rest hopen =>
    simp only [Bool.and_eq_true, decide_eq_true_eq, Bool.not_eq_true', List.contains_eq_mem,
      decide_eq_false_iff_not] at hopen
    obtain ⟨⟨rfl, hhead⟩, hfeed⟩ := hopen
    obtain ⟨w, rfl⟩ := List.head?_eq_some_iff.1 hhead
    have hline : '\n' ∉ w := fun hm => hfeed (List.mem_cons_of_mem _ hm)
    rw [stretches_dashes, Text.takeWhile_ne_self hline, Text.dropWhile_ne_self hline,
      stretches_nil, extendFirst, List.append_nil] at hs
    have hlast := congrArg List.getLast? hs
    rw [List.getLast?_concat] at hlast
    cases hlast
    exact ⟨[], w, rfl, hline⟩
  | case3 c rest hopen ih =>
    obtain ⟨init', last', hs'⟩ : ∃ init' last', stretches (rest.drop (unitExtra c rest)) =
        init' ++ [last'] :=
      ⟨_, _, (List.dropLast_concat_getLast (stretches_ne_nil _)).symm⟩
    have hsuffix : last' <:+ last := by
      by_cases hc : c = ';'
      · subst hc
        rw [unitExtra_semicolon, List.drop_zero] at hs'
        have hlast := congrArg List.getLast? hs
        rw [stretches_semicolon, hs', ← List.cons_append, List.getLast?_concat,
          List.getLast?_concat] at hlast
        cases hlast
        exact List.suffix_refl last
      · rw [stretches_cons hc, hs'] at hs
        exact suffix_of_extendFirst hs
    obtain ⟨v, rfl⟩ := hsuffix
    obtain ⟨u, w, rfl, hline⟩ := ih h hs'
    exact ⟨v ++ u, w, by rw [List.append_assoc], hline⟩

/-- What stands in a comment at the end of a text is left out with it. -/
theorem withoutComments_append_dashes {t : List Char} (ht : '\n' ∉ t) (s : List Char) :
    withoutComments (s ++ '-' :: '-' :: t) = withoutComments (s ++ ['-', '-']) := by
  have hnone : ∀ {w : List Char}, '\n' ∉ w → withoutComments ('-' :: '-' :: w) = [] := by
    intro w hw
    rw [withoutComments_dashes, Text.dropWhile_ne_self hw, withoutComments_nil]
  induction s using withoutComments_induction with
  | nil => rw [List.nil_append, List.nil_append, hnone ht, hnone (by simp)]
  | comment w ih =>
    by_cases hw : '\n' ∈ w
    · obtain ⟨line, more, rfl, hline⟩ := List.eq_append_cons_of_mem hw
      rw [Text.dropWhile_ne_append hline] at ih
      simp only [List.cons_append, withoutComments_dashes, List.append_assoc,
        Text.dropWhile_ne_append hline] at ih ⊢
      exact ih
    · rw [List.cons_append, List.cons_append, List.cons_append, List.cons_append,
        hnone (by simp [hw, ht]), hnone (by simp [hw])]
  | char c rest h ih =>
    -- a dash in front of the two makes the comment start with it
    by_cases hdash : c = '-' ∧ rest = []
    · obtain ⟨rfl, rfl⟩ := hdash
      rw [List.singleton_append, List.singleton_append, hnone (by simp [ht]), hnone (by simp)]
    · have hapart : ∀ r : List Char, c = '-' → (rest ++ '-' :: r).head? ≠ some '-' := by
        intro r hc hhead
        cases rest with
        | nil => exact hdash ⟨hc, rfl⟩
        | cons d rest => exact h hc hhead
      rw [List.cons_append, List.cons_append, withoutComments_cons (hapart _),
        withoutComments_cons (hapart _), ih]

/-- Whether a text that ends within a comment is idle does not hang on what the comment says. -/
theorem isIdle_append_dashes {t : List Char} (ht : '\n' ∉ t) (s : List Char) :
    isIdle (s ++ '-' :: '-' :: t) = isIdle (s ++ ['-', '-']) := by
  rw [Bool.eq_iff_iff, isIdle_iff, isIdle_iff, withoutComments_append_dashes ht]

/-- What is blank at the end of a text that ends within a comment stands in the comment. -/
theorem not_mem_of_blank_suffix {u w e : List Char} (hw : '\n' ∉ w)
    (he : ∀ d ∈ e, Text.isBlank d = true) (hs : e <:+ u ++ '-' :: '-' :: w) : '\n' ∉ e := by
  have hline : '\n' ∉ '-' :: w := by simp [hw]
  have hcomment : '-' :: w <:+ u ++ '-' :: '-' :: w := ⟨u ++ ['-'], by simp⟩
  rcases List.suffix_or_suffix_of_suffix hs hcomment with h | h
  · exact fun hm => hline (h.subset hm)
  · exact absurd (he '-' (h.subset (List.mem_cons_self ..))) (by decide)

/-- A trimmed text that is not idle is a command by itself. -/
theorem commandIn?_of_strip {s : List Char} (hs : Text.strip s = s) (hidle : isIdle s = false)
    (start : Nat) : commandIn? start s = some ⟨start, s⟩ := by
  have hne : s.isEmpty = false := by
    cases s with
    | nil => cases hidle
    | cons c s => rfl
  have hleft : Text.stripLeft s = s := Text.stripLeft_eq_self (Text.strip_eq_self_iff.1 hs).1
  simp [commandIn?, hs, hne, hidle, hleft]

/-- In a stretch that ends within a comment, a semicolon at the end goes to the command. -/
theorem commandIn?_semicolon {start : Nat} {u w : List Char} {c : CommandText} (hw : '\n' ∉ w)
    (hc : commandIn? start (u ++ '-' :: '-' :: w) = some c) :
    ∃ before e, u ++ '-' :: '-' :: w = before ++ (c.text ++ e) ∧
      c.offset = start + before.length ∧ (∀ d ∈ e, Text.isBlank d = true) ∧ '\n' ∉ e ∧
      commandIn? start (u ++ '-' :: '-' :: w ++ [';']) =
        some ⟨c.offset, c.text ++ (e ++ [';'])⟩ := by
  obtain ⟨before, e, hs, hoff, hbefore, he⟩ := exists_of_commandIn? hc
  have hsuffix : e <:+ u ++ '-' :: '-' :: w := by
    rw [hs]
    exact ⟨before ++ c.text, by rw [List.append_assoc]⟩
  have hidle : isIdle (c.text ++ (e ++ [';'])) = false := by
    have hsame : isIdle (u ++ '-' :: '-' :: w ++ [';']) = isIdle (u ++ '-' :: '-' :: w) := by
      rw [List.append_assoc, List.cons_append, List.cons_append,
        isIdle_append_dashes (by simp [hw]), isIdle_append_dashes hw]
    rw [hs, List.append_assoc, List.append_assoc, isIdle_append_of_blank hbefore, ← hs] at hsame
    rw [hsame, Bool.eq_false_iff, ← commandIn?_eq_none_iff.ne, hc]
    simp
  have hstrip : Text.strip (c.text ++ (e ++ [';'])) = c.text ++ (e ++ [';']) := by
    refine Text.strip_eq_self_iff.2 ⟨fun d hd => ?_, fun d hd => ?_⟩
    · obtain ⟨htext, halone⟩ := commandIn?_strip hc
      have hne : c.text ≠ [] := fun hnil => by rw [hnil] at halone; cases halone
      rw [List.head?_append_of_ne_nil _ hne, htext] at hd
      exact Text.strip_head hd
    · rw [← List.append_assoc, List.getLast?_concat] at hd
      cases hd
      decide
  refine ⟨before, e, hs, hoff, he, not_mem_of_blank_suffix hw he hsuffix, ?_⟩
  have hmargins := commandIn?_margins hbefore (e := []) (by simp) start (c.text ++ (e ++ [';']))
  rw [List.append_nil, commandIn?_of_strip hstrip hidle, ← hoff] at hmargins
  rw [hs, List.append_assoc, List.append_assoc]
  exact hmargins

/-! ## Scripts with a semicolon behind them -/

/-- A line feed behind the semicolon makes no difference, so that it may be taken for a join. -/
theorem split_semicolon (s : List Char) : split (s ++ [';']) = split (join s []) := by
  rw [← split_append_lineFeed (s ++ [';']), List.append_assoc]
  rfl

theorem split_semicolon_of_closed {s : List Char} (h : endsInComment s = false) :
    split (s ++ [';']) = split s := by
  have hnil : split [] = [] := by decide +kernel
  rw [split_semicolon, split_of_stretches (stretches_join h []), hnil, List.map_nil,
    List.append_nil]

/-- A semicolon behind a script changes none of its commands, or it ends up in a comment and goes
    to the last command, behind which there is nothing else but blanks. -/
theorem split_semicolon_cases (s : List Char) :
    (split (s ++ [';']) = split s ∧
      (endsInComment s = true → ∀ c ∈ split s, ∃ d ∈ s.drop c.stop, Text.isBlank d = false)) ∨
    (endsInComment s = true ∧ ∃ cmds c e, split s = cmds ++ [c] ∧
      split (s ++ [';']) = cmds ++ [⟨c.offset, c.text ++ (e ++ [';'])⟩] ∧
      s.drop c.offset = c.text ++ e ∧ (∀ d ∈ e, Text.isBlank d = true) ∧ '\n' ∉ e) := by
  cases hopen : endsInComment s with
  | false => exact .inl ⟨split_semicolon_of_closed hopen, fun h => by cases h⟩
  | true =>
    obtain ⟨init, last, before, hs, rfl, hlength⟩ := exists_last_stretch s
    obtain ⟨u, w, rfl, hw⟩ := exists_dashes_of_endsInComment hopen hs
    have hfeed : ∀ c ∈ ['\n'], Text.isBlank c = true := List.forall_mem_singleton.2 rfl
    have hlast : ∀ start, commandIn? start (u ++ '-' :: '-' :: w ++ [';', '\n']) =
        commandIn? start (u ++ '-' :: '-' :: w ++ [';']) := by
      intro start
      have hmargins := commandIn?_margins (b := []) (by simp) hfeed start
        (u ++ '-' :: '-' :: w ++ [';'])
      rwa [List.append_assoc] at hmargins
    have hsplit : split (before ++ (u ++ '-' :: '-' :: w)) = commandsFrom 0 init ++
        (commandIn? (extent init) (u ++ '-' :: '-' :: w)).toList := by
      rw [split, hs, commandsFrom_append, Nat.zero_add, commandsFrom, commandsFrom, List.append_nil]
    have hmore : split (before ++ (u ++ '-' :: '-' :: w) ++ [';']) = commandsFrom 0 init ++
        (commandIn? (extent init) (u ++ '-' :: '-' :: w ++ [';'])).toList := by
      rw [split_semicolon, split, stretches_join_of_comment hopen, hs, glue_concat, stretches_lineFeed,
        stretches_nil, commandsFrom_append, Nat.zero_add, ← hlast]
      simp only [extendFirst, commandsFrom, List.append_nil, List.singleton_append]
    cases hc : commandIn? (extent init) (u ++ '-' :: '-' :: w) with
    | none =>
      have hidle : isIdle (u ++ '-' :: '-' :: w ++ [';']) = true := by
        rw [List.append_assoc, List.cons_append, List.cons_append,
          isIdle_append_dashes (by simp [hw]), ← isIdle_append_dashes hw]
        exact commandIn?_eq_none_iff.1 hc
      refine .inl ⟨?_, fun _ c hm => ⟨'-', ?_, by decide⟩⟩
      · rw [hmore, hsplit, hc, commandIn?_eq_none_iff.2 hidle]
      · rw [hsplit, hc, Option.toList_none, List.append_nil] at hm
        have hstop := stop_lt_of_mem_commandsFrom hm
        rw [List.drop_append_of_le_length (by omega)]
        simp
    | some c =>
      obtain ⟨margin, e, heq, hoff, he, hline, hclosed⟩ := commandIn?_semicolon hw hc
      refine .inr ⟨rfl, commandsFrom 0 init, c, e, ?_, ?_, ?_, he, hline⟩
      · rw [hsplit, hc]
        rfl
      · rw [hmore, hclosed]
        rfl
      · rw [heq, hoff, ← hlength, ← List.length_append, ← List.append_assoc, List.drop_left]

/-- A semicolon behind a script makes it no longer and no shorter. -/
theorem length_split_semicolon (s : List Char) :
    (split (s ++ [';'])).length = (split s).length := by
  rcases split_semicolon_cases s with ⟨hsplit, -⟩ | ⟨-, cmds, c, e, hsplit, hmore, -⟩
  · rw [hsplit]
  · rw [hsplit, hmore, List.length_append, List.length_append, List.length_singleton,
      List.length_singleton]

/-! ## The scanner at the end of a text -/

theorem lexemes_lexeme {c : Char} {w rest : List Char} {token : Option (TokenKind × List Char)}
    (h : Lexical (c :: w) token rest) :
    lexemes (c :: (w ++ rest)) = ⟨c :: w, token⟩ :: lexemes rest := by
  rw [lexemes_cons_of_some h.at?_eq, List.take_left, List.drop_left]

/-- Before more of a text a lexeme stays what it is, whatever comes at the end of the text. -/
theorem Lexical.append {w r : List Char} {token : Option (TokenKind × List Char)}
    (h : Lexical w token r) (hr : r ≠ []) (t : List Char) : Lexical w token (r ++ t) := by
  have hhead : (r ++ t).head? = r.head? := List.head?_append_of_ne_nil r hr
  cases h with
  | gap hg => exact .gap hg
  | literal hq hb => exact .literal hq hb
  | numeral hd hw hr => exact .numeral hd hw (by rwa [hhead])
  | word hs hw hr => exact .word hs hw (by rwa [hhead])
  | comment hn hr => exact .comment hn (by rwa [hhead])
  | dash hr => exact .dash (by rwa [hhead])
  | mark hk => exact .mark hk

/-- What starts with a blank or a semicolon, so that it goes on with no token. -/
def Parts (t : List Char) : Prop :=
  ∀ d ∈ t.head?, Text.isBlank d = true ∨ d = ';'

theorem Parts.eq_false {t : List Char} (ht : Parts t) {p : Char → Bool}
    (hp : ∀ {c}, p c = true → Text.isBlank c = false) (hsemi : p ';' = false) {d : Char}
    (hd : t.head? = some d) : p d = false := by
  rcases ht d hd with hb | rfl
  · rw [Bool.eq_false_iff]
    intro h
    rw [hp h] at hb
    cases hb
  · exact hsemi

theorem isWordPart_not_isBlank {c : Char} (h : isWordPart c = true) : Text.isBlank c = false := by
  simp only [isWordPart, Char.isAlphanum, Bool.or_eq_true] at h
  rcases h with (h | h) | h
  · exact isWordStart_not_isBlank (by simp [isWordStart, h])
  · refine isDigit_not_isBlank ?_
    unfold Text.isDigit
    rw [Text.digitValue?_of_isDigit h]
    rfl
  · exact isWordStart_not_isBlank (by simp [isWordStart, h])

/-- At the end of a text a lexeme that is no comment stays what it is before a blank or a
    semicolon. -/
theorem Lexical.parted {w t : List Char} {token : Option (TokenKind × List Char)}
    (h : Lexical w token []) (hc : Lexeme.isComment ⟨w, token⟩ = false) (ht : Parts t) :
    Lexical w token t := by
  cases h with
  | gap hg => exact .gap hg
  | literal hq hb => exact .literal hq hb
  | numeral hd hw hr =>
    exact .numeral hd hw fun d => ht.eq_false isDigit_not_isBlank (by decide)
  | word hs hw hr =>
    exact .word hs hw fun d => ht.eq_false isWordPart_not_isBlank (by decide)
  | comment hn hr => cases hc
  | dash hr =>
    refine .dash fun hd => ?_
    rcases ht '-' hd with hb | hs
    · exact absurd hb (by decide)
    · exact absurd hs (by decide)
  | mark hk => exact .mark hk

theorem at?_append_eq_none {c : Char} {rest r : List Char} (hr : ∀ q ∈ r, isQuote q = false)
    (h : Piece.at? c rest = none) : Piece.at? c (rest ++ r) = none := by
  unfold Piece.at? at h ⊢
  split at h
  next => cases h
  next hg =>
    rw [if_neg hg]
    split at h
    next hq =>
      rw [if_pos hq]
      have hrest : c ∉ rest := by
        intro hm
        obtain ⟨body, after, rfl, hbody⟩ := List.eq_append_cons_of_mem hm
        simp only [Text.takeWhile_ne_append hbody] at h
        rw [if_pos (by simp)] at h
        cases h
      have hmore : c ∉ rest ++ r := by
        intro hm
        rcases List.mem_append.1 hm with hm | hm
        · exact hrest hm
        · rw [hr c hm] at hq
          cases hq
      simp only [Text.takeWhile_ne_self hmore, Nat.lt_irrefl, if_false]
    next hq =>
      rw [if_neg hq]
      split at h
      next => cases h
      next hd =>
        rw [if_neg hd]
        split at h
        next => cases h
        next hs =>
          rw [if_neg hs]
          split at h
          next => split at h <;> cases h
          next hdash => rwa [if_neg hdash]

/-- A comment is two dashes and the rest of their line. -/
theorem Lexical.exists_of_isComment {w rest : List Char} {token : Option (TokenKind × List Char)}
    (h : Lexical w token rest) (hc : Lexeme.isComment ⟨w, token⟩ = true) :
    ∃ v, w = '-' :: '-' :: v ∧ token = none ∧ '\n' ∉ v ∧ ∀ d, rest.head? = some d → d = '\n' := by
  simp only [Lexeme.isComment, Bool.and_eq_true, Option.isNone_iff_eq_none,
    decide_eq_true_eq] at hc
  obtain ⟨hnone, hhead⟩ := hc
  cases h with
  | gap hg =>
    cases hhead
    cases hg
  | comment hn hr => exact ⟨_, rfl, rfl, hn, hr⟩
  | _ => cases hnone

/-- A scanner that has come to an illegal character does not care for what is behind the text, if
    that has no quotes. -/
theorem scanFrom_append_of_illegal {s r : List Char} (hr : ∀ q ∈ r, isQuote q = false)
    {position line : Nat} {i : Illegal} (h : (scanFrom position line s).illegal = some i) :
    scanFrom position line (s ++ r) = scanFrom position line s := by
  induction s using lexemes_induction generalizing position line with
  | nil => simp at h
  | illegal c rest hnone =>
    rw [List.cons_append, scanFrom_cons_of_none (at?_append_eq_none hr hnone),
      scanFrom_cons_of_none hnone]
  | lexeme c w token rest hlex ih =>
    rw [scanFrom_lexeme hlex, Scan.illegal_cons] at h
    have hne : rest ≠ [] := by
      rintro rfl
      rw [scanFrom_nil] at h
      cases h
    rw [List.cons_append, List.append_assoc, scanFrom_lexeme (hlex.append hne r),
      scanFrom_lexeme hlex, ih h]

/-- A scanner that ends within a comment goes on in it up to the end of the line. -/
theorem scanFrom_append_of_comment {s r : List Char} (hr : '\n' ∉ r)
    (h : ¬ CommentsEnd (lexemes s)) (position line : Nat) :
    scanFrom position line (s ++ r) = scanFrom position line s := by
  induction s using lexemes_induction generalizing position line with
  | nil => exact absurd trivial (by rwa [lexemes_nil] at h)
  | illegal c rest hnone =>
    rw [lexemes, hnone] at h
    exact absurd trivial h
  | lexeme c w token rest hlex ih =>
    rw [lexemes_lexeme hlex] at h
    by_cases hne : rest = []
    · subst hne
      have hcomment : Lexeme.isComment ⟨c :: w, token⟩ = true := by
        by_contra hno
        refine h ⟨fun hyes => absurd hyes hno, ?_⟩
        rw [lexemes_nil]
        trivial
      obtain ⟨v, hv, rfl, hline, -⟩ := hlex.exists_of_isComment hcomment
      obtain ⟨rfl, rfl⟩ := List.cons.inj hv
      have hlong : Lexical ('-' :: '-' :: (v ++ r)) none [] :=
        .comment (by simp [hline, hr]) (by simp)
      have hscan := scanFrom_lexeme hlong position line
      rw [scanFrom_lexeme hlex, scanFrom_nil]
      simpa [scanFrom_nil] using hscan
    · have hrest : ¬ CommentsEnd (lexemes rest) := by
        intro hends
        refine h ⟨fun hcomment => ?_, hends⟩
        obtain ⟨v, -, -, -, hfeed⟩ := hlex.exists_of_isComment hcomment
        obtain ⟨d, rest, rfl⟩ := List.exists_cons_of_ne_nil hne
        obtain rfl := hfeed d rfl
        have hgap : Lexical ['\n'] none rest := .gap (by decide)
        have hfirst := lexemes_lexeme hgap
        rw [List.nil_append] at hfirst
        rw [hfirst]
        exact List.mem_cons_self ..
      rw [List.cons_append, List.append_assoc, scanFrom_lexeme (hlex.append hne r),
        scanFrom_lexeme hlex, ih hrest]

/-- Behind a text whose last token is ended by a blank or a semicolon the scanner starts anew. -/
theorem scanFrom_append_of_parts {s t : List Char} (ht : Parts t)
    {position line : Nat} (h : (scanFrom position line s).illegal = none)
    (hc : CommentsEnd (lexemes s)) :
    ∃ position' line', (scanFrom position line (s ++ t)) =
      ⟨(scanFrom position line s).tokens ++ (scanFrom position' line' t).tokens,
        (scanFrom position' line' t).illegal⟩ := by
  induction s using lexemes_induction generalizing position line with
  | nil => exact ⟨position, line, by simp⟩
  | illegal c rest hnone =>
    rw [scanFrom_cons_of_none hnone] at h
    cases h
  | lexeme c w token rest hlex ih =>
    rw [lexemes_lexeme hlex] at hc
    rw [scanFrom_lexeme hlex, Scan.illegal_cons] at h
    obtain ⟨position', line', hscan⟩ := ih h hc.2
    refine ⟨position', line', ?_⟩
    have hmore : Lexical (c :: w) token (rest ++ t) := by
      by_cases hne : rest = []
      · subst hne
        refine hlex.parted (Bool.eq_false_iff.2 fun hcomment => ?_) ht
        have hfeed := hc.1 hcomment
        rw [lexemes_nil] at hfeed
        cases hfeed
      · exact hlex.append hne t
    rw [List.cons_append, List.append_assoc, scanFrom_lexeme hmore, scanFrom_lexeme hlex, hscan]
    cases token <;> rfl

/-- The first of blanks and a semicolon that is no gap is illegal. -/
theorem exists_illegal_of_blank {e : List Char} (he : ∀ d ∈ e, Text.isBlank d = true)
    (position line : Nat) : ∃ i, scanFrom position line (e ++ [';']) = ⟨[], some i⟩ := by
  induction e generalizing position line with
  | nil => exact ⟨⟨';', position⟩, scanFrom_cons_of_none (by decide) position line⟩
  | cons d e ih =>
    rw [List.forall_mem_cons] at he
    by_cases hg : isGap d = true
    · have hgap : Lexical [d] none (e ++ [';']) := .gap hg
      obtain ⟨i, hi⟩ := ih he.2 (position + 1) (line + [d].count '\n')
      have hscan := scanFrom_lexeme hgap position line
      exact ⟨i, hscan.trans hi⟩
    · refine ⟨⟨d, position⟩, scanFrom_cons_of_none ?_ position line⟩
      have hno : ∀ {p : Char → Bool}, (∀ {c}, p c = true → Text.isBlank c = false) →
          p d = false := by
        intro p hp
        rw [Bool.eq_false_iff]
        intro h
        rw [hp h] at he
        cases he.1
      have hdash : d ≠ '-' := by
        rintro rfl
        cases he.1
      have hmark : markKind? d = none := by
        cases hk : markKind? d with
        | none => rfl
        | some kind =>
          rw [mark_not_isBlank hk] at he
          cases he.1
      simp [Piece.at?, hg, hno isQuote_not_isBlank, hno isDigit_not_isBlank,
        hno isWordStart_not_isBlank, hdash, hmark]

end Storyboard.Script
