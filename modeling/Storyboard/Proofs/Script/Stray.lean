-- SUMMARY: When a quote that is open at the end of a command takes the next command in, and when it spoils no more than its own.
import Storyboard.Proofs.Except
import Storyboard.Proofs.Script.Joining
import Storyboard.Proofs.Script.Span

/-!
# Stray quotes

The splitter takes a quote for the opening one of a literal if the next quote of its
kind on the line stands where a literal may end. So a quote that has no partner in its
own command (`openQuotes`) may find one in the command behind it (`Closes`), and then
it takes the semicolon between the two in. The splitter goes through a text on one line
as if nothing stood behind it, or up to such a partner (`stretches_append_cases`).
Hence a well-formed command behind a broken one is split off if and only if it closes
none of the quotes that are open (`getLast?_split_iff`).
-/

namespace Storyboard

namespace Text

/-- Trimming on the left stops at the first character that is not blank. -/
theorem length_le_stripLeft {u v : List Char} {d : Char} (hd : isBlank d = false) :
    (d :: v).length ≤ (stripLeft (u ++ d :: v)).length := by
  unfold stripLeft
  rw [List.dropWhile_append]
  split
  next => rw [List.dropWhile_cons_of_neg (by simp [hd])]
  next => simp

end Text

namespace Script

/-! ## Open quotes -/

/-- The quotes of a text that the splitter comes to and that have none of their kind behind them. -/
def openQuotes : List Char → List Char
  | [] => []
  | c :: rest =>
    if isQuote c && !rest.contains c then c :: openQuotes rest
    else openQuotes (rest.drop (unitExtra c rest))
termination_by s => s.length
decreasing_by
  all_goals simp only [List.length_drop, List.length_cons]
  all_goals omega

/-- The first quote of the kind stands on the first line of the text, where a literal may end. -/
def Closes (q : Char) (t : List Char) : Prop :=
  ∃ body after, t = body ++ q :: after ∧ q ∉ body ∧ '\n' ∉ body ∧ endsLiteral after = true

theorem mem_of_mem_openQuotes {s : List Char} {q : Char} (h : q ∈ openQuotes s) :
    isQuote q = true ∧ q ∈ s := by
  fun_induction openQuotes s with
  | case1 => cases h
  | case2 c rest hopen ih =>
    simp only [Bool.and_eq_true] at hopen
    rcases List.mem_cons.1 h with rfl | h
    · exact ⟨hopen.1, List.mem_cons_self ..⟩
    · exact ⟨(ih h).1, List.mem_cons_of_mem c (ih h).2⟩
  | case3 c rest hopen ih =>
    exact ⟨(ih h).1, List.mem_cons_of_mem c (List.mem_of_mem_drop (ih h).2)⟩

theorem closes_append {q : Char} {w : List Char} (hq : q ∉ w) (hn : '\n' ∉ w) (t : List Char) :
    Closes q (w ++ t) ↔ Closes q t := by
  constructor
  · rintro ⟨body, after, ht, hbody, hline, hends⟩
    rcases List.append_eq_append_iff.1 ht with ⟨body', rfl, rfl⟩ | ⟨w', rfl, hw'⟩
    · exact ⟨body', after, rfl, fun h => hbody (List.mem_append_right w h),
        fun h => hline (List.mem_append_right w h), hends⟩
    · cases w' with
      | nil => exact ⟨[], after, hw'.symm, by simp, by simp, hends⟩
      | cons d w' =>
        obtain ⟨rfl, -⟩ := List.cons.inj hw'
        exact absurd (List.mem_append_right body (List.mem_cons_self ..)) hq
  · rintro ⟨body, after, rfl, hbody, hline, hends⟩
    exact ⟨w ++ body, after, by simp, by simp [hq, hbody], by simp [hn, hline], hends⟩

/-- A quote opens a literal if and only if the text behind it closes it. -/
theorem literalLength?_eq_none {q : Char} {t : List Char} :
    literalLength? q t = none ↔ ¬ Closes q t := by
  constructor
  · rintro h ⟨body, after, rfl, hbody, hline, hends⟩
    rw [literalLength?_span hbody, if_pos ⟨hline, hends⟩] at h
    cases h
  · intro h
    by_cases hm : q ∈ t
    · obtain ⟨body, after, rfl, hbody⟩ := List.eq_append_cons_of_mem hm
      rw [literalLength?_span hbody, if_neg]
      rintro ⟨hline, hends⟩
      exact h ⟨body, after, rfl, hbody, hline, hends⟩
    · exact literalLength?_unclosed hm

/-! ## Going through one line -/

/-- A text on one line, without semicolons and comments. -/
structure Solitary (a : List Char) : Prop where
  semicolon : ';' ∉ a
  lineFeed : '\n' ∉ a
  comment : ¬ ['-', '-'] <:+: a

theorem Solitary.of_suffix {a b : List Char} (h : Solitary a) (hs : b <:+ a) : Solitary b where
  semicolon hm := h.semicolon (hs.subset hm)
  lineFeed hm := h.lineFeed (hs.subset hm)
  comment hi := h.comment (hi.trans hs.isInfix)

/-- What stands behind a text on one line does not change its units, unless it closes a quote. -/
theorem unitExtra_solitary {c : Char} {rest t : List Char} (h : Solitary (c :: rest)) (ht : Ends t)
    (hc : isQuote c = true → c ∉ rest → ¬ Closes c t) :
    unitExtra c (rest ++ t) = unitExtra c rest := by
  by_cases hq : isQuote c = true
  · rw [unitExtra_quote hq, unitExtra_quote hq]
    by_cases hm : c ∈ rest
    · obtain ⟨body, after, rfl, hbody⟩ := List.eq_append_cons_of_mem hm
      have hafter : endsLiteral (after ++ t) = endsLiteral after := by
        cases after with
        | nil => exact ht.endsLiteral
        | cons d after => rfl
      rw [List.append_assoc, List.cons_append, literalLength?_span hbody, literalLength?_span hbody,
        hafter]
    · have hline : '\n' ∉ rest := fun hn => h.lineFeed (List.mem_cons_of_mem c hn)
      have hopen : literalLength? c (rest ++ t) = none := by
        rw [literalLength?_eq_none, closes_append hm hline]
        exact hc hq hm
      rw [hopen, literalLength?_unclosed hm]
  · have hq : isQuote c = false := Bool.eq_false_iff.2 hq
    have hhead : c = '-' → (rest ++ t).head? ≠ some '-' := by
      rintro rfl
      cases rest with
      | nil => exact ht.head?_ne
      | cons d w =>
        rintro hd
        cases hd
        exact h.comment ⟨[], w, rfl⟩
    rw [unitExtra_eq_zero hq hhead, unitExtra_eq_zero hq]
    intro hdash hd
    refine hhead hdash ?_
    rw [List.head?_append, hd]
    rfl

/-- The splitter goes through a text on one line without a cut, and on behind it; or with an open
    quote of the text up to the quote that closes it. -/
theorem stretches_append_cases {a t : List Char} (ha : Solitary a) (ht : Ends t) :
    ((∀ q ∈ openQuotes a, ¬ Closes q t) ∧ stretches (a ++ t) = extendFirst a (stretches t)) ∨
    ∃ q ∈ openQuotes a, Closes q t ∧ ∃ body after, t = body ++ q :: after ∧
      stretches (a ++ t) = extendFirst (a ++ (body ++ [q])) (stretches after) := by
  fun_induction openQuotes a with
  | case1 => exact .inl ⟨by simp, (extendFirst_nil (stretches_ne_nil t)).symm⟩
  | case2 c rest hopen ih =>
    simp only [Bool.and_eq_true, Bool.not_eq_true', List.contains_eq_mem, decide_eq_false_iff_not]
      at hopen
    obtain ⟨hq, hm⟩ := hopen
    have hc : c ≠ ';' := ne_semicolon_of_isQuote hq
    have hrest : Solitary rest := ha.of_suffix (List.suffix_cons c rest)
    by_cases hclose : Closes c t
    · obtain ⟨body, after, rfl, hbody, hline, hends⟩ := hclose
      refine .inr ⟨c, List.mem_cons_self .., ⟨body, after, rfl, hbody, hline, hends⟩, body, after,
        rfl, ?_⟩
      have hlength : unitExtra c (rest ++ body ++ [c] ++ after) = (rest ++ body ++ [c]).length := by
        rw [unitExtra_quote hq, List.append_assoc, List.singleton_append,
          literalLength?_span (by simp [hm, hbody]), if_pos ⟨by simp [hrest.lineFeed, hline], hends⟩]
        simp [Nat.add_assoc]
      have hstep := stretches_append_of_unit hc hlength
      simpa using hstep
    · have hunit : unitExtra c rest = 0 := by
        rw [unitExtra_quote hq, literalLength?_unclosed hm]
        rfl
      have hstep := stretches_cons_append hc (unitExtra_solitary ha ht fun _ _ => hclose)
      rw [hunit, List.take_zero, List.drop_zero] at hstep
      rcases ih hrest with ⟨hnone, hs⟩ | ⟨q, hqm, hcloses, body, after, rfl, hs⟩
      · refine .inl ⟨by simpa [hclose] using hnone, ?_⟩
        rw [List.cons_append, hstep, hs, extendFirst_extendFirst]
        rfl
      · refine .inr ⟨q, List.mem_cons_of_mem c hqm, hcloses, body, after, rfl, ?_⟩
        rw [List.cons_append, hstep, hs, extendFirst_extendFirst]
        rfl
  | case3 c rest hopen ih =>
    have hc : c ≠ ';' := fun h => ha.semicolon (h ▸ List.mem_cons_self ..)
    have hrest : Solitary (rest.drop (unitExtra c rest)) :=
      ha.of_suffix ((List.drop_suffix _ rest).trans (List.suffix_cons c rest))
    have hstep := stretches_cons_append hc <| unitExtra_solitary ha ht fun hq hm =>
      absurd (by simp [hq, hm]) hopen
    have hwhole : ∀ w : List Char,
        c :: rest.take (unitExtra c rest) ++ (rest.drop (unitExtra c rest) ++ w) = c :: (rest ++ w) := by
      intro w
      rw [List.cons_append, ← List.append_assoc, List.take_append_drop]
    rcases ih hrest with ⟨hnone, hs⟩ | ⟨q, hqm, hcloses, body, after, rfl, hs⟩
    · refine .inl ⟨hnone, ?_⟩
      have hself := hwhole []
      rw [List.append_nil, List.append_nil] at hself
      rw [List.cons_append, hstep, hs, extendFirst_extendFirst, hself]
    · refine .inr ⟨q, hqm, hcloses, body, after, rfl, ?_⟩
      rw [List.cons_append, hstep, hs, extendFirst_extendFirst, hwhole]
      rfl

/-! ## The command behind -/

/-- A text that is parsed is cut into tokens, at least one. -/
theorem legal_of_parse {text : List Char} {c : Command} (h : parse text = .ok c) :
    (scan text).illegal = none ∧ (scan text).tokens ≠ [] := by
  obtain ⟨s, hrun, hfinish⟩ := bind_eq_ok h
  cases hi : (scan text).illegal with
  | some i =>
    rw [hi] at hfinish
    cases hfinish
  | none =>
    refine ⟨rfl, fun hnil => ?_⟩
    rw [hi] at hfinish
    rw [hnil] at hrun
    cases hrun
    cases hfinish

theorem commentsEnd_of_forall {ls : List Lexeme} (h : ∀ l ∈ ls, l.isComment = false) :
    CommentsEnd ls := by
  induction ls with
  | nil => trivial
  | cons l ls ih =>
    refine ⟨fun hl => ?_, ih fun k hk => h k (List.mem_cons_of_mem l hk)⟩
    rw [h l (List.mem_cons_self ..)] at hl
    cases hl

/-- A command starts no later than the first character in its stretch that is not blank. -/
theorem offset_le_of_commandIn? {start : Nat} {u v : List Char} {d : Char} {c : CommandText}
    (h : commandIn? start (u ++ d :: v) = some c) (hd : Text.isBlank d = false) :
    c.offset ≤ start + u.length := by
  unfold commandIn? at h
  simp only at h
  split at h
  next => cases h
  next =>
    cases h
    have hle := Text.length_le_stripLeft (u := u) (v := v) hd
    simp only [List.length_append, List.length_cons] at hle ⊢
    omega

/-- No command starts within the first stretch behind a character that is not blank. -/
theorem offset_of_mem_split {script u w : List Char} {d : Char} {l : List (List Char)}
    (hs : stretches script = extendFirst (u ++ d :: w) l) (hl : l ≠ [])
    (hd : Text.isBlank d = false) {c : CommandText} (hc : c ∈ split script) :
    c.offset ≤ u.length ∨ u.length + w.length + 1 < c.offset := by
  cases l with
  | nil => exact absurd rfl hl
  | cons first more =>
    rw [split, hs, extendFirst, commandsFrom] at hc
    rcases List.mem_append.1 hc with hc | hc
    · have hfirst := Option.mem_toList.1 hc
      rw [List.append_assoc, List.cons_append] at hfirst
      have hle := offset_le_of_commandIn? hfirst hd
      exact .inl (by omega)
    · have hle := le_offset_of_mem_commandsFrom hc
      simp only [List.length_append, List.length_cons] at hle
      exact .inr (by omega)

/-- Behind a text on one line and a semicolon, a whole command is the last one of the script if no
    quote of the text takes the semicolon in. -/
theorem getLast?_split_of_stretches {a b : List Char} (hb : Standing b)
    (hs : stretches (a ++ ';' :: ' ' :: b) = extendFirst a (stretches (';' :: ' ' :: b))) :
    (split (a ++ ';' :: ' ' :: b)).getLast? = some ⟨a.length + 2, b⟩ := by
  have hfits : Inset.Fits ⟨[' '], b, []⟩ := ⟨by simp [isGap], by simp, hb⟩
  have hbehind : stretches (' ' :: b) = [' ' :: b] := by
    have hchars := hfits.stretches_append (t := []) (by simp [Ends])
    simpa [Inset.chars, extendFirst] using hchars
  have hcommand := hfits.commandIn? (a.length + 1)
  simp only [Inset.chars, List.append_nil, List.singleton_append] at hcommand
  rw [stretches_semicolon, hbehind] at hs
  simp [split, hs, extendFirst, commandsFrom, hcommand]

/-- A well-formed command behind a text on one line is split off as the last one of the script if
    and only if it closes none of the quotes that the text leaves open. -/
theorem getLast?_split_iff {a b : List Char} {c : Command} (ha : Solitary a)
    (hb : parse b = .ok c) (htrim : Text.strip b = b)
    (hcomment : ∀ l ∈ lexemes b, l.isComment = false) (hliteral : LiteralsEnd (lexemes b)) :
    (split (a ++ ';' :: ' ' :: b)).getLast? = some ⟨a.length + 2, b⟩ ↔
      ∀ q ∈ openQuotes a, ¬ Closes q b := by
  obtain ⟨hlegal, htokens⟩ := legal_of_parse hb
  have hstanding : Standing b :=
    ⟨hlegal, htokens, htrim, commentsEnd_of_forall hcomment, hliteral⟩
  have hbehind : ∀ q ∈ openQuotes a, (Closes q (';' :: ' ' :: b) ↔ Closes q b) := by
    intro q hq
    have hquote := mem_of_isQuote (mem_of_mem_openQuotes hq).1
    refine closes_append (w := [';', ' ']) ?_ (by decide) b
    simp only [List.mem_cons, List.not_mem_nil, or_false] at hquote
    rcases hquote with rfl | rfl <;> decide
  have hends : Ends (';' :: ' ' :: b) := by simp [Ends]
  rcases stretches_append_cases ha hends with ⟨hnone, hs⟩ | ⟨q, hq, hcloses, body, after, ht, hs⟩
  · refine iff_of_true (getLast?_split_of_stretches hstanding hs) ?_
    intro q hq
    exact fun hb => hnone q hq ((hbehind q hq).2 hb)
  · refine iff_of_false ?_ fun hnone => hnone q hq ((hbehind q hq).1 hcloses)
    intro hlast
    -- the stretch with the open quote goes on behind the place where the command is
    obtain ⟨hquote, hmem⟩ := mem_of_mem_openQuotes hq
    obtain ⟨u, v, rfl⟩ := List.append_of_mem hmem
    rw [List.append_assoc u (q :: v) (body ++ [q]), List.cons_append] at hs
    have hoffset := offset_of_mem_split hs (stretches_ne_nil after) (isQuote_not_isBlank hquote)
      (List.mem_of_getLast? hlast)
    have hbody : body ≠ [] := by
      rintro rfl
      obtain ⟨rfl, -⟩ := List.cons.inj ht
      cases hquote
    have hpos := List.length_pos_iff.2 hbody
    simp only [List.length_append, List.length_cons, List.length_nil] at hoffset
    omega

/-- A command with one quote too many. -/
def misquoted : List Char :=
  "highlight in table users' row 1".toList

/-- A command whose first quote stands before a letter. -/
def quoted : List Char :=
  "highlight in table 'users' row 2".toList

/-- A command whose first single quote stands before a dash. -/
def dashed : List Char :=
  "add in table \"users\" row [\x7b'-'\x7d]".toList

theorem solitary_misquoted : Solitary misquoted :=
  ⟨by decide +kernel, by decide +kernel, by decide +kernel⟩

theorem getLast?_split_iff_quoted :
    Solitary misquoted ∧ parse quoted = .ok ⟨"users", .highlightRows [2]⟩ ∧
      Text.strip quoted = quoted ∧ (∀ l ∈ lexemes quoted, l.isComment = false) ∧
      LiteralsEnd (lexemes quoted) ∧
      (split (misquoted ++ ';' :: ' ' :: quoted)).getLast? = some ⟨misquoted.length + 2, quoted⟩ := by
  have hparse : parse quoted = .ok ⟨"users", .highlightRows [2]⟩ := by decide +kernel
  have htrim : Text.strip quoted = quoted := by decide +kernel
  have hcomment : ∀ l ∈ lexemes quoted, l.isComment = false := by decide +kernel
  have hliteral : LiteralsEnd (lexemes quoted) := by decide +kernel
  refine ⟨solitary_misquoted, hparse, htrim, hcomment, hliteral, ?_⟩
  refine (getLast?_split_iff solitary_misquoted hparse htrim hcomment hliteral).2 ?_
  intro q hq
  have hopen : openQuotes misquoted = ['\''] := by decide +kernel
  rw [hopen, List.mem_singleton] at hq
  rw [hq, ← literalLength?_eq_none]
  decide +kernel

/-- Before a dash the open quote takes a quote of the next command for its partner. -/
theorem getLast?_split_dashed :
    Solitary misquoted ∧
      parse dashed = .ok ⟨"users", .addRow [⟨"-", none⟩]⟩ ∧
      Text.strip dashed = dashed ∧ (∀ l ∈ lexemes dashed, l.isComment = false) ∧
      LiteralsEnd (lexemes dashed) ∧
      (split (misquoted ++ ';' :: ' ' :: dashed)).getLast? ≠
        some ⟨misquoted.length + 2, dashed⟩ := by
  refine ⟨solitary_misquoted, ?_⟩
  decide +kernel

end Script

end Storyboard
