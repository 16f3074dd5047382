-- SUMMARY: The lexical rules of commands, said apart from the scanner, and that the scanner follows them.
import Storyboard.Proofs.Text.Cut
import Storyboard.Script.Token

/-!
# Lexemes

A text is cut into lexemes, pieces that are a token or that carry no meaning. What a
lexeme may look like, and what may stand behind it, is said by `Lexical`; the scanner
finds at a place what the rules have there and nothing else (`Lexical.of_at?`,
`Lexical.at?_eq`). If it finds no illegal character, the lexemes of a text make up the
whole of it, each by the rules (`cuts_lexemes`), and its tokens are those of the lexemes
(`tokens_scanFrom`).
-/

namespace Storyboard.Script

/-! ## Classes of characters -/

theorem mem_of_isGap {c : Char} (h : isGap c = true) : c ∈ [' ', '\t', '\r', '\n'] := by
  simpa [isGap, or_assoc] using h

theorem mem_of_isQuote {c : Char} (h : isQuote c = true) : c ∈ ['\'', '"'] := by
  simpa [isQuote] using h

/-- A class of characters without those that another class has at most. -/
theorem eq_false_of_class {p q : Char → Bool} {l : List Char} (hq : ∀ {c}, q c = true → c ∈ l)
    (hl : l.any p = false) {c : Char} (hc : p c = true) : q c = false := by
  rw [Bool.eq_false_iff]
  intro h
  exact List.any_eq_false.1 hl c (hq h) hc

theorem mem_marks {c : Char} {kind : TokenKind} (h : markKind? c = some kind) :
    c ∈ [',', '[', ']', '{', '}'] := by
  simp only [List.mem_cons, List.not_mem_nil, or_false]
  grind [markKind?]

/-- Words start with a letter or an underscore of ASCII. -/
theorem toNat_of_isWordStart {c : Char} (h : isWordStart c = true) :
    0x41 ≤ c.toNat ∧ c.toNat ≤ 0x7A := by
  change (decide (c.val ≥ 'A'.val ∧ c.val ≤ 'Z'.val) || (c.val ≥ 'a'.val && c.val ≤ 'z'.val)
    || decide (c = '_')) = true at h
  simp only [Bool.or_eq_true, Bool.and_eq_true, decide_eq_true_eq, ge_iff_le,
    UInt32.le_iff_toNat_le] at h
  rcases h with (⟨h1, h2⟩ | ⟨h1, h2⟩) | rfl
  · exact ⟨h1, h2.trans (by decide)⟩
  · exact ⟨Nat.le_trans (by decide) h1, h2⟩
  · decide

theorem isDigit_of_isWordStart {c : Char} (h : isWordStart c = true) : Text.isDigit c = false := by
  obtain ⟨h1, h2⟩ := toNat_of_isWordStart h
  have hzeros : ∀ z ∈ Text.digitZeros, z + 10 ≤ 0x41 ∨ 0x7B ≤ z := by decide
  simp only [Text.isDigit, Text.digitValue?, Option.isSome_map, Option.isSome_eq_false_iff,
    Option.isNone_iff_eq_none, List.find?_eq_none, Bool.and_eq_true, decide_eq_true_eq, not_and,
    not_lt]
  intro z hz hle
  have := hzeros z hz
  omega

/-! ## Lexical rules -/

/-- `Lexical chars token rest`: where `rest` stands behind them, `chars` are one lexeme, which is
    the token if there is one. -/
inductive Lexical : List Char → Option (TokenKind × List Char) → List Char → Prop where
  | gap {c : Char} {rest : List Char} : isGap c = true → Lexical [c] none rest
  | literal {q : Char} {body rest : List Char} : isQuote q = true → q ∉ body →
      Lexical (q :: (body ++ [q])) (some (.string, body)) rest
  | numeral {c : Char} {w rest : List Char} : Text.isDigit c = true →
      (∀ d ∈ w, Text.isDigit d = true) → (∀ d, rest.head? = some d → Text.isDigit d = false) →
      Lexical (c :: w) (some (.integer, c :: w)) rest
  | word {c : Char} {w rest : List Char} : isWordStart c = true → (∀ d ∈ w, isWordPart d = true) →
      (∀ d, rest.head? = some d → isWordPart d = false) →
      Lexical (c :: w) (some (wordKind (c :: w), c :: w)) rest
  | comment {w rest : List Char} : '\n' ∉ w → (∀ d, rest.head? = some d → d = '\n') →
      Lexical ('-' :: '-' :: w) none rest
  | dash {rest : List Char} : rest.head? ≠ some '-' →
      Lexical ['-'] (some (.dash, ['-'])) rest
  | mark {c : Char} {kind : TokenKind} {rest : List Char} : markKind? c = some kind →
      Lexical [c] (some (kind, [c])) rest

/-- What the scanner finds at a place follows the lexical rules. -/
theorem Lexical.of_at? {c : Char} {rest : List Char} {p : Piece} (h : Piece.at? c rest = some p) :
    Lexical (c :: rest.take p.extra) p.token (rest.drop p.extra) := by
  unfold Piece.at? at h
  split at h
  next hg =>
    cases h
    exact .gap hg
  split at h
  next hq =>
    obtain ⟨w, r, rfl, hw, hin, hr⟩ := Text.exists_span (· ≠ c) rest
    simp only [hw] at h
    split at h
    next hlt =>
      cases h
      cases r with
      | nil => simp at hlt
      | cons d r =>
        have hd : d = c := by simpa using hr d rfl
        subst hd
        have hbody : d ∉ w := fun hm => by simpa using hin d hm
        have htake : (w ++ d :: r).take (w.length + 1) = w ++ [d] := by
          rw [List.append_cons, List.take_left' (by simp)]
        simp only [htake]
        exact .literal hq hbody
    next => cases h
  split at h
  next hd =>
    obtain ⟨w, r, rfl, hw, hin, hr⟩ := Text.exists_span Text.isDigit rest
    simp only [hw] at h
    cases h
    simp only [List.take_left, List.drop_left]
    exact .numeral hd hin hr
  split at h
  next hs =>
    obtain ⟨w, r, rfl, hw, hin, hr⟩ := Text.exists_span isWordPart rest
    simp only [hw] at h
    cases h
    simp only [List.take_left, List.drop_left]
    exact .word hs hin hr
  split at h
  next hc =>
    subst hc
    split at h
    next hh =>
      obtain ⟨w, r, rfl, hw, hin, hr⟩ := Text.exists_span (· ≠ '\n') rest
      simp only [hw] at h
      cases h
      simp only [List.take_left, List.drop_left]
      cases w with
      | nil =>
        have := hr '-' hh
        simp at this
      | cons d w =>
        cases hh
        refine .comment (fun hm => ?_) fun d hd => by simpa using hr d hd
        simpa using hin '\n' (List.mem_cons_of_mem _ hm)
    next hh =>
      cases h
      exact .dash hh
  next =>
    obtain ⟨kind, hk, rfl⟩ := Option.map_eq_some_iff.1 h
    exact .mark hk

/-- Where a lexeme stands, the scanner finds it. -/
theorem Lexical.at?_eq {c : Char} {w rest : List Char} {token : Option (TokenKind × List Char)}
    (h : Lexical (c :: w) token rest) : Piece.at? c (w ++ rest) = some ⟨w.length, token⟩ := by
  cases h with
  | gap hg => simp [Piece.at?, hg]
  | @literal _ body _ hq hb =>
    have hg : isGap c = false := eq_false_of_class mem_of_isGap (by decide) hq
    have hbody : (body ++ [c] ++ rest).takeWhile (· ≠ c) = body := by
      rw [List.append_assoc]
      exact Text.takeWhile_ne_append hb rest
    simp only [Piece.at?, hg, hq, hbody]
    simp
  | numeral hd hw hr =>
    have hg : isGap c = false := eq_false_of_class mem_of_isGap (by decide) hd
    have hq : isQuote c = false := eq_false_of_class mem_of_isQuote (by decide) hd
    simp [Piece.at?, hg, hq, hd, Text.takeWhile_span hw hr]
  | word hs hw hr =>
    have hg : isGap c = false := eq_false_of_class mem_of_isGap (by decide) hs
    have hq : isQuote c = false := eq_false_of_class mem_of_isQuote (by decide) hs
    simp [Piece.at?, hg, hq, isDigit_of_isWordStart hs, hs, Text.takeWhile_span hw hr]
  | @comment w _ hn hr =>
    have hline : ('-' :: w ++ rest).takeWhile (· ≠ '\n') = '-' :: w := by
      refine Text.takeWhile_span ?_ ?_
      · intro d hd
        have hne : d ≠ '\n' := by
          rintro rfl
          simp [hn] at hd
        simpa using hne
      · intro d hd
        simp [hr d hd]
    have hd : Text.isDigit '-' = false := by decide
    simp only [Piece.at?, hline]
    simp [isGap, isQuote, hd, isWordStart]
  | dash hr =>
    have hd : Text.isDigit '-' = false := by decide
    simp [Piece.at?, isGap, isQuote, hd, isWordStart, hr]
  | @mark _ kind _ hk =>
    have hmarks : [',', '[', ']', '{', '}'].all (fun d => !isGap d && !isQuote d &&
        !Text.isDigit d && !isWordStart d && d != '-') = true := by decide
    have hmark := List.all_eq_true.1 hmarks c (mem_marks hk)
    simp only [Bool.and_eq_true, Bool.not_eq_true', bne_iff_ne] at hmark
    obtain ⟨⟨⟨⟨hg, hq⟩, hd⟩, hs⟩, hne⟩ := hmark
    simp [Piece.at?, hg, hq, hd, hs, hne, hk]

/-- What may stand before more of a text may stand at its end. -/
theorem Lexical.of_append {w r tail : List Char} {token : Option (TokenKind × List Char)}
    (h : Lexical w token (r ++ tail)) : Lexical w token r := by
  have hhead : ∀ d, r.head? = some d → (r ++ tail).head? = some d := by
    intro d hd
    rw [List.head?_append, hd]
    rfl
  cases h with
  | gap hg => exact .gap hg
  | literal hq hb => exact .literal hq hb
  | numeral hd hw hr => exact .numeral hd hw fun d h => hr d (hhead d h)
  | word hs hw hr => exact .word hs hw fun d h => hr d (hhead d h)
  | comment hn hr => exact .comment hn fun d h => hr d (hhead d h)
  | dash hr => exact .dash fun h => hr (hhead _ h)
  | mark hk => exact .mark hk

/-- A lexeme does not go on over the line end behind it. -/
theorem Lexical.append_lineFeed {w r : List Char} {token : Option (TokenKind × List Char)}
    (h : Lexical w token r) (t : List Char) : Lexical w token (r ++ '\n' :: t) := by
  have hhead : ∀ d, (r ++ '\n' :: t).head? = some d → r.head? = some d ∨ d = '\n' := by
    intro d hd
    cases r with
    | nil =>
      cases hd
      exact .inr rfl
    | cons c r => exact .inl hd
  cases h with
  | gap hg => exact .gap hg
  | literal hq hb => exact .literal hq hb
  | numeral hd hw hr =>
    refine .numeral hd hw fun d h => ?_
    rcases hhead d h with h | rfl
    · exact hr d h
    · decide
  | word hs hw hr =>
    refine .word hs hw fun d h => ?_
    rcases hhead d h with h | rfl
    · exact hr d h
    · decide
  | comment hn hr => exact .comment hn fun d h => (hhead d h).elim (hr d) id
  | dash hr =>
    refine .dash fun h => ?_
    rcases hhead '-' h with h | h
    · exact hr h
    · exact absurd h (by decide)
  | mark hk => exact .mark hk

/-- A piece that the scanner finds is a lexeme, and as long as it is said to be. -/
theorem Lexical.exists_of_at? {c : Char} {s : List Char} {p : Piece} (h : Piece.at? c s = some p) :
    ∃ w rest, s = w ++ rest ∧ p.extra = w.length ∧ Lexical (c :: w) p.token rest := by
  have hlex := Lexical.of_at? h
  have hat := hlex.at?_eq
  rw [List.take_append_drop, h] at hat
  exact ⟨s.take p.extra, s.drop p.extra, (List.take_append_drop _ _).symm,
    congrArg Piece.extra (Option.some.inj hat), hlex⟩

/-! ## Lexemes -/

/-- A piece of a text: its characters and the token that they are, if they are one. -/
structure Lexeme where
  chars : List Char
  token : Option (TokenKind × List Char)
deriving DecidableEq, Repr

/-- The text that lexemes make up. -/
def Lexeme.join (ls : List Lexeme) : List Char :=
  ls.flatMap (·.chars)

/-- Whether a lexeme is a comment. -/
def Lexeme.isComment (l : Lexeme) : Bool :=
  l.token.isNone && l.chars.head? = some '-'

/-- What stands between the quotes of a lexeme that is a literal. -/
def Lexeme.body? (l : Lexeme) : Option (List Char) :=
  match l.token with
  | some (.string, body) => some body
  | _ => none

/-- The lexemes of a text, up to the first character that starts none. -/
def lexemes : List Char → List Lexeme
  | [] => []
  | c :: rest =>
    match Piece.at? c rest with
    | none => []
    | some p => ⟨c :: rest.take p.extra, p.token⟩ :: lexemes (rest.drop p.extra)
termination_by s => s.length
decreasing_by
  simp only [List.length_drop, List.length_cons]
  omega

@[simp]
theorem lexemes_nil : lexemes [] = [] := by
  rw [lexemes]

theorem lexemes_cons_of_some {c : Char} {rest : List Char} {p : Piece}
    (h : Piece.at? c rest = some p) :
    lexemes (c :: rest) = ⟨c :: rest.take p.extra, p.token⟩ :: lexemes (rest.drop p.extra) := by
  rw [lexemes, h]

/-- A text is empty, it starts with a character that starts no lexeme, or with a lexeme. -/
theorem lexemes_induction {motive : List Char → Prop} (nil : motive [])
    (illegal : ∀ c rest, Piece.at? c rest = none → motive (c :: rest))
    (lexeme : ∀ c w token rest, Lexical (c :: w) token rest → motive rest →
      motive (c :: (w ++ rest)))
    (s : List Char) : motive s := by
  fun_induction lexemes s with
  | case1 => exact nil
  | case2 c rest h => exact illegal c rest h
  | case3 c rest p hp ih =>
    obtain ⟨w, r, rfl, hw, hlex⟩ := Lexical.exists_of_at? hp
    rw [hw, List.drop_left] at ih
    exact lexeme c w p.token r hlex ih

/-- The lexemes make up the text, each by the lexical rules for the text behind it. -/
inductive Cuts : List Lexeme → List Char → Prop where
  | nil : Cuts [] []
  | cons {l : Lexeme} {ls : List Lexeme} {rest : List Char} :
      Lexical l.chars l.token rest → Cuts ls rest → Cuts (l :: ls) (l.chars ++ rest)

theorem Cuts.join_eq {ls : List Lexeme} {s : List Char} (h : Cuts ls s) : Lexeme.join ls = s := by
  induction h with
  | nil => rfl
  | cons _ _ ih => rw [Lexeme.join, List.flatMap_cons, ← Lexeme.join, ih]

/-! ## The scanner -/

theorem Scan.illegal_cons (token : Option (TokenKind × List Char)) (position line : Nat)
    (next : Scan) : (Scan.cons token position line next).illegal = next.illegal := by
  cases token <;> rfl

/-- The scanner goes through a lexeme. -/
theorem scanFrom_lexeme {c : Char} {w rest : List Char} {token : Option (TokenKind × List Char)}
    (h : Lexical (c :: w) token rest) (position line : Nat) :
    scanFrom position line (c :: (w ++ rest)) =
      .cons token position line
        (scanFrom (position + (w.length + 1)) (line + (c :: w).count '\n') rest) := by
  rw [scanFrom_cons_of_some h.at?_eq, List.take_left, List.drop_left]
  rfl

/-- A text without an illegal character is cut into its lexemes. -/
theorem cuts_lexemes {position line : Nat} {s : List Char}
    (h : (scanFrom position line s).illegal = none) : Cuts (lexemes s) s := by
  fun_induction scanFrom position line s with
  | case1 =>
    rw [lexemes_nil]
    exact .nil
  | case2 => cases h
  | case3 position line c rest p hp ih =>
    rw [Scan.illegal_cons] at h
    rw [lexemes_cons_of_some hp]
    have hcuts := Cuts.cons (l := ⟨c :: rest.take p.extra, p.token⟩) (.of_at? hp) (ih h)
    rwa [List.cons_append, List.take_append_drop] at hcuts

theorem Scan.tokens_cons (token : Option (TokenKind × List Char)) (position line : Nat)
    (next : Scan) :
    (Scan.cons token position line next).tokens =
      (Scan.cons token position line ⟨[], none⟩).tokens ++ next.tokens := by
  cases token <;> rfl

/-- Behind a line end after lexemes the scanner starts anew. -/
theorem tokens_scanFrom_append_lineFeed {s : List Char} {position line : Nat}
    (h : (scanFrom position line s).illegal = none) (t : List Char) :
    (scanFrom position line (s ++ '\n' :: t)).tokens =
      (scanFrom position line s).tokens ++
        (scanFrom (position + (s.length + 1)) (line + (s.count '\n' + 1)) t).tokens := by
  induction s using lexemes_induction generalizing position line with
  | nil =>
    have hgap : Lexical ['\n'] none t := .gap (by decide)
    have hscan := scanFrom_lexeme hgap position line
    simp only [List.nil_append] at hscan
    rw [List.nil_append, hscan, scanFrom_nil]
    rfl
  | illegal c rest hc =>
    rw [scanFrom_cons_of_none hc] at h
    cases h
  | lexeme c w token rest hlex ih =>
    have hscan := scanFrom_lexeme hlex position line
    have hmore := scanFrom_lexeme (hlex.append_lineFeed t) position line
    rw [hscan, Scan.illegal_cons] at h
    have hposition : position + (w.length + 1) + (rest.length + 1) =
        position + ((c :: (w ++ rest)).length + 1) := by
      simp only [List.length_cons, List.length_append]
      omega
    have hline : line + (c :: w).count '\n' + (rest.count '\n' + 1) =
        line + ((c :: (w ++ rest)).count '\n' + 1) := by
      rw [← List.cons_append, List.count_append]
      omega
    rw [List.cons_append, List.append_assoc, hmore, hscan, Scan.tokens_cons, ih h, hposition, hline,
      Scan.tokens_cons _ _ _ (scanFrom _ _ rest), List.append_assoc]

/-- The tokens of a text are those of its lexemes. -/
theorem tokens_scanFrom (position line : Nat) (s : List Char) :
    (scanFrom position line s).tokens.map (fun t => (t.kind, t.text)) =
      (lexemes s).filterMap fun l => l.token.map fun (kind, text) => (kind, String.ofList text) := by
  fun_induction scanFrom position line s with
  | case1 => rw [lexemes_nil]; rfl
  | case2 position line c rest hp => rw [lexemes, hp]; rfl
  | case3 position line c rest p hp ih =>
    rw [lexemes_cons_of_some hp, List.filterMap_cons, ← ih]
    cases ht : p.token <;> simp [Scan.cons]

end Storyboard.Script
