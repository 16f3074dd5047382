-- SUMMARY: How tokens and the space around them are written, and that the scanner reads them so.
import Storyboard.Proofs.Script.Lexeme

/-!
# Spelling

A token is written in one of a few ways, which its kind and its text decide
(`Spelling`). Around tokens there is space: gaps, and comments up to the end of their
line (`Spacing`). Unlike the lexical rules a spelling does not look at what stands
behind the token. What the scanner takes for a token is spelled as one
(`Lexical.spelling`). Where a token can be spelled it finds some token
(`Spelling.isSome_at?`), and this very one if a gap or the end is behind it
(`Spelling.lexical`).
-/

namespace Storyboard.Script

/-! ## Words -/

/-- Only a letter is a small letter once its case is given up. -/
theorem isAlpha_of_isLower_toLower {c : Char} (h : c.toLower.isLower = true) :
    c.isAlpha = true := by
  refine Bool.or_eq_true_iff.2 ?_
  by_cases hc : c.isUpper = true
  · exact .inl hc
  · have hself : c.toLower = c := dif_neg fun hrange => hc (decide_eq_true hrange)
    rw [hself] at h
    exact .inr h

namespace Keyword

theorem isLower_of_mem_word : ∀ k : Keyword, ∀ c ∈ k.word.toList, c.isLower = true := by
  intro k
  -- as a statement about the list, not about all characters
  rw [← List.all_eq_true]
  cases k <;> decide

theorem word_inj {k l : Keyword} (h : k.word.toList = l.word.toList) : k = l := by
  cases k <;> cases l <;> first | rfl | exact absurd h (by decide)

/-- A word is a reserved word if it is spelled like it, whatever the case of its letters. -/
theorem ofWord?_eq_some_iff {w : List Char} {k : Keyword} :
    ofWord? w = some k ↔ Text.lower w = k.word.toList := by
  constructor
  · intro h
    have hfound := List.find?_some h
    exact (by simpa using hfound : k.word.toList = Text.lower w).symm
  · intro h
    cases hfind : ofWord? w with
    | none =>
      have hk : k ∈ all := by cases k <;> decide
      exact absurd h.symm (by simpa using List.find?_eq_none.1 hfind k hk)
    | some l =>
      have hl : l.word.toList = Text.lower w := by simpa using List.find?_some hfind
      rw [word_inj (hl.trans h)]

/-- In whatever case it is written, a reserved word has letters only. -/
theorem isAlpha_of_mem {w : List Char} {k : Keyword} (h : Text.lower w = k.word.toList) {c : Char}
    (hc : c ∈ w) : c.isAlpha = true := by
  refine isAlpha_of_isLower_toLower (k.isLower_of_mem_word _ ?_)
  rw [← h]
  exact List.mem_map_of_mem hc

end Keyword

theorem isWordPart_of_isWordStart {c : Char} (h : isWordStart c = true) : isWordPart c = true := by
  simp only [isWordStart, isWordPart, Char.isAlphanum, Bool.or_eq_true] at h ⊢
  exact h.imp_left .inl

/-- A reserved word in whatever case is a word. -/
theorem Keyword.exists_word {k : Keyword} {w : List Char} (h : Text.lower w = k.word.toList) :
    ∃ c v, w = c :: v ∧ isWordStart c = true ∧ (∀ d ∈ v, isWordPart d = true) ∧
      wordKind w = .keyword k := by
  have hstart : ∀ d ∈ w, isWordStart d = true := fun d hd => by
    simp [isWordStart, isAlpha_of_mem h hd]
  have hkind : wordKind w = .keyword k := by rw [wordKind, ofWord?_eq_some_iff.2 h]
  cases w with
  | nil => cases k <;> exact absurd h (by decide)
  | cons c v =>
    rw [List.forall_mem_cons] at hstart
    exact ⟨c, v, rfl, hstart.1, fun d hd => isWordPart_of_isWordStart (hstart.2 d hd), hkind⟩

theorem wordKind_eq_identifier {w : List Char}
    (h : ∀ k : Keyword, Text.lower w ≠ k.word.toList) : wordKind w = .identifier := by
  unfold wordKind
  split
  next k hk => exact absurd (Keyword.ofWord?_eq_some_iff.1 hk) (h k)
  next => rfl

/-! ## Tokens -/

/-- The character that a token of the kind is, if it can be no other. -/
def TokenKind.mark? : TokenKind → Option Char
  | comma => some ','
  | dash => some '-'
  | leftBracket => some '['
  | rightBracket => some ']'
  | leftBrace => some '{'
  | rightBrace => some '}'
  | _ => none

/-- `Spelling kind text chars`: the characters are a token of the kind with the text. -/
inductive Spelling : TokenKind → List Char → List Char → Prop where
  | literal {q : Char} {body : List Char} : isQuote q = true → q ∉ body →
      Spelling .string body (q :: (body ++ [q]))
  | numeral {w : List Char} : w ≠ [] → (∀ d ∈ w, Text.isDigit d = true) → Spelling .integer w w
  | identifier {c : Char} {w : List Char} : isWordStart c = true →
      (∀ d ∈ w, isWordPart d = true) → (∀ k : Keyword, Text.lower (c :: w) ≠ k.word.toList) →
      Spelling .identifier (c :: w) (c :: w)
  | keyword {k : Keyword} {w : List Char} : Text.lower w = k.word.toList →
      Spelling (.keyword k) w w
  | mark {kind : TokenKind} {c : Char} : kind.mark? = some c → Spelling kind [c] [c]

theorem mark?_of_markKind? {c : Char} {kind : TokenKind} (h : markKind? c = some kind) :
    kind.mark? = some c := by
  unfold markKind? at h
  repeat' split at h
  all_goals cases h
  all_goals subst c; rfl

/-- A mark is a dash or one that stands for itself wherever it is. -/
theorem markKind?_of_mark? {c : Char} {kind : TokenKind} (h : kind.mark? = some c) :
    (kind = .dash ∧ c = '-') ∨ markKind? c = some kind := by
  cases kind <;> cases h <;> first | exact .inl ⟨rfl, rfl⟩ | exact .inr rfl

theorem spelling_word {c : Char} {w : List Char} (hc : isWordStart c = true)
    (hw : ∀ d ∈ w, isWordPart d = true) : Spelling (wordKind (c :: w)) (c :: w) (c :: w) := by
  unfold wordKind
  split
  next k hk => exact .keyword (Keyword.ofWord?_eq_some_iff.1 hk)
  next hnone =>
    refine .identifier hc hw fun k hk => ?_
    rw [Keyword.ofWord?_eq_some_iff.2 hk] at hnone
    cases hnone

/-- What the lexical rules take for a token is spelled as one. -/
theorem Lexical.spelling {chars text rest : List Char} {kind : TokenKind}
    (h : Lexical chars (some (kind, text)) rest) : Spelling kind text chars := by
  cases h with
  | literal hq hb => exact .literal hq hb
  | numeral hc hw hr => exact .numeral (by simp) (List.forall_mem_cons.2 ⟨hc, hw⟩)
  | word hc hw hr => exact spelling_word hc hw
  | dash hr => exact .mark rfl
  | mark hk => exact .mark (mark?_of_markKind? hk)

namespace Spelling

variable {kind : TokenKind} {text chars rest : List Char}

/-- In front of a gap or of the end, a token is read as it is spelled. -/
theorem lexical (h : Spelling kind text chars) (hrest : ∀ c ∈ rest.head?, isGap c = true) :
    Lexical chars (some (kind, text)) rest := by
  have hno : ∀ {p : Char → Bool}, [' ', '\t', '\r', '\n'].any p = false →
      ∀ d, rest.head? = some d → p d = false := fun hp d hd =>
    Bool.eq_false_iff.2 (List.any_eq_false.1 hp d (mem_of_isGap (hrest d hd)))
  cases h with
  | literal hq hb => exact .literal hq hb
  | numeral hne hw =>
    obtain ⟨c, v, rfl⟩ := List.exists_cons_of_ne_nil hne
    rw [List.forall_mem_cons] at hw
    exact .numeral hw.1 hw.2 (hno (by decide))
  | identifier hc hw hk =>
    have hword := Lexical.word hc hw (hno (p := isWordPart) (by decide))
    rwa [wordKind_eq_identifier hk] at hword
  | keyword hk =>
    obtain ⟨c, v, rfl, hc, hv, hkind⟩ := Keyword.exists_word hk
    have hword := Lexical.word hc hv (hno (p := isWordPart) (by decide))
    rwa [hkind] at hword
  | mark hm =>
    rcases markKind?_of_mark? hm with ⟨rfl, rfl⟩ | hm
    · exact .dash fun hd => absurd (hrest '-' hd) (by decide)
    · exact .mark hm

/-- A token has a first character. -/
theorem ne_nil (h : Spelling kind text chars) : chars ≠ [] := by
  cases h with
  | numeral hne => exact hne
  | keyword hk =>
    obtain ⟨c, v, rfl, -⟩ := Keyword.exists_word hk
    exact List.cons_ne_nil c v
  | _ => simp

/-- Where a token can be spelled, the scanner finds one: this one, or a longer one that starts with
    it. -/
theorem isSome_at? {c : Char} {w : List Char} (h : Spelling kind text (c :: w)) (r : List Char) :
    (Piece.at? c (w ++ r)).isSome = true := by
  have hfound : ∀ {v : List Char} {token : Option (TokenKind × List Char)} {s : List Char},
      Lexical (c :: v) token s → (Piece.at? c (v ++ s)).isSome = true := fun hlex => by
    rw [hlex.at?_eq]
    rfl
  have hword : isWordStart c = true → (Piece.at? c (w ++ r)).isSome = true := fun hc => by
    obtain ⟨v, s, hs, -, hin, hout⟩ := Text.exists_span isWordPart (w ++ r)
    rw [hs]
    exact hfound (.word hc hin hout)
  cases h with
  | literal hq hb => exact hfound (.literal hq hb)
  | numeral hne hw =>
    obtain ⟨v, s, hs, -, hin, hout⟩ := Text.exists_span Text.isDigit (w ++ r)
    rw [hs]
    exact hfound (.numeral (hw c (List.mem_cons_self ..)) hin hout)
  | identifier hc hw hk => exact hword hc
  | keyword hk =>
    obtain ⟨d, v, heq, hc, -⟩ := Keyword.exists_word hk
    cases heq
    exact hword hc
  | mark hm =>
    rcases markKind?_of_mark? hm with ⟨rfl, rfl⟩ | hm
    · by_cases hd : r.head? = some '-' <;>
        simp [Piece.at?, isGap, isQuote, isWordStart, hd,
          show Text.isDigit '-' = false from by decide]
    · exact hfound (.mark hm)

end Spelling

/-! ## Space -/

/-- `Spacing s rest`: where `rest` stands behind it, `s` is made up of gaps and of comments, each up
    to a line feed or the end of the text. -/
inductive Spacing : List Char → List Char → Prop where
  | nil {rest : List Char} : Spacing [] rest
  | gap {c : Char} {s rest : List Char} : isGap c = true → Spacing s rest → Spacing (c :: s) rest
  | comment {w s rest : List Char} : '\n' ∉ w → (∀ c ∈ (s ++ rest).head?, c = '\n') →
      Spacing s rest → Spacing ('-' :: '-' :: (w ++ s)) rest

/-- Space goes on with more space. -/
theorem Spacing.append {s t rest : List Char} (hs : Spacing s (t ++ rest)) (ht : Spacing t rest) :
    Spacing (s ++ t) rest := by
  generalize hbehind : t ++ rest = behind at hs
  induction hs with
  | nil => exact ht
  | gap hc _ ih => exact .gap hc (ih hbehind)
  | @comment w s _ hw hend _ ih =>
    subst hbehind
    rw [List.cons_append, List.cons_append, List.append_assoc]
    exact .comment hw (by rwa [List.append_assoc]) (ih rfl)

/-- What the lexical rules have no token for is space. -/
theorem Lexical.spacing {chars rest : List Char} (h : Lexical chars none rest) :
    Spacing chars rest := by
  cases h with
  | gap hc => exact .gap hc .nil
  | @comment w _ hw hend =>
    have hspace := Spacing.comment (s := []) hw hend .nil
    rwa [List.append_nil] at hspace

/-- The scanner goes through space without a token. -/
theorem scanFrom_spacing {s rest : List Char} (h : Spacing s rest) (position line : Nat) :
    scanFrom position line (s ++ rest) =
      scanFrom (position + s.length) (line + s.count '\n') rest := by
  induction h generalizing position line with
  | nil => rfl
  | @gap c s rest hc _ ih =>
    have hlex : Lexical [c] none (s ++ rest) := .gap hc
    have hstep := scanFrom_lexeme hlex position line
    rw [List.cons_append, ← List.nil_append (s ++ rest), hstep, Scan.cons, ih]
    congr 1
    · simp only [List.length_cons, List.length_nil]
      omega
    · rw [Nat.add_assoc, ← List.count_append, List.singleton_append]
  | @comment w s rest hw hend _ ih =>
    have hstep := scanFrom_lexeme (w := '-' :: w) (Lexical.comment hw hend) position line
    rw [List.cons_append, List.cons_append, List.append_assoc, ← List.cons_append, hstep, Scan.cons,
      ih]
    congr 1
    · simp only [List.length_cons, List.length_append]
      omega
    · rw [Nat.add_assoc, ← List.count_append]
      rfl

end Storyboard.Script
