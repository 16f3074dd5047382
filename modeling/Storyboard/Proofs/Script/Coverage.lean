-- SUMMARY: The tokens of a text and the space around them are the whole of it, and lines are counted right.
import Storyboard.Proofs.Script.Span
import Storyboard.Proofs.Script.Spelling

/-!
# Coverage

Scanning loses nothing but space. `Covered` says what this means for a text and its
tokens: each token is spelled where it stands, they stand one behind the other, and what
is before, between and behind them is space. Where a text is not scanned to its end, no
token and no space can start (`StartsNothing`), and up to there it is covered all the
same (`covered_scan`).
-/

namespace Storyboard.Script

/-! ## Places of tokens -/

/-- The number of characters of a token: those of its text, and for a literal its quotes. -/
def Token.extent (t : Token) : Nat :=
  if t.kind = .string then t.text.toList.length + 2 else t.text.toList.length

/-- The number of characters of the text up to the end of the token. -/
def Token.stop (t : Token) : Nat :=
  t.position + t.extent

theorem Spelling.length_eq {t : Token} {chars : List Char}
    (h : Spelling t.kind t.text.toList chars) : chars.length = t.extent := by
  obtain ⟨kind, text, position, line⟩ := t
  simp only [Token.extent] at h ⊢
  generalize htext : text.toList = body at h
  cases h with
  | literal hq hb => simp
  | mark hm => rw [if_neg (by rintro rfl; cases hm)]
  | _ => rfl

/-- What stands in the text between two numbers of characters is space. -/
def Spaced (s : List Char) (a b : Nat) : Prop :=
  Spacing (Text.slice a b s) (s.drop b)

/-- What stands before the first token from a place on, between tokens and behind the last is
    space. -/
def SpacedOut (s : List Char) : Nat → List Token → Prop
  | start, [] => Spaced s start s.length
  | start, t :: ts => Spaced s start t.position ∧ SpacedOut s t.stop ts

/-- The tokens and the space around them are the whole text from a place on: each token is spelled
    where it stands, on its line, and none reaches into the next. -/
structure Covered (s : List Char) (start : Nat) (ts : List Token) : Prop where
  spelled : ∀ t ∈ ts, Spelling t.kind t.text.toList (Text.slice t.position t.stop s)
  line : ∀ t ∈ ts, t.line = (s.take t.position).count '\n' + 1
  inside : ∀ t ∈ ts, start ≤ t.position ∧ t.position < t.stop ∧ t.stop ≤ s.length
  apart : ts.Pairwise fun t u => t.stop ≤ u.position
  spaced : SpacedOut s start ts

theorem Covered.nil {s : List Char} {start : Nat} (h : Spaced s start s.length) :
    Covered s start [] where
  spelled := List.forall_mem_nil _
  line := List.forall_mem_nil _
  inside := List.forall_mem_nil _
  apart := .nil
  spaced := h

/-- A token in front of others that are behind it. -/
theorem Covered.cons {before chars rest : List Char} {start : Nat} {t : Token} {ts : List Token}
    (hspelled : Spelling t.kind t.text.toList chars) (hposition : t.position = before.length)
    (hline : t.line = before.count '\n' + 1) (hle : start ≤ before.length)
    (hspaced : Spaced (before ++ (chars ++ rest)) start before.length)
    (h : Covered (before ++ (chars ++ rest)) t.stop ts) :
    Covered (before ++ (chars ++ rest)) start (t :: ts) := by
  have hstop : t.stop = before.length + chars.length := by
    rw [Token.stop, hposition, hspelled.length_eq]
  have hpos : 0 < chars.length := List.length_pos_iff.2 hspelled.ne_nil
  constructor
  case spelled =>
    refine List.forall_mem_cons.2 ⟨?_, h.spelled⟩
    rw [hposition, hstop, Text.slice_append]
    exact hspelled
  case line =>
    refine List.forall_mem_cons.2 ⟨?_, h.line⟩
    rw [hposition, List.take_left, hline]
  case inside =>
    refine List.forall_mem_cons.2 ⟨?_, fun u hu => ?_⟩
    · simp only [hposition, hstop, List.length_append]
      omega
    · have := h.inside u hu
      omega
  case apart => exact List.pairwise_cons.2 ⟨fun u hu => (h.inside u hu).1, h.apart⟩
  case spaced => exact ⟨by rwa [hposition], h.spaced⟩

/-! ## The scanner -/

/-- Space that starts at a place goes on with what the scanner skips. -/
theorem Spaced.append {before chars rest : List Char} {start : Nat}
    (h : Spaced (before ++ (chars ++ rest)) start before.length) (hle : start ≤ before.length)
    (hchars : Spacing chars rest) :
    Spaced (before ++ (chars ++ rest)) start (before ++ chars).length := by
  unfold Spaced Text.slice at h ⊢
  rw [List.take_left, List.drop_left] at h
  rw [← List.append_assoc, List.take_left, List.drop_left, List.drop_append_of_le_length hle]
  exact h.append hchars

/-- A text that is scanned to its end is covered, `before` being what has been scanned and all of it
    from `start` on being space. -/
theorem covered_scanFrom {before s : List Char} {start : Nat} (hle : start ≤ before.length)
    (hspaced : Spaced (before ++ s) start before.length)
    (h : (scanFrom before.length (before.count '\n' + 1) s).illegal = none) :
    Covered (before ++ s) start (scanFrom before.length (before.count '\n' + 1) s).tokens := by
  induction s using lexemes_induction generalizing before start with
  | nil =>
    rw [scanFrom_nil]
    refine .nil ?_
    rw [List.append_nil] at hspaced ⊢
    exact hspaced
  | illegal c rest hc =>
    rw [scanFrom_cons_of_none hc] at h
    cases h
  | lexeme c w token rest hlex ih =>
    have hlength : before.length + (w.length + 1) = (before ++ c :: w).length := by simp
    have hcount : before.count '\n' + 1 + (c :: w).count '\n' =
        (before ++ c :: w).count '\n' + 1 := by
      rw [List.count_append]
      omega
    rw [scanFrom_lexeme hlex, Scan.illegal_cons, hlength, hcount] at h
    rw [scanFrom_lexeme hlex, hlength, hcount]
    rw [← List.cons_append] at hspaced ⊢
    cases token with
    | none =>
      -- the space before goes on, up to the end of the lexeme
      have hmore := hspaced.append hle hlex.spacing
      rw [← List.append_assoc] at hmore ⊢
      exact ih (by rw [List.length_append]; omega) hmore h
    | some token =>
      obtain ⟨kind, text⟩ := token
      have hspelled : Spelling kind (String.ofList text).toList (c :: w) := by
        rw [String.toList_ofList]
        exact hlex.spelling
      refine .cons hspelled rfl rfl hle hspaced ?_
      have hstop : (⟨kind, String.ofList text, before.length, before.count '\n' + 1⟩ : Token).stop =
          (before ++ c :: w).length := by
        rw [Token.stop, ← hspelled.length_eq, List.length_append]
      rw [hstop, ← List.append_assoc]
      refine ih (Nat.le_refl _) ?_ h
      rw [Spaced, Text.slice_self]
      exact .nil

/-- With no token and no space the text can start. -/
def StartsNothing (s : List Char) : Prop :=
  (∀ kind text chars, Spelling kind text chars → ¬ chars <+: s) ∧ ¬ ['-', '-'] <+: s ∧
    ∀ c ∈ s.head?, isGap c = false

theorem startsNothing_of_at? {c : Char} {rest : List Char} (h : Piece.at? c rest = none) :
    StartsNothing (c :: rest) := by
  refine ⟨?_, ?_, ?_⟩
  · rintro kind text chars hspelled ⟨r, hr⟩
    obtain ⟨d, w, rfl⟩ := List.exists_cons_of_ne_nil hspelled.ne_nil
    rw [List.cons_append] at hr
    obtain ⟨rfl, rfl⟩ := List.cons.inj hr
    have hsome := hspelled.isSome_at? r
    rw [h] at hsome
    cases hsome
  · rintro ⟨r, hr⟩
    obtain ⟨w, s, rfl, -, hin, hout⟩ := Text.exists_span (· ≠ '\n') r
    have hline : '\n' ∉ w := fun hm => by simpa using hin '\n' hm
    have hlex : Lexical ('-' :: '-' :: w) none s :=
      .comment hline fun d hd => by simpa using hout d hd
    rw [List.cons_append] at hr
    obtain ⟨rfl, rfl⟩ := List.cons.inj hr
    have hat := hlex.at?_eq
    rw [List.cons_append] at hat
    cases h.symm.trans hat
  · intro d hd
    cases hd
    rw [Bool.eq_false_iff]
    intro hgap
    have hlex : Lexical [c] none rest := .gap hgap
    have hat := hlex.at?_eq
    rw [List.nil_append, h] at hat
    cases hat

/-- Scanning loses nothing but space. A text without an illegal character is covered by its tokens
    and the space around them. Otherwise the illegal character stands at its position, nothing can
    start there, and up to it the text has the same tokens and is covered by them. -/
theorem covered_scan (s : List Char) :
    match (scan s).illegal with
    | none => Covered s 0 (scan s).tokens
    | some i =>
      s[i.position]? = some i.char ∧ StartsNothing (s.drop i.position) ∧
        scan (s.take i.position) = ⟨(scan s).tokens, none⟩ ∧
        Covered (s.take i.position) 0 (scan s).tokens := by
  have hcovered : ∀ {u : List Char}, (scan u).illegal = none → Covered u 0 (scan u).tokens :=
    fun hu => @covered_scanFrom [] _ 0 (Nat.le_refl 0) .nil hu
  split
  next hnone => exact hcovered hnone
  next i hi =>
    obtain ⟨before, rest, hs, hposition, hat, hscan⟩ := exists_of_illegal hi
    rw [Nat.zero_add] at hposition
    have htake : s.take i.position = before := by rw [hposition, hs, List.take_left]
    have hdrop : s.drop i.position = i.char :: rest := by rw [hposition, hs, List.drop_left]
    change scan before = ⟨(scan s).tokens, none⟩ at hscan
    have hbefore : Covered before 0 (scan before).tokens := hcovered (by rw [hscan])
    rw [hscan] at hbefore
    refine ⟨?_, ?_, ?_, ?_⟩
    · rw [← List.head?_drop, hdrop]
      rfl
    · rw [hdrop]
      exact startsNothing_of_at? hat
    · rw [htake]
      exact hscan
    · rw [htake]
      exact hbefore

end Storyboard.Script
