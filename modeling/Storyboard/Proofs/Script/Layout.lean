-- SUMMARY: Tokens that are laid out with space between them are scanned as they are, and how they are laid out makes no difference to the parser.
import Storyboard.Proofs.Script.Acceptance
import Storyboard.Proofs.Script.Spelling

/-!
# Layout

A list of tokens can be laid out in many ways: with any gaps and comments between them,
as long as each token but the first has a gap right before it (`Layout`). All layouts of
the same tokens are scanned as these tokens, each at the place where it stands. To the
parser the places make no difference but in what it says is wrong
(`State.next_unplaced`), so that it finds the same command in all of them, or the same
fault (`scan_layout`).
-/

namespace Storyboard.Script

/-! ## Layouts -/

/-- A token as it is written. -/
structure Written where
  kind : TokenKind
  text : List Char
  chars : List Char
  spelling : Spelling kind text chars

/-- Gaps, and comments with the line feeds that end them. -/
inductive Padding : List Char → Prop where
  | nil : Padding []
  | gap {c : Char} {s : List Char} : isGap c = true → Padding s → Padding (c :: s)
  | comment {w s : List Char} : '\n' ∉ w → Padding s → Padding ('-' :: '-' :: (w ++ '\n' :: s))

/-- Padding is space whatever stands behind it. -/
theorem Padding.spacing {s : List Char} (h : Padding s) (rest : List Char) : Spacing s rest := by
  induction h with
  | nil => exact .nil
  | gap hc _ ih => exact .gap hc ih
  | comment hw _ ih =>
    refine .comment hw (fun c hc => ?_) (.gap rfl ih)
    cases hc
    rfl

/-- The text begins with a gap if it begins at all. -/
def Apart (s : List Char) : Prop :=
  ∀ c ∈ s.head?, isGap c = true

/-- Written tokens, each with what stands before it, and what stands behind them all. Before a token
    there is padding, which begins with a gap unless the token is the first. -/
structure Layout where
  entries : List (List Char × Written)
  trail : List Char
  padding : ∀ e ∈ entries, Padding e.1
  apart : ∀ e ∈ entries.tail, e.1 ≠ [] ∧ Apart e.1
  trail_spacing : Spacing trail []
  trail_apart : Apart trail

/-- The text of written tokens with what stands before each. -/
def textOf (entries : List (List Char × Written)) : List Char :=
  entries.flatMap fun e => e.1 ++ e.2.chars

/-- The token that is written behind a text. -/
def Written.tokenBehind (before : List Char) (w : Written) : Token where
  kind := w.kind
  text := String.ofList w.text
  position := before.length
  line := before.count '\n' + 1

namespace Layout

/-- The whole text. -/
def text (l : Layout) : List Char :=
  textOf l.entries ++ l.trail

/-- What is laid out. -/
def words (l : Layout) : List Written :=
  l.entries.map (·.2)

/-- The tokens where they stand. -/
def tokens (l : Layout) : List Token :=
  l.entries.mapIdx fun i e => e.2.tokenBehind (textOf (l.entries.take i) ++ e.1)

end Layout

/-! ## Scanning -/

/-- Behind a written token comes a gap or the end. -/
theorem apart_textOf {entries : List (List Char × Written)} {trail : List Char}
    (h : ∀ e ∈ entries, e.1 ≠ [] ∧ Apart e.1) (ht : Apart trail) :
    Apart (textOf entries ++ trail) := by
  cases entries with
  | nil => exact ht
  | cons e es =>
    obtain ⟨hne, hapart⟩ := h e (List.mem_cons_self ..)
    obtain ⟨c, s, hs⟩ := List.exists_cons_of_ne_nil hne
    intro d hd
    refine hapart d ?_
    simp only [textOf, List.flatMap_cons, hs, List.cons_append, List.head?_cons] at hd ⊢
    exact hd

/-- Written tokens behind a text are scanned one after the other, each where it stands. -/
theorem scanFrom_textOf {entries : List (List Char × Written)} {trail : List Char}
    (hpadding : ∀ e ∈ entries, Padding e.1) (hapart : ∀ e ∈ entries.tail, e.1 ≠ [] ∧ Apart e.1)
    (hspacing : Spacing trail []) (htrail : Apart trail) (before : List Char) :
    scanFrom before.length (before.count '\n' + 1) (textOf entries ++ trail) =
      ⟨entries.mapIdx fun i e =>
        e.2.tokenBehind (before ++ (textOf (entries.take i) ++ e.1)), none⟩ := by
  induction entries generalizing before with
  | nil =>
    have hscan := scanFrom_spacing hspacing before.length (before.count '\n' + 1)
    rw [List.append_nil, scanFrom_nil] at hscan
    exact hscan
  | cons e es ih =>
    obtain ⟨gap, w⟩ := e
    obtain ⟨hgap, hes⟩ := List.forall_mem_cons.1 hpadding
    have hbehind : Apart (textOf es ++ trail) := apart_textOf hapart htrail
    have hlex := w.spelling.lexical hbehind
    obtain ⟨c, v, hchars⟩ := List.exists_cons_of_ne_nil w.spelling.ne_nil
    rw [hchars] at hlex
    have htext : textOf ((gap, w) :: es) ++ trail = gap ++ (c :: (v ++ (textOf es ++ trail))) := by
      simp [textOf, hchars]
    have hspace := scanFrom_spacing (hgap.spacing (c :: (v ++ (textOf es ++ trail)))) before.length
      (before.count '\n' + 1)
    have hlength : before.length + gap.length = (before ++ gap).length := by simp
    have hcount : before.count '\n' + 1 + gap.count '\n' = (before ++ gap).count '\n' + 1 := by
      rw [List.count_append]
      omega
    rw [hlength, hcount] at hspace
    have hlength' : (before ++ gap).length + (v.length + 1) = (before ++ gap ++ w.chars).length := by
      rw [← List.length_cons, ← hchars, ← List.length_append]
    have hcount' : (before ++ gap).count '\n' + 1 + (c :: v).count '\n' =
        (before ++ gap ++ w.chars).count '\n' + 1 := by
      have hsum : (before ++ gap ++ c :: v).count '\n' =
          (before ++ gap).count '\n' + (c :: v).count '\n' := List.count_append
      rw [hchars, hsum]
      omega
    rw [htext, hspace, scanFrom_lexeme hlex, hlength', hcount',
      ih hes (fun e he => hapart e (List.mem_of_mem_tail he)), List.mapIdx_cons]
    simp [Scan.cons, textOf, Written.tokenBehind]

/-! ## Parsing -/

/-- The token without its place. -/
def Token.unplaced (t : Token) : Token :=
  { t with position := 0, line := 0 }

/-- What is wrong, without the place of it. -/
def ParseError.unplaced : ParseError → ParseError
  | fault (.illegal c _) => fault (.illegal c 0)
  | fault (.unexpected text _) => fault (.unexpected text 0)
  | e => e

/-- What is worked out from a result has the place of its fault from there. -/
theorem mapError_bind_ok {ε α β : Type} {g : ε → ε} {x : Except ε α} (hx : x.mapError g = x)
    (f : α → β) : (x >>= fun a => .ok (f a)).mapError g = (x >>= fun a => .ok (f a)) := by
  cases x with
  | error e => exact congrArg Except.error (Except.error.inj hx)
  | ok a => rfl

theorem rowNumber_unplaced (digits : String) :
    (rowNumber digits).mapError ParseError.unplaced = rowNumber digits := by
  unfold rowNumber
  split <;> rfl

theorem settle_unplaced (done : List CellSeed) (last : Option (String × String)) :
    (settle done last).mapError ParseError.unplaced = settle done last := by
  cases last with
  | none => rfl
  | some entry => exact mapError_bind_ok (rowNumber_unplaced entry.1) _

namespace State

/-- A token without its place leads where the token does. -/
theorem next_unplaced (s : State) (t : Token) :
    s.next t.unplaced = (s.next t).mapError ParseError.unplaced := by
  obtain ⟨kind, text, position, line⟩ := t
  cases s with
  | rowList table rows digits =>
    simp only [next, Token.unplaced]
    split
    next => exact (mapError_bind_ok (rowNumber_unplaced digits) _).symm
    next => rfl
  | cellRow table column =>
    simp only [next, Token.unplaced]
    split
    next => exact (mapError_bind_ok (rowNumber_unplaced text) _).symm
    next => rfl
  | seeds table column done last comma =>
    simp only [next, Token.unplaced]
    split
    next => rfl
    next => exact (mapError_bind_ok (settle_unplaced done last) _).symm
    next => exact (mapError_bind_ok (settle_unplaced done last) _).symm
    next => rfl
  | seedDash | entryDash =>
    -- whether it is a value, its kind decides
    cases kind <;> rfl
  | _ =>
    -- the token is taken in, or it is at fault itself
    simp only [next, Token.unplaced]
    repeat' split
    all_goals rfl

theorem run_unplaced (s : State) (ts : List Token) :
    s.run (ts.map Token.unplaced) = (s.run ts).mapError ParseError.unplaced := by
  induction ts generalizing s with
  | nil => rfl
  | cons t ts ih =>
    have hnext := s.next_unplaced t
    cases ht : s.next t with
    | error e =>
      rw [ht] at hnext
      rw [List.map_cons, run_cons_of_error hnext, run_cons_of_error ht]
      rfl
    | ok u =>
      rw [ht] at hnext
      rw [List.map_cons, run_cons_of_ok hnext, run_cons_of_ok ht]
      exact ih u

theorem finish_unplaced (s : State) : s.finish.mapError ParseError.unplaced = s.finish := by
  cases s with
  | rowList table rows digits => exact mapError_bind_ok (rowNumber_unplaced digits) _
  | _ => rfl

end State

/-- What a text that is scanned to its end is parsed as, but for places, its tokens without their
    places decide. -/
theorem parse_unplaced {s : List Char} {ts : List Token} (h : scan s = ⟨ts, none⟩) :
    (parse s).mapError ParseError.unplaced =
      Command.ofScan ⟨ts.map Token.unplaced, none⟩ := by
  unfold parse Command.ofScan
  simp only [h, State.run_unplaced]
  cases State.start.run ts with
  | error e => rfl
  | ok u => exact u.finish_unplaced

theorem Layout.tokens_unplaced (l : Layout) :
    l.tokens.map Token.unplaced =
      l.words.map fun w => ⟨w.kind, String.ofList w.text, 0, 0⟩ := by
  refine List.ext_getElem (by simp [tokens, words]) fun i h h' => ?_
  simp [tokens, words, Token.unplaced, Written.tokenBehind]

/-- However tokens are laid out, each is scanned as what it is, where it stands, and nothing else is
    found. So two layouts of the same tokens are parsed as the same command, or fail for the same
    reason, if not at the same place. -/
theorem scan_layout :
    (∀ l : Layout, scan l.text = ⟨l.tokens, none⟩) ∧
      ∀ l m : Layout, l.words = m.words →
        (parse l.text).mapError ParseError.unplaced =
          (parse m.text).mapError ParseError.unplaced := by
  have hscan : ∀ l : Layout, scan l.text = ⟨l.tokens, none⟩ := fun l =>
    scanFrom_textOf l.padding l.apart l.trail_spacing l.trail_apart []
  refine ⟨hscan, fun l m h => ?_⟩
  rw [parse_unplaced (hscan l), parse_unplaced (hscan m), l.tokens_unplaced, m.tokens_unplaced, h]

/-- Tokens with the same padding before each. -/
def Layout.even (gap : List Char) (hpadding : Padding gap) (hapart : gap ≠ [] ∧ Apart gap)
    (ws : List Written) : Layout where
  entries := ws.map fun w => (gap, w)
  trail := []
  padding e he := by
    obtain ⟨w, -, rfl⟩ := List.mem_map.1 he
    exact hpadding
  apart e he := by
    obtain ⟨w, -, rfl⟩ := List.mem_map.1 (List.mem_of_mem_tail he)
    exact hapart
  trail_spacing := .nil
  trail_apart := nofun

/-- A new row, with a comment in a literal, a number in other digits and a dash by itself. -/
def motley : List Written :=
  [⟨.keyword .add, _, "ADD".toList, .keyword rfl⟩, ⟨.keyword .within, _, "In".toList, .keyword rfl⟩,
    ⟨.keyword .table, _, "table".toList, .keyword rfl⟩,
    ⟨_, "it's".toList, _, .literal (q := '"') rfl (by decide)⟩,
    ⟨.keyword .row, _, "rOW".toList, .keyword rfl⟩, ⟨.leftBracket, _, _, .mark rfl⟩,
    ⟨.leftBrace, _, _, .mark rfl⟩,
    ⟨_, "C\n--;".toList, _, .literal (q := '\'') rfl (by decide)⟩,
    ⟨.dash, _, _, .mark rfl⟩,
    ⟨_, _, "٣4".toList, .numeral nofun (List.all_eq_true.1 (by decide))⟩,
    ⟨.rightBrace, _, _, .mark rfl⟩, ⟨.rightBracket, _, _, .mark rfl⟩]

/-- These tokens on one line. -/
def onOneLine : Layout :=
  .even [' '] (.gap rfl .nil) ⟨by decide, by simp [Apart, isGap]⟩ motley

/-- These tokens with a comment before each, in which there are quotes, a semicolon and dashes. -/
def scattered : Layout :=
  .even ('\n' :: '-' :: '-' :: ("- it's; \"-- ".toList ++ '\n' :: []))
    (.gap rfl (.comment (by decide) .nil)) ⟨by decide, by simp [Apart, isGap]⟩ motley

theorem scan_layout_scattered :
    scan scattered.text = ⟨scattered.tokens, none⟩ ∧ onOneLine.words = scattered.words ∧
      (parse onOneLine.text).mapError ParseError.unplaced =
        (parse scattered.text).mapError ParseError.unplaced ∧
      parse scattered.text =
        .ok ⟨"it's", .addRow [{ value := "٣4", column := some "C\n--;" }]⟩ := by
  have hwords : onOneLine.words = scattered.words := rfl
  exact ⟨scan_layout.1 scattered, hwords, scan_layout.2 onOneLine scattered hwords, by decide +kernel⟩

end Storyboard.Script
