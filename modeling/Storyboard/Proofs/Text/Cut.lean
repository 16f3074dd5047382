-- SUMMARY: Cutting texts: the run of characters of a class at the start, blanks at the ends, and lines.
import Mathlib.Data.List.TakeWhile
import Storyboard.Text.Blank

/-!
# Cuts

A text that starts with a run of characters of a class is cut behind the run in one
way only (`exists_span`, `takeWhile_span`). A text between blanks is what trimming
leaves if it has no blanks at its ends (`strip_margins`), and what stands before a line
feed is the first line (`lines_append_lineFeed`).
-/

namespace Storyboard.Text

/-! ## Runs -/

/-- Every text is a run of characters of a class with a rest that does not go on with one. -/
theorem exists_span (p : Char → Bool) (s : List Char) :
    ∃ w r, s = w ++ r ∧ s.takeWhile p = w ∧ (∀ c ∈ w, p c = true) ∧
      ∀ c, r.head? = some c → p c = false := by
  refine ⟨s.takeWhile p, s.dropWhile p, List.takeWhile_append_dropWhile.symm, rfl,
    fun c hc => List.mem_takeWhile_imp hc, fun c hc => ?_⟩
  have := List.head?_dropWhile_not p s
  rw [hc] at this
  simpa using this

/-- The run at the start of a text is what stands before a rest that does not go on with it. -/
theorem takeWhile_span {p : Char → Bool} {w r : List Char} (hw : ∀ c ∈ w, p c = true)
    (hr : ∀ c, r.head? = some c → p c = false) : (w ++ r).takeWhile p = w := by
  rw [List.takeWhile_append_of_pos hw]
  cases r with
  | nil => simp
  | cons c r => simp [hr c rfl]

/-- A text up to a character that is not in it is the whole text. -/
theorem takeWhile_ne_self {q : Char} {w : List Char} (h : q ∉ w) : w.takeWhile (· ≠ q) = w := by
  refine List.takeWhile_eq_self_iff.2 fun c hc => ?_
  have hne : c ≠ q := fun h' => h (h' ▸ hc)
  simpa using hne

/-- What stands before the first of a character is the text up to it. -/
theorem takeWhile_ne_append {q : Char} {w : List Char} (h : q ∉ w) (r : List Char) :
    (w ++ q :: r).takeWhile (· ≠ q) = w := by
  refine takeWhile_span (fun c hc => ?_) (by simp)
  have hne : c ≠ q := fun h' => h (h' ▸ hc)
  simpa using hne

/-- Nothing comes behind the whole text. -/
theorem dropWhile_ne_self {q : Char} {w : List Char} (h : q ∉ w) : w.dropWhile (· ≠ q) = [] :=
  List.dropWhile_eq_nil_iff.2 fun c hc => by simpa using ne_of_mem_of_not_mem hc h

/-- What comes from the first of a character on. -/
theorem dropWhile_ne_append {q : Char} {w : List Char} (h : q ∉ w) (r : List Char) :
    (w ++ q :: r).dropWhile (· ≠ q) = q :: r := by
  rw [List.dropWhile_append_of_pos fun c hc => by simpa using ne_of_mem_of_not_mem hc h,
    List.dropWhile_cons_of_neg (by simp)]

/-- What stands at the start of a text is not changed by a character behind it that it does not
    have. -/
theorem dropStart?_append {start : List Char} {q : Char} (h : q ∉ start) (s t : List Char) :
    dropStart? start (s ++ q :: t) = (dropStart? start s).map (· ++ q :: t) := by
  induction start generalizing s with
  | nil => rfl
  | cons a start ih =>
    simp only [List.mem_cons, not_or] at h
    cases s with
    | nil =>
      simp only [List.nil_append, dropStart?, if_neg (Ne.symm h.1)]
      rfl
    | cons c s =>
      simp only [List.cons_append, dropStart?, ih h.2]
      split
      next => rfl
      next => rfl

/-! ## Slices -/

/-- What stands in a text from one number of characters on up to another. -/
def slice {α : Type} (a b : Nat) (s : List α) : List α :=
  (s.take b).drop a

theorem slice_append {α : Type} (before w after : List α) :
    slice before.length (before.length + w.length) (before ++ (w ++ after)) = w := by
  rw [slice, ← List.length_append, ← List.append_assoc, List.take_left, List.drop_left]

theorem slice_self {α : Type} (n : Nat) (s : List α) : slice n n s = [] :=
  List.drop_eq_nil_of_le (List.length_take_le n s)

/-! ## Trimming -/

theorem stripLeft_eq_self {s : List Char} (h : ∀ c, s.head? = some c → isBlank c = false) :
    stripLeft s = s := by
  cases s with
  | nil => rfl
  | cons c r => exact List.dropWhile_cons_of_neg (by simp [h c rfl])

theorem stripRight_eq_self {s : List Char} (h : ∀ c, s.getLast? = some c → isBlank c = false) :
    stripRight s = s := by
  rw [stripRight, dropRightWhile]
  cases hs : s.reverse with
  | nil =>
    rw [List.reverse_eq_nil_iff.1 hs]
    rfl
  | cons c r =>
    have hc : s.getLast? = some c := by
      rw [← List.head?_reverse, hs]
      rfl
    rw [List.dropWhile_cons_of_neg (by simp [h c hc]), ← hs, List.reverse_reverse]

theorem strip_head {s : List Char} {c : Char} (h : (strip s).head? = some c) :
    isBlank c = false := by
  have happ := stripRight_append (stripLeft s)
  change strip s ++ _ = stripLeft s at happ
  refine stripLeft_head (s := s) ?_
  rw [← happ, List.head?_append, h]
  rfl

/-- Trimming leaves a text as it is if it neither starts nor ends with a blank. -/
theorem strip_eq_self_iff {s : List Char} :
    strip s = s ↔ (∀ c, s.head? = some c → isBlank c = false) ∧
      ∀ c, s.getLast? = some c → isBlank c = false := by
  constructor
  · intro h
    rw [← h]
    exact ⟨fun c hc => strip_head hc, fun c hc => stripRight_last hc⟩
  · rintro ⟨hhead, hlast⟩
    rw [strip, stripLeft_eq_self hhead, stripRight_eq_self hlast]

/-- Nothing is left to be trimmed off a trimmed text. -/
theorem strip_strip (s : List Char) : strip (strip s) = strip s :=
  strip_eq_self_iff.2 ⟨fun _ hc => strip_head hc, fun _ hc => stripRight_last hc⟩

theorem stripLeft_append_of_blank {b s : List Char} (hb : ∀ c ∈ b, isBlank c = true) :
    stripLeft (b ++ s) = stripLeft s :=
  List.dropWhile_append_of_pos hb

theorem stripRight_append_of_blank {s b : List Char} (hb : ∀ c ∈ b, isBlank c = true) :
    stripRight (s ++ b) = stripRight s := by
  rw [stripRight, stripRight, dropRightWhile, dropRightWhile, List.reverse_append,
    List.dropWhile_append_of_pos fun c hc => hb c (List.mem_reverse.1 hc)]

/-- A character that is not blank stays, whatever is trimmed off behind it. -/
theorem stripRight_cons {c : Char} (h : isBlank c = false) (s : List Char) :
    stripRight (c :: s) = c :: stripRight s := by
  have hcut : [c].dropWhile isBlank = [c] := List.dropWhile_cons_of_neg (by simp [h])
  simp only [stripRight, dropRightWhile, List.reverse_cons, List.dropWhile_append, hcut]
  split
  next he => simp [List.isEmpty_iff.1 he]
  next => simp

theorem strip_cons {c : Char} (h : isBlank c = false) (s : List Char) :
    strip (c :: s) = c :: stripRight s := by
  have hleft : stripLeft (c :: s) = c :: s := List.dropWhile_cons_of_neg (by simp [h])
  rw [strip, hleft, stripRight_cons h]

/-- Blanks before a text and behind it are all that trimming takes off. -/
theorem strip_margins {b s e : List Char} (hb : ∀ c ∈ b, isBlank c = true)
    (he : ∀ c ∈ e, isBlank c = true) (hs : strip s = s) (hne : s ≠ []) :
    stripLeft (b ++ (s ++ e)) = s ++ e ∧ strip (b ++ (s ++ e)) = s := by
  obtain ⟨hhead, hlast⟩ := strip_eq_self_iff.1 hs
  have hleft : stripLeft (b ++ (s ++ e)) = s ++ e := by
    rw [stripLeft_append_of_blank hb]
    obtain ⟨d, r, rfl⟩ := List.exists_cons_of_ne_nil hne
    exact stripLeft_eq_self hhead
  exact ⟨hleft, by rw [strip, hleft, stripRight_append_of_blank he, stripRight_eq_self hlast]⟩

/-- A text is what trimming leaves of it, between two blank margins. -/
theorem exists_margins (s : List Char) :
    ∃ b e, s = b ++ (strip s ++ e) ∧ s.length = b.length + (stripLeft s).length ∧
      (∀ c ∈ b, isBlank c = true) ∧ ∀ c ∈ e, isBlank c = true := by
  have hleft := stripLeft_append s
  have hright := stripRight_append (stripLeft s)
  refine ⟨s.takeWhile isBlank, ((stripLeft s).reverse.takeWhile isBlank).reverse, ?_, ?_, ?_, ?_⟩
  · rw [strip, hright, hleft]
  · rw [← List.length_append, hleft]
  · exact fun c hc => List.mem_takeWhile_imp hc
  · exact fun c hc => List.mem_takeWhile_imp (List.mem_reverse.1 hc)

/-! ## Lines -/

theorem lines_lineFeed (s : List Char) : lines ('\n' :: s) = [] :: lines s := by
  rw [lines, if_pos rfl]

/-- A character at the start goes to the first line. -/
theorem lines_cons {c : Char} (h : c ≠ '\n') (s : List Char) :
    ∃ line more, lines s = line :: more ∧ lines (c :: s) = (c :: line) :: more := by
  cases hs : lines s with
  | nil => exact absurd hs (lines_ne_nil s)
  | cons line more => exact ⟨line, more, rfl, by rw [lines, if_neg h, hs]⟩

theorem lines_append_lineFeed {w : List Char} (h : '\n' ∉ w) (s : List Char) :
    lines (w ++ '\n' :: s) = w :: lines s := by
  induction w with
  | nil => exact lines_lineFeed s
  | cons c w ih =>
    simp only [List.mem_cons, not_or] at h
    obtain ⟨line, more, hl, hc⟩ := lines_cons (Ne.symm h.1) (w ++ '\n' :: s)
    rw [ih h.2] at hl
    cases hl
    exact hc

/-- A text without a line feed is one line. -/
theorem lines_eq_singleton {w : List Char} (h : '\n' ∉ w) : lines w = [w] := by
  induction w with
  | nil => rfl
  | cons c w ih =>
    simp only [List.mem_cons, not_or] at h
    rw [lines, if_neg (Ne.symm h.1), ih h.2]

/-- The first line starts as the text does. -/
theorem head?_of_lines_eq_cons {s line : List Char} {more : List (List Char)}
    (h : lines s = line :: more) {c : Char} (hc : line.head? = some c) : s.head? = some c := by
  cases s with
  | nil => cases h; cases hc
  | cons d s =>
    by_cases hd : d = '\n'
    · subst hd
      rw [lines_lineFeed] at h
      cases h
      cases hc
    · obtain ⟨line', more', -, hl⟩ := lines_cons hd s
      rw [hl] at h
      cases h
      exact hc

end Storyboard.Text
