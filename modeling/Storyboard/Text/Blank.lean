-- SUMMARY: Blank characters, trimming text at its ends, and cutting it at line feeds.

/-!
# Blanks

Text that is scanned is a list of characters. This module says which characters
are blank, trims blanks off the ends of a text, and cuts a text into lines.
Trimming keeps the middle of the text: what is cut off is all blank
(`stripLeft_append`, `stripRight_append`), and what is left neither starts nor
ends with a blank (`stripLeft_head`, `stripRight_last`).
-/

namespace Storyboard.Text

/-! ## The class of blank characters -/

/-- Blank characters: the spaces, the separators of lines and paragraphs, and the
    control characters that act as either, the four information separators among them. -/
def isBlank (c : Char) : Bool :=
  let n := c.toNat
  (0x09 ≤ n && n ≤ 0x0D) || (0x1C ≤ n && n ≤ 0x20) || n == 0x85 || n == 0xA0 || n == 0x1680
    || (0x2000 ≤ n && n ≤ 0x200A) || n == 0x2028 || n == 0x2029 || n == 0x202F || n == 0x205F
    || n == 0x3000

/-- Every character that the core library calls white space is blank. -/
theorem isBlank_of_isWhitespace {c : Char} (h : c.isWhitespace = true) : isBlank c = true := by
  simp only [Char.isWhitespace, Bool.or_eq_true, decide_eq_true_eq] at h
  rcases h with ((rfl | rfl) | rfl) | rfl <;> decide

/-! ## Trimming -/

/-- The text without the elements of a class at its end. -/
def dropRightWhile (p : α → Bool) (s : List α) : List α :=
  (s.reverse.dropWhile p).reverse

/-- The text without its leading blanks. -/
def stripLeft (s : List Char) : List Char :=
  s.dropWhile isBlank

/-- The text without its trailing blanks. -/
def stripRight (s : List Char) : List Char :=
  dropRightWhile isBlank s

/-- The text without the blanks at either end. -/
def strip (s : List Char) : List Char :=
  stripRight (stripLeft s)

theorem stripLeft_append (s : List Char) : s.takeWhile isBlank ++ stripLeft s = s :=
  List.takeWhile_append_dropWhile

theorem dropRightWhile_append (p : α → Bool) (s : List α) :
    dropRightWhile p s ++ (s.reverse.takeWhile p).reverse = s := by
  rw [dropRightWhile, ← List.reverse_append, List.takeWhile_append_dropWhile, List.reverse_reverse]

theorem stripRight_append (s : List Char) :
    stripRight s ++ (s.reverse.takeWhile isBlank).reverse = s :=
  dropRightWhile_append isBlank s

theorem stripLeft_head {s : List Char} {c : Char} (h : (stripLeft s).head? = some c) :
    isBlank c = false := by
  have := List.head?_dropWhile_not isBlank s
  rw [stripLeft] at h
  rw [h] at this
  simpa using this

theorem dropRightWhile_last {p : α → Bool} {s : List α} {c : α}
    (h : (dropRightWhile p s).getLast? = some c) : p c = false := by
  rw [dropRightWhile, List.getLast?_reverse] at h
  have := List.head?_dropWhile_not p s.reverse
  rw [h] at this
  simpa using this

theorem stripRight_last {s : List Char} {c : Char} (h : (stripRight s).getLast? = some c) :
    isBlank c = false :=
  dropRightWhile_last h

/-- The last run of characters that are not blank; empty if there is none. -/
def lastWord (s : List Char) : List Char :=
  ((stripRight s).reverse.takeWhile fun c => !isBlank c).reverse

/-! ## Lines -/

/-- The pieces of the text between its line feeds: always one more than there are line feeds. -/
def lines : List Char → List (List Char)
  | [] => [[]]
  | c :: rest =>
    if c = '\n' then [] :: lines rest
    else
      match lines rest with
      | [] => [[c]]
      | line :: more => (c :: line) :: more

theorem lines_ne_nil (s : List Char) : lines s ≠ [] := by
  cases s with
  | nil => simp [lines]
  | cons c rest =>
    simp only [lines]
    split
    · simp
    · split <;> simp

theorem length_lines (s : List Char) : (lines s).length = s.count '\n' + 1 := by
  induction s with
  | nil => rfl
  | cons c rest ih =>
    simp only [lines]
    split
    next h => simp [h, ih]
    next h =>
      have hc : (c :: rest).count '\n' = rest.count '\n' := by
        rw [List.count_cons]; simp [h]
      split
      next hn => exact absurd hn (lines_ne_nil rest)
      next line more hl => rw [hc, ← ih, hl]; rfl

/-! ## Cuts that count from either end -/

/-- The first `n` elements. A negative `n` counts from the end: it leaves out the last `-n`. -/
def upTo (n : Int) (s : List α) : List α :=
  if 0 ≤ n then s.take n.toNat else s.take (s.length + n).toNat

theorem upTo_natCast (n : Nat) (s : List α) : upTo n s = s.take n := by
  simp [upTo]

/-- Whether one text starts another, matched character by character. -/
def dropStart? : List Char → List Char → Option (List Char)
  | [], s => some s
  | _ :: _, [] => none
  | a :: start, c :: s => if a = c then dropStart? start s else none

theorem dropStart?_eq_some {start s rest : List Char} :
    dropStart? start s = some rest ↔ s = start ++ rest := by
  induction start generalizing s with
  | nil => simp [dropStart?]
  | cons a start ih =>
    cases s with
    | nil => simp [dropStart?]
    | cons c s =>
      simp only [dropStart?, List.cons_append, List.cons.injEq]
      split
      next h => simp [h, ih]
      next h => simp [Ne.symm h]

/-- The letter with ASCII capitals made small; all other characters stay. -/
def lower (s : List Char) : List Char :=
  s.map Char.toLower

end Storyboard.Text
