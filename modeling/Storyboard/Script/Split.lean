-- SUMMARY: Cutting a script into its commands.
import Storyboard.Text.Blank

/-!
# Splitting a script

Commands are separated by semicolons. A semicolon within a literal or a comment
separates nothing. A quote opens a literal only if the literal closes on the same
line and a token can end there; any other quote is a character like the rest, so
that it spoils no more than its own command.

A script is first cut into stretches (`stretches`); joined by semicolons these give
the script back (`join_stretches`). A stretch without its blanks at either end is a
command, unless it holds nothing but blanks and comments.
-/

namespace Storyboard.Script

/-! ## Literals and comments -/

/-- Characters that may follow the closing quote of a literal. -/
def literalFollow : List Char :=
  [' ', '\t', '\r', '\n', ';', ',', '-', '[', ']', '{', '}']

/-- The number of characters of a literal after its opening quote, if the quote opens one. -/
def literalLength? (quote : Char) (rest : List Char) : Option Nat :=
  let body := rest.takeWhile (· ≠ quote)
  match rest.drop body.length with
  | [] => none
  | _ :: after =>
    if body.contains '\n' then none
    else
      match after with
      | [] => some (body.length + 1)
      | c :: _ => if literalFollow.contains c then some (body.length + 1) else none

/-- The number of characters after the first that belong together with it: those of a literal or of
    a comment, and none at any other place. -/
def unitExtra (c : Char) (rest : List Char) : Nat :=
  if c = '\'' || c = '"' then (literalLength? c rest).getD 0
  else if c = '-' && rest.head? = some '-' then (rest.takeWhile (· ≠ '\n')).length
  else 0

/-! ## Stretches -/

/-- Puts characters in front of the first stretch. -/
def extendFirst (s : List Char) : List (List Char) → List (List Char)
  | [] => [s]
  | first :: more => (s ++ first) :: more

/-- The stretches of a script between the semicolons that separate commands. -/
def stretches : List Char → List (List Char)
  | [] => [[]]
  | c :: rest =>
    if c = ';' then [] :: stretches rest
    else
      let n := unitExtra c rest
      extendFirst (c :: rest.take n) (stretches (rest.drop n))
termination_by s => s.length
decreasing_by
  all_goals simp only [List.length_cons, List.length_drop]
  all_goals omega

@[simp]
theorem stretches_nil : stretches [] = [[]] := by
  rw [stretches]

theorem stretches_semicolon (rest : List Char) : stretches (';' :: rest) = [] :: stretches rest := by
  rw [stretches, if_pos rfl]

theorem stretches_cons {c : Char} (h : c ≠ ';') (rest : List Char) :
    stretches (c :: rest) =
      extendFirst (c :: rest.take (unitExtra c rest)) (stretches (rest.drop (unitExtra c rest))) := by
  rw [stretches, if_neg h]

theorem stretches_ne_nil (s : List Char) : stretches s ≠ [] := by
  cases s with
  | nil => simp
  | cons c rest =>
    by_cases h : c = ';'
    · subst h; simp [stretches_semicolon]
    · rw [stretches_cons h]
      cases stretches (rest.drop (unitExtra c rest)) <;> simp [extendFirst]

theorem intercalate_extendFirst (s : List Char) {l : List (List Char)} (h : l ≠ []) :
    List.intercalate [';'] (extendFirst s l) = s ++ List.intercalate [';'] l := by
  cases l with
  | nil => exact absurd rfl h
  | cons first more => cases more <;> simp [extendFirst, List.intercalate, List.intersperse]

/-- Nothing is lost: joined by semicolons, the stretches are the script. -/
theorem join_stretches (s : List Char) : List.intercalate [';'] (stretches s) = s := by
  fun_induction stretches s with
  | case1 => rfl
  | case2 rest ih =>
    cases hs : stretches rest with
    | nil => exact absurd hs (stretches_ne_nil rest)
    | cons first more =>
      rw [hs] at ih
      rw [← ih]
      rfl
  | case3 c rest h n ih =>
    rw [intercalate_extendFirst _ (stretches_ne_nil _), ih]
    simp [List.take_append_drop]

/-! ## Commands -/

/-- The text of a command and the number of characters of the script before it. -/
structure CommandText where
  offset : Nat
  text : List Char
deriving DecidableEq, Repr

/-- The number of characters of the script up to the end of the command. -/
def CommandText.stop (c : CommandText) : Nat :=
  c.offset + c.text.length

/-- Whether a line is blank or, blanks aside, a comment. -/
def isIdleLine (line : List Char) : Bool :=
  let s := Text.strip line
  s.isEmpty || (Text.dropStart? ['-', '-'] s).isSome

/-- Whether every line of a text is blank or a comment. -/
def isIdle (text : List Char) : Bool :=
  (Text.lines text).all isIdleLine

/-- The command in a stretch that starts at an offset, if there is one. -/
def commandIn? (start : Nat) (stretch : List Char) : Option CommandText :=
  let text := Text.strip stretch
  if text.isEmpty || isIdle text then none
  else some { offset := start + (stretch.length - (Text.stripLeft stretch).length), text }

/-- The commands in stretches of which the first starts at an offset. -/
def commandsFrom (start : Nat) : List (List Char) → List CommandText
  | [] => []
  | stretch :: more =>
    (commandIn? start stretch).toList ++ commandsFrom (start + stretch.length + 1) more

/-- The commands of a script, in order. -/
def split (script : List Char) : List CommandText :=
  commandsFrom 0 (stretches script)

end Storyboard.Script
