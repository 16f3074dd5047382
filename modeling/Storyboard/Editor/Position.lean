-- SUMMARY: Places in a document as line and character.
import Storyboard.Text.Blank

/-!
# Positions

An editor names a place by its line and its character in the line, both counted from
0. Lines end at line feeds here.
-/

namespace Storyboard.Editor

/-- A place in a document. -/
structure Position where
  line : Nat
  character : Nat
deriving DecidableEq, Repr

/-- What lies between two places. -/
structure Range where
  start : Position
  stop : Position
deriving DecidableEq, Repr

/-- The place at the end of a text. -/
def Position.after (before : List Char) : Position where
  line := before.count '\n'
  character := (before.reverse.takeWhile (· ≠ '\n')).length

/-- The place of a number of characters in a source; a negative number counts from the end. -/
def positionAt (source : List Char) (offset : Int) : Position :=
  .after (Text.upTo offset source)

/-- The range of the one character at a place. -/
def Position.single (p : Position) : Range where
  start := p
  stop := { p with character := p.character + 1 }

theorem Position.after_nil : Position.after [] = ⟨0, 0⟩ := rfl

theorem Position.after_append_lineFeed (s : List Char) :
    Position.after (s ++ ['\n']) = ⟨(Position.after s).line + 1, 0⟩ := by
  simp [Position.after]

theorem Position.after_append_of_ne (s : List Char) {c : Char} (h : c ≠ '\n') :
    Position.after (s ++ [c]) =
      ⟨(Position.after s).line, (Position.after s).character + 1⟩ := by
  simp [Position.after, h]

end Storyboard.Editor
