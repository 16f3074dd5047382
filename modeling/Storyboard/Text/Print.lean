-- SUMMARY: Printing texts, which a lone half of a surrogate pair stops, and texts for the error stream, where it is escaped.
import Storyboard.Text.Quoted

/-!
# Printing

What is printed is encoded as UTF-8, which has no form for one half of a surrogate pair.
So a text is printed as a whole if it is one of characters, and else not at all, and the
halves are at fault (`Print.chars`). Texts are printed one after the other up to the first
that cannot be (`Print.texts`). The error stream takes every text, a half by its escape.
-/

namespace Storyboard.Print

/-! ## One text -/

/-- What stops a text from being printed: its first half, the place of it, and how many halves
    stand there in a row. -/
structure Fault where
  half : Fin 0x800
  start : Nat
  length : Nat
deriving DecidableEq, Repr

/-- The escape of a half. -/
def escapeHalf (n : Fin 0x800) : String :=
  "\\u" ++ String.ofList (Text.hex 4 (CodePoint.half n).toNat)

/-- The wording of a fault: one half is named, several are counted. -/
def Fault.message (f : Fault) : String :=
  let place :=
    if f.length = 1 then
      "character '" ++ escapeHalf f.half ++ "' in position " ++ toString f.start
    else
      "characters in position " ++ toString f.start ++ "-" ++ toString (f.start + f.length - 1)
  "'utf-8' codec can't encode " ++ place ++ ": surrogates not allowed"

/-- The characters of a text that stands from `position` on. -/
def charsFrom (position : Nat) : CodePoints → Except Fault (List Char)
  | [] => .ok []
  | .char c :: rest => do
    let chars ← charsFrom (position + 1) rest
    .ok (c :: chars)
  | .half n :: rest => .error ⟨n, position, (rest.takeWhile CodePoint.isHalf).length + 1⟩

/-- The characters of a text that is printed. -/
def chars (text : CodePoints) : Except Fault (List Char) :=
  charsFrom 0 text

/-! ## Texts one after the other -/

/-- What has been printed, and the fault that has put an end to it. -/
structure Outcome where
  output : String
  fault : Option Fault
deriving DecidableEq, Repr

/-- Prints texts one after the other, up to the first that cannot be printed. -/
def texts : List CodePoints → Outcome
  | [] => { output := "", fault := none }
  | text :: rest =>
    match chars text with
    | .error f => { output := "", fault := some f }
    | .ok chars =>
      let more := texts rest
      { more with output := String.ofList chars ++ more.output }

/-! ## The error stream -/

/-- A text as the error stream shows it. -/
def escaped (text : CodePoints) : String :=
  String.join (text.map fun
    | .char c => c.toString
    | .half n => escapeHalf n)

end Storyboard.Print
