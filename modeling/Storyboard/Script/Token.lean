-- SUMMARY: Tokens of the command language and the scanner that cuts a text into them.
import Storyboard.Text.Blank
import Storyboard.Text.Digit

/-!
# Tokens

A command is cut into tokens from left to right. At each place the first character
decides what stands there (`Piece.at?`): a literal between two equal quotes, a
numeral, a word, a mark, or a gap, which is a blank, a line feed or a comment up to
the end of its line. A character that can start nothing ends the scan; the tokens
before it are kept, since a command may be wrong already before that place.
-/

namespace Storyboard.Script

/-! ## Tokens -/

/-- The reserved words. -/
inductive Keyword where
  | highlight
  | add
  | within
  | table
  | row
  | column
  | cells
deriving DecidableEq, Repr

namespace Keyword

/-- All reserved words. -/
def all : List Keyword :=
  [highlight, add, within, table, row, column, cells]

/-- The spelling of a reserved word in small letters. -/
def word : Keyword → String
  | highlight => "highlight"
  | add => "add"
  | within => "in"
  | table => "table"
  | row => "row"
  | column => "column"
  | cells => "cells"

/-- The reserved word that a word is, whatever the case of its letters. -/
def ofWord? (w : List Char) : Option Keyword :=
  all.find? fun k => k.word.toList == Text.lower w

end Keyword

/-- The kinds of tokens. -/
inductive TokenKind where
  | identifier
  | string
  | integer
  | comma
  | dash
  | leftBracket
  | rightBracket
  | leftBrace
  | rightBrace
  | keyword (k : Keyword)
deriving DecidableEq, Repr

/-- A token: its text (of a literal, what stands between the quotes), the number of characters
    before it, and the line it starts on, counted from 1. -/
structure Token where
  kind : TokenKind
  text : String
  position : Nat
  line : Nat
deriving DecidableEq, Repr

/-- A character that starts nothing, and the number of characters before it. -/
structure Illegal where
  char : Char
  position : Nat
deriving DecidableEq, Repr

/-- The tokens of a text, up to the first character that starts nothing. -/
structure Scan where
  tokens : List Token
  illegal : Option Illegal
deriving DecidableEq, Repr

/-! ## What stands at one place -/

/-- Characters between tokens that carry no meaning. -/
def isGap (c : Char) : Bool :=
  c = ' ' || c = '\t' || c = '\r' || c = '\n'

/-- Characters that enclose a literal. -/
def isQuote (c : Char) : Bool :=
  c = '\'' || c = '"'

/-- Characters that a word may start with. -/
def isWordStart (c : Char) : Bool :=
  c.isAlpha || c = '_'

/-- Characters that a word may go on with. -/
def isWordPart (c : Char) : Bool :=
  c.isAlphanum || c = '_'

/-- The kind of a word: a reserved word or a plain identifier. -/
def wordKind (w : List Char) : TokenKind :=
  match Keyword.ofWord? w with
  | some k => .keyword k
  | none => .identifier

/-- The kind of a mark of one character. A dash is no such mark, as two of them start a comment. -/
def markKind? (c : Char) : Option TokenKind :=
  if c = ',' then some .comma
  else if c = '[' then some .leftBracket
  else if c = ']' then some .rightBracket
  else if c = '{' then some .leftBrace
  else if c = '}' then some .rightBrace
  else none

/-- What stands at one place: how many characters belong to it after the first, and its kind and
    text if it is a token. -/
structure Piece where
  extra : Nat
  token : Option (TokenKind × List Char)
deriving DecidableEq, Repr

/-- The number of characters of a piece. -/
def Piece.length (p : Piece) : Nat :=
  p.extra + 1

/-- What stands at the place where `c` is followed by `rest`; nothing if `c` starts nothing. -/
def Piece.at? (c : Char) (rest : List Char) : Option Piece :=
  if isGap c then some ⟨0, none⟩
  else if isQuote c then
    let body := rest.takeWhile (· ≠ c)
    if body.length < rest.length then some ⟨body.length + 1, some (.string, body)⟩ else none
  else if Text.isDigit c then
    let more := rest.takeWhile Text.isDigit
    some ⟨more.length, some (.integer, c :: more)⟩
  else if isWordStart c then
    let more := rest.takeWhile isWordPart
    some ⟨more.length, some (wordKind (c :: more), c :: more)⟩
  else if c = '-' then
    if rest.head? = some '-' then some ⟨(rest.takeWhile (· ≠ '\n')).length, none⟩
    else some ⟨0, some (.dash, ['-'])⟩
  else (markKind? c).map fun kind => ⟨0, some (kind, [c])⟩

/-! ## The scanner -/

/-- Puts a token that starts at a place in front of the scan of what follows it. -/
def Scan.cons (token : Option (TokenKind × List Char)) (position line : Nat) (next : Scan) : Scan :=
  match token with
  | none => next
  | some (kind, text) =>
    { next with tokens := ⟨kind, String.ofList text, position, line⟩ :: next.tokens }

/-- Scans the text that stands from `position` on `line` on. -/
def scanFrom (position line : Nat) : List Char → Scan
  | [] => ⟨[], none⟩
  | c :: rest =>
    match Piece.at? c rest with
    | none => ⟨[], some ⟨c, position⟩⟩
    | some p =>
      .cons p.token position line
        (scanFrom (position + p.length) (line + (c :: rest.take p.extra).count '\n')
          (rest.drop p.extra))
termination_by s => s.length
decreasing_by
  simp only [List.length_drop, List.length_cons]
  omega

/-- Scans a whole text. -/
def scan (text : List Char) : Scan :=
  scanFrom 0 1 text

@[simp]
theorem scanFrom_nil (position line : Nat) : scanFrom position line [] = ⟨[], none⟩ := by
  rw [scanFrom]

theorem scanFrom_cons_of_none {c : Char} {rest : List Char} (h : Piece.at? c rest = none)
    (position line : Nat) :
    scanFrom position line (c :: rest) = ⟨[], some ⟨c, position⟩⟩ := by
  rw [scanFrom, h]

theorem scanFrom_cons_of_some {c : Char} {rest : List Char} {p : Piece}
    (h : Piece.at? c rest = some p) (position line : Nat) :
    scanFrom position line (c :: rest) =
      .cons p.token position line
        (scanFrom (position + p.length) (line + (c :: rest.take p.extra).count '\n')
          (rest.drop p.extra)) := by
  rw [scanFrom, h]

end Storyboard.Script
