-- SUMMARY: Texts in which one half of a surrogate pair may stand alone.
import Storyboard.Text.Blank

/-!
# Code points

A script is a text of characters. The texts of a table come from JSON, where an escape
may name one half of a surrogate pair without the other. Such a half is no character,
but it is told apart from everything else, it counts as one, and it stays what it is
wherever the text goes. A text without halves, which is one of characters, is whole
(`CodePoints.IsWhole`).
-/

namespace Storyboard

/-- A character, or one half of a surrogate pair that stands alone. -/
inductive CodePoint where
  | char (c : Char)
  | half (n : Fin 0x800)
deriving DecidableEq, Repr

namespace CodePoint

/-- The number of a code point. -/
def toNat : CodePoint → Nat
  | char c => c.toNat
  | half n => 0xD800 + n

/-- The code point of a 16-bit unit. -/
def ofUnit (n : Nat) : CodePoint :=
  if h : 0xD800 ≤ n ∧ n < 0xE000 then half ⟨n - 0xD800, by omega⟩ else char (Char.ofNat n)

/-- Whether a code point is a half. -/
def isHalf : CodePoint → Bool
  | char _ => false
  | half _ => true

/-- Whether a code point is blank; a half is not. -/
def isBlank : CodePoint → Bool
  | char c => Text.isBlank c
  | half _ => false

/-- The character that two halves make up, if the first is a high one and the second a low one. -/
def join? (a b : Fin 0x800) : Option Char :=
  if a.val < 0x400 ∧ 0x400 ≤ b.val then
    some (Char.ofNat (0x10000 + a * 0x400 + (b - 0x400)))
  else none

end CodePoint

/-- A text of code points. -/
abbrev CodePoints := List CodePoint

namespace CodePoints

/-- A text of characters. -/
def ofChars (s : List Char) : CodePoints :=
  s.map .char

/-- A text of characters. -/
def ofString (s : String) : CodePoints :=
  ofChars s.toList

instance : Coe String CodePoints := ⟨ofString⟩

/-- The text without the blanks at its end. -/
def stripRight (s : CodePoints) : CodePoints :=
  Text.dropRightWhile CodePoint.isBlank s

/-- The text with every two neighbouring halves that make up a character in place of it, from left
    to right. -/
def joinPairs : CodePoints → CodePoints
  | [] => []
  | .half a :: .half b :: rest =>
    match CodePoint.join? a b with
    | some c => .char c :: joinPairs rest
    | none => .half a :: joinPairs (.half b :: rest)
  | p :: rest => p :: joinPairs rest

theorem ofChars_cons (c : Char) (s : List Char) : ofChars (c :: s) = .char c :: ofChars s :=
  rfl

theorem ofChars_inj {s t : List Char} : ofChars s = ofChars t ↔ s = t :=
  List.map_inj_right fun _ _ h => CodePoint.char.inj h

theorem ofString_append (s t : String) : ofString (s ++ t) = ofString s ++ ofString t := by
  rw [ofString, String.toList_append, ofChars, List.map_append]
  rfl

theorem ofString_inj {s t : String} : ofString s = ofString t ↔ s = t :=
  ofChars_inj.trans String.toList_inj

/-! ## Whole texts -/

/-- There is no half in the text. -/
def IsWhole (s : CodePoints) : Prop :=
  ∀ p ∈ s, p.isHalf = false

instance (s : CodePoints) : Decidable s.IsWhole :=
  inferInstanceAs (Decidable (∀ p ∈ s, p.isHalf = false))

@[simp]
theorem isWhole_nil : IsWhole [] :=
  List.forall_mem_nil _

@[simp]
theorem isWhole_cons {p : CodePoint} {s : CodePoints} :
    IsWhole (p :: s) ↔ p.isHalf = false ∧ IsWhole s :=
  List.forall_mem_cons

@[simp]
theorem isWhole_append {s t : CodePoints} : IsWhole (s ++ t) ↔ IsWhole s ∧ IsWhole t :=
  List.forall_mem_append

@[simp]
theorem isWhole_ofChars (s : List Char) : IsWhole (ofChars s) := by
  simp [IsWhole, ofChars, CodePoint.isHalf]

@[simp]
theorem isWhole_ofString (s : String) : IsWhole (ofString s) :=
  isWhole_ofChars s.toList

/-- The whole texts are those of characters. -/
theorem isWhole_iff {s : CodePoints} : IsWhole s ↔ ∃ chars, s = ofChars chars := by
  constructor
  · intro h
    induction s with
    | nil => exact ⟨[], rfl⟩
    | cons p s ih =>
      rw [isWhole_cons] at h
      obtain ⟨chars, rfl⟩ := ih h.2
      cases p with
      | char c => exact ⟨c :: chars, rfl⟩
      | half n => cases h.1
  · rintro ⟨chars, rfl⟩
    exact isWhole_ofChars chars

end CodePoints

end Storyboard
