-- SUMMARY: Reading bytes as UTF-8, with the place and the kind of the first fault.
import Storyboard.Text.Quoted

/-!
# UTF-8

A text file is a sequence of bytes. `Utf8.decode` reads it as UTF-8, or says which
bytes cannot stand where they do and why. Line ends are made uniform by
`unifyLineEnds`: a carriage return, alone or before a line feed, becomes one line feed.
-/

namespace Storyboard.Text

namespace Utf8

/-- Why bytes are no UTF-8. -/
inductive Reason where
  | startByte
  | continuationByte
  | endOfData
deriving DecidableEq, Repr

/-- The first fault of a byte sequence: its first byte, its place and its length. -/
structure Fault where
  byte : UInt8
  start : Nat
  length : Nat
  reason : Reason
deriving DecidableEq, Repr

/-- The wording of a reason. -/
def Reason.message : Reason → String
  | .startByte => "invalid start byte"
  | .continuationByte => "invalid continuation byte"
  | .endOfData => "unexpected end of data"

/-- The wording of a fault: one byte is named, several are counted. -/
def Fault.message (f : Fault) : String :=
  let place :=
    if f.length = 1 then
      "byte 0x" ++ String.ofList (hex 2 f.byte.toNat) ++ " in position " ++ toString f.start
    else
      "bytes in position " ++ toString f.start ++ "-" ++ toString (f.start + f.length - 1)
  "'utf-8' codec can't decode " ++ place ++ ": " ++ f.reason.message

/-- What a leading byte announces: how many bytes follow, between which bounds the first of them
    lies, and the bits that the leading byte brings itself. -/
structure Lead where
  follow : Nat
  low : Nat
  high : Nat
  bits : Nat

/-- What a byte announces as the first of a character; nothing if no character starts so. The
    bounds leave out overlong forms, surrogates and what lies above the last code point. -/
def Lead.ofByte? (b : UInt8) : Option Lead :=
  let n := b.toNat
  if n < 0x80 then some ⟨0, 0x80, 0xBF, n⟩
  else if n < 0xC2 then none
  else if n < 0xE0 then some ⟨1, 0x80, 0xBF, n - 0xC0⟩
  else if n = 0xE0 then some ⟨2, 0xA0, 0xBF, 0⟩
  else if n = 0xED then some ⟨2, 0x80, 0x9F, 0xD⟩
  else if n < 0xF0 then some ⟨2, 0x80, 0xBF, n - 0xE0⟩
  else if n = 0xF0 then some ⟨3, 0x90, 0xBF, 0⟩
  else if n < 0xF4 then some ⟨3, 0x80, 0xBF, n - 0xF0⟩
  else if n = 0xF4 then some ⟨3, 0x80, 0x8F, 4⟩
  else none

/-- Reads `n` more bytes of a character of which `seen` have been read. An error gives the number
    of bytes that are at fault and the reason. -/
def follow (low high bits seen : Nat) : Nat → List UInt8 → Except (Nat × Reason) (Nat × List UInt8)
  | 0, rest => .ok (bits, rest)
  | _ + 1, [] => .error (seen, .endOfData)
  | n + 1, b :: rest =>
    if low ≤ b.toNat ∧ b.toNat ≤ high then
      follow 0x80 0xBF (bits * 64 + (b.toNat - 0x80)) (seen + 1) n rest
    else .error (seen, .continuationByte)

theorem follow_length {low high bits seen n code : Nat} {bytes rest : List UInt8}
    (h : follow low high bits seen n bytes = .ok (code, rest)) : rest.length ≤ bytes.length := by
  induction n generalizing low high bits seen bytes with
  | zero => cases bytes <;> simp_all [follow]
  | succ n ih =>
    cases bytes with
    | nil => simp [follow] at h
    | cons b bytes =>
      simp only [follow] at h
      split at h
      · exact Nat.le_succ_of_le (ih h)
      · cases h

/-- Reads the bytes that stand from `position` on. -/
def decodeFrom (position : Nat) : List UInt8 → Except Fault (List Char)
  | [] => .ok []
  | b :: bytes =>
    match Lead.ofByte? b with
    | none => .error ⟨b, position, 1, .startByte⟩
    | some lead =>
      match h : follow lead.low lead.high lead.bits 1 lead.follow bytes with
      | .error (length, reason) => .error ⟨b, position, length, reason⟩
      | .ok (code, rest) => do
        let chars ← decodeFrom (position + lead.follow + 1) rest
        .ok (Char.ofNat code :: chars)
termination_by bytes => bytes.length
decreasing_by
  have := follow_length h
  simp only [List.length_cons]
  omega

/-- The text that the bytes stand for. -/
def decode (bytes : List UInt8) : Except Fault (List Char) :=
  decodeFrom 0 bytes

end Utf8

/-- The text with one line feed for every line end. -/
def unifyLineEnds : List Char → List Char
  | [] => []
  | '\r' :: '\n' :: rest => '\n' :: unifyLineEnds rest
  | c :: rest => (if c = '\r' then '\n' else c) :: unifyLineEnds rest

theorem not_mem_unifyLineEnds (s : List Char) : '\r' ∉ unifyLineEnds s := by
  fun_induction unifyLineEnds s with
  | case1 => simp
  | case2 rest ih => simp [ih]
  | case3 c rest _ ih =>
    simp only [List.mem_cons, not_or]
    refine ⟨?_, ih⟩
    split
    · decide
    next h => exact fun he => h he.symm

end Storyboard.Text
