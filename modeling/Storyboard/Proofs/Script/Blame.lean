-- SUMMARY: What the message about a text that is no command blames is the first thing in the text with which no command can go on.
import Storyboard.Proofs.Script.Span
import Storyboard.Proofs.Script.Viability

/-!
# What a fault blames

A fault blames a character, a token or the end of the text. `Fault.Just` says when it
does so with good reason: all tokens before are viable, and what is blamed is the first
thing that cannot go on from there. Every fault that the parser finds is just
(`just_of_parse`). Its message shows which of the three is blamed, and it is never
about two of them (`existsUnique_blame`).
-/

namespace Storyboard.Script

open Grammar

/-! ## Just faults -/

/-- The fault is the first thing in the text with which no command goes on. -/
def Fault.Just (text : List Char) : Fault → Prop
  | illegal c p =>
    (scan text).illegal = some ⟨c, p⟩ ∧ (scan (text.take p)).illegal = none ∧
      Viable ((scan (text.take p)).tokens.map Token.kind)
  | unexpected w p =>
    ∃ before t after, (scan text).tokens = before ++ t :: after ∧ t.text = w ∧ t.position = p ∧
      Viable (before.map Token.kind) ∧ ¬ Viable ((before ++ [t]).map Token.kind)
  | endOfInput =>
    (scan text).illegal = none ∧ Viable ((scan text).tokens.map Token.kind) ∧
      ¬ Complete ((scan text).tokens.map Token.kind)

/-- Up to an illegal character the text has the same tokens as if it ended there. -/
theorem scan_take_of_illegal {text : List Char} {i : Illegal} (h : (scan text).illegal = some i) :
    scan (text.take i.position) = ⟨(scan text).tokens, none⟩ := by
  obtain ⟨before, rest, hs, hpos, -, hscan⟩ := exists_of_illegal h
  rw [Nat.zero_add] at hpos
  have htake : text.take i.position = before := by
    rw [hpos, hs, List.take_left]
  rw [htake]
  exact hscan

/-- An illegal character stands at its position. -/
theorem getElem?_of_illegal {text : List Char} {i : Illegal} (h : (scan text).illegal = some i) :
    text[i.position]? = some i.char := by
  obtain ⟨before, rest, hs, hpos, -⟩ := exists_of_illegal h
  rw [hpos, hs]
  simp

theorem just_of_parse {text : List Char} {f : Fault} (h : parse text = .error (.fault f)) :
    f.Just text := by
  unfold parse Command.ofScan at h
  cases hr : State.start.run (scan text).tokens with
  | error e =>
    simp only [hr, bind, Except.bind, Except.error.injEq] at h
    subst h
    obtain ⟨before, t, after, u, htokens, hrun, hfault⟩ := State.run_eq_error hr
    obtain ⟨rfl, -⟩ := State.next_bare_of_fault hfault
    exact ⟨before, t, after, htokens, rfl, rfl, viable_of_run hrun,
      not_viable_of_fault hrun hfault⟩
  | ok s =>
    simp only [hr, bind, Except.bind] at h
    cases hi : (scan text).illegal with
    | some i =>
      simp only [hi, Except.error.injEq, ParseError.fault.injEq] at h
      subst h
      have htake := scan_take_of_illegal hi
      refine ⟨hi, by rw [htake], ?_⟩
      rw [htake]
      exact viable_of_run hr
    | none =>
      simp only [hi] at h
      obtain ⟨rfl, -⟩ := State.finish_bare_of_fault h
      exact ⟨hi, viable_of_run hr, not_complete_of_fault hr h⟩

/-! ## Messages -/

/-- What the message about a text that is no command may blame. -/
inductive Blame where
  | character
  | token
  | ending

/-- The message blames this of the text, and with reason: a character at which the scanner stops,
    the tokens before it being viable; a token with which the viable tokens before it are so no
    longer; or the end, all tokens being viable, but no whole command. -/
def Blame.Fits (text : List Char) (message : String) : Blame → Prop
  | character =>
    ∃ (c : Char) (p : Nat),
      message = "Illegal character '" ++ c.toString ++ "' at position " ++ toString p ∧
      text[p]? = some c ∧ (scan text).illegal = some ⟨c, p⟩ ∧
      (scan (text.take p)).illegal = none ∧ Viable ((scan (text.take p)).tokens.map Token.kind)
  | token =>
    ∃ before t after, (scan text).tokens = before ++ t :: after ∧
      message = "Syntax error at '" ++ t.text ++ "' (position " ++ toString t.position ++ ")" ∧
      Viable (before.map Token.kind) ∧ ¬ Viable ((before ++ [t]).map Token.kind)
  | ending =>
    message = "Unexpected end of input" ∧ (scan text).illegal = none ∧
      Viable ((scan text).tokens.map Token.kind) ∧ ¬ Complete ((scan text).tokens.map Token.kind)

/-- The letter that a message starts with. -/
def Blame.initial : Blame → Char
  | character => 'I'
  | token => 'S'
  | ending => 'U'

theorem Blame.Fits.head?_eq {text : List Char} {message : String} {b : Blame}
    (h : b.Fits text message) : message.toList.head? = some b.initial := by
  cases b with
  | character =>
    obtain ⟨c, p, rfl, -⟩ := h
    simp [Blame.initial]
  | token =>
    obtain ⟨before, t, after, -, rfl, -⟩ := h
    simp [Blame.initial]
  | ending =>
    obtain ⟨rfl, -⟩ := h
    simp [Blame.initial]

theorem Blame.initial_inj {a b : Blame} (h : a.initial = b.initial) : a = b := by
  cases a <;> cases b <;> first | rfl | exact absurd h (by decide)

/-- A just fault blames what it is about. -/
theorem Fault.Just.exists_fits {text : List Char} {f : Fault} (h : f.Just text) :
    ∃ b : Blame, b.Fits text f.message := by
  cases f with
  | illegal c p =>
    obtain ⟨hi, hbefore, hviable⟩ := h
    exact ⟨.character, c, p, rfl, getElem?_of_illegal hi, hi, hbefore, hviable⟩
  | unexpected w p =>
    obtain ⟨before, t, after, htokens, rfl, rfl, hviable, hnot⟩ := h
    exact ⟨.token, before, t, after, htokens, rfl, hviable, hnot⟩
  | endOfInput => exact ⟨.ending, rfl, h⟩

/-- The message about a text that is no command blames exactly one of a character, a token and the
    end, namely the first thing with which no command goes on. There is no other message. -/
theorem existsUnique_blame {text : List Char} {f : Fault} (h : parse text = .error (.fault f)) :
    (∃! b : Blame, b.Fits text f.message) ∧ f.message ≠ "Empty command" := by
  obtain ⟨b, hb⟩ := (just_of_parse h).exists_fits
  constructor
  · refine ⟨b, hb, ?_⟩
    intro b' hb'
    have hinitial := hb'.head?_eq.symm.trans hb.head?_eq
    exact Blame.initial_inj (Option.some.inj hinitial)
  · intro hempty
    have hhead := hb.head?_eq
    rw [hempty] at hhead
    cases b <;> exact absurd hhead (by decide)

/-- A list of values with one comma too many, and an illegal character further on. -/
def doubledComma : List Char :=
  "add in table 'T' row [\x7b'a'-x\x7d,, $".toList

theorem existsUnique_blame_doubledComma :
    parse doubledComma = .error (.fault (.unexpected "," 30)) ∧
      (∃! b : Blame, b.Fits doubledComma (Fault.unexpected "," 30).message) ∧
      (Fault.unexpected "," 30).message ≠ "Empty command" := by
  have h : parse doubledComma = .error (.fault (.unexpected "," 30)) := by decide +kernel
  exact ⟨h, existsUnique_blame h⟩

end Storyboard.Script
