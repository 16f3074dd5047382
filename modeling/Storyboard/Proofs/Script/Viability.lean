-- SUMMARY: Which kinds of tokens a command may start with, and that the parser gets as far as they go.
import Storyboard.Proofs.Script.Acceptance

/-!
# Viable beginnings

Kinds of tokens are viable if the grammar has a command that starts with tokens of
these kinds (`Viable`), and complete if they are those of a whole command
(`Complete`). The parser is a machine that looks at texts as well, at the digits of
row numbers. But where it stands depends on kinds alone: it goes in step with itself
on bare tokens, which have a kind and nothing else (`State.next_bare`,
`State.next_bare_of_fault`). From every state on bare tokens some command can be
ended (`State.exists_ending`). So kinds are viable if and only if the machine gets
through bare tokens of them (`viable_iff`).
-/

namespace Storyboard.Script

namespace Grammar

/-- The kinds of the tokens of a whole command. -/
def Complete (kinds : List TokenKind) : Prop :=
  ∃ ts c, Derives ts c ∧ ts.map Token.kind = kinds

/-- Kinds of tokens that some command starts with. -/
def Viable (kinds : List TokenKind) : Prop :=
  ∃ more, Complete (kinds ++ more)

end Grammar

open Grammar

/-! ## Bare tokens and states -/

/-- A token of the kind, of which nothing else is known. -/
def TokenKind.bare (k : TokenKind) : Token :=
  { kind := k, text := "", position := 0, line := 0 }

/-- The cell that bare tokens give in place of a cell. -/
def CellSeed.bare (_ : CellSeed) : CellSeed :=
  { row := 0, value := "" }

/-- The value that bare tokens give in place of a value. -/
def RowEntry.bare (e : RowEntry) : RowEntry :=
  { value := "", column := e.column.map fun _ => "" }

theorem rowNumber_empty : rowNumber "" = .ok 0 := rfl

/-- What is worked out from a result is no fault if the result is none. -/
theorem bind_ok_ne_fault {α β : Type} {x : Except ParseError α} {f : Fault}
    (hx : x ≠ .error (.fault f)) (g : α → β) : (x >>= fun a => .ok (g a)) ≠ .error (.fault f) := by
  intro h
  exact hx (eq_error_of_bind_ok h)

theorem rowNumber_ne_fault {digits : String} {f : Fault} :
    rowNumber digits ≠ .error (.fault f) := by
  unfold rowNumber
  split <;> simp

theorem settle_bare {done seeds : List CellSeed} {last : Option (String × String)}
    (h : settle done last = .ok seeds) :
    settle (done.map CellSeed.bare) (last.map fun _ => ("", "")) =
      .ok (seeds.map CellSeed.bare) := by
  cases last with
  | none =>
    cases h
    rfl
  | some entry =>
    obtain ⟨row, -, h⟩ := bind_eq_ok h
    cases h
    rw [List.map_append]
    rfl

theorem settle_ne_fault {done : List CellSeed} {last : Option (String × String)} {f : Fault} :
    settle done last ≠ .error (.fault f) := by
  cases last with
  | none => simp [settle]
  | some entry => exact bind_ok_ne_fault rowNumber_ne_fault _

namespace State

/-- The state on bare tokens at the same place of a command. -/
def bare : State → State
  | start => start
  | verb v => verb v
  | within v => within v
  | tableWord v => tableWord v
  | target v _ => target v ""
  | rowNumber _ rows => rowNumber "" (rows.map fun _ => 0)
  | rowList _ rows _ => rowList "" (rows.map fun _ => 0) ""
  | columnWord v _ => columnWord v ""
  | highlightColumn .. => highlightColumn "" ""
  | cellRow .. => cellRow "" ""
  | cell .. => cell "" "" 0
  | addColumn .. => addColumn "" ""
  | cellsWord .. => cellsWord "" ""
  | seeds _ _ done last comma =>
    seeds "" "" (done.map CellSeed.bare) (last.map fun _ => ("", "")) comma
  | seedOpen _ _ done => seedOpen "" "" (done.map CellSeed.bare)
  | seedRow _ _ done _ => seedRow "" "" (done.map CellSeed.bare) ""
  | seedDash _ _ done _ => seedDash "" "" (done.map CellSeed.bare) ""
  | seedValue _ _ done _ _ => seedValue "" "" (done.map CellSeed.bare) "" ""
  | seedsEnd _ _ done => seedsEnd "" "" (done.map CellSeed.bare)
  | addRow _ => addRow ""
  | entries _ done comma => entries "" (done.map RowEntry.bare) comma
  | entryOpen _ done => entryOpen "" (done.map RowEntry.bare)
  | entryString _ done _ => entryString "" (done.map RowEntry.bare) ""
  | entryDash _ done _ => entryDash "" (done.map RowEntry.bare) ""
  | entryValue _ done column _ =>
    entryValue "" (done.map RowEntry.bare) (column.map fun _ => "") ""
  | entriesEnd _ done => entriesEnd "" (done.map RowEntry.bare)

/-- Where a token leads, its kind alone leads on bare tokens. -/
theorem next_bare {s u : State} {t : Token} (h : s.next t = .ok u) :
    s.bare.next t.kind.bare = .ok u.bare := by
  cases s with
  | rowList table rows digits =>
    simp only [next] at h
    split at h
    next hk =>
      obtain ⟨row, -, h⟩ := bind_eq_ok h
      cases h
      simp [bare, next, TokenKind.bare, hk, rowNumber_empty, bind, Except.bind]
    next => exact absurd h reject_ne_ok
  | cellRow table column =>
    simp only [next] at h
    split at h
    next hk =>
      obtain ⟨row, -, h⟩ := bind_eq_ok h
      cases h
      simp [bare, next, TokenKind.bare, hk, rowNumber_empty, bind, Except.bind]
    next => exact absurd h reject_ne_ok
  | seeds table column done last comma =>
    simp only [next] at h
    split at h
    next hk =>
      cases h
      simp only [bare, next, TokenKind.bare, hk]
    next hk =>
      obtain ⟨seeds, hs, h⟩ := bind_eq_ok h
      cases h
      simp [bare, next, TokenKind.bare, hk, settle_bare hs, bind, Except.bind]
    next hk =>
      obtain ⟨seeds, hs, h⟩ := bind_eq_ok h
      cases h
      simp [bare, next, TokenKind.bare, hk, settle_bare hs, bind, Except.bind]
    next => exact absurd h reject_ne_ok
  | _ =>
    -- nothing is read as a number here: the state only takes in the text of the token
    simp only [next] at h
    repeat' split at h
    all_goals first | exact absurd h reject_ne_ok | cases h
    all_goals simp_all [bare, next, TokenKind.bare, RowEntry.bare]

/-- A token that does not fit is at fault itself, and its kind alone does not fit either. -/
theorem next_bare_of_fault {s : State} {t : Token} {f : Fault}
    (h : s.next t = .error (.fault f)) :
    f = .unexpected t.text t.position ∧ s.bare.next t.kind.bare = reject t.kind.bare := by
  cases s with
  | rowList table rows digits =>
    simp only [next] at h
    split at h
    next => exact absurd h (bind_ok_ne_fault rowNumber_ne_fault _)
    next =>
      cases h
      simp_all [bare, next, TokenKind.bare]
  | cellRow table column =>
    simp only [next] at h
    split at h
    next => exact absurd h (bind_ok_ne_fault rowNumber_ne_fault _)
    next =>
      cases h
      simp_all [bare, next, TokenKind.bare]
  | seeds table column done last comma =>
    simp only [next] at h
    split at h
    next => cases h
    next => exact absurd h (bind_ok_ne_fault settle_ne_fault _)
    next => exact absurd h (bind_ok_ne_fault settle_ne_fault _)
    next =>
      cases h
      simp_all [bare, next, TokenKind.bare]
  | _ =>
    simp only [next] at h
    repeat' split at h
    all_goals cases h
    all_goals simp_all [bare, next, TokenKind.bare]

theorem finish_bare {s : State} {c : Command} (h : s.finish = .ok c) :
    ∃ d, s.bare.finish = .ok d := by
  cases s
  all_goals first | exact ⟨_, rfl⟩ | cases h

/-- A text that ends where it may not is at fault at its end, by the kinds of its tokens alone. -/
theorem finish_bare_of_fault {s : State} {f : Fault} (h : s.finish = .error (.fault f)) :
    f = .endOfInput ∧ s.bare.finish = .error (.fault .endOfInput) := by
  cases s with
  | rowList table rows digits => exact absurd h (bind_ok_ne_fault rowNumber_ne_fault _)
  | _ => cases h <;> exact ⟨rfl, rfl⟩

/-! ## Runs -/

theorem run_bare {s u : State} {ts : List Token} (h : s.run ts = .ok u) :
    s.bare.run ((ts.map Token.kind).map TokenKind.bare) = .ok u.bare := by
  induction ts generalizing s with
  | nil =>
    cases h
    rfl
  | cons t ts ih =>
    obtain ⟨s₁, hn, h⟩ := bind_eq_ok h
    rw [List.map_cons, List.map_cons, run_cons_of_ok (next_bare hn)]
    exact ih h

/-- A run over tokens has gone through the first of them. -/
theorem run_of_append {s u : State} {ts us : List Token} (h : s.run (ts ++ us) = .ok u) :
    ∃ s₁, s.run ts = .ok s₁ ∧ s₁.run us = .ok u := by
  induction ts generalizing s with
  | nil => exact ⟨s, rfl, h⟩
  | cons t ts ih =>
    obtain ⟨s₁, hn, h⟩ := bind_eq_ok h
    obtain ⟨s₂, hs₂, hu⟩ := ih h
    exact ⟨s₂, by rw [run_cons_of_ok hn, hs₂], hu⟩

/-- A run stops with the first token that leads nowhere. -/
theorem run_eq_error {s : State} {ts : List Token} {e : ParseError} (h : s.run ts = .error e) :
    ∃ before t after u, ts = before ++ t :: after ∧ s.run before = .ok u ∧ u.next t = .error e := by
  induction ts generalizing s with
  | nil => cases h
  | cons t ts ih =>
    cases hn : s.next t with
    | error e =>
      rw [run_cons_of_error hn] at h
      cases h
      exact ⟨[], t, ts, s, rfl, rfl, hn⟩
    | ok s₁ =>
      rw [run_cons_of_ok hn] at h
      obtain ⟨before, t', after, u, rfl, hrun, hu⟩ := ih h
      exact ⟨t :: before, t', after, u, rfl, by rw [run_cons_of_ok hn, hrun], hu⟩

/-- Kinds of tokens with which a command can be ended from a state on. -/
def ending : State → List TokenKind
  | start => [.keyword .add, .keyword .within, .keyword .table, .string, .keyword .row]
  | verb _ => [.keyword .within, .keyword .table, .string, .keyword .column, .string]
  | within _ => [.keyword .table, .string, .keyword .column, .string]
  | tableWord _ => [.string, .keyword .column, .string]
  | target .. => [.keyword .column, .string]
  | columnWord .. => [.string]
  | rowNumber .. | cellRow .. => [.integer]
  | rowList .. | highlightColumn .. | cell .. | addColumn .. | seedsEnd .. | addRow ..
  | entriesEnd .. => []
  | cellsWord .. => [.leftBracket, .rightBracket]
  | seeds .. | entries .. => [.rightBracket]
  | seedOpen .. => [.integer, .dash, .identifier, .rightBrace, .rightBracket]
  | seedRow .. => [.dash, .identifier, .rightBrace, .rightBracket]
  | seedDash .. | entryDash .. => [.identifier, .rightBrace, .rightBracket]
  | seedValue .. | entryOpen .. | entryString .. | entryValue .. => [.rightBrace, .rightBracket]

/-- From every state on bare tokens some command can be ended. -/
theorem exists_ending (s : State) :
    ∃ u c, s.bare.run (s.ending.map TokenKind.bare) = .ok u ∧ u.finish = .ok c := by
  cases s with
  | verb v | within v | tableWord v | target v table | columnWord v table =>
    cases v <;> exact ⟨_, _, rfl, rfl⟩
  | seeds table column done last comma =>
    cases last <;> exact ⟨_, _, rfl, rfl⟩
  | _ => exact ⟨_, _, rfl, rfl⟩

end State

/-! ## Kinds -/

theorem map_kind_bare (kinds : List TokenKind) :
    (kinds.map TokenKind.bare).map Token.kind = kinds := by
  simp [TokenKind.bare, Function.comp_def]

/-- Kinds are complete if and only if the machine reads a command off bare tokens of them. -/
theorem complete_iff {kinds : List TokenKind} :
    Complete kinds ↔ ∃ u c, State.start.run (kinds.map TokenKind.bare) = .ok u ∧
      u.finish = .ok c := by
  constructor
  · rintro ⟨ts, c, hd, rfl⟩
    obtain ⟨u, hr, hf⟩ := hd.run
    obtain ⟨d, hd⟩ := State.finish_bare hf
    exact ⟨u.bare, d, State.run_bare hr, hd⟩
  · rintro ⟨u, c, hr, hf⟩
    exact ⟨_, c, (Place.start.run hr).finish hf, map_kind_bare kinds⟩

/-- Kinds are viable if and only if the machine gets through bare tokens of them. -/
theorem viable_iff {kinds : List TokenKind} :
    Viable kinds ↔ ∃ u, State.start.run (kinds.map TokenKind.bare) = .ok u := by
  constructor
  · rintro ⟨more, hc⟩
    obtain ⟨u, c, hr, -⟩ := complete_iff.1 hc
    rw [List.map_append] at hr
    obtain ⟨s, hs, -⟩ := State.run_of_append hr
    exact ⟨s, hs⟩
  · rintro ⟨u, hr⟩
    have hb := State.run_bare hr
    rw [map_kind_bare] at hb
    -- on bare tokens the machine is in bare states, from which a command can be ended
    have hbare : u.bare = u := Except.ok.inj (hb.symm.trans hr)
    obtain ⟨e, c, he, hf⟩ := u.exists_ending
    rw [hbare] at he
    refine ⟨u.ending, complete_iff.2 ⟨e, c, ?_, hf⟩⟩
    rw [List.map_append, State.run_append_of_ok hr, he]

/-! ## Tokens of a text -/

/-- Tokens that the machine gets through are of viable kinds. -/
theorem viable_of_run {s : State} {ts : List Token} (h : State.start.run ts = .ok s) :
    Viable (ts.map Token.kind) :=
  viable_iff.2 ⟨s.bare, State.run_bare h⟩

/-- Where the machine rejects a token, no command goes on with a token of its kind. -/
theorem not_viable_of_fault {s : State} {ts : List Token} {t : Token} {f : Fault}
    (h : State.start.run ts = .ok s) (hf : s.next t = .error (.fault f)) :
    ¬ Viable ((ts ++ [t]).map Token.kind) := by
  intro hv
  obtain ⟨u, hu⟩ := viable_iff.1 hv
  have hb : State.start.run ((ts.map Token.kind).map TokenKind.bare) = .ok s.bare :=
    State.run_bare h
  rw [List.map_append, List.map_append, State.run_append_of_ok hb] at hu
  obtain ⟨v, hv, -⟩ := bind_eq_ok hu
  rw [(State.next_bare_of_fault hf).2] at hv
  exact State.reject_ne_ok hv

/-- Where the machine may not stop, no command has tokens of just these kinds. -/
theorem not_complete_of_fault {s : State} {ts : List Token} {f : Fault}
    (h : State.start.run ts = .ok s) (hf : s.finish = .error (.fault f)) :
    ¬ Complete (ts.map Token.kind) := by
  intro hc
  obtain ⟨u, c, hu, hfin⟩ := complete_iff.1 hc
  obtain rfl : s.bare = u := Except.ok.inj ((State.run_bare h).symm.trans hu)
  rw [(State.finish_bare_of_fault hf).2] at hfin
  cases hfin

end Storyboard.Script
