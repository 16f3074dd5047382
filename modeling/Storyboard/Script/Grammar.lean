-- SUMMARY: The grammar of commands, as derivations of commands from tokens, and that the parser reads all that the grammar derives.
import Storyboard.Script.Parser

/-!
# The grammar of commands

What a command is, said without the machine that reads one: a derivation builds a
command from its tokens. Numbers of rows are numerals that are not too long; values
are taken by their text, whatever they are. `Derives.run` says that the machine gets
through the tokens of every command that the grammar derives and ends with the
command.
-/

namespace Storyboard.Script

/-- The reserved word of a verb. -/
def Verb.keyword : Verb → Keyword
  | highlight => .highlight
  | add => .add

namespace Grammar

/-! ## Parts of commands -/

/-- A numeral that stands for a row number. -/
inductive RowNumber : Token → Int → Prop where
  | intro {t : Token} : t.kind = .integer → t.text.toList.length ≤ Text.Numeral.maxDigits →
      RowNumber t (Text.Numeral.value t.text.toList)

/-- Row numbers between commas. -/
inductive RowList : List Token → List Int → Prop where
  | single {t : Token} {n : Int} : RowNumber t n → RowList [t] [n]
  | snoc {ts : List Token} {rows : List Int} {c t : Token} {n : Int} :
      RowList ts rows → c.kind = .comma → RowNumber t n → RowList (ts ++ [c, t]) (rows ++ [n])

/-- A comma or nothing. -/
inductive OptComma : List Token → Prop where
  | none : OptComma []
  | some {c : Token} : c.kind = .comma → OptComma [c]

/-- One cell of a new column: a row number and a value between braces. -/
inductive Seed : List Token → CellSeed → Prop where
  | intro {l n d v r : Token} {comma : List Token} {row : Int} :
      l.kind = .leftBrace → RowNumber n row → d.kind = .dash → v.kind.isValue = true →
      r.kind = .rightBrace → OptComma comma →
      Seed ([l, n, d, v, r] ++ comma) { row, value := v.text }

/-- One value of a new row, between braces. -/
inductive Entry : List Token → RowEntry → Prop where
  | positional {l v r : Token} {comma : List Token} :
      l.kind = .leftBrace → v.kind.isValue = true → r.kind = .rightBrace → OptComma comma →
      Entry ([l, v, r] ++ comma) { value := v.text, column := none }
  | blank {l r : Token} {comma : List Token} :
      l.kind = .leftBrace → r.kind = .rightBrace → OptComma comma →
      Entry ([l, r] ++ comma) { value := "", column := none }
  | named {l c d v r : Token} {comma : List Token} :
      l.kind = .leftBrace → c.kind = .string → d.kind = .dash → v.kind.isValue = true →
      r.kind = .rightBrace → OptComma comma →
      Entry ([l, c, d, v, r] ++ comma) { value := v.text, column := some c.text }

/-- Any number of parts of one kind, one after the other. -/
inductive Many (Part : List Token → α → Prop) : List Token → List α → Prop where
  | nil : Many Part [] []
  | snoc {ts us : List Token} {parts : List α} {part : α} :
      Many Part ts parts → Part us part → Many Part (ts ++ us) (parts ++ [part])

/-- A verb and the table that it is about. -/
inductive Heading (v : Verb) : List Token → String → Prop where
  | intro {a b c d : Token} :
      a.kind = .keyword v.keyword → b.kind = .keyword .within → c.kind = .keyword .table →
      d.kind = .string → Heading v [a, b, c, d] d.text

/-! ## Commands -/

/-- A whole command. -/
inductive Derives : List Token → Command → Prop where
  | highlightRows {h ts : List Token} {r : Token} {table : String} {rows : List Int} :
      Heading .highlight h table → r.kind = .keyword .row → RowList ts rows →
      Derives (h ++ r :: ts) ⟨table, .highlightRows rows⟩
  | highlightColumn {h : List Token} {k c : Token} {table : String} :
      Heading .highlight h table → k.kind = .keyword .column → c.kind = .string →
      Derives (h ++ [k, c]) ⟨table, .highlightColumn c.text none⟩
  | highlightCell {h : List Token} {k c r n : Token} {table : String} {row : Int} :
      Heading .highlight h table → k.kind = .keyword .column → c.kind = .string →
      r.kind = .keyword .row → RowNumber n row →
      Derives (h ++ [k, c, r, n]) ⟨table, .highlightColumn c.text (some row)⟩
  | addColumn {h : List Token} {k c : Token} {table : String} :
      Heading .add h table → k.kind = .keyword .column → c.kind = .string →
      Derives (h ++ [k, c]) ⟨table, .addColumn c.text none⟩
  | addColumnCells {h ts : List Token} {k c w l r : Token} {table : String}
      {seeds : List CellSeed} :
      Heading .add h table → k.kind = .keyword .column → c.kind = .string →
      w.kind = .keyword .cells → l.kind = .leftBracket → Many Seed ts seeds →
      r.kind = .rightBracket →
      Derives (h ++ [k, c, w, l] ++ ts ++ [r]) ⟨table, .addColumn c.text (some seeds)⟩
  | addRow {h : List Token} {k : Token} {table : String} :
      Heading .add h table → k.kind = .keyword .row → Derives (h ++ [k]) ⟨table, .addRow []⟩
  | addRowValues {h ts : List Token} {k l r : Token} {table : String} {entries : List RowEntry} :
      Heading .add h table → k.kind = .keyword .row → l.kind = .leftBracket →
      Many Entry ts entries → r.kind = .rightBracket →
      Derives (h ++ [k, l] ++ ts ++ [r]) ⟨table, .addRow entries⟩

/-! ## The machine on the parts -/

theorem RowNumber.rowNumber_eq {t : Token} {n : Int} (h : RowNumber t n) :
    rowNumber t.text = .ok n := by
  cases h with
  | intro _ hd =>
    rw [rowNumber, Text.Numeral.read_eq_ok.2 ⟨hd, rfl⟩]

theorem RowNumber.kind_eq {t : Token} {n : Int} (h : RowNumber t n) : t.kind = .integer := by
  cases h with
  | intro hk _ => exact hk

theorem Heading.run {v : Verb} {h : List Token} {table : String} (hh : Heading v h table)
    (rest : List Token) : State.start.run (h ++ rest) = (State.target v table).run rest := by
  cases hh with
  | @intro a b c d ha hb hc hd =>
    have h1 : State.start.next a = .ok (.verb v) := by
      rw [State.next_of_kind _ ha]
      cases v <;> rfl
    have h2 : (State.verb v).next b = .ok (.within v) :=
      State.next_of_kind _ hb
    have h3 : (State.within v).next c = .ok (.tableWord v) :=
      State.next_of_kind _ hc
    have h4 : (State.tableWord v).next d = .ok (.target v d.text) :=
      State.next_of_kind _ hd
    simp only [List.cons_append, List.nil_append]
    rw [State.run_cons_of_ok h1, State.run_cons_of_ok h2, State.run_cons_of_ok h3,
      State.run_cons_of_ok h4]

/-- The machine where the rows to highlight begin. -/
theorem Heading.run_row {h : List Token} {r : Token} {table : String}
    (hh : Heading .highlight h table) (hr : r.kind = .keyword .row) (rest : List Token) :
    State.start.run (h ++ r :: rest) = (State.rowNumber table []).run rest := by
  rw [hh.run, State.run_cons_of_ok (u := .rowNumber table []) (by exact State.next_of_kind _ hr)]

/-- The machine where the row number of a cell must follow. -/
theorem Heading.run_cell {h : List Token} {k c r : Token} {table : String}
    (hh : Heading .highlight h table) (hk : k.kind = .keyword .column) (hc : c.kind = .string)
    (hr : r.kind = .keyword .row) (rest : List Token) :
    State.start.run (h ++ k :: c :: r :: rest) = (State.cellRow table c.text).run rest := by
  rw [hh.run, State.run_cons_of_ok (u := .columnWord .highlight table)
    (by exact State.next_of_kind _ hk),
    State.run_cons_of_ok (u := .highlightColumn table c.text) (by exact State.next_of_kind _ hc),
    State.run_cons_of_ok (u := .cellRow table c.text) (by exact State.next_of_kind _ hr)]

/-- The machine where the cells of a new column begin. -/
theorem Heading.run_cells {h : List Token} {k c w l : Token} {table : String}
    (hh : Heading .add h table) (hk : k.kind = .keyword .column) (hc : c.kind = .string)
    (hw : w.kind = .keyword .cells) (hl : l.kind = .leftBracket) (rest : List Token) :
    State.start.run (h ++ k :: c :: w :: l :: rest) =
      (State.seeds table c.text [] none false).run rest := by
  rw [hh.run, State.run_cons_of_ok (u := .columnWord .add table) (by exact State.next_of_kind _ hk),
    State.run_cons_of_ok (u := .addColumn table c.text) (by exact State.next_of_kind _ hc),
    State.run_cons_of_ok (u := .cellsWord table c.text) (by exact State.next_of_kind _ hw),
    State.run_cons_of_ok (u := .seeds table c.text [] none false)
      (by exact State.next_of_kind _ hl)]

/-- The machine has a row list behind it, its last number not yet settled. -/
theorem RowList.run {ts : List Token} {rows : List Int} (h : RowList ts rows) (table : String) :
    ∃ before digits last, rows = before ++ [last] ∧ Script.rowNumber digits = .ok last ∧
      (State.rowNumber table []).run ts = .ok (.rowList table before digits) := by
  induction h with
  | @single t n hn =>
    refine ⟨[], t.text, n, rfl, hn.rowNumber_eq, ?_⟩
    rw [State.run_cons_of_ok (u := .rowList table [] t.text)
      (by exact State.next_of_kind _ hn.kind_eq)]
    rfl
  | @snoc ts rows c t n _ hc hn ih =>
    obtain ⟨before, digits, last, rfl, hd, hr⟩ := ih
    refine ⟨before ++ [last], t.text, n, rfl, hn.rowNumber_eq, ?_⟩
    rw [State.run_append_of_ok hr,
      State.run_cons_of_ok (u := .rowNumber table (before ++ [last]))
        (by rw [State.next_rowList hc, hd]; rfl),
      State.run_cons_of_ok (u := .rowList table (before ++ [last]) t.text)
        (by exact State.next_of_kind _ hn.kind_eq)]
    rfl

/-- Through an entry of a list of cells the machine goes without settling its row number. -/
theorem run_seed {l n d v r : Token} (hl : l.kind = .leftBrace) (hn : n.kind = .integer)
    (hd : d.kind = .dash) (hv : v.kind.isValue = true) (hr : r.kind = .rightBrace)
    {done seeds : List CellSeed} {last : Option (String × String)}
    (hs : settle done last = .ok seeds) (table column : String) (comma : Bool) (rest : List Token) :
    (State.seeds table column done last comma).run (l :: n :: d :: v :: r :: rest) =
      (State.seeds table column seeds (some (n.text, v.text)) true).run rest := by
  have h1 : (State.seeds table column done last comma).next l =
      .ok (.seedOpen table column seeds) := by
    rw [State.next_seeds_open hl, hs]
    rfl
  have h2 : (State.seedOpen table column seeds).next n =
      .ok (.seedRow table column seeds n.text) :=
    State.next_of_kind _ hn
  have h3 : (State.seedRow table column seeds n.text).next d =
      .ok (.seedDash table column seeds n.text) :=
    State.next_of_kind _ hd
  have h4 : (State.seedDash table column seeds n.text).next v =
      .ok (.seedValue table column seeds n.text v.text) :=
    if_pos hv
  have h5 : (State.seedValue table column seeds n.text v.text).next r =
      .ok (.seeds table column seeds (some (n.text, v.text)) true) :=
    State.next_of_kind _ hr
  rw [State.run_cons_of_ok h1, State.run_cons_of_ok h2, State.run_cons_of_ok h3,
    State.run_cons_of_ok h4, State.run_cons_of_ok h5]

/-- The machine after the closing brace of an entry of a list of cells and an optional comma. -/
theorem OptComma.run_seeds {comma : List Token} (h : OptComma comma) (table column : String)
    (done : List CellSeed) (last : Option (String × String)) :
    ∃ more, (State.seeds table column done last true).run comma =
      .ok (.seeds table column done last more) := by
  cases h with
  | none => exact ⟨true, rfl⟩
  | some hc =>
    refine ⟨false, ?_⟩
    rw [State.run_cons_of_ok (u := .seeds table column done last false)
      (by exact State.next_of_kind _ hc)]
    rfl

/-- The machine has a list of cells behind it, its last entry not yet settled. -/
theorem Many.run_seeds {ts : List Token} {seeds : List CellSeed} (h : Many Seed ts seeds)
    (table column : String) :
    ∃ done last comma, settle done last = .ok seeds ∧
      (State.seeds table column [] none false).run ts = .ok (.seeds table column done last comma) := by
  induction h with
  | nil => exact ⟨[], none, false, rfl, rfl⟩
  | @snoc ts us seeds seed _ hs ih =>
    obtain ⟨done, last, comma, hd, hr⟩ := ih
    rw [State.run_append_of_ok hr]
    cases hs with
    | @intro l n d v r opt row hl hn hdash hv hrb hopt =>
      have hset : settle seeds (some (n.text, v.text)) = .ok (seeds ++ [{ row, value := v.text }]) := by
        simp only [settle, hn.rowNumber_eq]
        rfl
      obtain ⟨more, hmore⟩ := hopt.run_seeds table column seeds (some (n.text, v.text))
      refine ⟨seeds, some (n.text, v.text), more, hset, ?_⟩
      simp only [List.cons_append, List.nil_append]
      rw [run_seed hl hn.kind_eq hdash hv hrb hd, hmore]

/-- The machine after the closing brace of an entry and an optional comma. -/
theorem OptComma.run_entries {comma : List Token} (h : OptComma comma) (table : String)
    (done : List RowEntry) :
    ∃ more, (State.entries table done true).run comma = .ok (.entries table done more) := by
  cases h with
  | none => exact ⟨true, rfl⟩
  | some hc =>
    refine ⟨false, ?_⟩
    rw [State.run_cons_of_ok (u := .entries table done false) (by exact State.next_of_kind _ hc)]
    rfl

/-- A value that opens an entry: a literal may still turn out to name a column. -/
theorem next_entryOpen {t : Token} (h : t.kind.isValue = true) (table : String)
    (done : List RowEntry) :
    (State.entryOpen table done).next t =
      .ok (if t.kind = .string then .entryString table done t.text
        else .entryValue table done none t.text) := by
  cases hk : t.kind <;> simp_all [State.next, TokenKind.isValue]

/-- The machine has a list of values behind it. -/
theorem Many.run_entries {ts : List Token} {entries : List RowEntry} (h : Many Entry ts entries)
    (table : String) :
    ∃ more, (State.entries table [] false).run ts = .ok (.entries table entries more) := by
  induction h with
  | nil => exact ⟨false, rfl⟩
  | @snoc ts us done entry _ he ih =>
    obtain ⟨more, hr⟩ := ih
    rw [State.run_append_of_ok hr]
    have open_ : ∀ l : Token, l.kind = .leftBrace →
        (State.entries table done more).next l = .ok (.entryOpen table done) := by
      intro l hl
      exact State.next_of_kind _ hl
    cases he with
    | @positional l v r comma hl hv hrb hopt =>
      have hclose : ((if v.kind = .string then State.entryString table done v.text
          else .entryValue table done none v.text).next r) =
          .ok (.entries table (done ++ [{ value := v.text, column := none }]) true) := by
        split <;> exact State.next_of_kind _ hrb
      simp only [List.cons_append, List.nil_append]
      rw [State.run_cons_of_ok (open_ l hl), State.run_cons_of_ok (next_entryOpen hv table done),
        State.run_cons_of_ok hclose]
      exact hopt.run_entries table _
    | @blank l r comma hl hrb hopt =>
      have hclose : (State.entryOpen table done).next r =
          .ok (.entries table (done ++ [{ value := "", column := none }]) true) :=
        State.next_of_kind _ hrb
      simp only [List.cons_append, List.nil_append]
      rw [State.run_cons_of_ok (open_ l hl), State.run_cons_of_ok hclose]
      exact hopt.run_entries table _
    | @named l c d v r comma hl hc hd hv hrb hopt =>
      have h2 : (State.entryOpen table done).next c = .ok (.entryString table done c.text) :=
        State.next_of_kind _ hc
      have h3 : (State.entryString table done c.text).next d =
          .ok (.entryDash table done c.text) :=
        State.next_of_kind _ hd
      have h4 : (State.entryDash table done c.text).next v =
          .ok (.entryValue table done (some c.text) v.text) :=
        if_pos hv
      have h5 : (State.entryValue table done (some c.text) v.text).next r =
          .ok (.entries table (done ++ [{ value := v.text, column := some c.text }]) true) :=
        State.next_of_kind _ hrb
      simp only [List.cons_append, List.nil_append]
      rw [State.run_cons_of_ok (open_ l hl), State.run_cons_of_ok h2, State.run_cons_of_ok h3,
        State.run_cons_of_ok h4, State.run_cons_of_ok h5]
      exact hopt.run_entries table _

/-! ## The machine on commands -/

/-- The machine gets through the tokens of a command and ends with the command. -/
theorem Derives.run {ts : List Token} {c : Command} (h : Derives ts c) :
    ∃ s, State.start.run ts = .ok s ∧ s.finish = .ok c := by
  cases h with
  | @highlightRows h ts r table rows hh hr hl =>
    obtain ⟨before, digits, last, rfl, hd, hrun⟩ := hl.run table
    refine ⟨.rowList table before digits, ?_, ?_⟩
    · rw [hh.run_row hr]
      exact hrun
    · simp only [State.finish, hd]
      rfl
  | @highlightColumn h k c table hh hk hc =>
    refine ⟨.highlightColumn table c.text, ?_, rfl⟩
    rw [hh.run, State.run_cons_of_ok (u := .columnWord .highlight table)
      (by exact State.next_of_kind _ hk),
      State.run_cons_of_ok (u := .highlightColumn table c.text) (by exact State.next_of_kind _ hc)]
    rfl
  | @highlightCell h k c r n table row hh hk hc hr hn =>
    refine ⟨.cell table c.text row, ?_, rfl⟩
    rw [hh.run_cell hk hc hr, State.run_cons_of_ok (u := .cell table c.text row)
      (by rw [State.next_cellRow hn.kind_eq, hn.rowNumber_eq]; rfl)]
    rfl
  | @addColumn h k c table hh hk hc =>
    refine ⟨.addColumn table c.text, ?_, rfl⟩
    rw [hh.run, State.run_cons_of_ok (u := .columnWord .add table)
      (by exact State.next_of_kind _ hk),
      State.run_cons_of_ok (u := .addColumn table c.text) (by exact State.next_of_kind _ hc)]
    rfl
  | @addColumnCells h ts k c w l r table seeds hh hk hc hw hl hs hr =>
    obtain ⟨done, last, comma, hset, hrun⟩ := hs.run_seeds table c.text
    refine ⟨.seedsEnd table c.text seeds, ?_, rfl⟩
    simp only [List.append_assoc, List.cons_append, List.nil_append]
    rw [hh.run_cells hk hc hw hl, State.run_append_of_ok hrun,
      State.run_cons_of_ok (u := .seedsEnd table c.text seeds)
        (by rw [State.next_seeds_close hr, hset]; rfl)]
    rfl
  | @addRow h k table hh hk =>
    refine ⟨.addRow table, ?_, rfl⟩
    rw [hh.run, State.run_cons_of_ok (u := .addRow table) (by exact State.next_of_kind _ hk)]
    rfl
  | @addRowValues h ts k l r table entries hh hk hl he hr =>
    obtain ⟨more, hrun⟩ := he.run_entries table
    refine ⟨.entriesEnd table entries, ?_, rfl⟩
    rw [List.append_assoc, List.append_assoc, hh.run]
    simp only [List.cons_append, List.nil_append]
    rw [State.run_cons_of_ok (u := .addRow table) (by exact State.next_of_kind _ hk),
      State.run_cons_of_ok (u := .entries table [] false) (by exact State.next_of_kind _ hl),
      State.run_append_of_ok hrun,
      State.run_cons_of_ok (u := .entriesEnd table entries) (by exact State.next_of_kind _ hr)]
    rfl

end Grammar

end Storyboard.Script
