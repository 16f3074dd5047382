-- SUMMARY: The parser accepts exactly the texts whose tokens the grammar derives, and reads off them the command that it derives.
import Storyboard.Proofs.Except
import Storyboard.Script.Grammar

/-!
# What the parser accepts

`Derives.run` says that the machine gets through all that the grammar derives. Here
is the way back: whatever tokens lead the machine to a place (`Place`), they are what
the grammar has there. One token keeps this (`Place.next`), hence any number of
them (`Place.run`), and where the text may end they are a whole command
(`Place.finish`). A row number stands in a state as digits until it is settled, so
the parts of a list before that moment are described by what they become with the
number (`SeedsOpen`).
-/

namespace Storyboard.Script

open Grammar

namespace Grammar

/-! ## Parts that are still open -/

/-- Row numbers, each with its comma. -/
inductive RowsOpen : List Token → List Int → Prop where
  | nil : RowsOpen [] []
  | snoc {ts : List Token} {rows : List Int} {c : Token} :
      RowList ts rows → c.kind = .comma → RowsOpen (ts ++ [c]) rows

/-- A list of cells, of whose last entry only the digits of the row number are known; and whether
    a comma may follow. -/
inductive SeedsOpen : List Token → List CellSeed → Option (String × String) → Bool → Prop where
  | nil : SeedsOpen [] [] none false
  | closed {ts us : List Token} {done : List CellSeed} {digits value : String} :
      Many Seed ts done →
      (∀ row comma, rowNumber digits = .ok row → OptComma comma →
        Seed (us ++ comma) { row, value }) →
      SeedsOpen (ts ++ us) done (some (digits, value)) true
  | comma {ts us : List Token} {done : List CellSeed} {digits value : String} :
      Many Seed ts done → (∀ row, rowNumber digits = .ok row → Seed us { row, value }) →
      SeedsOpen (ts ++ us) done (some (digits, value)) false

/-- A list of values, and whether a comma may follow. -/
inductive EntriesOpen : List Token → List RowEntry → Bool → Prop where
  | closed {ts us : List Token} {done : List RowEntry} {e : RowEntry} :
      Many Entry ts done → (∀ comma, OptComma comma → Entry (us ++ comma) e) →
      EntriesOpen (ts ++ us) (done ++ [e]) true
  | comma {ts : List Token} {done : List RowEntry} : Many Entry ts done → EntriesOpen ts done false

/-- All that comes before the cells of a new column. -/
inductive CellsHead : List Token → String → String → Prop where
  | intro {h : List Token} {k c w l : Token} {table : String} :
      Heading .add h table → k.kind = .keyword .column → c.kind = .string →
      w.kind = .keyword .cells → l.kind = .leftBracket → CellsHead (h ++ [k, c, w, l]) table c.text

/-- All that comes before the values of a new row. -/
inductive EntriesHead : List Token → String → Prop where
  | intro {h : List Token} {k l : Token} {table : String} :
      Heading .add h table → k.kind = .keyword .row → l.kind = .leftBracket →
      EntriesHead (h ++ [k, l]) table

theorem rowNumber_of_eq_ok {t : Token} {row : Int} (hk : t.kind = .integer)
    (h : Script.rowNumber t.text = .ok row) : RowNumber t row := by
  simp only [Script.rowNumber] at h
  split at h
  next n hn =>
    obtain ⟨hlen, rfl⟩ := Text.Numeral.read_eq_ok.1 hn
    cases h
    exact .intro hk hlen
  next => cases h

theorem RowsOpen.rowList {ts : List Token} {rows : List Int} {t : Token} {row : Int}
    (h : RowsOpen ts rows) (hn : RowNumber t row) : RowList (ts ++ [t]) (rows ++ [row]) := by
  cases h with
  | nil => exact .single hn
  | snoc hl hc =>
    rw [List.append_assoc]
    exact .snoc hl hc hn

theorem SeedsOpen.many {ts : List Token} {done seeds : List CellSeed}
    {last : Option (String × String)} {comma : Bool} (h : SeedsOpen ts done last comma)
    (hs : settle done last = .ok seeds) : Many Seed ts seeds := by
  cases h with
  | nil =>
    cases hs
    exact .nil
  | @closed ts us done digits value hm hseed =>
    obtain ⟨row, hr, hs⟩ := bind_eq_ok hs
    cases hs
    have := hseed row [] hr .none
    rw [List.append_nil] at this
    exact .snoc hm this
  | @comma ts us done digits value hm hseed =>
    obtain ⟨row, hr, hs⟩ := bind_eq_ok hs
    cases hs
    exact .snoc hm (hseed row hr)

/-- A cell that is just closed. -/
theorem SeedsOpen.close {ts : List Token} {b n d v r : Token} {done : List CellSeed}
    (hm : Many Seed ts done) (hb : b.kind = .leftBrace) (hn : n.kind = .integer)
    (hd : d.kind = .dash) (hv : v.kind.isValue = true) (hr : r.kind = .rightBrace) :
    SeedsOpen (ts ++ [b, n, d, v, r]) done (some (n.text, v.text)) true := by
  refine .closed hm fun row comma hrow hc => ?_
  exact .intro hb (rowNumber_of_eq_ok hn hrow) hd hv hr hc

theorem EntriesOpen.many {ts : List Token} {done : List RowEntry} {comma : Bool}
    (h : EntriesOpen ts done comma) : Many Entry ts done := by
  cases h with
  | closed hm he =>
    have := he [] .none
    rw [List.append_nil] at this
    exact .snoc hm this
  | comma hm => exact hm

end Grammar

/-! ## The tokens before a place -/

/-- The tokens that lead to a state. -/
inductive Place : State → List Token → Prop where
  | start : Place .start []
  | verb {v : Verb} {a : Token} : a.kind = .keyword v.keyword → Place (.verb v) [a]
  | within {v : Verb} {a b : Token} :
      a.kind = .keyword v.keyword → b.kind = .keyword .within → Place (.within v) [a, b]
  | tableWord {v : Verb} {a b c : Token} :
      a.kind = .keyword v.keyword → b.kind = .keyword .within → c.kind = .keyword .table →
      Place (.tableWord v) [a, b, c]
  | target {v : Verb} {h : List Token} {table : String} :
      Heading v h table → Place (.target v table) h
  | rowNumber {h ts : List Token} {r : Token} {table : String} {rows : List Int} :
      Heading .highlight h table → r.kind = .keyword .row → RowsOpen ts rows →
      Place (.rowNumber table rows) (h ++ r :: ts)
  | rowList {h ts : List Token} {r t : Token} {table : String} {rows : List Int} :
      Heading .highlight h table → r.kind = .keyword .row → RowsOpen ts rows → t.kind = .integer →
      Place (.rowList table rows t.text) (h ++ r :: (ts ++ [t]))
  | columnWord {v : Verb} {h : List Token} {k : Token} {table : String} :
      Heading v h table → k.kind = .keyword .column → Place (.columnWord v table) (h ++ [k])
  | highlightColumn {h : List Token} {k c : Token} {table : String} :
      Heading .highlight h table → k.kind = .keyword .column → c.kind = .string →
      Place (.highlightColumn table c.text) (h ++ [k, c])
  | cellRow {h : List Token} {k c r : Token} {table : String} :
      Heading .highlight h table → k.kind = .keyword .column → c.kind = .string →
      r.kind = .keyword .row → Place (.cellRow table c.text) (h ++ [k, c, r])
  | cell {h : List Token} {k c r n : Token} {table : String} {row : Int} :
      Heading .highlight h table → k.kind = .keyword .column → c.kind = .string →
      r.kind = .keyword .row → RowNumber n row →
      Place (.cell table c.text row) (h ++ [k, c, r, n])
  | addColumn {h : List Token} {k c : Token} {table : String} :
      Heading .add h table → k.kind = .keyword .column → c.kind = .string →
      Place (.addColumn table c.text) (h ++ [k, c])
  | cellsWord {h : List Token} {k c w : Token} {table : String} :
      Heading .add h table → k.kind = .keyword .column → c.kind = .string →
      w.kind = .keyword .cells → Place (.cellsWord table c.text) (h ++ [k, c, w])
  | seeds {h ts : List Token} {table column : String} {done : List CellSeed}
      {last : Option (String × String)} {comma : Bool} :
      CellsHead h table column → SeedsOpen ts done last comma →
      Place (.seeds table column done last comma) (h ++ ts)
  | seedOpen {h ts : List Token} {b : Token} {table column : String} {done : List CellSeed} :
      CellsHead h table column → Many Seed ts done → b.kind = .leftBrace →
      Place (.seedOpen table column done) (h ++ (ts ++ [b]))
  | seedRow {h ts : List Token} {b n : Token} {table column : String} {done : List CellSeed} :
      CellsHead h table column → Many Seed ts done → b.kind = .leftBrace → n.kind = .integer →
      Place (.seedRow table column done n.text) (h ++ (ts ++ [b, n]))
  | seedDash {h ts : List Token} {b n d : Token} {table column : String} {done : List CellSeed} :
      CellsHead h table column → Many Seed ts done → b.kind = .leftBrace → n.kind = .integer →
      d.kind = .dash → Place (.seedDash table column done n.text) (h ++ (ts ++ [b, n, d]))
  | seedValue {h ts : List Token} {b n d v : Token} {table column : String}
      {done : List CellSeed} :
      CellsHead h table column → Many Seed ts done → b.kind = .leftBrace → n.kind = .integer →
      d.kind = .dash → v.kind.isValue = true →
      Place (.seedValue table column done n.text v.text) (h ++ (ts ++ [b, n, d, v]))
  | seedsEnd {h ts : List Token} {r : Token} {table column : String} {done : List CellSeed} :
      CellsHead h table column → Many Seed ts done → r.kind = .rightBracket →
      Place (.seedsEnd table column done) (h ++ (ts ++ [r]))
  | addRow {h : List Token} {k : Token} {table : String} :
      Heading .add h table → k.kind = .keyword .row → Place (.addRow table) (h ++ [k])
  | entries {h ts : List Token} {table : String} {done : List RowEntry} {comma : Bool} :
      EntriesHead h table → EntriesOpen ts done comma →
      Place (.entries table done comma) (h ++ ts)
  | entryOpen {h ts : List Token} {b : Token} {table : String} {done : List RowEntry} :
      EntriesHead h table → Many Entry ts done → b.kind = .leftBrace →
      Place (.entryOpen table done) (h ++ (ts ++ [b]))
  | entryString {h ts : List Token} {b s : Token} {table : String} {done : List RowEntry} :
      EntriesHead h table → Many Entry ts done → b.kind = .leftBrace → s.kind = .string →
      Place (.entryString table done s.text) (h ++ (ts ++ [b, s]))
  | entryDash {h ts : List Token} {b s d : Token} {table : String} {done : List RowEntry} :
      EntriesHead h table → Many Entry ts done → b.kind = .leftBrace → s.kind = .string →
      d.kind = .dash → Place (.entryDash table done s.text) (h ++ (ts ++ [b, s, d]))
  | entryValue {h ts us : List Token} {table value : String} {done : List RowEntry}
      {column : Option String} :
      EntriesHead h table → Many Entry ts done →
      (∀ r comma, r.kind = .rightBrace → OptComma comma →
        Entry (us ++ r :: comma) { value, column }) →
      Place (.entryValue table done column value) (h ++ (ts ++ us))
  | entriesEnd {h ts : List Token} {r : Token} {table : String} {done : List RowEntry} :
      EntriesHead h table → Many Entry ts done → r.kind = .rightBracket →
      Place (.entriesEnd table done) (h ++ (ts ++ [r]))

theorem State.reject_ne_ok {t : Token} {u : State} : State.reject t ≠ .ok u := by
  intro h
  cases h

/-- One token leads from a place to a place. -/
theorem Place.next {s u : State} {ts : List Token} {t : Token} (h : Place s ts)
    (hn : s.next t = .ok u) : Place u (ts ++ [t]) := by
  cases h with
  | start =>
    simp only [State.next] at hn
    split at hn
    next hk => cases hn; exact .verb hk
    next hk => cases hn; exact .verb hk
    next => exact absurd hn State.reject_ne_ok
  | verb ha =>
    simp only [State.next] at hn
    split at hn
    next hk => cases hn; exact .within ha hk
    next => exact absurd hn State.reject_ne_ok
  | within ha hb =>
    simp only [State.next] at hn
    split at hn
    next hk => cases hn; exact .tableWord ha hb hk
    next => exact absurd hn State.reject_ne_ok
  | tableWord ha hb hc =>
    simp only [State.next] at hn
    split at hn
    next hk => cases hn; exact .target (.intro ha hb hc hk)
    next => exact absurd hn State.reject_ne_ok
  | target hh =>
    simp only [State.next] at hn
    split at hn
    next hk => cases hn; exact .rowNumber hh hk .nil
    next hk => cases hn; exact .addRow hh hk
    next hk => cases hn; exact .columnWord hh hk
    next => exact absurd hn State.reject_ne_ok
  | rowNumber hh hr hrows =>
    simp only [State.next] at hn
    split at hn
    next hk =>
      cases hn
      simpa using Place.rowList hh hr hrows hk
    next => exact absurd hn State.reject_ne_ok
  | @rowList h ts r n table rows hh hr hrows hi =>
    simp only [State.next] at hn
    split at hn
    next hk =>
      obtain ⟨row, hd, hn⟩ := bind_eq_ok hn
      cases hn
      simpa using Place.rowNumber hh hr (.snoc (hrows.rowList (rowNumber_of_eq_ok hi hd)) hk)
    next => exact absurd hn State.reject_ne_ok
  | columnWord hh hc =>
    simp only [State.next] at hn
    split at hn
    next hk => cases hn; simpa using Place.highlightColumn hh hc hk
    next hk => cases hn; simpa using Place.addColumn hh hc hk
    next => exact absurd hn State.reject_ne_ok
  | highlightColumn hh hk hc =>
    simp only [State.next] at hn
    split at hn
    next hr => cases hn; simpa using Place.cellRow hh hk hc hr
    next => exact absurd hn State.reject_ne_ok
  | cellRow hh hk hc hr =>
    simp only [State.next] at hn
    split at hn
    next hi =>
      obtain ⟨row, hd, hn⟩ := bind_eq_ok hn
      cases hn
      simpa using Place.cell hh hk hc hr (rowNumber_of_eq_ok hi hd)
    next => exact absurd hn State.reject_ne_ok
  | cell => exact absurd hn State.reject_ne_ok
  | addColumn hh hk hc =>
    simp only [State.next] at hn
    split at hn
    next hw => cases hn; simpa using Place.cellsWord hh hk hc hw
    next => exact absurd hn State.reject_ne_ok
  | cellsWord hh hk hc hw =>
    simp only [State.next] at hn
    split at hn
    next hl => cases hn; simpa using Place.seeds (.intro hh hk hc hw hl) .nil
    next => exact absurd hn State.reject_ne_ok
  | @seeds h ts table column done last comma hh hs =>
    simp only [State.next] at hn
    split at hn
    next hc =>
      cases hn
      cases hs with
      | closed hm hseed =>
        rw [List.append_assoc, List.append_assoc]
        exact .seeds hh (.comma hm fun row hrow => hseed row [t] hrow (.some hc))
    next hb =>
      obtain ⟨seeds, hd, hn⟩ := bind_eq_ok hn
      cases hn
      simpa using Place.seedOpen hh (hs.many hd) hb
    next hr =>
      obtain ⟨seeds, hd, hn⟩ := bind_eq_ok hn
      cases hn
      simpa using Place.seedsEnd hh (hs.many hd) hr
    next => exact absurd hn State.reject_ne_ok
  | seedOpen hh hm hb =>
    simp only [State.next] at hn
    split at hn
    next hi => cases hn; simpa using Place.seedRow hh hm hb hi
    next => exact absurd hn State.reject_ne_ok
  | seedRow hh hm hb hi =>
    simp only [State.next] at hn
    split at hn
    next hd => cases hn; simpa using Place.seedDash hh hm hb hi hd
    next => exact absurd hn State.reject_ne_ok
  | seedDash hh hm hb hi hd =>
    simp only [State.next] at hn
    split at hn
    next hv => cases hn; simpa using Place.seedValue hh hm hb hi hd hv
    next => exact absurd hn State.reject_ne_ok
  | seedValue hh hm hb hi hd hv =>
    simp only [State.next] at hn
    split at hn
    next hr => cases hn; simpa using Place.seeds hh (.close hm hb hi hd hv hr)
    next => exact absurd hn State.reject_ne_ok
  | seedsEnd => exact absurd hn State.reject_ne_ok
  | addRow hh hk =>
    simp only [State.next] at hn
    split at hn
    next hl => cases hn; simpa using Place.entries (.intro hh hk hl) (.comma .nil)
    next => exact absurd hn State.reject_ne_ok
  | entries hh he =>
    simp only [State.next] at hn
    split at hn
    next hc =>
      cases hn
      cases he with
      | closed hm hentry =>
        rw [List.append_assoc, List.append_assoc]
        exact .entries hh (.comma (.snoc hm (hentry [t] (.some hc))))
    next hb => cases hn; simpa using Place.entryOpen hh he.many hb
    next hr => cases hn; simpa using Place.entriesEnd hh he.many hr
    next => exact absurd hn State.reject_ne_ok
  | @entryOpen h ts b table done hh hm hb =>
    simp only [State.next] at hn
    split at hn
    next hr =>
      cases hn
      have hclosed : EntriesOpen (ts ++ [b, t]) (done ++ [{ value := "", column := none }]) true :=
        .closed hm fun _ hc => .blank hb hr hc
      simpa using Place.entries hh hclosed
    next hs => cases hn; simpa using Place.entryString hh hm hb hs
    next kind _ _ =>
      split at hn
      next hv =>
        cases hn
        have hvalue : ∀ r comma, r.kind = .rightBrace → OptComma comma →
            Entry ([b, t] ++ r :: comma) { value := t.text, column := none } :=
          fun _ _ hr hc => .positional hb hv hr hc
        simpa using Place.entryValue hh hm hvalue
      next => exact absurd hn State.reject_ne_ok
  | @entryString h ts b s table done hh hm hb hs =>
    simp only [State.next] at hn
    split at hn
    next hr =>
      cases hn
      have hclosed :
          EntriesOpen (ts ++ [b, s, t]) (done ++ [{ value := s.text, column := none }]) true :=
        .closed hm fun _ hc => .positional hb (by rw [hs]; rfl) hr hc
      simpa using Place.entries hh hclosed
    next hd => cases hn; simpa using Place.entryDash hh hm hb hs hd
    next => exact absurd hn State.reject_ne_ok
  | @entryDash h ts b s d table done hh hm hb hs hd =>
    simp only [State.next] at hn
    split at hn
    next hv =>
      cases hn
      have hvalue : ∀ r comma, r.kind = .rightBrace → OptComma comma →
          Entry ([b, s, d, t] ++ r :: comma) { value := t.text, column := some s.text } :=
        fun _ _ hr hc => .named hb hs hd hv hr hc
      simpa using Place.entryValue hh hm hvalue
    next => exact absurd hn State.reject_ne_ok
  | @entryValue h ts us table value done column hh hm hentry =>
    simp only [State.next] at hn
    split at hn
    next hr =>
      cases hn
      have hclosed : EntriesOpen (ts ++ (us ++ [t])) (done ++ [⟨value, column⟩]) true :=
        .closed hm fun comma hc => by simpa using hentry t comma hr hc
      simpa using Place.entries hh hclosed
    next => exact absurd hn State.reject_ne_ok
  | entriesEnd => exact absurd hn State.reject_ne_ok

/-- Any number of tokens lead from a place to a place. -/
theorem Place.run {s u : State} {ts us : List Token} (h : Place s ts) (hr : s.run us = .ok u) :
    Place u (ts ++ us) := by
  induction us generalizing s ts with
  | nil =>
    cases hr
    simpa using h
  | cons t us ih =>
    cases hn : s.next t with
    | error e =>
      rw [State.run_cons_of_error hn] at hr
      cases hr
    | ok s₁ =>
      rw [State.run_cons_of_ok hn] at hr
      simpa using ih (h.next hn) hr

/-- Where a text may end, the tokens are a whole command. -/
theorem Place.finish {s : State} {ts : List Token} {c : Command} (h : Place s ts)
    (hf : s.finish = .ok c) : Derives ts c := by
  cases h with
  | @rowList h ts r n table rows hh hr hrows hi =>
    obtain ⟨row, hd, hf⟩ := bind_eq_ok hf
    cases hf
    exact .highlightRows hh hr (hrows.rowList (rowNumber_of_eq_ok hi hd))
  | highlightColumn hh hk hc => cases hf; exact .highlightColumn hh hk hc
  | cell hh hk hc hr hn => cases hf; exact .highlightCell hh hk hc hr hn
  | addColumn hh hk hc => cases hf; exact .addColumn hh hk hc
  | seedsEnd hh hm hr =>
    cases hf
    cases hh with
    | intro hh hk hc hw hl =>
      rw [← List.append_assoc]
      exact .addColumnCells hh hk hc hw hl hm hr
  | addRow hh hk => cases hf; exact .addRow hh hk
  | entriesEnd hh hm hr =>
    cases hf
    cases hh with
    | intro hh hk hl =>
      rw [← List.append_assoc]
      exact .addRowValues hh hk hl hm hr
  | _ => cases hf

/-! ## Texts -/

/-- A text is a command if and only if all of it is cut into tokens and the grammar derives the
    command from them. -/
theorem parse_eq_ok_iff (text : List Char) (c : Command) :
    parse text = .ok c ↔ (scan text).illegal = none ∧ Derives (scan text).tokens c := by
  constructor
  · intro h
    obtain ⟨s, hr, h⟩ := bind_eq_ok h
    cases hi : (scan text).illegal with
    | some i =>
      rw [hi] at h
      cases h
    | none =>
      rw [hi] at h
      exact ⟨rfl, (Place.start.run hr).finish h⟩
  · rintro ⟨hi, hd⟩
    obtain ⟨s, hr, hf⟩ := hd.run
    simp only [parse, Command.ofScan, hr, hi]
    exact hf

end Storyboard.Script
