-- SUMMARY: Which numerals, too long to be read, keep a text from being judged, and that nothing else does.
import Storyboard.Proofs.Script.Locating

/-!
# Numerals that are too long

Texts are judged as commands or as none, and only a numeral that is too long gets in the
way. A row number does as soon as the tokens up to some place show that it is one
(`Settled`), or at the end of the text (`LastRow`). What comes behind it does not matter
then (`parse_eq_numeral_iff`). The position of a fault is read off its wording, so a
wording that mentions a position with too many digits gets in the way as well. A text
without either is `Readable`, and the readable texts are those that are judged
(`interpret_isOk_iff`).
-/

namespace Storyboard

namespace Text.Numeral

theorem read_eq_error {digits : List Char} {e : TooLong} :
    read digits = .error e ↔ maxDigits < digits.length ∧ e = ⟨digits.length⟩ := by
  unfold read
  split
  next h => simp [Nat.not_lt.2 h]
  next h => simp [Nat.not_le.1 h, eq_comm]

end Text.Numeral

namespace Script

open Text (Numeral.TooLong)
open Grammar

/-! ## Row numbers that are certain -/

namespace Grammar

/-- One cell of a new column and the token of its row number. -/
inductive Cell : List Token → Token → Prop where
  | intro {l n d v r : Token} :
      l.kind = .leftBrace → n.kind = .integer → d.kind = .dash → v.kind.isValue = true →
      r.kind = .rightBrace → Cell [l, n, d, v, r] n

/-- With the last of the tokens it is certain that the numeral is a row number of the command. -/
inductive Settled : List Token → Token → Prop where
  | row {h ts : List Token} {r n c : Token} {table : String} {rows : List Int} :
      Heading .highlight h table → r.kind = .keyword .row → RowsOpen ts rows → n.kind = .integer →
      c.kind = .comma → Settled (h ++ r :: (ts ++ [n, c])) n
  | cell {h : List Token} {k c r n : Token} {table : String} :
      Heading .highlight h table → k.kind = .keyword .column → c.kind = .string →
      r.kind = .keyword .row → n.kind = .integer → Settled (h ++ [k, c, r, n]) n
  | seed {h ts us comma : List Token} {n b : Token} {table column : String}
      {done : List CellSeed} :
      CellsHead h table column → Many Seed ts done → Cell us n → OptComma comma →
      b.kind = .leftBrace ∨ b.kind = .rightBracket →
      Settled (h ++ (ts ++ (us ++ (comma ++ [b])))) n

/-- The tokens are rows to highlight, the last of which is the numeral. -/
inductive LastRow : List Token → Token → Prop where
  | intro {h ts : List Token} {r n : Token} {table : String} {rows : List Int} :
      Heading .highlight h table → r.kind = .keyword .row → RowsOpen ts rows → n.kind = .integer →
      LastRow (h ++ r :: (ts ++ [n])) n

end Grammar

/-- The numeral is a row number of the text, certainly, and too long. -/
def Overlong (text : List Char) (n : Token) : Prop :=
  Text.Numeral.maxDigits < n.text.toList.length ∧
    ((∃ ts, ts <+: (scan text).tokens ∧ Settled ts n) ∨
      (scan text).illegal = none ∧ LastRow (scan text).tokens n)

theorem rowNumber_eq_error {digits : String} {e : ParseError} :
    rowNumber digits = .error e ↔
      Text.Numeral.maxDigits < digits.toList.length ∧ e = .numeral ⟨digits.toList.length⟩ := by
  unfold rowNumber
  split
  next n hn =>
    have hlen := (Text.Numeral.read_eq_ok.1 hn).1
    simp [Nat.not_lt.2 hlen]
  next e' he =>
    obtain ⟨hlen, rfl⟩ := Text.Numeral.read_eq_error.1 he
    simp [hlen, eq_comm]

/-! ## Where the machine stops at a numeral -/

namespace State

/-- The machine comes to the end of a cell by its closing brace, and by a comma behind that. -/
theorem next_eq_seeds {s : State} {t : Token} {table column digits value : String}
    {done : List CellSeed} {comma : Bool}
    (h : s.next t = .ok (.seeds table column done (some (digits, value)) comma)) :
    (t.kind = .rightBrace ∧ s = .seedValue table column done digits value) ∨
      (t.kind = .comma ∧ s = .seeds table column done (some (digits, value)) true) := by
  cases s with
  | seedValue =>
    simp only [next] at h
    split at h
    next hk =>
      cases h
      exact .inl ⟨hk, rfl⟩
    next => exact absurd h reject_ne_ok
  | seeds =>
    simp only [next] at h
    split at h
    next hk =>
      cases h
      exact .inr ⟨hk, rfl⟩
    next =>
      obtain ⟨_, -, h⟩ := bind_eq_ok h
      cases h
    next =>
      obtain ⟨_, -, h⟩ := bind_eq_ok h
      cases h
    next => exact absurd h reject_ne_ok
  | rowList | cellRow =>
    simp only [next] at h
    split at h
    next =>
      obtain ⟨_, -, h⟩ := bind_eq_ok h
      cases h
    next => exact absurd h reject_ne_ok
  | _ =>
    simp only [next] at h
    repeat' split at h
    all_goals first | exact absurd h reject_ne_ok | cases h

/-- The last token of a run leads to where the run ends. -/
theorem exists_last_of_run {s u : State} {ts : List Token} (h : s.run ts = .ok u) (hne : s ≠ u) :
    ∃ init t s₁, ts = init ++ [t] ∧ s.run init = .ok s₁ ∧ s₁.next t = .ok u := by
  rcases List.eq_nil_or_concat ts with rfl | ⟨init, t, rfl⟩
  · cases h
    exact absurd rfl hne
  · rw [List.concat_eq_append] at h
    obtain ⟨s₁, hinit, hlast⟩ := run_of_append h
    obtain ⟨u', hnext, hu⟩ := bind_eq_ok hlast
    cases hu
    exact ⟨init, t, s₁, List.concat_eq_append .., hinit, hnext⟩

theorem run_append_of_error {s : State} {ts : List Token} {e : ParseError}
    (h : s.run ts = .error e) (rest : List Token) : s.run (ts ++ rest) = .error e := by
  obtain ⟨before, t, after, u, rfl, hbefore, hnext⟩ := run_eq_error h
  simp only [List.append_assoc, List.cons_append]
  rw [run_append_of_ok hbefore, run_cons_of_error hnext]

end State

/-- Before the closing brace of a cell there are its other tokens. -/
theorem exists_cell_of_seedValue {ts : List Token} {r : Token}
    {table column digits value : String} {done : List CellSeed}
    (h : State.start.run ts = .ok (.seedValue table column done digits value))
    (hr : r.kind = .rightBrace) :
    ∃ hd seeds us n, ts ++ [r] = hd ++ (seeds ++ us) ∧ CellsHead hd table column ∧
      Many Seed seeds done ∧ Cell us n ∧ n.text = digits := by
  have hplace := Place.start.run h
  rw [List.nil_append] at hplace
  cases hplace with
  | @seedValue hd seeds b n d v _ _ _ hhead hm hb hn hd' hv =>
    exact ⟨hd, seeds, [b, n, d, v, r], n, by simp, hhead, hm, .intro hb hn hd' hv hr, rfl⟩

/-- Where a row number of a cell is not yet settled, the cell is the last thing before, but for a
    comma. -/
theorem exists_cell_of_seeds {ts : List Token} {table column digits value : String}
    {done : List CellSeed} {more : Bool}
    (h : State.start.run ts = .ok (.seeds table column done (some (digits, value)) more)) :
    ∃ hd seeds us comma n, ts = hd ++ (seeds ++ (us ++ comma)) ∧ CellsHead hd table column ∧
      Many Seed seeds done ∧ Cell us n ∧ OptComma comma ∧ n.text = digits := by
  obtain ⟨init, t, s, rfl, hinit, hnext⟩ := State.exists_last_of_run h State.noConfusion
  obtain ⟨hk, rfl⟩ | ⟨hk, rfl⟩ := State.next_eq_seeds hnext
  · obtain ⟨hd, seeds, us, n, heq, hhead, hm, hcell, htext⟩ := exists_cell_of_seedValue hinit hk
    exact ⟨hd, seeds, us, [], n, by simpa using heq, hhead, hm, hcell, .none, htext⟩
  · -- a comma follows a cell just once, so the token before it is the brace
    obtain ⟨init, r, s, rfl, hinit, hnext⟩ := State.exists_last_of_run hinit State.noConfusion
    obtain ⟨hr, rfl⟩ | ⟨hr, rfl⟩ := State.next_eq_seeds hnext
    · obtain ⟨hd, seeds, us, n, heq, hhead, hm, hcell, htext⟩ := exists_cell_of_seedValue hinit hr
      exact ⟨hd, seeds, us, [t], n, by simp [heq], hhead, hm, hcell, .some hk, htext⟩
    · rw [State.next_of_kind _ hr] at hnext
      cases hnext

/-- A list of cells stops the machine, with its next brace or bracket, at the last row number. -/
theorem settled_of_settle {ts : List Token} {t : Token} {table column : String}
    {done : List CellSeed} {last : Option (String × String)} {more : Bool} {e : ParseError}
    (h : State.start.run ts = .ok (.seeds table column done last more))
    (ht : t.kind = .leftBrace ∨ t.kind = .rightBracket) (he : settle done last = .error e) :
    ∃ n, Settled (ts ++ [t]) n ∧ rowNumber n.text = .error e := by
  cases last with
  | none => cases he
  | some entry =>
    obtain ⟨hd, seeds, us, comma, n, rfl, hhead, hm, hcell, hcomma, htext⟩ :=
      exists_cell_of_seeds h
    refine ⟨n, ?_, ?_⟩
    · simpa using Settled.seed hhead hm hcell hcomma ht
    · rw [htext]
      exact eq_error_of_bind_ok he

/-- A numeral at which the machine stops is certainly a row number. -/
theorem settled_of_next {ts : List Token} {s : State} {t : Token} {e : Numeral.TooLong}
    (h : State.start.run ts = .ok s) (hn : s.next t = .error (.numeral e)) :
    ∃ n, Settled (ts ++ [t]) n ∧ rowNumber n.text = .error (.numeral e) := by
  have hplace := Place.start.run h
  rw [List.nil_append] at hplace
  -- in three places a numeral is read; anywhere else a token fits or is at fault
  cases hplace with
  | @rowList hd ts r n table rows hh hr hrows hi =>
    simp only [State.next] at hn
    split at hn
    next hk =>
      refine ⟨n, ?_, eq_error_of_bind_ok hn⟩
      simpa using Settled.row hh hr hrows hi hk
    next => cases hn
  | cellRow hh hk hc hr =>
    simp only [State.next] at hn
    split at hn
    next hi =>
      refine ⟨t, ?_, eq_error_of_bind_ok hn⟩
      simpa using Settled.cell hh hk hc hr hi
    next => cases hn
  | seeds hh hs =>
    simp only [State.next] at hn
    split at hn
    next => cases hn
    next hb => exact settled_of_settle h (.inl hb) (eq_error_of_bind_ok hn)
    next hb => exact settled_of_settle h (.inr hb) (eq_error_of_bind_ok hn)
    next => cases hn
  | _ =>
    simp only [State.next] at hn
    repeat' split at hn
    all_goals cases hn

/-- A numeral at which the machine stops at the end is the last row of a list. -/
theorem lastRow_of_finish {ts : List Token} {s : State} {e : Numeral.TooLong}
    (h : State.start.run ts = .ok s) (hf : s.finish = .error (.numeral e)) :
    ∃ n, LastRow ts n ∧ rowNumber n.text = .error (.numeral e) := by
  have hplace := Place.start.run h
  rw [List.nil_append] at hplace
  cases hplace with
  | @rowList hd ts r n table rows hh hr hrows hi =>
    exact ⟨n, .intro hh hr hrows hi, eq_error_of_bind_ok hf⟩
  | _ => cases hf

/-- The machine with row numbers and their commas behind it. -/
theorem Grammar.RowsOpen.run {ts : List Token} {rows : List Int} (h : RowsOpen ts rows)
    (table : String) : (State.rowNumber table []).run ts = .ok (.rowNumber table rows) := by
  cases h with
  | nil => rfl
  | @snoc ts rows c hl hc =>
    obtain ⟨before, digits, last, rfl, hd, hrun⟩ := hl.run table
    have hcomma : (State.rowList table before digits).next c =
        .ok (.rowNumber table (before ++ [last])) := by
      rw [State.next_rowList hc, hd]
      rfl
    rw [State.run_append_of_ok hrun, State.run_cons_of_ok hcomma]
    rfl

/-- The machine with all that comes before the cells of a new column behind it. -/
theorem Grammar.CellsHead.run {h : List Token} {table column : String}
    (hh : CellsHead h table column) (rest : List Token) :
    State.start.run (h ++ rest) = (State.seeds table column [] none false).run rest := by
  cases hh with
  | intro hhead hk hc hw hl =>
    simp only [List.append_assoc, List.cons_append, List.nil_append]
    exact hhead.run_cells hk hc hw hl rest

/-- The machine stops at a numeral that is certainly a row number and is no number. -/
theorem Grammar.Settled.run_eq_error {ts : List Token} {n : Token} {e : ParseError}
    (h : Settled ts n) (hn : rowNumber n.text = .error e) : State.start.run ts = .error e := by
  cases h with
  | @row h ts r n c table rows hh hr hrows hi hc =>
    have hrow : (State.rowNumber table rows).next n = .ok (.rowList table rows n.text) :=
      State.next_of_kind _ hi
    have hcomma : (State.rowList table rows n.text).next c = .error e := by
      rw [State.next_rowList hc, hn]
      rfl
    rw [hh.run_row hr, State.run_append_of_ok (hrows.run table), State.run_cons_of_ok hrow,
      State.run_cons_of_error hcomma]
  | @cell h k c r n table hh hk hc hr hi =>
    have hcell : (State.cellRow table c.text).next n = .error e := by
      rw [State.next_cellRow hi, hn]
      rfl
    rw [hh.run_cell hk hc hr, State.run_cons_of_error hcell]
  | @seed h ts us comma n b table column done hh hm hcell hcomma hb =>
    obtain ⟨closed, last, more, hset, hrun⟩ := hm.run_seeds table column
    cases hcell with
    | @intro l n d v r hl hi hd hv hr =>
      obtain ⟨more', hmore⟩ := hcomma.run_seeds table column done (some (n.text, v.text))
      have hstop : (State.seeds table column done (some (n.text, v.text)) more').next b =
          .error e := by
        have hlast : settle done (some (n.text, v.text)) = .error e := by
          simp only [settle, hn]
          rfl
        rcases hb with hb | hb
        · rw [State.next_seeds_open hb, hlast]
          rfl
        · rw [State.next_seeds_close hb, hlast]
          rfl
      rw [hh.run, State.run_append_of_ok hrun]
      simp only [List.cons_append, List.nil_append]
      rw [run_seed hl hi hd hv hr hset, State.run_append_of_ok hmore,
        State.run_cons_of_error hstop]

/-- Where the text ends with a row number that is no number, the machine stops. -/
theorem Grammar.LastRow.run {ts : List Token} {n : Token} {e : ParseError} (h : LastRow ts n)
    (hn : rowNumber n.text = .error e) :
    ∃ s, State.start.run ts = .ok s ∧ s.finish = .error e := by
  cases h with
  | @intro h ts r n table rows hh hr hrows hi =>
    refine ⟨.rowList table rows n.text, ?_, ?_⟩
    · rw [hh.run_row hr, State.run_append_of_ok (hrows.run table),
        State.run_cons_of_ok (u := .rowList table rows n.text) (by exact State.next_of_kind _ hi)]
      rfl
    · simp only [State.finish, hn]
      rfl

/-- Parsing stops at a numeral just if there is a row number that is too long. -/
theorem parse_eq_numeral_iff {text : List Char} {e : Numeral.TooLong} :
    parse text = .error (.numeral e) ↔
      ∃ n, Overlong text n ∧ e = ⟨n.text.toList.length⟩ := by
  constructor
  · intro h
    unfold parse Command.ofScan at h
    cases hr : State.start.run (scan text).tokens with
    | error e' =>
      simp only [hr, bind, Except.bind, Except.error.injEq] at h
      subst h
      obtain ⟨before, t, after, s, htokens, hrun, hstop⟩ := State.run_eq_error hr
      obtain ⟨n, hsettled, hn⟩ := settled_of_next hrun hstop
      obtain ⟨hlen, he⟩ := rowNumber_eq_error.1 hn
      have hprefix : before ++ [t] <+: (scan text).tokens := ⟨after, by simp [htokens]⟩
      exact ⟨n, ⟨hlen, .inl ⟨_, hprefix, hsettled⟩⟩, ParseError.numeral.inj he⟩
    | ok s =>
      simp only [hr, bind, Except.bind] at h
      cases hi : (scan text).illegal with
      | some i =>
        rw [hi] at h
        cases h
      | none =>
        simp only [hi] at h
        obtain ⟨n, hlast, hn⟩ := lastRow_of_finish hr h
        obtain ⟨hlen, he⟩ := rowNumber_eq_error.1 hn
        exact ⟨n, ⟨hlen, .inr ⟨hi, hlast⟩⟩, ParseError.numeral.inj he⟩
  · rintro ⟨n, ⟨hlen, hplace⟩, rfl⟩
    have hn := rowNumber_eq_error.2 ⟨hlen, rfl⟩
    rcases hplace with ⟨ts, ⟨rest, htokens⟩, hsettled⟩ | ⟨hi, hlast⟩
    · have hrun := State.run_append_of_error (hsettled.run_eq_error hn) rest
      rw [htokens] at hrun
      simp only [parse, Command.ofScan, hrun]
      rfl
    · obtain ⟨s, hrun, hfinish⟩ := hlast.run hn
      simp only [parse, Command.ofScan, hrun, hi]
      exact hfinish

/-! ## Texts that are judged -/

/-- No numeral in the text is too long: no row number, and not the position that is read off the
    wording of its fault. -/
structure Readable (text : List Char) : Prop where
  rows : ∀ n, ¬ Overlong text n
  position : ∀ f, parse text = .error (.fault f) →
    ∀ digits, findPosition? f.message.toList = some digits → digits.length ≤ Text.Numeral.maxDigits

theorem exists_faultPosition_iff {f : Fault} :
    (∃ p, faultPosition f = .ok p) ↔
      ∀ digits, findPosition? f.message.toList = some digits →
        digits.length ≤ Text.Numeral.maxDigits := by
  unfold faultPosition positionIn
  cases hf : findPosition? f.message.toList with
  | none => simp
  | some digits =>
    simp only [Option.some.injEq, forall_eq']
    constructor
    · rintro ⟨p, hp⟩
      cases hd : Text.Numeral.read digits with
      | error e =>
        rw [hd] at hp
        cases hp
      | ok n => exact (Text.Numeral.read_eq_ok.1 hd).1
    · intro hlen
      have hd := Text.Numeral.read_eq_ok.2 ⟨hlen, rfl⟩
      exact ⟨_, by rw [hd]; rfl⟩

theorem interpret_of_numeral {text : List Char} {e : Numeral.TooLong}
    (h : parse text = .error (.numeral e)) (tables : List Table) :
    interpret tables text = .error e := by
  simp only [interpret, h]

theorem interpret_of_fault {text : List Char} {f : Fault} (h : parse text = .error (.fault f))
    (tables : List Table) :
    interpret tables text = (faultPosition f).map (.rejected (.malformed text f)) := by
  simp only [interpret, h]
  cases faultPosition f <;> rfl

/-- The texts that are judged are the readable ones. -/
theorem exists_interpret_iff (tables : List Table) (text : List Char) :
    (∃ o, interpret tables text = .ok o) ↔ Readable text := by
  cases hp : parse text with
  | ok c =>
    have hreadable : Readable text := by
      constructor
      · intro n hn
        rw [parse_eq_numeral_iff.2 ⟨n, hn, rfl⟩] at hp
        cases hp
      · intro f hf
        rw [hp] at hf
        cases hf
    have hjudged : ∃ o, interpret tables text = .ok o := by
      cases hr : c.resolve tables with
      | error cause => exact ⟨.rejected cause none, by simp only [interpret, hp, hr]⟩
      | ok r => exact ⟨.kept r, by simp only [interpret, hp, hr]⟩
    exact iff_of_true hjudged hreadable
  | error e =>
    cases e with
    | numeral e =>
      obtain ⟨n, hn, -⟩ := parse_eq_numeral_iff.1 hp
      refine iff_of_false ?_ fun h => h.rows n hn
      rintro ⟨o, ho⟩
      rw [interpret_of_numeral hp] at ho
      cases ho
    | fault f =>
      have hjudged : (∃ o, interpret tables text = .ok o) ↔ ∃ p, faultPosition f = .ok p := by
        rw [interpret_of_fault hp]
        cases faultPosition f <;> simp [Except.map]
      rw [hjudged, exists_faultPosition_iff]
      constructor
      · intro h
        refine ⟨?_, ?_⟩
        · intro n hn
          rw [parse_eq_numeral_iff.2 ⟨n, hn, rfl⟩] at hp
          cases hp
        · intro f' hf'
          rw [hp] at hf'
          cases hf'
          exact h
      · intro h
        exact h.position f hp

/-- Judging stops nowhere just if each text is judged by itself. -/
theorem judge_eq_none_iff {tables : List Table} {added : AddedColumns} {cmds : List CommandText} :
    (judge tables added cmds).2 = none ↔ ∀ c ∈ cmds, ∃ o, interpret tables c.text = .ok o := by
  induction cmds generalizing added with
  | nil => simp [judge]
  | cons c rest ih =>
    cases hc : interpret tables c.text with
    | error e => simp [judge_cons_of_error hc, hc]
    | ok o => simp [judge_cons_of_ok hc, hc, ih]

/-- A text is judged as a command or as none just if it is readable, and a script is compiled just
    if all its commands are. -/
theorem interpret_isOk_iff (tables : List Table) :
    (∀ text, (∃ o, interpret tables text = .ok o) ↔ Readable text) ∧
      ∀ script, (∃ compiled, compile tables script = .ok compiled) ↔
        ∀ c ∈ split script, Readable c.text := by
  refine ⟨exists_interpret_iff tables, fun script => ?_⟩
  have hjudged : (∃ compiled, compile tables script = .ok compiled) ↔
      (judge tables [] (split script)).2 = none := by
    unfold compile
    split
    next verdicts h => simp [h]
    next verdicts e h => simp [h]
  rw [hjudged, judge_eq_none_iff]
  exact forall₂_congr fun c _ => exists_interpret_iff tables c.text

/-- A numeral of one digit too many. -/
def ones : List Char :=
  List.replicate (Text.Numeral.maxDigits + 1) '1'

theorem length_ones : ones.length = 4301 :=
  List.length_replicate

theorem isDigit_of_mem_ones {c : Char} (h : c ∈ ones) : Text.isDigit c = true := by
  rw [List.eq_of_mem_replicate h]
  decide

/-- The words before the row number of a cell. -/
def cellWords : List Char :=
  "highlight in table 'T' column 'C' row".toList

/-- A command but for its row number. -/
def vastRow : List Char :=
  cellWords ++ '\n' :: ones

/-- A literal that mentions a position, and stands where no command has a literal. -/
def vastMention : List Char :=
  '\'' :: (("at position ".toList ++ ones) ++ ['\''])

theorem tokens_ones (position line : Nat) :
    (scanFrom position line ones).tokens = [⟨.integer, String.ofList ones, position, line⟩] := by
  have hnumeral : Lexical ones (some (.integer, ones)) [] :=
    .numeral (by decide) (fun d hd => isDigit_of_mem_ones (List.mem_cons_of_mem _ hd)) (by simp)
  have hscan := scanFrom_lexeme hnumeral position line
  rw [List.append_nil, scanFrom_nil] at hscan
  exact congrArg Scan.tokens hscan

theorem parse_vastRow : parse vastRow = .error (.numeral ⟨4301⟩) := by
  have hlegal : (scan cellWords).illegal = none := by decide +kernel
  have hplace : State.start.run (scan cellWords).tokens = .ok (.cellRow "T" "C") := by
    decide +kernel
  have hones : rowNumber (String.ofList ones) = .error (.numeral ⟨4301⟩) := by
    refine rowNumber_eq_error.2 ?_
    rw [String.toList_ofList, length_ones]
    exact ⟨by decide, rfl⟩
  have hstop : ∀ position line, (State.cellRow "T" "C").next
      ⟨.integer, String.ofList ones, position, line⟩ = .error (.numeral ⟨4301⟩) := by
    intro position line
    rw [State.next_cellRow rfl, hones]
    rfl
  have htokens : (scan vastRow).tokens = (scan cellWords).tokens ++ _ :=
    tokens_scanFrom_append_lineFeed hlegal ones
  have hrun : State.start.run (scan vastRow).tokens = .error (.numeral ⟨4301⟩) := by
    rw [htokens, tokens_ones, State.run_append_of_ok hplace, State.run_cons_of_error (hstop _ _)]
  simp only [parse, Command.ofScan, hrun]
  rfl

theorem parse_vastMention :
    parse vastMention =
      .error (.fault (.unexpected (String.ofList ("at position ".toList ++ ones)) 0)) := by
  have hquote : '\'' ∉ "at position ".toList ++ ones := by
    intro h
    rcases List.mem_append.1 h with h | h
    · exact absurd h (by decide)
    · exact absurd (isDigit_of_mem_ones h) (by decide)
  have hliteral : Lexical vastMention (some (.string, "at position ".toList ++ ones)) [] :=
    .literal (by decide) hquote
  have hscan := scanFrom_lexeme hliteral 0 1
  rw [List.append_nil, scanFrom_nil] at hscan
  unfold parse scan vastMention
  rw [hscan]
  rfl

theorem findPosition?_ones : findPosition? ("at position ".toList ++ ones) = some ones := by
  have hstart : (Text.dropStart? "at position ".toList ("at position ".toList ++ ones)).or
      (Text.dropStart? "(position ".toList ("at position ".toList ++ ones)) =
        some (ones ++ []) := by
    rw [Text.dropStart?_eq_some.2 rfl, Option.some_or, List.append_nil]
  have hne : ones ≠ [] := by
    rw [← List.length_pos_iff, length_ones]
    decide
  exact findPosition?_of_start hstart hne (fun c => isDigit_of_mem_ones) (by simp)

/-- A row number and a mentioned position of one digit too many are not read, so that neither text
    is judged. -/
theorem interpret_overlong :
    interpret [] vastRow = .error ⟨4301⟩ ∧ interpret [] vastMention = .error ⟨4301⟩ := by
  have hread : Text.Numeral.read ones = .error ⟨4301⟩ := by
    refine Text.Numeral.read_eq_error.2 ?_
    rw [length_ones]
    exact ⟨by decide, rfl⟩
  have hposition : ∀ p, faultPosition
      (.unexpected (String.ofList ("at position ".toList ++ ones)) p) = .error ⟨4301⟩ := by
    intro p
    simp only [faultPosition_unexpected, String.toList_ofList, findPosition?_ones,
      Option.getD_some, hread]
    rfl
  refine ⟨interpret_of_numeral parse_vastRow [], ?_⟩
  rw [interpret_of_fault parse_vastMention, hposition]
  rfl

end Script

end Storyboard
