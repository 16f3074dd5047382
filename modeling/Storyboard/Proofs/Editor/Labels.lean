-- SUMMARY: Which of the names that an editor offers can be used as they are offered.
import Storyboard.Editor.Completion
import Storyboard.Proofs.Script.Layout
import Storyboard.Proofs.Table.Collection
import Storyboard.Script.Resolve

/-!
# Labels

A name is offered between single quotes. So it is read back as a literal, and stands for
the table or the column that it is offered for, if and only if there is no single quote
in it (`labels_usable_iff`); the other quotes make no difference. A name with a single
quote can be written between double quotes, but it is not offered so
(`not_usable_apostrophe`). Names are texts of characters here, as scripts are.
-/

namespace Storyboard

/-! ## Look-ups by distinct names -/

/-- Among entries with different keys, each is the first with its key. -/
theorem find?_key_of_nodup {α κ : Type} [BEq κ] [LawfulBEq κ] {key : α → κ} {xs : List α}
    (hd : (xs.map key).Nodup) {a : α} (ha : a ∈ xs) : xs.find? (key · == key a) = some a := by
  cases hfind : xs.find? (key · == key a) with
  | none =>
    have hne := List.find?_eq_none.1 hfind a ha
    simp at hne
  | some b =>
    have hkey : key b = key a := by simpa using List.find?_some hfind
    rw [List.inj_on_of_nodup_map hd (List.mem_of_find?_eq_some hfind) ha hkey]

namespace Tables.WellFormed

variable {tables : List Table} {t : Table}

theorem named?_name (h : WellFormed tables) (ht : t ∈ tables) : named? tables t.name = some t :=
  find?_key_of_nodup h.names ht

theorem column?_name (h : WellFormed tables) (ht : t ∈ tables) {c : Column} (hc : c ∈ t.columns) :
    t.column? c.name = some c :=
  find?_key_of_nodup (h.columns t ht) hc

end Tables.WellFormed

namespace Script

/-! ## Lines of tokens -/

/-- Tokens with nothing before the first and a space before each other one. -/
def spaced (w : Written) (ws : List Written) : List (List Char × Written) :=
  ([], w) :: ws.map fun v => ([' '], v)

theorem padding_spaced (w : Written) (ws : List Written) : ∀ e ∈ spaced w ws, Padding e.1 := by
  intro e he
  rcases List.mem_cons.1 he with rfl | he
  · exact .nil
  · obtain ⟨v, -, rfl⟩ := List.mem_map.1 he
    exact .gap rfl .nil

theorem apart_spaced (w : Written) (ws : List Written) :
    ∀ e ∈ (spaced w ws).tail, e.1 ≠ [] ∧ Apart e.1 := by
  intro e he
  obtain ⟨v, -, rfl⟩ := List.mem_map.1 he
  refine ⟨List.cons_ne_nil ' ' [], fun c hc => ?_⟩
  cases hc
  rfl

theorem spacing_nil : Spacing [] [] := .nil

theorem apart_nil : Apart [] := by
  intro c hc
  cases hc

/-- Tokens on one line, with a space between any two. -/
def Layout.line (w : Written) (ws : List Written) : Layout where
  entries := spaced w ws
  trail := []
  padding := padding_spaced w ws
  apart := apart_spaced w ws
  trail_spacing := spacing_nil
  trail_apart := apart_nil

/-- A text with tokens that make up a command is parsed as this command. -/
theorem Layout.parse_eq_ok {l : Layout} {c : Command}
    (h : Command.ofScan ⟨l.words.map fun w => ⟨w.kind, String.ofList w.text, 0, 0⟩, none⟩ = .ok c) :
    parse l.text = .ok c := by
  have hscan : scan l.text = ⟨l.tokens, none⟩ :=
    scanFrom_textOf l.padding l.apart l.trail_spacing l.trail_apart []
  have hparse := parse_unplaced hscan
  rw [l.tokens_unplaced, h] at hparse
  cases hl : parse l.text with
  | error e =>
    rw [hl] at hparse
    cases hparse
  | ok d =>
    rw [hl] at hparse
    cases hparse
    rfl

/-- A reserved word in small letters. -/
def Written.word (k : Keyword) : Written where
  kind := .keyword k
  text := k.word.toList
  chars := k.word.toList
  spelling := .keyword (by cases k <;> decide)

/-- A text between quotes. -/
def Written.literal (q : Char) (body : List Char) (hq : isQuote q = true) (hb : q ∉ body) :
    Written where
  kind := .string
  text := body
  chars := q :: (body ++ [q])
  spelling := .literal hq hb

/-- The number of the first row. -/
def Written.one : Written where
  kind := .integer
  text := ['1']
  chars := ['1']
  spelling := .numeral (by decide) (by simp [show Text.isDigit '1' = true from by decide])

end Script

namespace Editor

open Script

/-! ## Labels as literals -/

/-- A label is one literal, with the text of a name. -/
def IsLiteral (label : String) (name : CodePoints) : Prop :=
  ∃ t : Token, scan label.toList = ⟨[t], none⟩ ∧ t.kind = .string ∧ .ofString t.text = name

/-- A text of characters between single quotes. -/
def singleQuoted (s : List Char) : String :=
  String.ofList ('\'' :: (s ++ ['\'']))

theorem toList_singleQuoted (s : List Char) : (singleQuoted s).toList = '\'' :: (s ++ ['\'']) :=
  String.toList_ofList

theorem nameLabel_ofChars (s : List Char) :
    nameLabel (.ofChars s) = .ofString (singleQuoted s) := by
  simp [nameLabel, singleQuoted, CodePoints.ofString, CodePoints.ofChars]

/-- A text between quotes is scanned as a literal. -/
theorem scan_literal {q : Char} {body : List Char} (hq : isQuote q = true) (hb : q ∉ body) :
    scan (q :: (body ++ [q])) = ⟨[⟨.string, String.ofList body, 0, 1⟩], none⟩ := by
  have hlex : Lexical (q :: (body ++ [q])) (some (.string, body)) [] := .literal hq hb
  have hscan := scanFrom_lexeme hlex 0 1
  rwa [List.append_nil, scanFrom_nil] at hscan

/-- A name is offered as a literal of it if and only if it has no single quote. -/
theorem isLiteral_singleQuoted_iff {s : List Char} :
    IsLiteral (singleQuoted s) (.ofChars s) ↔ '\'' ∉ s := by
  unfold IsLiteral
  rw [toList_singleQuoted]
  constructor
  · rintro ⟨t, hscan, -, htext⟩ hmem
    -- the literal ends at the first quote of the name
    obtain ⟨w, r, rfl, -, hin, hout⟩ := Text.exists_span (· ≠ '\'') s
    have hw : '\'' ∉ w := fun hm => by simpa using hin _ hm
    cases r with
    | nil => exact hw (by simpa using hmem)
    | cons d r =>
      obtain rfl : d = '\'' := by simpa using hout d rfl
      have hlex : Lexical ('\'' :: (w ++ ['\''])) (some (.string, w)) (r ++ ['\'']) :=
        .literal rfl hw
      have hcut := scanFrom_lexeme hlex 0 1
      have hlabel : '\'' :: (w ++ '\'' :: r ++ ['\'']) = '\'' :: (w ++ ['\''] ++ (r ++ ['\''])) := by
        simp
      rw [hlabel, scan, hcut] at hscan
      have hfirst : t.text = String.ofList w := by
        have hhead := congrArg (fun u : Scan => u.tokens.head?.map Token.text) hscan
        exact (Option.some.inj hhead).symm
      have hlength := congrArg List.length htext
      simp [hfirst, CodePoints.ofString, CodePoints.ofChars] at hlength
  · intro hs
    exact ⟨_, scan_literal rfl hs, rfl, by simp [CodePoints.ofString]⟩

/-! ## Labels in commands -/

/-- The label of a table is one literal, and the command to highlight the first row of what it names
    is a highlight of the table, of its first row if it has one. -/
structure UsableForTable (tables : List Table) (t : Table) (label : String) : Prop where
  literal : IsLiteral label t.name
  highlight :
    interpret tables ("highlight in table ".toList ++ label.toList ++ " row 1".toList) =
      .ok (.kept ⟨.highlight ⟨t.id, some ((t.rows.take 1).map (·.id)), none⟩, []⟩)

/-- The label of a column is one literal, and behind any literal of the name of its table the command
    to highlight what it names is a highlight of the column. -/
structure UsableForColumn (tables : List Table) (t : Table) (c : Column) (label : String) :
    Prop where
  literal : IsLiteral label c.name
  highlight : ∀ q s, isQuote q = true → q ∉ s → t.name = .ofChars s →
    interpret tables
        ("highlight in table ".toList ++ (q :: (s ++ [q])) ++ " column ".toList ++ label.toList) =
      .ok (.kept ⟨.highlight ⟨t.id, none, some c.id⟩, []⟩)

theorem parse_highlightRow {q : Char} {s : List Char} (hq : isQuote q = true) (hs : q ∉ s) :
    parse ("highlight in table ".toList ++ (q :: (s ++ [q])) ++ " row 1".toList) =
      .ok ⟨String.ofList s, .highlightRows [1]⟩ := by
  have hparse := @Layout.parse_eq_ok
    (.line (.word .highlight) [.word .within, .word .table, .literal q s hq hs, .word .row, .one])
    ⟨String.ofList s, .highlightRows [1]⟩ rfl
  rw [← hparse]
  congr 1
  simp [Layout.text, Layout.line, spaced, textOf, Written.word, Written.literal, Written.one,
    Keyword.word]

theorem parse_highlightColumn {q r : Char} {s u : List Char} (hq : isQuote q = true) (hs : q ∉ s)
    (hr : isQuote r = true) (hu : r ∉ u) :
    parse ("highlight in table ".toList ++ (q :: (s ++ [q])) ++ " column ".toList ++
        (r :: (u ++ [r]))) =
      .ok ⟨String.ofList s, .highlightColumn (String.ofList u) none⟩ := by
  have hparse := @Layout.parse_eq_ok
    (.line (.word .highlight)
      [.word .within, .word .table, .literal q s hq hs, .word .column, .literal r u hr hu])
    ⟨String.ofList s, .highlightColumn (String.ofList u) none⟩ rfl
  rw [← hparse]
  congr 1
  simp [Layout.text, Layout.line, spaced, textOf, Written.word, Written.literal, Keyword.word]

/-- The first table with a name in characters, looked up by what a command says. -/
theorem findTable_ofList {tables : List Table} (hw : Tables.WellFormed tables) {t : Table}
    (ht : t ∈ tables) {s : List Char} (hs : t.name = .ofChars s) :
    findTable tables (String.ofList s) = .ok t := by
  have hname : CodePoints.ofString (String.ofList s) = t.name := by
    rw [hs, CodePoints.ofString, String.toList_ofList]
  rw [findTable, hname, hw.named?_name ht]

theorem usableForTable_iff {tables : List Table} (hw : Tables.WellFormed tables) {t : Table}
    (ht : t ∈ tables) {s : List Char} (hs : t.name = .ofChars s) :
    UsableForTable tables t (singleQuoted s) ↔ '\'' ∉ s := by
  constructor
  · intro h
    have hliteral := h.literal
    rw [hs] at hliteral
    exact isLiteral_singleQuoted_iff.1 hliteral
  · intro hquote
    constructor
    case literal =>
      rw [hs]
      exact isLiteral_singleQuoted_iff.2 hquote
    case highlight =>
      have hrows : (([1] : List Int).filterMap fun n => t.rowAt? (n - 1)) = t.rows.take 1 := by
        cases hr : t.rows <;> simp [Table.rowAt?, hr]
      have hresolve : (Command.mk (String.ofList s) (.highlightRows [1])).resolve tables =
          .ok (resolveRows t [1]) := by
        simp only [Command.resolve, findTable_ofList hw ht hs]
        rfl
      rw [toList_singleQuoted]
      simp only [interpret, parse_highlightRow rfl hquote, hresolve, resolveRows, hrows]

theorem usableForColumn_iff {tables : List Table} (hw : Tables.WellFormed tables) {t : Table}
    (ht : t ∈ tables) {c : Column} (hc : c ∈ t.columns) {u : List Char} (hu : c.name = .ofChars u) :
    UsableForColumn tables t c (singleQuoted u) ↔ '\'' ∉ u := by
  constructor
  · intro h
    have hliteral := h.literal
    rw [hu] at hliteral
    exact isLiteral_singleQuoted_iff.1 hliteral
  · intro hquote
    constructor
    case literal =>
      rw [hu]
      exact isLiteral_singleQuoted_iff.2 hquote
    case highlight =>
      intro q s hq hqs hs
      have hname : CodePoints.ofString (String.ofList u) = c.name := by
        rw [hu, CodePoints.ofString, String.toList_ofList]
      have hresolve : (Command.mk (String.ofList s) (.highlightColumn (String.ofList u) none)).resolve
          tables = .ok ⟨.highlight ⟨t.id, none, some c.id⟩, []⟩ := by
        simp only [Command.resolve, findTable_ofList hw ht hs]
        change resolveColumn t (String.ofList u) none = _
        rw [resolveColumn, hname, hw.column?_name ht hc]
        rfl
      rw [toList_singleQuoted]
      simp only [interpret, parse_highlightColumn hq hqs rfl hquote, hresolve]

/-! ## What is offered -/

/-- Behind the word `column` the columns of one table are offered, or nothing. -/
theorem completions_column {before : List Char}
    (h : Text.lower (Text.lastWord before) = "column".toList) (tables : List Table) :
    completions tables before = [] ∨ ∃ t ∈ tables, completions tables before = columnItems t := by
  have hne : "column".toList ≠ "table".toList := by decide
  simp only [completions, h, if_neg hne, if_true]
  split
  next => exact .inl rfl
  next name _ =>
    split
    next => exact .inl rfl
    next t ht => exact .inr ⟨t, Tables.named?_mem ht, rfl⟩

/-- Offered names can be used if they have no single quote. For each table there is a label behind the
    word `table`, and behind the word `column` one for each column of one table, or none at all;
    and a label is a literal that stands for the table or the column in a command if and only if
    there is no single quote in the name, which is a text of characters. -/
theorem labels_usable_iff {text : List Char} {tables : List Table}
    (h : Tables.load text = .ok tables) (before : List Char) :
    (Text.lower (Text.lastWord before) = "table".toList →
      List.Forall₂ (fun t item => ∀ s, t.name = .ofChars s →
        ∃ label, item.label = .ofString label ∧ (UsableForTable tables t label ↔ '\'' ∉ s))
          tables (completions tables before)) ∧
    (Text.lower (Text.lastWord before) = "column".toList →
      completions tables before = [] ∨
      ∃ t ∈ tables, List.Forall₂ (fun c item => ∀ u, c.name = .ofChars u →
        ∃ label, item.label = .ofString label ∧ (UsableForColumn tables t c label ↔ '\'' ∉ u))
          t.columns (completions tables before)) := by
  have hw := Tables.wellFormed_of_load h
  constructor
  · intro hlast
    have hitems : completions tables before = tableItems tables := by
      simp only [completions, hlast, if_true]
    rw [hitems, tableItems, List.forall₂_map_right_iff, List.forall₂_same]
    exact fun t ht s hs =>
      ⟨singleQuoted s, by rw [hs, nameLabel_ofChars], usableForTable_iff hw ht hs⟩
  · intro hlast
    rcases completions_column hlast tables with hnone | ⟨t, ht, hitems⟩
    · exact .inl hnone
    · refine .inr ⟨t, ht, ?_⟩
      rw [hitems, columnItems, List.forall₂_map_right_iff, List.forall₂_same]
      exact fun c hc u hu =>
        ⟨singleQuoted u, by rw [hu, nameLabel_ofChars], usableForColumn_iff hw ht hc hu⟩

/-- A table in JSON, with double quotes and a semicolon in its name and a line feed in that of its
    column. -/
def inches : List Char :=
  ("[\x7b\"id\": \"t\", \"name\": \"3\\\" x 5\\\";\", \"columns\": [\x7b\"id\": \"c\", "
    ++ "\"name\": \"A\\nB\"\x7d], \"rows\": [\x7b\"id\": \"r\"\x7d]\x7d]").toList

/-- This table. -/
def inched : Table :=
  ⟨"t", "3\" x 5\";", [⟨"c", "A\nB"⟩], [⟨"r", []⟩]⟩

theorem load_inches : Tables.load inches = .ok [inched] := by decide +kernel

theorem labels_usable_iff_inches :
    Tables.load inches = .ok [inched] ∧
      completions [inched] "add in TABLE ".toList = [⟨"'3\" x 5\";'", .name, "Table"⟩] ∧
      UsableForTable [inched] inched "'3\" x 5\";'" ∧
      completions [inched] "highlight in table '3\" x 5\";' column ".toList =
        [⟨"'A\nB'", .name, "Column of 3\" x 5\";"⟩] ∧
      UsableForColumn [inched] inched ⟨"c", "A\nB"⟩ "'A\nB'" := by
  have htables : completions [inched] "add in TABLE ".toList =
      [⟨"'3\" x 5\";'", .name, "Table"⟩] := by decide +kernel
  have hcolumns : completions [inched] "highlight in table '3\" x 5\";' column ".toList =
      [⟨"'A\nB'", .name, "Column of 3\" x 5\";"⟩] := by decide +kernel
  have htable := (labels_usable_iff load_inches "add in TABLE ".toList).1 (by decide)
  rw [htables] at htable
  have hcolumn := (labels_usable_iff load_inches
    "highlight in table '3\" x 5\";' column ".toList).2 (by decide)
  rw [hcolumns] at hcolumn
  refine ⟨load_inches, htables, ?_, hcolumns, ?_⟩
  · cases htable with
    | cons hfirst _ =>
      obtain ⟨label, hlabel, hiff⟩ := hfirst "3\" x 5\";".toList rfl
      obtain rfl := CodePoints.ofString_inj.1 hlabel
      exact hiff.2 (by decide)
  · obtain hnone | ⟨t, ht, hcolumn⟩ := hcolumn
    · cases hnone
    · obtain rfl := List.mem_singleton.1 ht
      cases hcolumn with
      | cons hfirst _ =>
        obtain ⟨label, hlabel, hiff⟩ := hfirst "A\nB".toList rfl
        obtain rfl := CodePoints.ofString_inj.1 hlabel
        exact hiff.2 (by decide)

/-- A table in JSON, with an apostrophe in its name. -/
def possessive : List Char :=
  "[\x7b\"id\": \"t\", \"name\": \"it's\", \"rows\": [\x7b\"id\": \"r\"\x7d]\x7d]".toList

/-- The label that is offered for it is no literal, and no command can be made with it; between double
    quotes its name would do. -/
theorem not_usable_apostrophe :
    Tables.load possessive = .ok [⟨"t", "it's", [], [⟨"r", []⟩]⟩] ∧
      completions [⟨"t", "it's", [], [⟨"r", []⟩]⟩] "highlight in table ".toList =
        [⟨"'it's'", .name, "Table"⟩] ∧
      ¬ UsableForTable [⟨"t", "it's", [], [⟨"r", []⟩]⟩] ⟨"t", "it's", [], [⟨"r", []⟩]⟩ "'it's'" ∧
      scan "'it's'".toList =
        ⟨[⟨.string, "it", 0, 1⟩, ⟨.identifier, "s", 4, 1⟩], some ⟨'\'', 5⟩⟩ ∧
      UsableForTable [⟨"t", "it's", [], [⟨"r", []⟩]⟩] ⟨"t", "it's", [], [⟨"r", []⟩]⟩ "\"it's\"" := by
  have hscan : scan "'it's'".toList =
      ⟨[⟨.string, "it", 0, 1⟩, ⟨.identifier, "s", 4, 1⟩], some ⟨'\'', 5⟩⟩ := by decide +kernel
  have hbody : '"' ∉ "it's".toList := by decide
  refine ⟨by decide +kernel, by decide +kernel, fun h => ?_, hscan, ?_, by decide +kernel⟩
  · obtain ⟨t, ht, -⟩ := h.literal
    cases hscan.symm.trans ht
  · exact ⟨_, scan_literal rfl hbody, rfl, rfl⟩

end Editor

end Storyboard
