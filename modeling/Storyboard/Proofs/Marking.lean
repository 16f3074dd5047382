-- SUMMARY: The frame of a command marks what the command asks for, and nothing else.
import Storyboard.Frame.Grid
import Storyboard.Proofs.Addressing
import Storyboard.Proofs.Freshness

/-!
# Marks

Commands give rows by number and columns by name; what is marked in the grid of a frame
comes from ids. If the ids are distinct, the two agree place by place
(`Frame.shownBy_of_kept`): rows that come from a row number are those of the table as it
was before the script, whereas a marked column goes through all rows of the frame.
-/

namespace Storyboard

/-- A map that takes account of places. -/
theorem map_eq_map_zipIdx {α β : Type} {xs : List α} {f : α → β} {g : α × Nat → β}
    (h : ∀ i a, xs[i]? = some a → f a = g (a, i)) : xs.map f = xs.zipIdx.map g := by
  refine List.ext_getElem? fun i => ?_
  rw [List.getElem?_map, List.getElem?_map, List.getElem?_zipIdx, Option.map_map, Nat.zero_add]
  cases hi : xs[i]? with
  | none => rfl
  | some a => exact congrArg some (h i a hi)

namespace Grid

/-! ## Marks by places -/

/-- What is marked in a grid: headers, rows and cells by their places, counted from 0. -/
structure Marks where
  header : Nat → Bool
  row : Nat → Bool
  cell : Nat → Nat → Bool

namespace Marks

/-- Nothing is marked. -/
def nothing : Marks where
  header _ := false
  row _ := false
  cell _ _ := false

/-- Whole rows are marked. -/
def wholeRows (rows : Nat → Bool) : Marks where
  header _ := false
  row := rows
  cell p _ := rows p

/-- A column is marked from its header to the last row. -/
def wholeColumn (column : Nat) : Marks where
  header q := q == column
  row _ := false
  cell _ q := q == column

/-- One cell is marked. -/
def oneCell (row column : Nat) : Marks where
  header _ := false
  row _ := false
  cell p q := p == row && q == column

variable (m : Marks) (t : Table)

/-- The header of a table with marks. -/
def headerLine : Line where
  margin := ' '
  fields := "#" :: t.columns.zipIdx.map fun (c, q) => field (m.header q) c.name

/-- The line of the row at a place with marks. -/
def rowLine (p : Nat) (row : Row) : Line where
  margin := if m.row p then '>' else ' '
  fields := toString (p + 1) ::
    t.columns.zipIdx.map fun (c, q) => field (m.cell p q) (row.cell c.id)

/-- The lines that show a table under a highlight have these marks and no others. -/
structure ShownBy (h : Highlight) : Prop where
  header : Grid.header t h = m.headerLine t
  body : Grid.body t h = t.rows.zipIdx.map fun (row, p) => m.rowLine t p row

/-- A highlight is of just what the marks are at. -/
structure Matches (h : Highlight) : Prop where
  header : ∀ q c, t.columns[q]? = some c → h.marksHeader t.id (some c.id) = m.header q
  row : ∀ p r, t.rows[p]? = some r → h.marksRow t.id r.id = m.row p
  cell : ∀ p r, t.rows[p]? = some r → ∀ q c, t.columns[q]? = some c →
    (h.marksRow t.id r.id || h.marksCell t.id (some c.id) r.id) = m.cell p q

variable {m t}

theorem Matches.shownBy {h : Highlight} (hm : m.Matches t h) : m.ShownBy t h where
  header := by
    unfold Grid.header headerLine
    congr 2
    refine map_eq_map_zipIdx fun q c hc => ?_
    simp only [hm.header q c hc]
  body := by
    unfold Grid.body
    refine List.map_congr_left fun e he => ?_
    obtain ⟨row, p⟩ := e
    have hrow := List.mk_mem_zipIdx_iff_getElem?.1 he
    simp only [Grid.rowLine, rowLine, hm.row p row hrow]
    congr 2
    refine map_eq_map_zipIdx fun q c hc => ?_
    simp only [← hm.row p row hrow, hm.cell p row hrow q c hc]

/-! ## Highlights and their marks -/

/-- A highlight on another table. -/
theorem matches_nothing {h : Highlight} (hid : h.table ≠ t.id) : nothing.Matches t h where
  header q c _ := by simp [Highlight.marksHeader, hid, nothing]
  row p r _ := by simp [Highlight.marksRow, hid, nothing]
  cell p r _ q c _ := by simp [Highlight.marksRow, Highlight.marksCell, hid, nothing]

/-- A highlight of rows and no column, or of a row and a column that counts as none. -/
theorem matches_wholeRows {h : Highlight} {rows : Nat → Bool} (hid : h.table = t.id)
    (hcolumn : h.namesColumn = false) (hheader : h.column = none ∨ h.namesRows = true)
    (hrows : ∀ p r, t.rows[p]? = some r → h.namesRow r.id = rows p) :
    (wholeRows rows).Matches t h where
  header q c _ := by
    rcases hheader with hnone | hnames
    · simp [Highlight.marksHeader, hnone, wholeRows]
    · simp [Highlight.marksHeader, hnames, wholeRows]
  row p r hr := by simp [Highlight.marksRow, hid, hcolumn, hrows p r hr, wholeRows]
  cell p r hr q c _ := by
    rcases hheader with hnone | hnames
    · simp [Highlight.marksRow, Highlight.marksCell, hid, hcolumn, hnone, hrows p r hr, wholeRows]
    · simp [Highlight.marksRow, Highlight.marksCell, hid, hcolumn, hnames, hrows p r hr, wholeRows]

/-- A highlight of a column. -/
theorem matches_wholeColumn {id : CodePoints} {k : Nat}
    (hcolumn : ∀ q c, t.columns[q]? = some c → (c.id = id ↔ q = k)) :
    (wholeColumn k).Matches t ⟨t.id, none, some id⟩ where
  header q c hc := by
    rw [Bool.eq_iff_iff]
    simp [Highlight.marksHeader, Highlight.namesRows, wholeColumn, eq_comm (a := id),
      hcolumn q c hc]
  row p r _ := by simp [Highlight.marksRow, Highlight.namesRow, wholeColumn]
  cell p r _ q c hc := by
    rw [Bool.eq_iff_iff]
    simp [Highlight.marksRow, Highlight.marksCell, Highlight.namesRow, Highlight.namesRows,
      wholeColumn, eq_comm (a := id), hcolumn q c hc]

/-- A highlight of a row and a column, whose id is not empty. -/
theorem matches_oneCell {row id : CodePoints} (hid : id ≠ []) {j k : Nat}
    (hrow : ∀ p r, t.rows[p]? = some r → (r.id = row ↔ p = j))
    (hcolumn : ∀ q c, t.columns[q]? = some c → (c.id = id ↔ q = k)) :
    (oneCell j k).Matches t ⟨t.id, some [row], some id⟩ where
  header q c _ := by simp [Highlight.marksHeader, Highlight.namesRows, oneCell]
  row p r _ := by simp [Highlight.marksRow, Highlight.namesColumn, hid, oneCell]
  cell p r hr q c hc := by
    rw [Bool.eq_iff_iff]
    simp [Highlight.marksRow, Highlight.marksCell, Highlight.namesColumn, Highlight.namesRow,
      Highlight.namesRows, hid, oneCell, hrow p r hr, eq_comm (a := id), hcolumn q c hc, and_comm]

end Marks

end Grid

/-! ## Places of ids -/

/-- Among entries with different keys, a key stands for a place. -/
theorem key_eq_iff_of_nodup {α κ : Type} {key : α → κ} {xs : List α} (hd : (xs.map key).Nodup)
    {k : Nat} {a : α} (ha : xs[k]? = some a) {q : Nat} {b : α} (hb : xs[q]? = some b) :
    key b = key a ↔ q = k := by
  constructor
  · exact eq_of_getElem?_of_nodup hd hb ha
  · rintro rfl
    cases ha.symm.trans hb
    rfl

namespace Table

variable {t : Table}

/-- The rows of a table are at their places when it has grown. -/
theorem exists_row_withGains (gained : List Gain) {p : Nat} {r : Row} (h : t.rows[p]? = some r) :
    ∃ s, (t.withGains gained).rows[p]? = some s ∧ s.id = r.id := by
  have hlt : p < (t.rows.map (·.id)).length := by
    rw [List.length_map]
    exact (List.getElem?_eq_some_iff.1 h).1
  have hid : ((t.withGains gained).rows.map (·.id))[p]? = some r.id := by
    rw [withGains_rowIds, List.getElem?_append_left hlt, List.getElem?_map, h]
    rfl
  rw [List.getElem?_map] at hid
  exact Option.map_eq_some_iff.1 hid

theorem rowAt?_eq_some_iff {n : Int} {r : Row} :
    t.rowAt? n = some r ↔ 0 ≤ n ∧ t.rows[n.toNat]? = some r := by
  simp [rowAt?]

/-- In a table that has grown, just the row at a place has the id that the row there had before. -/
theorem rowId_eq_iff {gained : List Gain} (hd : (t.withGains gained).DistinctIds) {k : Nat}
    {r : Row} (hr : t.rows[k]? = some r) {p : Nat} {s : Row}
    (hs : (t.withGains gained).rows[p]? = some s) : s.id = r.id ↔ p = k := by
  obtain ⟨s', hs', hid⟩ := exists_row_withGains gained hr
  rw [← hid]
  exact key_eq_iff_of_nodup hd.rows hs' hs

/-- The place of the first column with a name. -/
def placeOf (t : Table) (name : CodePoints) : Nat :=
  t.columns.findIdx (·.name == name)

/-- The first column with a name is so when the table has grown. -/
theorem getElem?_placeOf {name : CodePoints} {c : Column} (h : t.column? name = some c)
    (gained : List Gain) :
    (t.withGains gained).columns[(t.withGains gained).placeOf name]? = some c := by
  unfold column? at h
  rw [placeOf, ← List.find?_eq_getElem?_findIdx, withGains_columns, List.find?_append, h]
  rfl

end Table

namespace Script

open Grid (Marks)

/-! ## Marks of requests -/

/-- The place of the row with a number in a table. -/
def placeOfRow? (t : Table) (n : Int) : Option Nat :=
  if t.HasRow n then some (n - 1).toNat else none

/-- The marks that a request asks for. Row numbers are those of the table `t` as it is before the
    script; other places are those of the table `u` as it is in the frame. An empty id counts as
    that of no column once a row is named, so that the whole row is marked and not one cell. -/
def Request.marks (t u : Table) : Request → Marks
  | highlightRows rows =>
    .wholeRows fun p => p < t.rows.length && rows.contains ((p : Int) + 1)
  | highlightColumn column row =>
    match row.bind (placeOfRow? t) with
    | none => .wholeColumn (u.placeOf column)
    | some p =>
      if (t.column? column).any (·.id.isEmpty) then .wholeRows (· == p)
      else .oneCell p (u.placeOf column)
  | addColumn .. => .wholeColumn (u.columns.length - 1)
  | addRow _ => .wholeRows (· == u.rows.length - 1)

/-- The row with a number is the one at its place. -/
theorem bind_rowAt? (t : Table) (row : Option Int) :
    (row.bind fun n => t.rowAt? (n - 1)) = (row.bind (placeOfRow? t)).bind (t.rows[·]?) := by
  cases row with
  | none => rfl
  | some n =>
    simp only [Option.bind_some]
    unfold placeOfRow?
    split
    next hn => exact if_pos (Int.sub_nonneg_of_le hn.1)
    next hn =>
      rwa [← Table.rowAt?_isSome_iff, Bool.not_eq_true, Option.isSome_eq_false_iff,
        Option.isNone_iff_eq_none] at hn

theorem placeOfRow?_lt {t : Table} {n : Int} {p : Nat} (h : placeOfRow? t n = some p) :
    p < t.rows.length := by
  unfold placeOfRow? at h
  split at h
  next hn =>
    cases h
    unfold Table.HasRow at hn
    omega
  next => cases h

variable {t : Table} {gained : List Gain}

theorem matches_highlightRows (rows : List Int) (hd : (t.withGains gained).DistinctIds) :
    ((Request.highlightRows rows).marks t (t.withGains gained)).Matches (t.withGains gained)
      ⟨t.id, some ((rows.filterMap fun n => t.rowAt? (n - 1)).map (·.id)), none⟩ := by
  refine Marks.matches_wholeRows (t.withGains_id gained).symm rfl (.inl rfl) fun p s hs => ?_
  rw [Bool.eq_iff_iff]
  simp only [Highlight.namesRow, Option.getD_some, List.contains_iff_mem, List.mem_map,
    List.mem_filterMap, Bool.and_eq_true, decide_eq_true_eq]
  constructor
  · rintro ⟨r, ⟨n, hn, hr⟩, hid⟩
    obtain ⟨h0, hr⟩ := Table.rowAt?_eq_some_iff.1 hr
    have hp := (Table.rowId_eq_iff hd hr hs).1 hid.symm
    have hlt := (List.getElem?_eq_some_iff.1 hr).1
    have hnumber : (p : Int) + 1 = n := by omega
    exact ⟨hp ▸ hlt, hnumber ▸ hn⟩
  · rintro ⟨hlt, hmem⟩
    have hr := List.getElem?_eq_getElem hlt
    refine ⟨_, ⟨(p : Int) + 1, hmem, ?_⟩, ((Table.rowId_eq_iff hd hr hs).2 rfl).symm⟩
    exact Table.rowAt?_eq_some_iff.2 ⟨by omega, by simp⟩

theorem matches_highlightColumn {name : String} {row : Option Int} {r : Resolved}
    (h : resolveColumn t name row = .ok r) (hd : (t.withGains gained).DistinctIds)
    (id : CodePoints) :
    ((Request.highlightColumn name row).marks t (t.withGains gained)).Matches (t.withGains gained)
      (r.action.emphasis id) := by
  unfold resolveColumn at h
  split at h
  next => cases h
  next c hc =>
    cases h
    have hcolumn : ∀ q d, (t.withGains gained).columns[q]? = some d →
        (d.id = c.id ↔ q = (t.withGains gained).placeOf name) :=
      fun q d hd' => key_eq_iff_of_nodup hd.columns (Table.getElem?_placeOf hc gained) hd'
    simp only [Request.marks, Action.emphasis, bind_rowAt?, hc, ← t.withGains_id gained]
    cases hplace : row.bind (placeOfRow? t) with
    | none => exact Marks.matches_wholeColumn hcolumn
    | some p =>
      have hlt : p < t.rows.length := by
        obtain ⟨n, -, hn⟩ := Option.bind_eq_some_iff.1 hplace
        exact placeOfRow?_lt hn
      have hr := List.getElem?_eq_getElem hlt
      have hrow : ∀ k s, (t.withGains gained).rows[k]? = some s → (s.id = t.rows[p].id ↔ k = p) :=
        fun k s hs => Table.rowId_eq_iff hd hr hs
      simp only [Option.bind_some, hr, Option.any_some, Option.map_some]
      split
      next hempty =>
        refine Marks.matches_wholeRows rfl (by simp [Highlight.namesColumn, hempty]) (.inr rfl) ?_
        intro k s hs
        rw [Bool.eq_iff_iff]
        simp [Highlight.namesRow, hrow k s hs]
      next hempty =>
        exact Marks.matches_oneCell (by simpa using hempty) hrow hcolumn

/-- The last place is the one of the new column. -/
theorem matches_addColumn {name : String} {seeds : Option (List CellSeed)} {r : Resolved}
    (h : resolveAddColumn t name seeds = .ok r) {id : CodePoints} {u : Table}
    (hu : u = r.action.enacted id (t.withGains gained)) (hd : u.DistinctIds) :
    ((Request.addColumn name seeds).marks t u).Matches u (r.action.emphasis id) := by
  unfold resolveAddColumn at h
  split at h
  next => cases h
  next =>
    cases h
    have hlast : u.columns[u.columns.length - 1]? = some ⟨id, .ofString name⟩ := by
      rw [← List.getLast?_eq_getElem?, hu]
      exact List.getLast?_concat
    have hid : u.id = t.id := by rw [hu, Action.enacted_id, Table.withGains_id]
    rw [Action.emphasis, ← hid]
    exact Marks.matches_wholeColumn fun q c hc => key_eq_iff_of_nodup hd.columns hlast hc

theorem matches_addRow {entries : List RowEntry} {r : Resolved}
    (h : resolveAddRow t entries = .ok r) {id : CodePoints} {u : Table}
    (hu : u = r.action.enacted id (t.withGains gained)) (hd : u.DistinctIds) :
    ((Request.addRow entries).marks t u).Matches u (r.action.emphasis id) := by
  obtain ⟨values, hvalues⟩ := resolveAddRow_action h
  rw [hvalues] at hu ⊢
  have hlast : ∃ cells, u.rows[u.rows.length - 1]? = some ⟨id, cells⟩ := by
    rw [← List.getLast?_eq_getElem?, hu]
    exact ⟨_, List.getLast?_concat⟩
  obtain ⟨cells, hlast⟩ := hlast
  have hid : u.id = t.id := by rw [hu, Action.enacted_id, Table.withGains_id]
  refine Marks.matches_wholeRows hid.symm rfl (.inl rfl) fun p s hs => ?_
  have hplace : s.id = id ↔ p = u.rows.length - 1 := key_eq_iff_of_nodup hd.rows hlast hs
  rw [Bool.eq_iff_iff]
  simp [Action.emphasis, Highlight.namesRow, hplace]

/-- The frame of a request marks what this asks for, if the ids in its table are distinct. -/
theorem Request.marks_matches {q : Request} {r : Resolved} (h : q.resolve t = .ok r)
    {id : CodePoints} {u : Table} (hu : u = r.action.enacted id (t.withGains gained))
    (hd : u.DistinctIds) : (q.marks t u).Matches u (r.action.emphasis id) := by
  cases q with
  | highlightRows rows =>
    cases h
    cases hu
    exact matches_highlightRows rows hd
  | highlightColumn column row =>
    have hsame : r.action.enacted id (t.withGains gained) = t.withGains gained := by
      change resolveColumn t column row = .ok r at h
      unfold resolveColumn at h
      split at h
      next => cases h
      next =>
        cases h
        rfl
    rw [hsame] at hu
    cases hu
    exact matches_highlightColumn h hd id
  | addColumn column seeds => exact matches_addColumn h hu hd
  | addRow entries => exact matches_addRow h hu hd

end Script

namespace Frame

open Script
open Grid (Marks)

/-- New ids that the tables have for no column and no row leave them distinct. -/
theorem distinctIds_of_mem {tables : List Table} (hd : ∀ t ∈ tables, t.DistinctIds)
    {ids : IdSupply} (hinj : Function.Injective ids)
    (hnew : ∀ t ∈ tables, ∀ n, ids n ∉ t.columns.map (·.id) ∧ ids n ∉ t.rows.map (·.id))
    {actions : List Action} {f : Frame} (hf : f ∈ sequence ids tables actions) :
    ∀ u ∈ f.tables, u.DistinctIds := by
  intro u hu
  obtain ⟨k, hk⟩ := List.mem_iff_getElem?.1 hf
  obtain ⟨i, hi⟩ := List.mem_iff_getElem?.1 hu
  obtain ⟨t, ht, rfl⟩ := exists_withGains hk hi
  have hmem := List.mem_of_getElem? ht
  have hgiven : ∀ id ∈ (gains ids tables (actions.take k) i).map Gain.id, ∃ n, ids n = id := by
    intro id hid
    obtain ⟨n, -, hn⟩ := List.mem_map.1 ((ids_gains_sublist ids tables _ i).subset hid)
    exact ⟨n, hn⟩
  refine ((hd t hmem).withGains_iff (nodup_ids_gains hinj _ i)).2 ⟨fun c hc => ?_, fun id hid => ?_⟩
  · obtain ⟨n, hn⟩ := hgiven c.id ((Gain.columns_sublist _).subset (List.mem_map_of_mem hc))
    exact hn ▸ (hnew t hmem n).1
  · obtain ⟨n, hn⟩ := hgiven id ((Gain.rows_sublist _).subset hid)
    exact hn ▸ (hnew t hmem n).2

/-- If the tables have distinct ids, as have the columns and the rows of each, and new ids are new,
    then the frame of a kept command marks in the table of the name it gives what it asks for, and
    in the other tables nothing. -/
theorem shownBy_of_kept {tables : List Table} (hids : (tables.map (·.id)).Nodup)
    (hd : ∀ t ∈ tables, t.DistinctIds) {ids : IdSupply} (hinj : Function.Injective ids)
    (hnew : ∀ t ∈ tables, ∀ n, ids n ∉ t.columns.map (·.id) ∧ ids n ∉ t.rows.map (·.id))
    {script : List Char} {compiled : Compiled} (hc : compile tables script = .ok compiled)
    {before after : List Verdict} {command : CommandText} {r : Resolved}
    (hv : compiled.verdicts = before ++ ⟨command, .kept r⟩ :: after) {c : Command}
    (hp : parse command.text = .ok c) :
    ∃ (f : Frame) (i : Nat) (t u : Table),
      (sequence ids tables compiled.actions)[(before.filterMap Verdict.action?).length + 1]? =
        some f ∧
      tables[i]? = some t ∧ Tables.named? tables c.table = some t ∧ f.tables[i]? = some u ∧
      (c.request.marks t u).ShownBy u f.highlight ∧
      ∀ j v, j ≠ i → f.tables[j]? = some v → Marks.nothing.ShownBy v f.highlight := by
  obtain ⟨f, i, t, gained, id, hf, hi, hnamed, hrequest, hu, hhighlight⟩ :=
    exists_frame_of_kept hids hc hv hp ids
  have hdistinct := distinctIds_of_mem hd hinj hnew (List.mem_of_getElem? hf)
  have hmatches := Request.marks_matches hrequest rfl (hdistinct _ (List.mem_of_getElem? hu))
  refine ⟨f, i, t, _, hf, hi, hnamed, hu, ?_, fun j v hj hv => ?_⟩
  · rw [hhighlight]
    exact hmatches.shownBy
  · refine (Marks.matches_nothing fun hon => hj ?_).shownBy
    have hframe : (f.tables.map (·.id)).Nodup := by
      rw [tables_eq_grown hf, ids_grown]
      exact hids
    refine eq_of_getElem?_of_nodup hframe hv hu ?_
    rw [← hon, hhighlight, Action.emphasis_table, Action.enacted_id, Table.withGains_id,
      (Request.resolve_suits hrequest).isOn.table_eq]

/-- A row number that only an added row has: the whole column is marked. -/
theorem shownBy_of_kept_shelves :
    (shelves.map (·.id)).Nodup ∧ (∀ t ∈ shelves, t.DistinctIds) ∧ Function.Injective strokes ∧
      (∀ t ∈ shelves, ∀ n,
        strokes n ∉ t.columns.map (·.id) ∧ strokes n ∉ t.rows.map (·.id)) ∧
      ∃ compiled v command r c,
        compile shelves
            "add in table 'T' row; highlight in table 'T' column 'C' row 2".toList =
          .ok compiled ∧
        compiled.verdicts = [v] ++ ⟨command, .kept r⟩ :: [] ∧ parse command.text = .ok c ∧
        c.request = .highlightColumn "C" (some 2) ∧
        ∃ (f : Frame) (i : Nat) (t u : Table),
          (sequence strokes shelves compiled.actions)[2]? = some f ∧ shelves[i]? = some t ∧
          Tables.named? shelves "T" = some t ∧ f.tables[i]? = some u ∧
          (Marks.wholeColumn (u.placeOf "C")).ShownBy u f.highlight ∧
          ∀ j v, j ≠ i → f.tables[j]? = some v → Marks.nothing.ShownBy v f.highlight := by
  have hids : (shelves.map (·.id)).Nodup := by decide
  have hd : ∀ t ∈ shelves, t.DistinctIds := by
    simp only [shelves, List.forall_mem_cons]
    exact ⟨⟨by decide, by decide⟩, ⟨by decide, by decide⟩, nofun⟩
  have hinj : Function.Injective strokes := by
    intro m n h
    have hlen := congrArg List.length h
    simpa [strokes] using hlen
  have hnew : ∀ t ∈ shelves, ∀ n,
      strokes n ∉ t.columns.map (·.id) ∧ strokes n ∉ t.rows.map (·.id) := by
    intro t ht n
    have hhead : (strokes n).head? = some (.char '|') := rfl
    have hother : ∀ t ∈ shelves, ∀ id ∈ t.columns.map (·.id) ++ t.rows.map (·.id),
        id.head? ≠ some (.char '|') := by
      decide
    exact ⟨fun h => hother t ht _ (List.mem_append_left _ h) hhead,
      fun h => hother t ht _ (List.mem_append_right _ h) hhead⟩
  have hc : compile shelves
      "add in table 'T' row; highlight in table 'T' column 'C' row 2".toList =
      .ok ⟨[⟨⟨0, "add in table 'T' row".toList⟩, .kept ⟨.addRow "t" [[]], []⟩⟩] ++
        ⟨⟨22, "highlight in table 'T' column 'C' row 2".toList⟩,
          .kept ⟨.highlight ⟨"t", none, some "c"⟩, []⟩⟩ :: []⟩ := by
    decide +kernel
  have hp : parse "highlight in table 'T' column 'C' row 2".toList =
      .ok ⟨"T", .highlightColumn "C" (some 2)⟩ := by
    decide +kernel
  obtain ⟨f, i, t, u, hf, hi, hnamed, hu, hshown, hothers⟩ :=
    shownBy_of_kept hids hd hinj hnew hc rfl hp
  refine ⟨hids, hd, hinj, hnew, _, _, _, _, _, hc, rfl, hp, rfl, f, i, t, u, hf, hi, hnamed, hu, ?_,
    hothers⟩
  -- the table has one row before the script
  have ht : (⟨"t", "T", [⟨"c", "C"⟩], [⟨"r", [("c", "x")]⟩]⟩ : Table) = t :=
    Option.some.inj hnamed
  subst ht
  exact hshown

end Frame

end Storyboard
