-- SUMMARY: A command for a cell marks this cell and nothing else just if the id of its column is not empty.
import Storyboard.Proofs.Marking

/-!
# Marking one cell

A highlight of a cell names a row and a column. Where whole rows are marked, a column with
an empty id counts as none, whereas cells and headers are told by the id as it is. Reading a
collection does not rule such an id out. So a command for a cell marks just this cell if and
only if the id of the column is not empty (`Frame.marksOnly_iff`); with an empty id the whole
row is marked (`Frame.not_marksOnly_of_empty`).
-/

namespace Storyboard.Frame

open Grid (Marks)
open Script

/-! ## Frames with one marked cell -/

/-- One cell is marked in the frame, in a table at a row and a column: no row and no header is
    marked, nor another cell, and the grids of the tables show it so. -/
structure MarksOnly (f : Frame) (i p q : Nat) : Prop where
  row : ∀ u ∈ f.tables, ∀ s ∈ u.rows, f.highlight.marksRow u.id s.id = false
  header : ∀ u ∈ f.tables, ∀ d ∈ u.columns, f.highlight.marksHeader u.id (some d.id) = false
  cell : ∀ j u, f.tables[j]? = some u → ∀ k s, u.rows[k]? = some s →
    ∀ m d, u.columns[m]? = some d →
      (f.highlight.marksCell u.id (some d.id) s.id = true ↔ j = i ∧ k = p ∧ m = q)
  shown : ∀ j u, f.tables[j]? = some u →
    (if j = i then Marks.oneCell p q else Marks.nothing).ShownBy u f.highlight

variable {f : Frame} {i p q : Nat} {u : Table} {r : Row} {c : Column}

/-- A highlight of a row and a column marks the cell with the ids of both, be they empty or not. -/
theorem marksCell_iff {table row column : CodePoints} (w s d : CodePoints) :
    Highlight.marksCell ⟨table, some [row], some column⟩ w (some d) s = true ↔
      w = table ∧ s = row ∧ d = column := by
  simp only [Highlight.marksCell, Highlight.namesRow, Highlight.namesRows, Option.getD_some,
    List.contains_cons, List.contains_nil, Bool.or_false, Bool.not_true, Bool.and_eq_true,
    beq_iff_eq, Option.some.injEq, and_assoc, eq_comm (a := table), eq_comm (a := column),
    and_comm (a := d = column)]

/-- A highlight of a row and a column with an id that is not empty marks the cell where they meet,
    among distinct ids. -/
theorem marksOnly_of_ne (hids : (f.tables.map (·.id)).Nodup) (hu : f.tables[i]? = some u)
    (hd : u.DistinctIds) (hr : u.rows[p]? = some r) (hc : u.columns[q]? = some c)
    (hh : f.highlight = ⟨u.id, some [r.id], some c.id⟩) (hne : c.id ≠ []) :
    f.MarksOnly i p q := by
  have hrow : ∀ k s, u.rows[k]? = some s → (s.id = r.id ↔ k = p) :=
    fun k s hs => key_eq_iff_of_nodup hd.rows hr hs
  have hcolumn : ∀ m d, u.columns[m]? = some d → (d.id = c.id ↔ m = q) :=
    fun m d hd' => key_eq_iff_of_nodup hd.columns hc hd'
  have htable : ∀ j w, f.tables[j]? = some w → (w.id = u.id ↔ j = i) :=
    fun j w hw => key_eq_iff_of_nodup hids hu hw
  constructor
  · intro w _ s _
    simp [hh, Highlight.marksRow, Highlight.namesColumn, hne]
  · intro w _ d _
    simp [hh, Highlight.marksHeader, Highlight.namesRows]
  · intro j w hw k s hs m d hd'
    rw [hh, marksCell_iff, htable j w hw]
    refine and_congr_right fun hj => ?_
    subst hj
    cases hu.symm.trans hw
    exact and_congr (hrow k s hs) (hcolumn m d hd')
  · intro j w hw
    split
    next hj =>
      subst hj
      cases hu.symm.trans hw
      rw [hh]
      exact (Marks.matches_oneCell hne hrow hcolumn).shownBy
    next hj =>
      refine (Marks.matches_nothing fun hon => hj ?_).shownBy
      rw [hh] at hon
      exact (htable j w hw).1 hon.symm

/-- A highlight of a row and a column with an empty id marks the whole row. -/
theorem not_marksOnly_of_empty (hu : u ∈ f.tables) (hr : r ∈ u.rows)
    (hh : f.highlight = ⟨u.id, some [r.id], some []⟩) : ¬ f.MarksOnly i p q := by
  intro h
  have hrow := h.row u hu r hr
  simp [hh, Highlight.marksRow, Highlight.namesRow, Highlight.namesColumn] at hrow

/-! ## Commands for one cell -/

theorem resolveColumn_of_row {t : Table} {column : String} (hc : t.column? column = some c)
    {n : Int} (hr : t.rowAt? (n - 1) = some r) :
    resolveColumn t column (some n) =
      .ok ⟨.highlight ⟨t.id, some [r.id], some c.id⟩, []⟩ := by
  simp [resolveColumn, hc, hr]

/-- A command for the cell under a column of the table and in a row that the table has is kept, and
    its frame marks this cell and nothing else if and only if the id of the column is not empty.
    The tables must have distinct ids, as must the columns and the rows of each, and new ids must be
    new. -/
theorem marksOnly_iff {tables : List Table} (hids : (tables.map (·.id)).Nodup)
    (hd : ∀ t ∈ tables, t.DistinctIds) {ids : IdSupply} (hinj : Function.Injective ids)
    (hnew : ∀ t ∈ tables, ∀ n, ids n ∉ t.columns.map (·.id) ∧ ids n ∉ t.rows.map (·.id))
    {script : List Char} {compiled : Compiled} (hc : compile tables script = .ok compiled)
    {before after : List Verdict} {v : Verdict} (hv : compiled.verdicts = before ++ v :: after)
    {table column : String} {n : Int}
    (hp : parse v.command.text = .ok ⟨table, .highlightColumn column (some n)⟩) {t : Table}
    (ht : Tables.named? tables table = some t) {c : Column} (hcolumn : t.column? column = some c)
    (hn : t.HasRow n) :
    (∃ r, v.outcome = .kept r) ∧
      ∃ (f : Frame) (i p q : Nat),
        (sequence ids tables compiled.actions)[(before.filterMap Verdict.action?).length + 1]? =
          some f ∧
        tables[i]? = some t ∧ (p : Int) + 1 = n ∧ t.columns[q]? = some c ∧
        (f.MarksOnly i p q ↔ c.id ≠ []) := by
  obtain ⟨r, hr⟩ := Option.isSome_iff_exists.1 (Table.rowAt?_isSome_iff.2 hn)
  have hresolve := resolveColumn_of_row hcolumn hr
  have hmem : v ∈ compiled.verdicts := by simp [hv]
  have ho := (outcome_of_resolve hc hmem hp ht).2 _ hresolve rfl
  obtain ⟨command, outcome⟩ := v
  cases ho
  obtain ⟨f, i, t', gained, id, hf, hi, hnamed, -, hu, hhighlight⟩ :=
    exists_frame_of_kept hids hc hv hp ids
  cases ht.symm.trans hnamed
  obtain ⟨h0, hrow⟩ := Table.rowAt?_eq_some_iff.1 hr
  obtain ⟨s, hs, hsid⟩ := Table.exists_row_withGains gained hrow
  obtain ⟨q, hq⟩ := List.mem_iff_getElem?.1 (Table.column?_mem hcolumn)
  refine ⟨⟨_, rfl⟩, f, i, (n - 1).toNat, q, hf, hi, by omega, hq, ?_⟩
  have hh : f.highlight = ⟨(t.withGains gained).id, some [s.id], some c.id⟩ := by
    rw [hhighlight, hsid, Table.withGains_id]
    rfl
  have hq' : (t.withGains gained).columns[q]? = some c := by
    rw [Table.withGains_columns, List.getElem?_append_left (List.getElem?_eq_some_iff.1 hq).1, hq]
  constructor
  · intro h hempty
    rw [hempty] at hh
    exact not_marksOnly_of_empty (List.mem_of_getElem? hu) (List.mem_of_getElem? hs) hh h
  · have hframe : (f.tables.map (·.id)).Nodup := by
      rw [tables_eq_grown hf, ids_grown]
      exact hids
    have hdistinct := distinctIds_of_mem hd hinj hnew (List.mem_of_getElem? hf)
    exact marksOnly_of_ne hframe hu (hdistinct _ (List.mem_of_getElem? hu)) hs hq' hh

/-- A table in JSON whose first column has an empty id. -/
def unlabelled : List Char :=
  ("[\x7b\"id\": \"t\", \"name\": \"T\", \"columns\": [\x7b\"id\": \"\", \"name\": \"C\"\x7d, "
    ++ "\x7b\"id\": \"d\", \"name\": \"D\"\x7d], "
    ++ "\"rows\": [\x7b\"id\": \"r\", \"cells\": \x7b\"\": \"x\", \"d\": \"y\"\x7d\x7d]\x7d]").toList

/-- This table. -/
def nameless : Table :=
  ⟨"t", "T", [⟨"", "C"⟩, ⟨"d", "D"⟩], [⟨"r", [("", "x"), ("d", "y")]⟩]⟩

theorem load_unlabelled : Tables.load unlabelled = .ok [nameless] := by decide +kernel

theorem distinctIds_nameless : ∀ t ∈ [nameless], t.DistinctIds := by
  rw [List.forall_mem_singleton]
  exact ⟨by decide, by decide⟩

/-- A cell under the other column, when the table has got a row. -/
theorem marksOnly_iff_nameless :
    ([nameless].map (·.id)).Nodup ∧ (∀ t ∈ [nameless], t.DistinctIds) ∧
      Function.Injective strokes ∧
      (∀ t ∈ [nameless], ∀ n,
        strokes n ∉ t.columns.map (·.id) ∧ strokes n ∉ t.rows.map (·.id)) ∧
      ∃ compiled v w,
        compile [nameless]
            "add in table 'T' row; highlight in table 'T' column 'D' row 1".toList =
          .ok compiled ∧
        compiled.verdicts = [v] ++ w :: [] ∧
        parse w.command.text = .ok ⟨"T", .highlightColumn "D" (some 1)⟩ ∧
        Tables.named? [nameless] "T" = some nameless ∧
        nameless.column? "D" = some ⟨"d", "D"⟩ ∧ nameless.HasRow 1 ∧
        ∃ (f : Frame) (i p q : Nat),
          (sequence strokes [nameless] compiled.actions)[2]? = some f ∧
          [nameless][i]? = some nameless ∧ (p : Int) + 1 = 1 ∧
          nameless.columns[q]? = some ⟨"d", "D"⟩ ∧ f.MarksOnly i p q := by
  have hids : ([nameless].map (·.id)).Nodup := by decide
  have hnew : ∀ t ∈ [nameless], ∀ n,
      strokes n ∉ t.columns.map (·.id) ∧ strokes n ∉ t.rows.map (·.id) := by
    have hnone : ∀ t ∈ [nameless], ∀ id ∈ t.columns.map (·.id) ++ t.rows.map (·.id),
        id.head? ≠ some (.char '|') := by
      decide
    intro t ht n
    rw [← not_or, ← List.mem_append]
    exact fun hmem => strokes_ne (hnone t ht _ hmem) n rfl
  have hc : compile [nameless]
      "add in table 'T' row; highlight in table 'T' column 'D' row 1".toList =
      .ok ⟨[⟨⟨0, "add in table 'T' row".toList⟩, .kept ⟨.addRow "t" [[], []], []⟩⟩] ++
        ⟨⟨22, "highlight in table 'T' column 'D' row 1".toList⟩,
          .kept ⟨.highlight ⟨"t", some ["r"], some "d"⟩, []⟩⟩ :: []⟩ := by
    decide +kernel
  have hp : parse "highlight in table 'T' column 'D' row 1".toList =
      .ok ⟨"T", .highlightColumn "D" (some 1)⟩ := by
    decide +kernel
  have ht : Tables.named? [nameless] "T" = some nameless := by decide
  have hcolumn : nameless.column? "D" = some ⟨"d", "D"⟩ := by decide
  have hn : nameless.HasRow 1 := by decide
  obtain ⟨-, f, i, p, q, hf, hi, hrow, hq, hiff⟩ :=
    marksOnly_iff hids distinctIds_nameless strokes_injective hnew hc rfl hp ht hcolumn hn
  exact ⟨hids, distinctIds_nameless, strokes_injective, hnew, _, _, _, hc, rfl, hp, ht, hcolumn, hn, f, i, p, q,
    hf, hi, hrow, hq, hiff.2 (by decide)⟩

/-- A cell under the column with the empty id: the whole row is marked. -/
theorem not_marksOnly_nameless :
    Tables.load unlabelled = .ok [nameless] ∧ ([nameless].map (·.id)).Nodup ∧
      (∀ t ∈ [nameless], t.DistinctIds) ∧
      ∃ compiled command r,
        compile [nameless] "highlight in table 'T' column 'C' row 1".toList = .ok compiled ∧
        compiled.verdicts = [⟨command, .kept r⟩] ∧
        parse command.text = .ok ⟨"T", .highlightColumn "C" (some 1)⟩ ∧
        (nameless.column? "C").isSome ∧ nameless.HasRow 1 ∧
        ∃ f, (sequence strokes [nameless] compiled.actions)[1]? = some f ∧
          ∀ i p q, ¬ f.MarksOnly i p q := by
  have hc : compile [nameless] "highlight in table 'T' column 'C' row 1".toList =
      .ok ⟨[⟨⟨0, "highlight in table 'T' column 'C' row 1".toList⟩,
        .kept ⟨.highlight ⟨"t", some ["r"], some ""⟩, []⟩⟩]⟩ := by
    decide +kernel
  have hp : parse "highlight in table 'T' column 'C' row 1".toList =
      .ok ⟨"T", .highlightColumn "C" (some 1)⟩ := by
    decide +kernel
  refine ⟨load_unlabelled, by decide, distinctIds_nameless, _, _, _, hc, rfl, hp, by decide,
    by decide, _, rfl, fun i p q => ?_⟩
  exact not_marksOnly_of_empty (u := nameless) (List.mem_singleton_self _) (List.mem_singleton_self _)
    rfl

end Storyboard.Frame
