-- SUMMARY: The values that a command gives for a new row, from its entries to the cells of its frame.
import Mathlib.Data.List.GetD
import Storyboard.Proofs.Addressing
import Storyboard.Proofs.Script.Accounting

/-!
# Values for a new row

The entries of a command for a new row all name their columns, or all go by order; anything
else is rejected (`resolveAddRow_of_mixed`), and so are entries of which one names a column
that the table does not have (`resolveAddRow_of_unknown`). The values are then laid out by
the columns that the table has before the script, be they named (`resolveAddRow_of_named`)
or in order (`resolveAddRow_of_inOrder`). So in the frame the new row shows them under these
columns, and nothing under those that were added before (`Frame.row_of_compile`).
-/

namespace Storyboard.Script

/-! ## Entries -/

/-- The entries go by order: none names a column. -/
def InOrder (entries : List RowEntry) : Prop :=
  ∀ e ∈ entries, e.column = none

/-- Each entry names a column. -/
def AllNamed (entries : List RowEntry) : Prop :=
  ∀ e ∈ entries, e.column.isSome

/-- Some entries name a column and some do not. -/
def Mixed (entries : List RowEntry) : Prop :=
  (∃ e ∈ entries, e.column.isSome) ∧ ∃ e ∈ entries, e.column = none

/-- The column of a table that an entry names. -/
def RowEntry.column? (t : Table) (e : RowEntry) : Option Column :=
  e.column.bind fun name => t.column? name

/-- Each entry names a column, and the table does not have all of these. -/
def NamesUnknown (t : Table) (entries : List RowEntry) : Prop :=
  AllNamed entries ∧ ∃ e ∈ entries, e.column? t = none

instance (entries : List RowEntry) : Decidable (InOrder entries) :=
  inferInstanceAs (Decidable (∀ e ∈ entries, e.column = none))

instance (entries : List RowEntry) : Decidable (Mixed entries) :=
  inferInstanceAs (Decidable ((∃ e ∈ entries, e.column.isSome) ∧ ∃ e ∈ entries, e.column = none))

instance (t : Table) (entries : List RowEntry) : Decidable (NamesUnknown t entries) :=
  inferInstanceAs (Decidable ((∀ e ∈ entries, e.column.isSome) ∧ ∃ e ∈ entries, e.column? t = none))

/-- The value for the column at a place. If entries name columns it is that of the last one that
    names this column, or else that of the entry at the same place; without an entry it is empty. -/
def valueUnder (t : Table) (entries : List RowEntry) (q : Nat) (c : Column) : CodePoints :=
  let entry :=
    if InOrder entries then entries[q]? else (entries.filter (·.column? t = some c)).getLast?
  (entry.map fun e => CodePoints.ofString e.value).getD []

variable {t : Table} {entries : List RowEntry}

theorem isEmpty_named :
    (entries.filterMap fun e => e.column.map (·, e.value)).isEmpty = true ↔ InOrder entries := by
  simp [InOrder]

theorem length_named :
    (entries.filterMap fun e => e.column.map (·, e.value)).length = entries.length ↔
      AllNamed entries := by
  simp [AllNamed, List.filterMap_length_eq_length]

/-! ## Values by name -/

/-- Names that the table has all lead to values. -/
theorem exists_namedValues {named : List (String × String)}
    (h : ∀ e ∈ named, (t.column? e.1).isSome) (values : OrderedMap CodePoints CodePoints) :
    ∃ m, namedValues t named values = .ok m := by
  induction named generalizing values with
  | nil => exact ⟨values, rfl⟩
  | cons e rest ih =>
    obtain ⟨c, hc⟩ := Option.isSome_iff_exists.1 (h e (List.mem_cons_self ..))
    simp only [namedValues, hc]
    exact ih (fun d hd => h d (List.mem_cons_of_mem e hd)) _

/-- One name that the table does not have leads to a rejection. -/
theorem namedValues_eq_error {named : List (String × String)}
    (h : ∃ e ∈ named, t.column? e.1 = none) (values : OrderedMap CodePoints CodePoints) :
    ∃ name, namedValues t named values = .error (.unknownColumn name t.name) := by
  induction named generalizing values with
  | nil => simp at h
  | cons e rest ih =>
    cases hc : t.column? e.1 with
    | none => exact ⟨e.1, by simp only [namedValues, hc]⟩
    | some c =>
      obtain ⟨d, hd, hnone⟩ := h
      have hne : d ≠ e := by
        rintro rfl
        cases hc.symm.trans hnone
      simp only [namedValues, hc]
      exact ih ⟨d, (List.mem_cons.1 hd).resolve_left hne, hnone⟩ _

/-- Of the entries that name one column, the value of the last is found under its id. -/
theorem get?_namedValues (hd : (t.columns.map (·.id)).Nodup) {c : Column} (hc : c ∈ t.columns)
    {values m : OrderedMap CodePoints CodePoints}
    (h : namedValues t (entries.filterMap fun e => e.column.map (·, e.value)) values = .ok m) :
    m.get? c.id =
      ((entries.filter (·.column? t = some c)).getLast?.map fun e => CodePoints.ofString e.value).or
        (values.get? c.id) := by
  induction entries generalizing values with
  | nil =>
    cases h
    rfl
  | cons e rest ih =>
    cases hname : e.column with
    | none =>
      rw [List.filterMap_cons_none (by rw [hname]; rfl)] at h
      rw [List.filter_cons_of_neg (by simp [RowEntry.column?, hname])]
      exact ih h
    | some name =>
      rw [List.filterMap_cons_some (by rw [hname]; rfl)] at h
      simp only [namedValues] at h
      split at h
      next => cases h
      next d hd' =>
        have hrest := ih h
        by_cases hdc : d = c
        · subst hdc
          rw [List.filter_cons_of_pos (by simp [RowEntry.column?, hname, hd']), List.getLast?_cons,
            hrest, OrderedMap.get?_insert_self]
          cases (rest.filter (·.column? t = some d)).getLast? <;> rfl
        · have hne : c.id ≠ d.id := fun hid =>
            hdc (List.inj_on_of_nodup_map hd (Table.column?_mem hd') hc hid.symm)
          rw [List.filter_cons_of_neg (by simp [RowEntry.column?, hname, hd', hdc]), hrest,
            OrderedMap.get?_insert_of_ne hne]

/-! ## Resolving -/

theorem resolveAddRow_of_mixed (h : Mixed entries) :
    resolveAddRow t entries = .error .mixedEntries := by
  obtain ⟨⟨e, he, hsome⟩, d, hd, hnone⟩ := h
  have hempty : ¬ InOrder entries := fun ho => by simp [ho e he] at hsome
  have hlength : ¬ AllNamed entries := fun ha => by simpa [hnone] using ha d hd
  unfold resolveAddRow
  simp only
  rw [if_neg (mt isEmpty_named.1 hempty), if_pos (mt length_named.1 hlength)]

/-- What is left of the resolver once the entries all name columns. -/
theorem resolveAddRow_of_allNamed (hne : ¬ InOrder entries) (h : AllNamed entries) :
    resolveAddRow t entries =
      (namedValues t (entries.filterMap fun e => e.column.map (·, e.value)) []).map fun values =>
        ⟨.addRow t.id (t.columns.map fun c => (values.get? c.id).getD []), []⟩ := by
  unfold resolveAddRow
  simp only
  rw [if_neg (mt isEmpty_named.1 hne), if_neg (not_not_intro (length_named.2 h))]
  cases namedValues t (entries.filterMap fun e => e.column.map (·, e.value)) [] <;> rfl

theorem resolveAddRow_of_unknown (h : NamesUnknown t entries) :
    ∃ name, resolveAddRow t entries = .error (.unknownColumn name t.name) := by
  obtain ⟨hall, e, he, hnone⟩ := h
  obtain ⟨name, hname⟩ := Option.isSome_iff_exists.1 (hall e he)
  rw [RowEntry.column?, hname, Option.bind_some] at hnone
  have hne : ¬ InOrder entries := fun ho => by simp [ho e he] at hname
  have hmem : (name, e.value) ∈ entries.filterMap fun e => e.column.map (·, e.value) :=
    List.mem_filterMap.2 ⟨e, he, by rw [hname]; rfl⟩
  obtain ⟨unknown, herror⟩ := namedValues_eq_error ⟨_, hmem, hnone⟩ []
  exact ⟨unknown, by rw [resolveAddRow_of_allNamed hne hall, herror]; rfl⟩

/-- A value is there for each column of the table, and it is the one that the entries give. -/
structure Fills (t : Table) (entries : List RowEntry) (values : List CodePoints) : Prop where
  length : values.length = t.columns.length
  value : ∀ q c, t.columns[q]? = some c → values.getD q [] = valueUnder t entries q c

theorem resolveAddRow_of_named (hd : (t.columns.map (·.id)).Nodup) (hne : ¬ InOrder entries)
    (h : AllNamed entries) (hknown : ¬ NamesUnknown t entries) :
    ∃ values, resolveAddRow t entries = .ok ⟨.addRow t.id values, []⟩ ∧
      Fills t entries values := by
  have hcolumns : ∀ e ∈ entries.filterMap fun e => e.column.map (·, e.value),
      (t.column? e.1).isSome := by
    intro e he
    obtain ⟨d, hd, he⟩ := List.mem_filterMap.1 he
    obtain ⟨name, hname, rfl⟩ := Option.map_eq_some_iff.1 he
    by_contra hnone
    exact hknown ⟨h, d, hd, by simpa [RowEntry.column?, hname] using hnone⟩
  obtain ⟨m, hm⟩ := exists_namedValues hcolumns []
  refine ⟨_, by rw [resolveAddRow_of_allNamed hne h, hm]; rfl, List.length_map _, fun q c hc => ?_⟩
  have hget := get?_namedValues hd (List.mem_of_getElem? hc) hm
  rw [OrderedMap.get?_nil, Option.or_none] at hget
  simp [List.getD_eq_getElem?_getD, hc, hget, valueUnder, hne]

/-- Cut or filled up to a width, a list has the same entries below it. -/
theorem getD_take_append_replicate {α : Type} (xs : List α) (d : α) {w q : Nat} (h : q < w) :
    (xs.take w ++ List.replicate (w - xs.length) d).getD q d = xs.getD q d := by
  by_cases hq : q < xs.length
  · have hlt : q < (xs.take w).length := by
      rw [List.length_take]
      exact Nat.lt_min.2 ⟨h, hq⟩
    rw [List.getD_append _ _ _ _ hlt, List.getD_eq_getElem?_getD, List.getElem?_take_of_lt h,
      ← List.getD_eq_getElem?_getD]
  · have hle : xs.length ≤ q := Nat.not_lt.1 hq
    rw [List.getD_append_right _ _ _ _ ((List.length_take_le' w xs).trans hle),
      List.getD_eq_default _ _ hle, List.getD_eq_getElem?_getD,
      List.getElem?_getD_replicate_default_eq]

/-- In order, the values are cut or filled up to the number of columns; there is a note if they are
    cut. -/
theorem resolveAddRow_of_inOrder (h : InOrder entries) :
    ∃ values, resolveAddRow t entries =
        .ok ⟨.addRow t.id values,
          if t.columns.length < entries.length then
            [.tooManyValues t.name t.columns.length entries.length]
          else []⟩ ∧
      Fills t entries values := by
  let given := entries.map fun e => CodePoints.ofString e.value
  refine ⟨given.take t.columns.length ++ List.replicate (t.columns.length - given.length) [],
    ?_, ?_, fun q c hc => ?_⟩
  · unfold resolveAddRow
    simp only
    rw [if_pos (isEmpty_named.2 h), List.length_map]
  · simp only [List.length_append, List.length_take, List.length_replicate]
    omega
  · have hq : q < t.columns.length := (List.getElem?_eq_some_iff.1 hc).1
    rw [getD_take_append_replicate given [] hq, List.getD_eq_getElem?_getD, List.getElem?_map,
      valueUnder, if_pos h]

/-- Entries that are neither mixed nor unknown fill a row; there is a note if some go by order
    beyond the columns. -/
theorem resolveAddRow_of_fit (hd : (t.columns.map (·.id)).Nodup) (hmixed : ¬ Mixed entries)
    (hknown : ¬ NamesUnknown t entries) :
    ∃ values, resolveAddRow t entries =
        .ok ⟨.addRow t.id values,
          if InOrder entries ∧ t.columns.length < entries.length then
            [.tooManyValues t.name t.columns.length entries.length]
          else []⟩ ∧
      Fills t entries values := by
  by_cases ho : InOrder entries
  · simpa only [ho, true_and] using resolveAddRow_of_inOrder ho
  · have hall : AllNamed entries := by
      by_contra hall
      simp only [InOrder, AllNamed, not_forall] at ho hall
      obtain ⟨e, he, hsome⟩ := ho
      obtain ⟨d, hd, hnone⟩ := hall
      exact hmixed ⟨⟨e, he, Option.isSome_iff_ne_none.2 hsome⟩, d, hd, by simpa using hnone⟩
    simpa only [ho, false_and, if_false] using resolveAddRow_of_named hd ho hall hknown

/-- What is remarked on a command of a compiled script. -/
def Compiled.remarksOn (c : Compiled) (command : CommandText) : List (ProblemKind × Severity) :=
  (c.diagnostics.filter (·.command = command)).map fun p => (p.kind, p.severity)

theorem remarksOn_of_rejected {tables : List Table} {script : List Char} {compiled : Compiled}
    (hc : compile tables script = .ok compiled) {before after : List Verdict} {v : Verdict}
    (hv : compiled.verdicts = before ++ v :: after) {cause : Rejection} {position : Option Nat}
    (ho : v.outcome = .rejected cause position) :
    compiled.remarksOn v.command = [(cause.kind, .error)] := by
  rw [Compiled.remarksOn, filter_diagnostics hc hv, Verdict.diagnostics, ho]
  rfl

theorem remarksOn_of_kept {tables : List Table} {script : List Char} {compiled : Compiled}
    (hc : compile tables script = .ok compiled) {before after : List Verdict} {v : Verdict}
    (hv : compiled.verdicts = before ++ v :: after) {r : Resolved} (ho : v.outcome = .kept r) :
    compiled.remarksOn v.command = r.cautions.map fun c => (c.kind, .warning) := by
  rw [Compiled.remarksOn, filter_diagnostics hc hv, Verdict.diagnostics, ho]
  exact List.map_map

end Storyboard.Script

namespace Storyboard.Frame

open Script

/-- New ids that are under no column of the tables leave the columns of each with different ids. -/
theorem nodup_columns_of_mem {tables : List Table}
    (hd : ∀ t ∈ tables, (t.columns.map (·.id)).Nodup) {ids : IdSupply}
    (hinj : Function.Injective ids) (hnew : ∀ t ∈ tables, ∀ c ∈ t.columns, ∀ n, ids n ≠ c.id)
    {actions : List Action} {f : Frame} (hf : f ∈ sequence ids tables actions) :
    ∀ u ∈ f.tables, (u.columns.map (·.id)).Nodup := by
  obtain ⟨k, hk⟩ := List.mem_iff_getElem?.1 hf
  rw [tables_eq_after hk]
  exact (Replayed.all hd hnew hinj _).nodup

/-- What becomes of the entries that a command gives for a new row. It is rejected if some of them
    name a column and some do not, or if all do and the table does not have all of these columns.
    Otherwise the last row of its frame shows under the columns that the table had before the
    script the values that the entries give, and nothing under the others. All that there is to
    say about it is that there are more values in order than there were columns. -/
theorem row_of_compile {tables : List Table} (hids : (tables.map (·.id)).Nodup)
    (hd : ∀ t ∈ tables, (t.columns.map (·.id)).Nodup) {ids : IdSupply}
    (hinj : Function.Injective ids) (hnew : ∀ t ∈ tables, ∀ c ∈ t.columns, ∀ n, ids n ≠ c.id)
    {script : List Char} {compiled : Compiled} (hc : compile tables script = .ok compiled)
    {before after : List Verdict} {v : Verdict} (hv : compiled.verdicts = before ++ v :: after)
    {table : String} {entries : List RowEntry}
    (hp : parse v.command.text = .ok ⟨table, .addRow entries⟩) {t : Table}
    (ht : Tables.named? tables table = some t) :
    (Mixed entries →
      v.outcome = .rejected .mixedEntries none ∧
      compiled.remarksOn v.command = [(.invalidCommand, .error)]) ∧
    (NamesUnknown t entries →
      (∃ name, v.outcome = .rejected (.unknownColumn name t.name) none) ∧
      compiled.remarksOn v.command = [(.columnNotFound, .error)]) ∧
    (¬ Mixed entries → ¬ NamesUnknown t entries →
      (∃ r, v.outcome = .kept r) ∧
      (∃ (f : Frame) (i : Nat) (u : Table) (row : Row),
        (sequence ids tables compiled.actions)[(before.filterMap Verdict.action?).length + 1]? =
          some f ∧
        tables[i]? = some t ∧ f.tables[i]? = some u ∧ u.rows.getLast? = some row ∧
        t.columns <+: u.columns ∧
        (∀ q c, t.columns[q]? = some c → row.cell c.id = valueUnder t entries q c) ∧
        ∀ c ∈ u.columns.drop t.columns.length, row.cell c.id = []) ∧
      compiled.remarksOn v.command =
        if InOrder entries ∧ t.columns.length < entries.length then [(.tooManyValues, .warning)]
        else []) := by
  have hmem : v ∈ compiled.verdicts := by simp [hv]
  obtain ⟨herror, hok⟩ := outcome_of_resolve hc hmem hp ht
  refine ⟨fun hmixed => ?_, fun hunknown => ?_, fun hmixed hknown => ?_⟩
  · have ho := herror _ (resolveAddRow_of_mixed hmixed)
    exact ⟨ho, remarksOn_of_rejected hc hv ho⟩
  · obtain ⟨name, hresolve⟩ := resolveAddRow_of_unknown hunknown
    have ho := herror _ hresolve
    exact ⟨⟨name, ho⟩, remarksOn_of_rejected hc hv ho⟩
  · obtain ⟨values, hresolve, hfills⟩ :=
      resolveAddRow_of_fit (hd t (Tables.named?_mem ht)) hmixed hknown
    have ho := hok _ hresolve rfl
    obtain ⟨command, outcome⟩ := v
    cases ho
    refine ⟨⟨_, rfl⟩, ?_, ?_⟩
    · obtain ⟨f, i, t', gained, id, hf, hi, hnamed, -, hu, -⟩ :=
        exists_frame_of_kept hids hc hv hp ids
      cases ht.symm.trans hnamed
      have hcolumns := t.withGains_columns gained
      have hnodup :=
        nodup_columns_of_mem hd hinj hnew (List.mem_of_getElem? hf) _ (List.mem_of_getElem? hu)
      rw [Action.enacted, Table.appendRow_columns] at hnodup
      have hcell : ∀ q c, (t.withGains gained).columns[q]? = some c →
          Row.cell ⟨id, Table.cellsUnder (t.withGains gained).columns values⟩ c.id =
            values.getD q [] :=
        fun q c hc => Table.cell_cellsUnder hnodup id values hc
      refine ⟨f, i, _, _, hf, hi, hu, List.getLast?_concat, ⟨_, hcolumns.symm⟩, ?_, ?_⟩
      · intro q c hq
        rw [← hfills.value q c hq]
        refine hcell q c ?_
        rw [hcolumns, List.getElem?_append_left (List.getElem?_eq_some_iff.1 hq).1, hq]
      · intro c hdrop
        obtain ⟨k, hk⟩ := List.mem_iff_getElem?.1 hdrop
        rw [List.getElem?_drop] at hk
        have hbeyond : values.length ≤ t.columns.length + k := by
          rw [hfills.length]
          exact Nat.le_add_right ..
        rw [hcell _ c hk, List.getD_eq_default _ _ hbeyond]
    · rw [remarksOn_of_kept hc hv rfl]
      split <;> rfl

/-- A table with two columns and no row. -/
def paired : Table :=
  ⟨"t", "T", [⟨"c", "C"⟩, ⟨"d", "D"⟩], []⟩

/-- The text of a command with named entries, of which the last overrides the first. -/
def override : String :=
  "add in table 'T' row [\x7b'D'-'x'\x7d, \x7b'C'-'y'\x7d, \x7b'D'-'z'\x7d]"

/-- These entries. -/
def overridden : List RowEntry :=
  [⟨"x", some "D"⟩, ⟨"y", some "C"⟩, ⟨"z", some "D"⟩]

theorem row_of_compile_override :
    ([paired].map (·.id)).Nodup ∧ (∀ t ∈ [paired], (t.columns.map (·.id)).Nodup) ∧
      Function.Injective strokes ∧
      (∀ t ∈ [paired], ∀ c ∈ t.columns, ∀ n, strokes n ≠ c.id) ∧
      ∃ compiled v w,
        compile [paired] ("add in table 'T' column 'E'; " ++ override).toList = .ok compiled ∧
        compiled.verdicts = [v] ++ w :: [] ∧
        parse w.command.text = .ok ⟨"T", .addRow overridden⟩ ∧
        Tables.named? [paired] "T" = some paired ∧
        (∃ (f : Frame) (u : Table) (row : Row),
          (sequence strokes [paired] compiled.actions)[2]? = some f ∧ f.tables[0]? = some u ∧
          u.rows.getLast? = some row ∧ row.cell "c" = "y" ∧ row.cell "d" = "z" ∧
          ∀ c ∈ u.columns.drop 2, row.cell c.id = []) ∧
        compiled.remarksOn w.command = [] := by
  have hids : ([paired].map (·.id)).Nodup := by decide
  have hd : ∀ t ∈ [paired], (t.columns.map (·.id)).Nodup := by decide
  have hnew : ∀ t ∈ [paired], ∀ c ∈ t.columns, ∀ n, strokes n ≠ c.id := by
    have hnone : ∀ t ∈ [paired], ∀ c ∈ t.columns, c.id.head? ≠ some (.char '|') := by decide
    exact fun t ht c hc => strokes_ne (hnone t ht c hc)
  have hc : compile [paired] ("add in table 'T' column 'E'; " ++ override).toList =
      .ok ⟨[⟨⟨0, "add in table 'T' column 'E'".toList⟩, .kept ⟨.addColumn "t" "E" none, []⟩⟩] ++
        ⟨⟨29, override.toList⟩, .kept ⟨.addRow "t" ["y", "z"], []⟩⟩ :: []⟩ := by
    decide +kernel
  have hp : parse override.toList = .ok ⟨"T", .addRow overridden⟩ := by decide +kernel
  have ht : Tables.named? [paired] "T" = some paired := by decide
  have hmixed : ¬ Mixed overridden := by decide
  have hknown : ¬ NamesUnknown paired overridden := by decide
  obtain ⟨-, -, hkept⟩ := row_of_compile hids hd strokes_injective hnew hc rfl hp ht
  obtain ⟨-, ⟨f, i, u, row, hf, hi, hu, hrow, -, hcells, hothers⟩, hremarks⟩ := hkept hmixed hknown
  obtain rfl : i = 0 := by
    have hlt := (List.getElem?_eq_some_iff.1 hi).1
    simpa using hlt
  refine ⟨hids, hd, strokes_injective, hnew, _, _, _, hc, rfl, hp, ht, ⟨f, u, row, hf, hu, hrow, ?_, ?_, hothers⟩,
    hremarks⟩
  · exact (hcells 0 ⟨"c", "C"⟩ rfl).trans (by decide +kernel)
  · exact (hcells 1 ⟨"d", "D"⟩ rfl).trans (by decide +kernel)

end Storyboard.Frame
