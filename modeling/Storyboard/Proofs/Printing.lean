-- SUMMARY: Which tables have frames that can be printed: those that show no half, whatever the script.
import Storyboard.Proofs.Alignment
import Storyboard.Proofs.Seeding
import Storyboard.Proofs.Text.Print
import Storyboard.Session

/-!
# Frames that can be printed

A grid is a text of characters just if the table shows no half (`Table.isWhole_grid_iff`). A
half that is cut off a long value is not shown, and neither is one in an id. What a script
adds is of characters, as the script is (`Script.writesWhole_of_compile`), so that each frame
shows a half if and only if the tables do before the script (`Frame.showsWhole_sequence`).
The frames of a script are printed without a fault just if the tables show no half
(`Session.fault_showFrames_iff`).
-/

namespace Storyboard

/-! ## Whole texts -/

namespace CodePoints

variable {s : CodePoints}

theorem isWhole_replicate (n : Nat) (c : Char) : IsWhole (List.replicate n (.char c)) := by
  intro p hp
  rw [List.eq_of_mem_replicate hp]
  rfl

/-- A part of a whole text is whole. -/
theorem IsWhole.of_subset {t : CodePoints} (h : IsWhole t) (hs : s ⊆ t) : IsWhole s :=
  fun p hp => h p (hs hp)

/-- Blanks are no halves, so that trimming a text leaves it all its halves. -/
theorem isWhole_stripRight : s.stripRight.IsWhole ↔ s.IsWhole := by
  have happ := Text.dropRightWhile_append CodePoint.isBlank s
  have hblank : IsWhole (s.reverse.takeWhile CodePoint.isBlank).reverse := by
    intro p hp
    have hp := List.mem_takeWhile_imp (List.mem_reverse.1 hp)
    cases p with
    | char c => rfl
    | half n => cases hp
  constructor
  · intro h
    rw [← happ, isWhole_append]
    exact ⟨h, hblank⟩
  · intro h
    rw [← happ, isWhole_append] at h
    exact h.1

theorem isWhole_intercalate {sep : CodePoints} (hsep : sep.IsWhole) {parts : List CodePoints} :
    IsWhole (List.intercalate sep parts) ↔ ∀ part ∈ parts, part.IsWhole := by
  induction parts with
  | nil => simp
  | cons part parts ih =>
    cases parts with
    | nil => simp
    | cons next parts =>
      rw [List.forall_mem_cons, List.intercalate_cons_cons, isWhole_append, isWhole_append, ih,
        and_iff_left hsep]

end CodePoints

open CodePoints (isWhole_append isWhole_cons isWhole_ofString)

/-! ## Grids -/

namespace Grid

/-- What a grid shows of a value holds no half: all of a value of up to 24 code points counts, and
    of a longer one the first 21. -/
def ShowsWhole (value : CodePoints) : Prop :=
  CodePoints.IsWhole (if value.length ≤ 24 then value else value.take 21)

theorem ShowsWhole.of_isWhole {value : CodePoints} (h : value.IsWhole) : ShowsWhole value := by
  unfold ShowsWhole
  split
  next => exact h
  next => exact h.of_subset (List.take_subset ..)

theorem isWhole_shorten_iff {value : CodePoints} :
    (shorten maxWidth value).IsWhole ↔ ShowsWhole value := by
  obtain ⟨hlength, htext⟩ | ⟨hlength, htext⟩ := cut_shorten value
  · rw [htext, ShowsWhole, if_pos hlength]
  · rw [htext, ShowsWhole, if_neg (Nat.not_le.2 hlength), isWhole_append]
    exact and_iff_left (isWhole_ofString "...")

/-- Marks add characters only. -/
theorem isWhole_field {marked : Bool} {value : CodePoints} :
    (field marked value).IsWhole ↔ ShowsWhole value := by
  rw [← isWhole_shorten_iff]
  cases marked with
  | false => rfl
  | true => simp [field, mark]

theorem isWhole_pad {width : Nat} {text : CodePoints} :
    (pad width text).IsWhole ↔ text.IsWhole := by
  simp [pad, CodePoints.isWhole_replicate]

theorem isWhole_zipWith_pad {widths : List Nat} {fields : List CodePoints}
    (h : fields.length = widths.length) :
    (∀ text ∈ List.zipWith pad widths fields, text.IsWhole) ↔ ∀ text ∈ fields, text.IsWhole := by
  induction fields generalizing widths with
  | nil => simp
  | cons text fields ih =>
    cases widths with
    | nil => cases h
    | cons width widths =>
      rw [List.zipWith_cons_cons, List.forall_mem_cons, List.forall_mem_cons, isWhole_pad,
        ih (Nat.succ.inj h)]

/-- A line shows a half if one of its fields does. -/
theorem isWhole_layOut {widths : List Nat} {line : Line}
    (h : line.fields.length = widths.length) :
    (line.layOut widths).IsWhole ↔ ∀ text ∈ line.fields, text.IsWhole := by
  have hseparator : fieldSeparator.IsWhole := isWhole_ofString " | "
  rw [Line.layOut, isWhole_cons, isWhole_cons, CodePoints.isWhole_intercalate hseparator,
    isWhole_zipWith_pad h]
  exact ⟨fun h => h.2.2, fun h => ⟨rfl, rfl, h⟩⟩

variable {t : Table} {h : Highlight}

theorem isWhole_header :
    (∀ text ∈ (header t h).fields, text.IsWhole) ↔
      ∀ c ∈ t.columns, ShowsWhole c.name := by
  simp [header, isWhole_field]

theorem isWhole_body :
    (∀ line ∈ body t h, ∀ text ∈ line.fields, text.IsWhole) ↔
      ∀ r ∈ t.rows, ∀ c ∈ t.columns, ShowsWhole (r.cell c.id) := by
  have hline : ∀ (number : Nat) (r : Row),
      (∀ text ∈ (rowLine t h number r).fields, text.IsWhole) ↔
        ∀ c ∈ t.columns, ShowsWhole (r.cell c.id) := by
    intro number r
    simp [rowLine, isWhole_field]
  simp only [body, List.forall_mem_map, hline]
  rw [← List.zipIdx_map_fst 0 t.rows, List.forall_mem_map]
  simp only [List.zipIdx_map_fst]

/-- The lines that show a table are whole if its name and all fields are. -/
theorem isWhole_gridLines :
    (∀ text ∈ t.gridLines h, text.IsWhole) ↔ t.name.IsWhole ∧
      (∀ text ∈ (header t h).fields, text.IsWhole) ∧
      ∀ line ∈ body t h, ∀ text ∈ line.fields, text.IsWhole := by
  have hlaid : ∀ line ∈ header t h :: body t h,
      ((line.layOut (widths (header t h) (body t h))).stripRight.IsWhole ↔
        ∀ text ∈ line.fields, text.IsWhole) := by
    intro line hline
    rw [CodePoints.isWhole_stripRight, isWhole_layOut ((tight_grid t h).count line hline)]
  rw [List.forall_mem_cons] at hlaid
  have hrule : ∀ n, CodePoints.IsWhole ("  " ++ List.replicate n (CodePoint.char '-')) :=
    fun n => isWhole_append.2 ⟨isWhole_ofString "  ", CodePoints.isWhole_replicate n '-'⟩
  have hrows : (∀ text ∈ (if (body t h).isEmpty then ["  (no rows)"] else (body t h).map fun line =>
      (line.layOut (widths (header t h) (body t h))).stripRight : List CodePoints), text.IsWhole) ↔
        ∀ line ∈ body t h, ∀ text ∈ line.fields, text.IsWhole := by
    cases hbody : body t h with
    | nil => simp
    | cons line lines =>
      rw [← hbody, if_neg (by simp [hbody]), List.forall_mem_map]
      exact forall₂_congr hlaid.2
  rw [Table.gridLines, List.forall_mem_cons, List.forall_mem_cons, List.forall_mem_cons, hlaid.1,
    hrows]
  exact ⟨fun h => ⟨h.1, h.2.1, h.2.2.2⟩, fun h => ⟨h.1, h.2.1, hrule _, h.2.2⟩⟩

end Grid

/-- A table shows no half: there is none in its name, nor in those of its columns and in its cells
    as far as they are shown. -/
structure Table.ShowsWhole (t : Table) : Prop where
  name : t.name.IsWhole
  columns : ∀ c ∈ t.columns, Grid.ShowsWhole c.name
  cells : ∀ r ∈ t.rows, ∀ c ∈ t.columns, Grid.ShowsWhole (r.cell c.id)

/-- The grid of a table is of characters just if the table shows no half. -/
theorem Table.isWhole_grid_iff {t : Table} {h : Highlight} :
    (t.grid h).IsWhole ↔ t.ShowsWhole := by
  rw [Table.grid, CodePoints.isWhole_intercalate (isWhole_ofString "\n"), Grid.isWhole_gridLines,
    Grid.isWhole_header, Grid.isWhole_body]
  exact ⟨fun h => ⟨h.1, h.2.1, h.2.2⟩, fun h => ⟨h.name, h.columns, h.cells⟩⟩

theorem Frame.isWhole_grid_iff {f : Frame} {index total : Option Int} :
    (f.grid index total).IsWhole ↔ ∀ t ∈ f.tables, t.ShowsWhole := by
  have htables : (∀ text ∈ (if f.tables.isEmpty then ["(no tables)"]
      else f.tables.map (·.grid f.highlight) : List CodePoints), text.IsWhole) ↔
        ∀ t ∈ f.tables, t.ShowsWhole := by
    cases htables : f.tables with
    | nil => simp
    | cons t ts => simp [Table.isWhole_grid_iff]
  unfold Frame.grid
  rw [CodePoints.isWhole_intercalate (isWhole_ofString "\n\n"), List.forall_mem_append, htables]
  exact and_iff_right (by cases index <;> simp)

/-! ## What is added -/

/-- What a gain writes into a table holds no half. -/
def Gain.IsWhole : Gain → Prop
  | column _ name seeds => name.IsWhole ∧ ∀ seed ∈ seeds.getD [], seed.2.IsWhole
  | row _ values => ∀ value ∈ values, value.IsWhole

/-- What an action writes into a table holds no half. -/
def Action.WritesWhole (a : Action) : Prop :=
  ∀ id g, Gain.ofAction? id a = some g → g.IsWhole

theorem isWhole_lastSeed {seeds : Option (List (Int × CodePoints))}
    (h : ∀ seed ∈ seeds.getD [], seed.2.IsWhole) (position : Nat) :
    (lastSeed seeds position).IsWhole := by
  unfold lastSeed
  cases hlast : ((seeds.getD []).filter (·.1 = (position : Int))).getLast? with
  | none => exact CodePoints.isWhole_nil
  | some seed => exact h seed (List.mem_filter.1 (List.mem_of_getLast? hlast)).1

namespace Table

/-- A value under a column is one of those that are laid out, or empty. -/
theorem isWhole_cell_cellsUnder {values : List CodePoints} (h : ∀ value ∈ values, value.IsWhole)
    (id : CodePoints) (columns : List Column) (column : CodePoints) :
    (Row.cell ⟨id, cellsUnder columns values⟩ column).IsWhole := by
  unfold Row.cell
  cases hget : (cellsUnder columns values).get? column with
  | none => exact CodePoints.isWhole_nil
  | some value =>
    rw [cellsUnder, OrderedMap.get?_ofList] at hget
    obtain ⟨entry, hlast, rfl⟩ := Option.map_eq_some_iff.1 hget
    obtain ⟨⟨c, i⟩, -, rfl⟩ := List.mem_map.1 (List.mem_filter.1 (List.mem_of_getLast? hlast)).1
    change (values.getD i []).IsWhole
    rw [List.getD_eq_getElem?_getD]
    cases hvalue : values[i]? with
    | none => exact CodePoints.isWhole_nil
    | some value => exact h value (List.mem_of_getElem? hvalue)

variable {t : Table}

theorem ShowsWhole.appendColumn (h : t.ShowsWhole) (id : CodePoints) {name : CodePoints}
    {seeds : Option (List (Int × CodePoints))} (hname : name.IsWhole)
    (hseeds : ∀ seed ∈ seeds.getD [], seed.2.IsWhole) :
    (t.appendColumn id name seeds).ShowsWhole where
  name := h.name
  columns c hc := by
    rw [appendColumn_columns] at hc
    rcases List.mem_append.1 hc with hc | hc
    · exact h.columns c hc
    · cases List.mem_singleton.1 hc
      exact .of_isWhole hname
  cells r hr c hc := by
    obtain ⟨p, hp⟩ := List.mem_iff_getElem?.1 hr
    rw [getElem?_appendColumn_rows] at hp
    obtain ⟨r₀, hr₀, rfl⟩ := Option.map_eq_some_iff.1 hp
    by_cases hid : c.id = id
    · rw [hid, cell_insert_self]
      exact .of_isWhole (isWhole_lastSeed hseeds p)
    · rw [cell_insert_of_ne r₀ hid]
      rw [appendColumn_columns] at hc
      refine h.cells r₀ (List.mem_of_getElem? hr₀) c ((List.mem_append.1 hc).resolve_right ?_)
      rintro hc
      cases List.mem_singleton.1 hc
      exact hid rfl

theorem ShowsWhole.appendRow (h : t.ShowsWhole) (id : CodePoints) {values : List CodePoints}
    (hvalues : ∀ value ∈ values, value.IsWhole) : (t.appendRow id values).ShowsWhole where
  name := h.name
  columns := h.columns
  cells r hr c hc := by
    rw [appendRow_rows] at hr
    rcases List.mem_append.1 hr with hr | hr
    · exact h.cells r hr c hc
    · cases List.mem_singleton.1 hr
      exact .of_isWhole (isWhole_cell_cellsUnder hvalues id t.columns c.id)

theorem ShowsWhole.addTo {g : Gain} (h : t.ShowsWhole) (hg : g.IsWhole) :
    (g.addTo t).ShowsWhole := by
  cases g with
  | column id name seeds => exact h.appendColumn id hg.1 hg.2
  | row id values => exact h.appendRow id hg

end Table

/-! ## Frames -/

/-- An action that writes no half leaves tables that show none. -/
theorem Action.showsWhole_apply {a : Action} (ha : a.WritesWhole) {tables : List Table}
    (h : ∀ t ∈ tables, t.ShowsWhole) (ids : IdSupply) (next : Nat) :
    ∀ t ∈ (a.apply ids next tables).frame.tables, t.ShowsWhole := by
  cases htarget : a.target? tables with
  | none =>
    rw [(apply_of_target?_eq_none htarget ids next).2]
    exact h
  | some i =>
    obtain ⟨g, hg, -, -, htables⟩ := apply_of_target?_eq_some htarget ids next
    rw [htables]
    intro t ht
    rcases Frame.Replayed.mem_modify ht with ht | ⟨u, hu, rfl⟩
    · exact h t ht
    · exact (h u hu).addTo (ha _ g hg)

namespace Frame

theorem showsWhole_steps {actions : List Action} (ha : ∀ a ∈ actions, a.WritesWhole)
    {tables : List Table} (h : ∀ t ∈ tables, t.ShowsWhole) (ids : IdSupply) (next : Nat) :
    ∀ s ∈ steps ids next tables actions, ∀ t ∈ s.frame.tables, t.ShowsWhole := by
  induction actions generalizing next tables with
  | nil => exact List.forall_mem_nil _
  | cons a actions ih =>
    rw [List.forall_mem_cons] at ha
    have hstep := Action.showsWhole_apply ha.1 h ids next
    rw [steps, List.forall_mem_cons]
    exact ⟨hstep, ih ha.2 hstep _⟩

/-- The first frame shows the tables, and what is added later brings no half. -/
theorem showsWhole_sequence {actions : List Action} (ha : ∀ a ∈ actions, a.WritesWhole)
    (ids : IdSupply) (tables : List Table) :
    (∀ f ∈ sequence ids tables actions, ∀ t ∈ f.tables, t.ShowsWhole) ↔
      ∀ t ∈ tables, t.ShowsWhole := by
  rw [sequence, List.forall_mem_cons, List.forall_mem_map]
  exact ⟨And.left, fun h => ⟨h, showsWhole_steps ha h ids 0⟩⟩

end Frame

/-! ## Compiled scripts -/

namespace Script

variable {t : Table}

theorem isWhole_seedsWithin (seeds : List CellSeed) :
    ∀ seed ∈ seedsWithin t seeds, seed.2.IsWhole := by
  suffices h : ∀ placed : List (Int × CodePoints), (∀ seed ∈ placed, seed.2.IsWhole) →
      ∀ seed ∈ (seeds.filter fun s => (t.rowAt? (s.row - 1)).isSome).foldl
        (fun placed s => placeSeed (s.row - 1) s.value placed) placed, seed.2.IsWhole from
    h [] (List.forall_mem_nil _)
  induction seeds.filter fun s => (t.rowAt? (s.row - 1)).isSome with
  | nil => exact fun _ h => h
  | cons s rest ih =>
    refine fun placed h => ih _ fun seed hseed => ?_
    rcases mem_placeSeed hseed with rfl | hseed
    · exact isWhole_ofString s.value
    · exact h seed hseed

theorem isWhole_namedValues {named : List (String × String)}
    {values m : OrderedMap CodePoints CodePoints}
    (hvalues : ∀ column value, values.get? column = some value → value.IsWhole)
    (h : namedValues t named values = .ok m) :
    ∀ column value, m.get? column = some value → value.IsWhole := by
  induction named generalizing values with
  | nil =>
    cases h
    exact hvalues
  | cons e rest ih =>
    simp only [namedValues] at h
    split at h
    next => cases h
    next c _ =>
      refine ih (fun column value hvalue => ?_) h
      by_cases hcolumn : column = c.id
      · rw [hcolumn, OrderedMap.get?_insert_self] at hvalue
        cases hvalue
        exact isWhole_ofString e.2
      · rw [OrderedMap.get?_insert_of_ne hcolumn] at hvalue
        exact hvalues column value hvalue

theorem writesWhole_resolveAddRow {entries : List RowEntry} {r : Resolved}
    (h : resolveAddRow t entries = .ok r) : r.action.WritesWhole := by
  suffices hvalues : ∃ values, r.action = .addRow t.id values ∧ ∀ value ∈ values, value.IsWhole by
    obtain ⟨values, haction, hvalues⟩ := hvalues
    intro id g hg
    rw [haction] at hg
    cases hg
    exact hvalues
  obtain ⟨missing, haction⟩ | ⟨named, values, hnamed, haction⟩ := resolveAddRow_cases h
  · refine ⟨_, haction, fun value hvalue => ?_⟩
    rcases List.mem_append.1 hvalue with hvalue | hvalue
    · obtain ⟨e, -, rfl⟩ := List.mem_map.1 (List.mem_of_mem_take hvalue)
      exact isWhole_ofString e.value
    · rw [List.eq_of_mem_replicate hvalue]
      exact CodePoints.isWhole_nil
  · refine ⟨_, haction, fun value hvalue => ?_⟩
    obtain ⟨c, -, rfl⟩ := List.mem_map.1 hvalue
    cases hget : values.get? c.id with
    | none => exact CodePoints.isWhole_nil
    | some value => exact isWhole_namedValues (fun _ _ h => by cases h) hnamed c.id value hget

/-- What a command comes down to writes characters, as the command is made up of them. -/
theorem Request.writesWhole {q : Request} {r : Resolved} (h : q.resolve t = .ok r) :
    r.action.WritesWhole := by
  cases q with
  | highlightRows rows =>
    cases h
    nofun
  | highlightColumn column row =>
    simp only [Request.resolve, resolveColumn] at h
    split at h
    next => cases h
    next =>
      cases h
      nofun
  | addColumn column seeds =>
    simp only [Request.resolve, resolveAddColumn] at h
    split at h
    next => cases h
    next =>
      cases h
      intro id g hg
      cases hg
      refine ⟨isWhole_ofString column, ?_⟩
      cases seeds with
      | none => exact List.forall_mem_nil _
      | some seeds => exact isWhole_seedsWithin seeds
  | addRow entries => exact writesWhole_resolveAddRow h

theorem writesWhole_of_compile {tables : List Table} {script : List Char} {compiled : Compiled}
    (h : compile tables script = .ok compiled) : ∀ a ∈ compiled.actions, a.WritesWhole := by
  intro a ha
  obtain ⟨c, r, hr, rfl⟩ := exists_resolve_of_mem_actions h ha
  obtain ⟨t, -, hresolve⟩ := Command.exists_table hr
  exact Request.writesWhole hresolve

end Script

/-! ## Printing -/

/-- The frames of a script are all printed if the tables show no half before it, and else there is a
    fault. -/
theorem Session.fault_showFrames_iff {tables : List Table} {script : List Char}
    {compiled : Script.Compiled} (h : Script.compile tables script = .ok compiled)
    (ids : IdSupply) :
    (Print.texts (showFrames (Frame.sequence ids tables compiled.actions) 0)).fault = none ↔
      ∀ t ∈ tables, t.ShowsWhole := by
  rw [Print.fault_eq_none_iff, showFrames, List.forall_mem_map, List.drop_zero,
    ← Frame.showsWhole_sequence (Script.writesWhole_of_compile h) ids tables]
  have htext : ∀ e : Frame × Nat, CodePoints.IsWhole (e.1.grid (some (e.2 : Int))
      (some ((Frame.sequence ids tables compiled.actions).length : Int)) ++ "\n\n") ↔
        ∀ t ∈ e.1.tables, t.ShowsWhole := by
    intro e
    rw [isWhole_append, Frame.isWhole_grid_iff, and_iff_left (isWhole_ofString "\n\n")]
  simp only [htext]
  conv_rhs => rw [← List.zipIdx_map_fst 0 (Frame.sequence ids tables compiled.actions)]
  rw [List.forall_mem_map]

end Storyboard
