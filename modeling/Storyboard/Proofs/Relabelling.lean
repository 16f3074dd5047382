-- SUMMARY: Why the text of a frame is the same whatever ids new columns and rows are given, as long as they are new.
import Mathlib.Data.List.Forall2
import Storyboard.Frame.Grid
import Storyboard.Proofs.Animation
import Storyboard.Proofs.Freshness

/-!
# Frames up to their ids

Two replays of one script with different supplies go through frames that are alike but
for their ids, where each id of one replay stands for at most one of the other and the
other way round. Frames of that kind show as the same text (`Frame.Like.grid_eq`): a
grid has no ids in it and asks of them no more than whether two are equal. One action
leaves the tables alike (`Frame.apply_like`), hence all do (`Frame.steps_like`). So the
text does not depend on the supply as long as its ids are new (`Frame.grid_sequence`).
-/

namespace Storyboard

/-! ## Lists whose entries correspond -/

section Correspondence

variable {α β γ δ : Type} {R : α → β → Prop} {S : γ → δ → Prop} {xs : List α} {ys : List β}

theorem map_eq_of_forall₂ (h : List.Forall₂ R xs ys) {f : α → γ} {g : β → γ}
    (hf : ∀ {x y}, R x y → f x = g y) : xs.map f = ys.map g := by
  induction h with
  | nil => rfl
  | cons hxy _ ih => rw [List.map_cons, List.map_cons, hf hxy, ih]

theorem forall₂_map_zipIdx (h : List.Forall₂ R xs ys) {f : α × Nat → γ} {g : β × Nat → δ}
    (hf : ∀ {x y}, R x y → ∀ i, S (f (x, i)) (g (y, i))) (n : Nat) :
    List.Forall₂ S ((xs.zipIdx n).map f) ((ys.zipIdx n).map g) := by
  induction h generalizing n with
  | nil => exact .nil
  | cons hxy _ ih => exact .cons (hf hxy n) (ih (n + 1))

theorem forall₂_modify (h : List.Forall₂ R xs ys) {f : α → α} {g : β → β}
    (hf : ∀ {x y}, R x y → R (f x) (g y)) (i : Nat) :
    List.Forall₂ R (xs.modify i f) (ys.modify i g) := by
  induction h generalizing i with
  | nil => cases i <;> exact .nil
  | cons hxy hrest ih =>
    cases i with
    | zero => exact .cons (hf hxy) hrest
    | succ i => exact .cons hxy (ih i)

end Correspondence

/-! ## Tables and highlights that are alike -/

variable (ρ : CodePoints → CodePoints → Prop)

/-- The same values under keys that stand for each other. -/
def OrderedMap.Like : OrderedMap CodePoints CodePoints → OrderedMap CodePoints CodePoints → Prop :=
  List.Forall₂ fun e e' => ρ e.1 e'.1 ∧ e.2 = e'.2

/-- Columns with one name. -/
structure Column.Like (c d : Column) : Prop where
  id : ρ c.id d.id
  name_eq : c.name = d.name

/-- Rows with the same cells. -/
structure Row.Like (r s : Row) : Prop where
  id : ρ r.id s.id
  cells : OrderedMap.Like ρ r.cells s.cells

/-- Tables with one id and one name, whose columns and rows are alike in their order. -/
structure Table.Like (t u : Table) : Prop where
  id_eq : t.id = u.id
  name_eq : t.name = u.name
  columns : List.Forall₂ (Column.Like ρ) t.columns u.columns
  rows : List.Forall₂ (Row.Like ρ) t.rows u.rows

/-- Highlights of rows and columns that stand for each other. As the empty id of a column counts as
    none, the column must be the same if there are rows. -/
structure Highlight.Like (h h' : Highlight) : Prop where
  table_eq : h.table = h'.table
  rows : Option.Rel (List.Forall₂ ρ) h.rows h'.rows
  column : Option.Rel ρ h.column h'.column
  column_eq : h.rows = none ∨ h.column = h'.column

/-- Frames whose tables and highlights are alike. -/
structure Frame.Like (f f' : Frame) : Prop where
  tables : List.Forall₂ (Table.Like ρ) f.tables f'.tables
  highlight : f.highlight.Like ρ f'.highlight

/-- Steps to frames that are alike, after which the supplies have been used equally. -/
structure Step.Like (s s' : Step) : Prop where
  frame : s.frame.Like ρ s'.frame
  next_eq : s.next = s'.next

variable {ρ} (hρ : Relator.BiUnique ρ)

/-! ## Marks -/

theorem forall₂_getD {o o' : Option (List CodePoints)} (h : Option.Rel (List.Forall₂ ρ) o o') :
    List.Forall₂ ρ (o.getD []) (o'.getD []) := by
  cases h with
  | none => exact .nil
  | some h => exact h

include hρ in
theorem beq_some_eq_of_rel {o o' : Option CodePoints} (h : Option.Rel ρ o o') {x y : CodePoints}
    (hxy : ρ x y) : (o == some x) = (o' == some y) := by
  rw [Bool.eq_iff_iff, beq_iff_eq, beq_iff_eq]
  cases h with
  | none => simp
  | some h =>
    rw [Option.some_inj, Option.some_inj]
    exact Relator.rel_eq hρ h hxy

namespace Highlight.Like

variable {h h' : Highlight}

theorem namesRows_eq (hl : h.Like ρ h') : h.namesRows = h'.namesRows := by
  obtain ⟨table, rows, column⟩ := h
  obtain ⟨table', rows', column'⟩ := h'
  have hrows : Option.Rel (List.Forall₂ ρ) rows rows' := hl.rows
  cases hrows with
  | none => rfl
  | some hrows => cases hrows <;> rfl

include hρ

theorem namesRow_eq (hl : h.Like ρ h') {x y : CodePoints} (hxy : ρ x y) :
    h.namesRow x = h'.namesRow y := by
  unfold namesRow
  rw [Bool.eq_iff_iff, List.contains_iff_mem, List.contains_iff_mem]
  exact List.rel_mem hρ hxy (forall₂_getD hl.rows)

theorem marksHeader_eq (hl : h.Like ρ h') {x y : CodePoints} (hxy : ρ x y) (table : CodePoints) :
    h.marksHeader table (some x) = h'.marksHeader table (some y) := by
  unfold marksHeader
  rw [hl.table_eq, beq_some_eq_of_rel hρ hl.column hxy, hl.namesRows_eq]

theorem marksRow_eq (hl : h.Like ρ h') {x y : CodePoints} (hxy : ρ x y) (table : CodePoints) :
    h.marksRow table x = h'.marksRow table y := by
  unfold marksRow
  rw [hl.table_eq, hl.namesRow_eq hρ hxy]
  rcases hl.column_eq with hnone | hcolumn
  · have hrows : h.namesRows = false := by rw [namesRows, hnone]
    rw [← hl.namesRow_eq hρ hxy, namesRow_eq_false_of_not_namesRows hrows]
    simp only [Bool.and_false, Bool.false_and]
  · unfold namesColumn
    rw [hcolumn]

theorem marksCell_eq (hl : h.Like ρ h') {x y r s : CodePoints} (hxy : ρ x y) (hrs : ρ r s)
    (table : CodePoints) :
    h.marksCell table (some x) r = h'.marksCell table (some y) s := by
  unfold marksCell
  rw [hl.table_eq, beq_some_eq_of_rel hρ hl.column hxy, hl.namesRow_eq hρ hrs, hl.namesRows_eq]

end Highlight.Like

/-! ## Cells -/

namespace OrderedMap.Like

variable {m m' : OrderedMap CodePoints CodePoints} {x y : CodePoints}

include hρ

theorem get?_eq (h : Like ρ m m') (hxy : ρ x y) : m.get? x = m'.get? y := by
  induction h with
  | nil => rfl
  | @cons e e' rest rest' he _ ih =>
    obtain ⟨k, v⟩ := e
    obtain ⟨k', v'⟩ := e'
    obtain ⟨hk, rfl⟩ := he
    simp only [get?, Relator.rel_eq hρ hk hxy, ih]

theorem insert (h : Like ρ m m') (hxy : ρ x y) (value : CodePoints) :
    Like ρ (m.insert x value) (m'.insert y value) := by
  induction h with
  | nil => exact .cons ⟨hxy, rfl⟩ .nil
  | @cons e e' rest rest' he hrest ih =>
    obtain ⟨k, v⟩ := e
    obtain ⟨k', v'⟩ := e'
    simp only [OrderedMap.insert, Relator.rel_eq hρ he.1 hxy]
    split
    next => exact .cons ⟨he.1, rfl⟩ hrest
    next => exact .cons he ih

theorem ofList (h : Like ρ m m') : Like ρ (OrderedMap.ofList m) (OrderedMap.ofList m') := by
  refine List.rel_foldl (P := Like ρ) ?_ .nil h
  rintro n n' hn ⟨k, v⟩ ⟨k', v'⟩ ⟨hk, rfl⟩
  exact hn.insert hρ hk v

end OrderedMap.Like

include hρ in
theorem Row.Like.cell_eq {r s : Row} (h : r.Like ρ s) {x y : CodePoints} (hxy : ρ x y) :
    r.cell x = s.cell y := by
  unfold Row.cell
  rw [h.cells.get?_eq hρ hxy]

namespace Table

variable {t u : Table} {x y : CodePoints}

include hρ

theorem cellsUnder_like {columns columns' : List Column}
    (h : List.Forall₂ (Column.Like ρ) columns columns') (values : List CodePoints) :
    OrderedMap.Like ρ (cellsUnder columns values) (cellsUnder columns' values) := by
  refine OrderedMap.Like.ofList hρ (forall₂_map_zipIdx h ?_ 0)
  exact fun hc i => ⟨hc.id, rfl⟩

namespace Like

/-- A new column, under ids that stand for each other. -/
theorem appendColumn (h : t.Like ρ u) (hxy : ρ x y) (name : CodePoints)
    (seeds : Option (List (Int × CodePoints))) :
    (t.appendColumn x name seeds).Like ρ (u.appendColumn y name seeds) where
  id_eq := h.id_eq
  name_eq := h.name_eq
  columns := List.rel_append h.columns (.cons ⟨hxy, rfl⟩ .nil)
  rows := forall₂_map_zipIdx h.rows (fun hr _ => ⟨hr.id, hr.cells.insert hρ hxy _⟩) 0

/-- A new row, with ids that stand for each other. -/
theorem appendRow (h : t.Like ρ u) (hxy : ρ x y) (values : List CodePoints) :
    (t.appendRow x values).Like ρ (u.appendRow y values) where
  id_eq := h.id_eq
  name_eq := h.name_eq
  columns := h.columns
  rows := List.rel_append h.rows (.cons ⟨hxy, cellsUnder_like hρ h.columns values⟩ .nil)

/-! ## Grids -/

variable {h h' : Highlight}

theorem header_eq (ht : t.Like ρ u) (hl : h.Like ρ h') : Grid.header t h = Grid.header u h' := by
  unfold Grid.header
  rw [ht.id_eq]
  refine congrArg (Grid.Line.mk _ <| _ :: ·) (map_eq_of_forall₂ ht.columns fun hc => ?_)
  rw [hl.marksHeader_eq hρ hc.id, hc.name_eq]

theorem rowLine_eq (ht : t.Like ρ u) (hl : h.Like ρ h') {r s : Row} (hr : r.Like ρ s)
    (number : Nat) : Grid.rowLine t h number r = Grid.rowLine u h' number s := by
  unfold Grid.rowLine
  rw [ht.id_eq, hl.marksRow_eq hρ hr.id]
  refine congrArg (Grid.Line.mk _ <| _ :: ·) (map_eq_of_forall₂ ht.columns fun hc => ?_)
  rw [hl.marksCell_eq hρ hc.id hr.id, hr.cell_eq hρ hc.id]

theorem body_eq (ht : t.Like ρ u) (hl : h.Like ρ h') : Grid.body t h = Grid.body u h' := by
  unfold Grid.body
  rw [← List.forall₂_eq_eq_eq]
  exact forall₂_map_zipIdx ht.rows (fun hr i => rowLine_eq hρ ht hl hr (i + 1)) 0

theorem grid_eq (ht : t.Like ρ u) (hl : h.Like ρ h') : t.grid h = u.grid h' := by
  unfold Table.grid Table.gridLines
  rw [header_eq hρ ht hl, body_eq hρ ht hl, ht.name_eq]

end Like

end Table

namespace Frame

include hρ in
theorem Like.grid_eq {f f' : Frame} (h : f.Like ρ f') (index total : Option Int) :
    f.grid index total = f'.grid index total := by
  have htables : f.tables.map (·.grid f.highlight) = f'.tables.map (·.grid f'.highlight) :=
    map_eq_of_forall₂ h.tables fun ht => ht.grid_eq hρ h.highlight
  have hempty := congrArg List.isEmpty htables
  rw [List.isEmpty_map, List.isEmpty_map] at hempty
  unfold Frame.grid
  rw [hempty, htables]

/-! ## Two replays -/

variable {ids ids' : IdSupply} {ts us : List Table}

theorem indexOf?_eq_of_like (h : List.Forall₂ (Table.Like ρ) ts us) (id : CodePoints) :
    Tables.indexOf? ts id = Tables.indexOf? us id :=
  Tables.indexOf?_congr (map_eq_of_forall₂ h fun ht => ht.id_eq) id

theorem change_like (hids : ∀ n, ρ (ids n) (ids' n)) (h : List.Forall₂ (Table.Like ρ) ts us)
    {change : Table → CodePoints → Table} {highlight : CodePoints → Highlight}
    (hchange : ∀ t u x y, Table.Like ρ t u → ρ x y → (change t x).Like ρ (change u y))
    (hhighlight : ∀ x y, ρ x y → (highlight x).Like ρ (highlight y)) (next : Nat)
    (table : CodePoints) :
    Step.Like ρ (Frame.change ids next ts table change highlight)
      (Frame.change ids' next us table change highlight) := by
  unfold Frame.change
  rw [indexOf?_eq_of_like h table]
  cases Tables.indexOf? us table with
  | none => exact ⟨⟨h, ⟨rfl, .none, .none, .inl rfl⟩⟩, rfl⟩
  | some i =>
    refine ⟨⟨forall₂_modify h (fun ht => ?_) i, hhighlight _ _ (hids next)⟩, rfl⟩
    exact hchange _ _ _ _ ht (hids next)

include hρ

/-- One action leaves tables alike that are so, if a highlight is like itself. -/
theorem apply_like (hids : ∀ n, ρ (ids n) (ids' n)) (h : List.Forall₂ (Table.Like ρ) ts us)
    {a : Action} (ha : ∀ hl, a = .highlight hl → hl.Like ρ hl) (next : Nat) :
    Step.Like ρ (a.apply ids next ts) (a.apply ids' next us) := by
  unfold Action.apply
  cases a with
  | highlight hl => exact ⟨⟨h, ha hl rfl⟩, rfl⟩
  | addColumn table name seeds =>
    refine change_like hids h (fun t u x y ht hxy => ?_) (fun x y hxy => ?_) next table
    · exact ht.appendColumn hρ hxy name seeds
    · exact ⟨rfl, .none, .some hxy, .inl rfl⟩
  | addRow table values =>
    refine change_like hids h (fun t u x y ht hxy => ?_) (fun x y hxy => ?_) next table
    · exact ht.appendRow hρ hxy values
    · exact ⟨rfl, .some (.cons hxy .nil), .none, .inr rfl⟩

/-- All actions. -/
theorem steps_like (hids : ∀ n, ρ (ids n) (ids' n)) (h : List.Forall₂ (Table.Like ρ) ts us)
    {actions : List Action} (ha : ∀ hl, .highlight hl ∈ actions → hl.Like ρ hl) (next : Nat) :
    List.Forall₂ (Step.Like ρ) (steps ids next ts actions) (steps ids' next us actions) := by
  induction actions generalizing next ts us with
  | nil => exact .nil
  | cons a rest ih =>
    have hstep := apply_like hρ hids h
      (fun hl heq => ha hl (heq ▸ List.mem_cons_self ..)) next
    refine .cons hstep ?_
    rw [hstep.next_eq]
    exact ih hstep.frame.tables (fun hl hmem => ha hl (List.mem_cons_of_mem a hmem)) _

theorem sequence_like (hids : ∀ n, ρ (ids n) (ids' n)) (h : List.Forall₂ (Table.Like ρ) ts us)
    {actions : List Action} (ha : ∀ hl, .highlight hl ∈ actions → hl.Like ρ hl) :
    List.Forall₂ (Like ρ) (sequence ids ts actions) (sequence ids' us actions) := by
  refine .cons ⟨h, rfl, .none, .none, .inl rfl⟩ ?_
  rw [List.forall₂_map_left_iff, List.forall₂_map_right_iff]
  exact (steps_like hρ hids h ha 0).imp fun s s' hs => hs.frame

end Frame

/-! ## Supplies of new ids -/

/-- All ids of a table: its own, those of its columns and rows, and those that cells are under. -/
def Table.usedIds (t : Table) : List CodePoints :=
  t.id :: (t.columns.map (·.id) ++ t.rows.flatMap fun r => r.id :: r.cells.keys)

/-- The supply never repeats an id and gives none that the tables use. -/
structure IdSupply.FreshFor (ids : IdSupply) (tables : List Table) : Prop where
  injective : Function.Injective ids
  unused : ∀ t ∈ tables, ∀ n, ids n ∉ t.usedIds

/-- Ids that the tables use stand for themselves, and those of one supply for those of the other
    that have the same numbers. -/
def StandsFor (ids ids' : IdSupply) (tables : List Table) (x y : CodePoints) : Prop :=
  (x = y ∧ ∃ t ∈ tables, x ∈ t.usedIds) ∨ ∃ n, x = ids n ∧ y = ids' n

namespace StandsFor

variable {ids ids' : IdSupply} {tables : List Table}

theorem biUnique (h : ids.FreshFor tables) (h' : ids'.FreshFor tables) :
    Relator.BiUnique (StandsFor ids ids' tables) := by
  constructor
  · rintro x x' y (⟨rfl, t, ht, hx⟩ | ⟨n, rfl, rfl⟩) (⟨rfl, t', ht', hx'⟩ | ⟨m, rfl, hm⟩)
    · rfl
    · exact absurd (hm ▸ hx) (h'.unused t ht m)
    · exact absurd hx' (h'.unused t' ht' n)
    · rw [h'.injective hm]
  · rintro x y y' (⟨rfl, t, ht, hx⟩ | ⟨n, rfl, rfl⟩) (⟨rfl, t', ht', hx'⟩ | ⟨m, hm, rfl⟩)
    · rfl
    · exact absurd (hm ▸ hx) (h.unused t ht m)
    · exact absurd hx' (h.unused t' ht' n)
    · rw [h.injective hm]

theorem of_column {t : Table} (ht : t ∈ tables) {id : CodePoints}
    (hid : id ∈ t.columns.map (·.id)) : StandsFor ids ids' tables id id :=
  .inl ⟨rfl, t, ht, List.mem_cons_of_mem _ (List.mem_append_left _ hid)⟩

theorem of_row {t : Table} (ht : t ∈ tables) {r : Row} (hr : r ∈ t.rows) {id : CodePoints}
    (hid : id ∈ r.id :: r.cells.keys) : StandsFor ids ids' tables id id := by
  refine .inl ⟨rfl, t, ht, List.mem_cons_of_mem _ (List.mem_append_right _ ?_)⟩
  exact List.mem_flatMap.2 ⟨r, hr, hid⟩

theorem table_like {t : Table} (ht : t ∈ tables) : t.Like (StandsFor ids ids' tables) t where
  id_eq := rfl
  name_eq := rfl
  columns := List.forall₂_same.2 fun _ hc => ⟨of_column ht (List.mem_map_of_mem hc), rfl⟩
  rows := by
    refine List.forall₂_same.2 fun r hr => ⟨of_row ht hr (List.mem_cons_self ..), ?_⟩
    refine List.forall₂_same.2 fun e he => ⟨of_row ht hr ?_, rfl⟩
    exact List.mem_cons_of_mem _ (List.mem_map_of_mem he)

theorem highlight_like {t : Table} (ht : t ∈ tables) {h : Highlight} (hl : h.LiesIn t) :
    h.Like (StandsFor ids ids' tables) h where
  table_eq := rfl
  rows := by
    cases hrows : h.rows with
    | none => exact .none
    | some rows =>
      refine .some (List.forall₂_same.2 fun id hid => ?_)
      obtain ⟨r, hr, rfl⟩ := List.mem_map.1 (hl.rows rows hrows id hid)
      exact of_row ht hr (List.mem_cons_self ..)
  column := by
    cases hcolumn : h.column with
    | none => exact .none
    | some id => exact .some (of_column ht (hl.column id hcolumn))
  column_eq := .inr rfl

end StandsFor

namespace Frame

/-- The text of the frames does not depend on the ids of new columns and rows. With any two supplies
    that give new ids, a compiled script comes to as many frames, and those of one number show as
    the same text. -/
theorem grid_sequence {tables : List Table} {script : List Char} {compiled : Script.Compiled}
    (hc : Script.compile tables script = .ok compiled) {ids ids' : IdSupply}
    (h : ids.FreshFor tables) (h' : ids'.FreshFor tables) :
    (sequence ids tables compiled.actions).length =
        (sequence ids' tables compiled.actions).length ∧
      ∀ (k : Nat) (total : Option Int),
        (sequence ids tables compiled.actions)[k]?.map (·.grid (some k) total) =
          (sequence ids' tables compiled.actions)[k]?.map (·.grid (some k) total) := by
  have hρ := StandsFor.biUnique h h'
  have hlike : List.Forall₂ (Like (StandsFor ids ids' tables))
      (sequence ids tables compiled.actions) (sequence ids' tables compiled.actions) := by
    refine sequence_like hρ (fun n => .inr ⟨n, rfl, rfl⟩) ?_ fun hl hmem => ?_
    · exact List.forall₂_same.2 fun t ht => StandsFor.table_like ht
    · obtain ⟨t, ht, hsuits⟩ := Script.suits_of_compile hc hmem
      exact StandsFor.highlight_like ht hsuits.isOn
  refine ⟨hlike.length_eq, fun k total => ?_⟩
  have htexts := map_eq_of_forall₂ hlike fun hf => hf.grid_eq hρ (some k) total
  rw [← List.getElem?_map, ← List.getElem?_map, htexts]

/-- Ids of as many strokes as have been given before; the first is empty. -/
def tallies : IdSupply := fun n => List.replicate n (.char '|')

theorem tallies_freshFor : tallies.FreshFor shelves where
  injective m n h := by
    have hlen := congrArg List.length h
    rwa [tallies, tallies, List.length_replicate, List.length_replicate] at hlen
  unused t ht n hmem := by
    have hother : ∀ t ∈ shelves, ∀ x ∈ t.usedIds, ∃ c ∈ x, c ≠ .char '|' := by decide
    obtain ⟨c, hc, hne⟩ := hother t ht _ hmem
    exact hne (List.eq_of_mem_replicate hc)

theorem counting_freshFor : (IdSupply.counting "new").FreshFor shelves where
  injective := IdSupply.counting_injective "new"
  unused t ht n hmem := by
    have hother : ∀ t ∈ shelves, ∀ x ∈ t.usedIds, x.head? ≠ some (.char 'n') := by decide
    refine hother t ht _ hmem ?_
    simp [IdSupply.counting, CodePoints.ofString, CodePoints.ofChars]

theorem grid_sequence_shelves :
    tallies.FreshFor shelves ∧ (IdSupply.counting "new").FreshFor shelves ∧
      ∃ compiled, Script.compile shelves
        ("add in table 'T' column 'D' cells [\x7b1-'y'\x7d]; add in table 'U' row [\x7b'z'\x7d]; "
          ++ "highlight in table 'T' column 'C' row 1").toList = .ok compiled ∧
        compiled.actions.length = 3 ∧
        (sequence tallies shelves compiled.actions).length =
          (sequence (.counting "new") shelves compiled.actions).length ∧
        ∀ (k : Nat) (total : Option Int),
          (sequence tallies shelves compiled.actions)[k]?.map (·.grid (some k) total) =
            (sequence (.counting "new") shelves compiled.actions)[k]?.map
              (·.grid (some k) total) := by
  have hcompile : (Script.compile shelves
      ("add in table 'T' column 'D' cells [\x7b1-'y'\x7d]; add in table 'U' row [\x7b'z'\x7d]; "
        ++ "highlight in table 'T' column 'C' row 1").toList).map (·.actions.length) = .ok 3 := by
    decide +kernel
  obtain ⟨compiled, hc, hlength⟩ := exists_of_map_eq_ok hcompile
  exact ⟨tallies_freshFor, counting_freshFor, compiled, hc, hlength,
    grid_sequence hc tallies_freshFor counting_freshFor⟩

end Frame

end Storyboard
