-- SUMMARY: What every frame of an animation holds, said from the actions before it without replaying them.
import Mathlib.Data.List.Induction
import Mathlib.Data.List.Nodup
import Mathlib.Logic.Function.Basic
import Storyboard.Frame

/-!
# Replaying in closed form

A frame is made by going through all actions before it. Here it is described without
that: each table of a frame is the table at the start with some gains, columns and
rows with their ids (`Frame.gains`), and where a row and a column meet, the value is
decided by which of the two came first (`Table.Grown`). One gain keeps the description
(`Table.Grown.gain`), hence one action does (`Frame.Replayed.apply`), and so do all.
-/

namespace Storyboard

/-! ## Entries of ordered maps -/

namespace OrderedMap

variable {κ α : Type} [DecidableEq κ]

theorem ofList_concat (entries : List (κ × α)) (entry : κ × α) :
    ofList (entries ++ [entry]) = (ofList entries).insert entry.1 entry.2 := by
  simp only [ofList, List.foldl_append, List.foldl_cons, List.foldl_nil]

/-- Of several entries for one key the last counts. -/
theorem get?_ofList (entries : List (κ × α)) (key : κ) :
    (ofList entries).get? key = ((entries.filter (·.1 = key)).getLast?).map (·.2) := by
  induction entries using List.reverseRecOn with
  | nil => rfl
  | append_singleton entries entry ih =>
    rw [ofList_concat, List.filter_append]
    by_cases h : entry.1 = key
    · subst h
      simp [get?_insert_self]
    · rw [get?_insert_of_ne (Ne.symm h), ih]
      simp [h]

/-- Entries with different keys are a map as they are. -/
theorem ofList_of_nodup {entries : List (κ × α)} (h : (entries.map (·.1)).Nodup) :
    ofList entries = entries := by
  induction entries using List.reverseRecOn with
  | nil => rfl
  | append_singleton entries entry ih =>
    rw [List.map_append, List.nodup_append] at h
    obtain ⟨hd, -, hne⟩ := h
    rw [ofList_concat, ih hd, insert_of_not_mem]
    intro hmem
    exact hne _ hmem _ (List.mem_singleton.2 rfl) rfl

theorem get?_of_mem {m : OrderedMap κ α} (h : m.keys.Nodup) {key : κ} {value : α}
    (hm : (key, value) ∈ m) : m.get? key = some value := by
  induction m with
  | nil => cases hm
  | cons entry rest ih =>
    obtain ⟨k, v⟩ := entry
    simp only [List.map_cons, List.nodup_cons] at h
    rcases List.mem_cons.1 hm with heq | hm
    · cases heq
      simp [get?]
    · have hne : k ≠ key := fun hk => h.1 (hk ▸ List.mem_map_of_mem hm)
      simp [get?, hne, ih h.2 hm]

end OrderedMap

/-! ## Cells of new columns and rows -/

/-- The last of the seeds for a row position, and the empty text if there is none. -/
def lastSeed (seeds : Option (List (Int × CodePoints))) (position : Nat) : CodePoints :=
  ((((seeds.getD []).filter (·.1 = (position : Int))).getLast?).map (·.2)).getD []

namespace Table

theorem getElem?_appendColumn_rows (table : Table) (id name : CodePoints)
    (seeds : Option (List (Int × CodePoints))) (p : Nat) :
    (table.appendColumn id name seeds).rows[p]? =
      table.rows[p]?.map fun row => { row with cells := row.cells.insert id (lastSeed seeds p) } := by
  simp only [appendColumn, List.getElem?_map, List.getElem?_zipIdx, Option.map_map, Nat.zero_add,
    OrderedMap.get?_ofList]
  rfl

@[simp]
theorem appendColumn_rowIds (table : Table) (id name : CodePoints)
    (seeds : Option (List (Int × CodePoints))) :
    (table.appendColumn id name seeds).rows.map (·.id) = table.rows.map (·.id) := by
  refine List.ext_getElem? fun p => ?_
  rw [List.getElem?_map, getElem?_appendColumn_rows, List.getElem?_map, Option.map_map]
  rfl

theorem cell_insert_self (row : Row) (id value : CodePoints) :
    Row.cell { row with cells := row.cells.insert id value } id = value := by
  simp [Row.cell, OrderedMap.get?_insert_self]

theorem cell_insert_of_ne (row : Row) {id other : CodePoints} (h : other ≠ id)
    (value : CodePoints) :
    Row.cell { row with cells := row.cells.insert id value } other = row.cell other := by
  simp [Row.cell, OrderedMap.get?_insert_of_ne h]

/-- The value laid out under a column is the one at its place. -/
theorem cell_cellsUnder {columns : List Column} (h : (columns.map (·.id)).Nodup)
    (id : CodePoints) (values : List CodePoints) {q : Nat} {c : Column} (hc : columns[q]? = some c) :
    Row.cell ⟨id, cellsUnder columns values⟩ c.id = values.getD q [] := by
  let entries := columns.zipIdx.map fun e => (e.1.id, values.getD e.2 [])
  have hkeys : entries.map (·.1) = columns.map (·.id) := by
    rw [List.map_map]
    change columns.zipIdx.map ((·.id) ∘ Prod.fst) = columns.map (·.id)
    rw [← List.map_map, List.zipIdx_map_fst]
  rw [← hkeys] at h
  have hmem : (c.id, values.getD q []) ∈ entries :=
    List.mem_map.2 ⟨(c, q), List.mk_mem_zipIdx_iff_getElem?.2 hc, rfl⟩
  have hcells : cellsUnder columns values = OrderedMap.ofList entries := rfl
  rw [Row.cell, hcells, OrderedMap.ofList_of_nodup h, OrderedMap.get?_of_mem h hmem]
  rfl

end Table

/-! ## Gains -/

/-- What an action adds to a table, with the id that it is given. -/
inductive Gain where
  | column (id name : CodePoints) (seeds : Option (List (Int × CodePoints)))
  | row (id : CodePoints) (values : List CodePoints)

namespace Gain

/-- The gain of an action; a highlight is none. -/
def ofAction? (id : CodePoints) : Action → Option Gain
  | .highlight _ => none
  | .addColumn _ name seeds => some (column id name seeds)
  | .addRow _ values => some (row id values)

/-- The columns among gains. -/
def columns (gains : List Gain) : List Column :=
  gains.filterMap fun
    | column id name _ => some ⟨id, name⟩
    | row .. => none

/-- The ids of the rows among gains. -/
def rows (gains : List Gain) : List CodePoints :=
  gains.filterMap fun
    | column .. => none
    | row id _ => some id

/-- The table with a gain. -/
def addTo (table : Table) : Gain → Table
  | column id name seeds => table.appendColumn id name seeds
  | row id values => table.appendRow id values

/-- The id that a gain is given. -/
def id : Gain → CodePoints
  | column id _ _ => id
  | row id _ => id

theorem columns_append (g h : List Gain) : columns (g ++ h) = columns g ++ columns h :=
  List.filterMap_append

theorem rows_append (g h : List Gain) : rows (g ++ h) = rows g ++ rows h :=
  List.filterMap_append

end Gain

/-- A split of a list with a new last element is a split before that element or at it. -/
theorem concat_eq_append_cons {α : Type} {l l₁ l₂ : List α} {a b : α}
    (h : l ++ [a] = l₁ ++ b :: l₂) :
    (l₂ = [] ∧ b = a ∧ l₁ = l) ∨ ∃ l₃, l₂ = l₃ ++ [a] ∧ l = l₁ ++ b :: l₃ := by
  cases l₂ using List.reverseRecOn with
  | nil =>
    obtain ⟨hl, ha⟩ := List.append_inj' h rfl
    cases ha
    exact .inl ⟨rfl, rfl, hl.symm⟩
  | append_singleton l₃ c =>
    rw [← List.cons_append, ← List.append_assoc] at h
    obtain ⟨hl, hc⟩ := List.append_inj' h rfl
    cases hc
    exact .inr ⟨l₃, rfl, hl⟩

namespace Table

/-- The table `u` is `t` with gains. An old row has its old values under the old columns. Under
    a new column, a row that was there before it has the column's last seed for its position.
    Under the columns that were there before it, a new row has the values in their order. -/
structure Grown (t : Table) (gains : List Gain) (u : Table) : Prop where
  id_eq : u.id = t.id
  name_eq : u.name = t.name
  columns_eq : u.columns = t.columns ++ Gain.columns gains
  rowIds_eq : u.rows.map (·.id) = t.rows.map (·.id) ++ Gain.rows gains
  old : ∀ (p : Nat) (r s : Row), t.rows[p]? = some r → u.rows[p]? = some s →
    ∀ c ∈ t.columns, s.cell c.id = r.cell c.id
  seeded : ∀ before id name seeds after, gains = before ++ .column id name seeds :: after →
    ∀ (p : Nat) (s : Row), u.rows[p]? = some s →
      p < t.rows.length + (Gain.rows before).length → s.cell id = lastSeed seeds p
  laid : ∀ before id values after, gains = before ++ .row id values :: after →
    ∀ s : Row, u.rows[t.rows.length + (Gain.rows before).length]? = some s →
      ∀ (q : Nat) (c : Column), (t.columns ++ Gain.columns before)[q]? = some c →
        s.cell c.id = values.getD q []

namespace Grown

variable {t u : Table} {gains : List Gain}

theorem refl (t : Table) : Grown t [] t where
  id_eq := rfl
  name_eq := rfl
  columns_eq := (List.append_nil _).symm
  rowIds_eq := (List.append_nil _).symm
  old p r s hr hs c hc := by
    rw [hr] at hs
    cases hs
    rfl
  seeded before id name seeds after h := by simp at h
  laid before id values after h := by simp at h

theorem length_rows (h : Grown t gains u) :
    u.rows.length = t.rows.length + (Gain.rows gains).length := by
  have := congrArg List.length h.rowIds_eq
  simpa using this

theorem mem_columns {before after : List Gain} {g : Gain} (h : Grown t gains u)
    (hs : gains = before ++ g :: after) {c : Column}
    (hc : c ∈ t.columns ++ Gain.columns before) : c ∈ u.columns := by
  rw [h.columns_eq, hs, Gain.columns_append, ← List.append_assoc]
  exact List.mem_append_left _ hc

/-- A new column with a new id, which no cell of an old column is under. -/
theorem column (h : Grown t gains u) {id : CodePoints} (hid : ∀ c ∈ u.columns, c.id ≠ id)
    (name : CodePoints) (seeds : Option (List (Int × CodePoints))) :
    Grown t (gains ++ [.column id name seeds]) (u.appendColumn id name seeds) where
  id_eq := h.id_eq
  name_eq := h.name_eq
  columns_eq := by
    rw [appendColumn_columns, h.columns_eq, Gain.columns_append, List.append_assoc]
    rfl
  rowIds_eq := by
    rw [appendColumn_rowIds, h.rowIds_eq, Gain.rows_append]
    simp [Gain.rows]
  old p r s hr hs c hc := by
    rw [getElem?_appendColumn_rows] at hs
    obtain ⟨s₀, hs₀, rfl⟩ := Option.map_eq_some_iff.1 hs
    have hmem : c ∈ u.columns := by
      rw [h.columns_eq]
      exact List.mem_append_left _ hc
    rw [cell_insert_of_ne s₀ (hid c hmem)]
    exact h.old p r s₀ hr hs₀ c hc
  seeded before id' name' seeds' after hg p s hs hp := by
    rw [getElem?_appendColumn_rows] at hs
    obtain ⟨s₀, hs₀, rfl⟩ := Option.map_eq_some_iff.1 hs
    obtain ⟨-, heq, -⟩ | ⟨after, -, hg⟩ := concat_eq_append_cons hg
    · cases heq
      exact cell_insert_self s₀ id _
    · have hmem : (⟨id', name'⟩ : Column) ∈ u.columns := by
        rw [h.columns_eq, hg, Gain.columns_append]
        exact List.mem_append_right _ (List.mem_append_right _ (List.mem_cons_self ..))
      rw [cell_insert_of_ne s₀ (hid _ hmem)]
      exact h.seeded before id' name' seeds' after hg p s₀ hs₀ hp
  laid before id' values after hg s hs q c hc := by
    rw [getElem?_appendColumn_rows] at hs
    obtain ⟨s₀, hs₀, rfl⟩ := Option.map_eq_some_iff.1 hs
    obtain ⟨-, heq, -⟩ | ⟨after, -, hg⟩ := concat_eq_append_cons hg
    · cases heq
    · have hmem := h.mem_columns hg (List.mem_of_getElem? hc)
      rw [cell_insert_of_ne s₀ (hid c hmem)]
      exact h.laid before id' values after hg s₀ hs₀ q c hc

/-- A new row, laid out under columns with different ids. -/
theorem row (h : Grown t gains u) (hd : (u.columns.map (·.id)).Nodup) (id : CodePoints)
    (values : List CodePoints) :
    Grown t (gains ++ [.row id values]) (u.appendRow id values) where
  id_eq := h.id_eq
  name_eq := h.name_eq
  columns_eq := by
    rw [appendRow_columns, h.columns_eq, Gain.columns_append]
    simp [Gain.columns]
  rowIds_eq := by
    rw [appendRow_rows, List.map_append, h.rowIds_eq, Gain.rows_append, List.append_assoc]
    rfl
  old p r s hr hs c hc := by
    have hp : p < u.rows.length := by
      have := (List.getElem?_eq_some_iff.1 hr).1
      have := h.length_rows
      omega
    rw [appendRow_rows, List.getElem?_append_left hp] at hs
    exact h.old p r s hr hs c hc
  seeded before id' name' seeds' after hg p s hs hp := by
    obtain ⟨-, heq, -⟩ | ⟨after, -, hg⟩ := concat_eq_append_cons hg
    · cases heq
    · have hlt : p < u.rows.length := by
        rw [h.length_rows, hg, Gain.rows_append, List.length_append]
        omega
      rw [appendRow_rows, List.getElem?_append_left hlt] at hs
      exact h.seeded before id' name' seeds' after hg p s hs hp
  laid before id' values' after hg s hs q c hc := by
    obtain ⟨-, heq, rfl⟩ | ⟨after, -, hg⟩ := concat_eq_append_cons hg
    · cases heq
      rw [appendRow_rows, ← h.length_rows, List.getElem?_concat_length] at hs
      cases hs
      rw [← h.columns_eq] at hc
      exact cell_cellsUnder hd id values hc
    · have hlt : t.rows.length + (Gain.rows before).length < u.rows.length := by
        rw [h.length_rows, hg, Gain.rows_append, List.length_append]
        simp [Gain.rows]
      rw [appendRow_rows, List.getElem?_append_left hlt] at hs
      exact h.laid before id' values' after hg s hs q c hc

/-- A gain, whatever it is. -/
theorem gain (h : Grown t gains u) {g : Gain} (hid : ∀ c ∈ u.columns, c.id ≠ g.id)
    (hd : (u.columns.map (·.id)).Nodup) : Grown t (gains ++ [g]) (g.addTo u) := by
  cases g with
  | column id name seeds => exact h.column hid name seeds
  | row id values => exact h.row hd id values

end Grown

end Table

/-! ## Effective actions -/

/-- The place of the table that an action changes; none for a highlight, nor without the table. -/
def Action.target? (tables : List Table) : Action → Option Nat
  | highlight _ => none
  | addColumn table _ _ => Tables.indexOf? tables table
  | addRow table _ => Tables.indexOf? tables table

theorem Tables.indexOf?_congr {tables us : List Table} (h : us.map (·.id) = tables.map (·.id))
    (id : CodePoints) : indexOf? us id = indexOf? tables id := by
  have hmap : ∀ l : List Table, indexOf? l id = (l.map (·.id)).findIdx? (· == id) := by
    intro l
    rw [List.findIdx?_map]
    rfl
  rw [hmap, hmap, h]

theorem Action.target?_congr {tables us : List Table} (h : us.map (·.id) = tables.map (·.id))
    (a : Action) : a.target? us = a.target? tables := by
  cases a with
  | highlight h => rfl
  | addColumn table name seeds => exact Tables.indexOf?_congr h table
  | addRow table values => exact Tables.indexOf?_congr h table

/-- An action without a target changes nothing and takes no id. -/
theorem Action.apply_of_target?_eq_none {us : List Table} {a : Action} (h : a.target? us = none)
    (ids : IdSupply) (next : Nat) :
    (a.apply ids next us).next = next ∧ (a.apply ids next us).frame.tables = us := by
  cases a with
  | highlight h => exact ⟨rfl, rfl⟩
  | addColumn table name seeds =>
    simp only [Action.target?] at h
    simp only [Action.apply, Frame.change, h, and_self]
  | addRow table values =>
    simp only [Action.target?] at h
    simp only [Action.apply, Frame.change, h, and_self]

/-- An action with a target adds to the table there and takes one id. -/
theorem Action.apply_of_target?_eq_some {us : List Table} {a : Action} {i : Nat}
    (h : a.target? us = some i) (ids : IdSupply) (next : Nat) :
    ∃ g, Gain.ofAction? (ids next) a = some g ∧ g.id = ids next ∧
      (a.apply ids next us).next = next + 1 ∧
      (a.apply ids next us).frame.tables = us.modify i g.addTo := by
  cases a with
  | highlight h => cases h
  | addColumn table name seeds =>
    simp only [Action.target?] at h
    refine ⟨.column (ids next) name seeds, rfl, rfl, ?_, ?_⟩
    · simp only [Action.apply, Frame.change, h]
    · simp only [Action.apply, Frame.change, h]
      rfl
  | addRow table values =>
    simp only [Action.target?] at h
    refine ⟨.row (ids next) values, rfl, rfl, ?_, ?_⟩
    · simp only [Action.apply, Frame.change, h]
    · simp only [Action.apply, Frame.change, h]
      rfl

namespace Frame

/-- The actions that change a table. -/
def effective (tables : List Table) (actions : List Action) : List Action :=
  actions.filter fun a => (a.target? tables).isSome

/-- The gains of the table at a place. Every effective action takes the next id. -/
def gains (ids : IdSupply) (tables : List Table) (actions : List Action) (i : Nat) : List Gain :=
  (effective tables actions).zipIdx.filterMap fun (a, n) =>
    if a.target? tables = some i then Gain.ofAction? (ids n) a else none

/-- What the frame of an action highlights that comes after others: what the action asks for, or
    what it has added with the next id. -/
def highlightAfter (ids : IdSupply) (tables : List Table) (before : List Action) (a : Action) :
    Highlight :=
  let id := ids (effective tables before).length
  match a with
  | .highlight h => h
  | .addColumn table _ _ =>
    if (a.target? tables).isSome then { table, rows := none, column := some id } else .empty
  | .addRow table _ =>
    if (a.target? tables).isSome then { table, rows := some [id], column := none } else .empty

theorem effective_concat_of_none {tables : List Table} {a : Action} (h : a.target? tables = none)
    (actions : List Action) : effective tables (actions ++ [a]) = effective tables actions := by
  simp [effective, h]

theorem effective_concat_of_some {tables : List Table} {a : Action} {i : Nat}
    (h : a.target? tables = some i) (actions : List Action) :
    effective tables (actions ++ [a]) = effective tables actions ++ [a] := by
  simp [effective, h]

theorem gains_concat_of_some {ids : IdSupply} {tables : List Table} {a : Action} {i : Nat}
    (h : a.target? tables = some i) {actions : List Action} {g : Gain}
    (hg : Gain.ofAction? (ids (effective tables actions).length) a = some g) :
    gains ids tables (actions ++ [a]) i = gains ids tables actions i ++ [g] := by
  rw [gains, effective_concat_of_some h, List.zipIdx_append, List.filterMap_append]
  simp [gains, h, hg]

theorem gains_concat_of_ne {ids : IdSupply} {tables : List Table} {a : Action} {i : Nat}
    (h : a.target? tables ≠ some i) (actions : List Action) :
    gains ids tables (actions ++ [a]) i = gains ids tables actions i := by
  cases ht : a.target? tables with
  | none => rw [gains, effective_concat_of_none ht, gains]
  | some j =>
    rw [gains, effective_concat_of_some ht, List.zipIdx_append, List.filterMap_append]
    simp [gains, h]

/-! ## The state after actions -/

/-- The number of the next id and the tables after actions. -/
def after (ids : IdSupply) (next : Nat) (tables : List Table) : List Action → Nat × List Table
  | [] => (next, tables)
  | a :: rest =>
    let step := a.apply ids next tables
    after ids step.next step.frame.tables rest

theorem after_concat (ids : IdSupply) (next : Nat) (tables : List Table) (actions : List Action)
    (a : Action) :
    after ids next tables (actions ++ [a]) =
      let step := a.apply ids (after ids next tables actions).1 (after ids next tables actions).2
      (step.next, step.frame.tables) := by
  induction actions generalizing next tables with
  | nil => rfl
  | cons b rest ih => exact ih _ _

theorem getElem?_steps (ids : IdSupply) (next : Nat) (tables : List Table) (actions : List Action)
    (k : Nat) :
    (steps ids next tables actions)[k]? = actions[k]?.map fun a =>
      a.apply ids (after ids next tables (actions.take k)).1
        (after ids next tables (actions.take k)).2 := by
  induction actions generalizing next tables k with
  | nil => rfl
  | cons a rest ih =>
    cases k with
    | zero => rfl
    | succ k => exact ih _ _ k

/-- Actions behind others start from what these lead to. -/
theorem steps_append (ids : IdSupply) (next : Nat) (tables : List Table) (xs ys : List Action) :
    steps ids next tables (xs ++ ys) =
      steps ids next tables xs ++
        steps ids (after ids next tables xs).1 (after ids next tables xs).2 ys := by
  induction xs generalizing next tables with
  | nil => rfl
  | cons a rest ih => exact congrArg (List.cons _) (ih _ _)

theorem getElem?_sequence_succ {actions : List Action} {k : Nat} {a : Action}
    (h : actions[k]? = some a) (ids : IdSupply) (tables : List Table) :
    (sequence ids tables actions)[k + 1]? =
      some (a.apply ids (after ids 0 tables (actions.take k)).1
        (after ids 0 tables (actions.take k)).2).frame := by
  rw [sequence, List.getElem?_cons_succ, List.getElem?_map, getElem?_steps, h]
  rfl

/-- A frame holds the tables after the actions before it. -/
theorem tables_eq_after {ids : IdSupply} {tables : List Table} {actions : List Action} {k : Nat}
    {f : Frame} (h : (sequence ids tables actions)[k]? = some f) :
    f.tables = (after ids 0 tables (actions.take k)).2 := by
  cases k with
  | zero =>
    cases h
    rfl
  | succ k =>
    have hk : k < actions.length := by
      have := (List.getElem?_eq_some_iff.1 h).1
      rw [length_sequence] at this
      omega
    have ha := List.getElem?_eq_getElem hk
    rw [getElem?_sequence_succ ha] at h
    cases h
    rw [List.take_add_one, ha, Option.toList_some, after_concat]

/-- The tables `us`, and the number of the next id, are what they must be after actions. Ids that
    are still to come are under no column. -/
structure Replayed (ids : IdSupply) (tables : List Table) (actions : List Action) (next : Nat)
    (us : List Table) : Prop where
  next_eq : next = (effective tables actions).length
  length_eq : us.length = tables.length
  grown : ∀ (i : Nat) (t u : Table), tables[i]? = some t → us[i]? = some u →
    t.Grown (gains ids tables actions i) u
  nodup : ∀ u ∈ us, (u.columns.map (·.id)).Nodup
  fresh : ∀ u ∈ us, ∀ c ∈ u.columns, ∀ n, next ≤ n → c.id ≠ ids n

namespace Replayed

variable {ids : IdSupply} {tables us : List Table} {actions : List Action} {next : Nat}

theorem start (hd : ∀ t ∈ tables, (t.columns.map (·.id)).Nodup)
    (hf : ∀ t ∈ tables, ∀ c ∈ t.columns, ∀ n, ids n ≠ c.id) : Replayed ids tables [] 0 tables where
  next_eq := rfl
  length_eq := rfl
  grown i t u ht hu := by
    rw [ht] at hu
    cases hu
    exact .refl t
  nodup := hd
  fresh t ht c hc n _ := (hf t ht c hc n).symm

theorem ids_eq (h : Replayed ids tables actions next us) :
    us.map (·.id) = tables.map (·.id) := by
  refine List.ext_getElem? fun i => ?_
  rw [List.getElem?_map, List.getElem?_map]
  cases ht : tables[i]? with
  | none =>
    have hlen := List.getElem?_eq_none_iff.1 ht
    rw [← h.length_eq] at hlen
    rw [List.getElem?_eq_none_iff.2 hlen]
  | some t =>
    have hlen := (List.getElem?_eq_some_iff.1 ht).1
    rw [← h.length_eq] at hlen
    have hu := List.getElem?_eq_getElem hlen
    rw [hu, Option.map_some, Option.map_some, (h.grown i t _ ht hu).id_eq]

/-- A table among those of which one has a gain is that one or was there before. -/
theorem mem_modify {i : Nat} {g : Gain} {u : Table} (hu : u ∈ us.modify i g.addTo) :
    u ∈ us ∨ ∃ u₀ ∈ us, u = g.addTo u₀ := by
  obtain ⟨j, hj⟩ := List.mem_iff_getElem?.1 hu
  rw [List.getElem?_modify] at hj
  obtain ⟨u₀, hu₀, rfl⟩ := Option.map_eq_some_iff.1 hj
  have hmem := List.mem_of_getElem? hu₀
  split
  next => exact .inr ⟨u₀, hmem, rfl⟩
  next => exact .inl hmem

/-- A gain with an id that is under no column leaves the columns with different ids. -/
theorem nodup_addTo {u : Table} {g : Gain} (hd : (u.columns.map (·.id)).Nodup)
    (hid : ∀ c ∈ u.columns, c.id ≠ g.id) : ((g.addTo u).columns.map (·.id)).Nodup := by
  cases g with
  | row id values => exact hd
  | column id name seeds =>
    rw [Gain.addTo, Table.appendColumn_columns, List.map_append, List.nodup_append]
    refine ⟨hd, List.nodup_singleton _, fun x hx y hy => ?_⟩
    obtain ⟨c, hc, rfl⟩ := List.mem_map.1 hx
    cases List.mem_singleton.1 hy
    exact hid c hc

/-- Every column of a table with a gain was there before or has the id of the gain. -/
theorem id_of_mem_addTo {u : Table} {g : Gain} {c : Column} (hc : c ∈ (g.addTo u).columns) :
    c ∈ u.columns ∨ c.id = g.id := by
  cases g with
  | row id values => exact .inl hc
  | column id name seeds =>
    rw [Gain.addTo, Table.appendColumn_columns] at hc
    rcases List.mem_append.1 hc with hc | hc
    · exact .inl hc
    · cases List.mem_singleton.1 hc
      exact .inr rfl

theorem target?_eq (h : Replayed ids tables actions next us) (a : Action) :
    a.target? us = a.target? tables :=
  Action.target?_congr h.ids_eq a

/-- One more action. -/
theorem apply (h : Replayed ids tables actions next us) (hinj : Function.Injective ids)
    (a : Action) :
    Replayed ids tables (actions ++ [a]) (a.apply ids next us).next
      (a.apply ids next us).frame.tables := by
  cases ht : a.target? tables with
  | none =>
    have hu : a.target? us = none := by rw [h.target?_eq, ht]
    obtain ⟨hnext, htables⟩ := Action.apply_of_target?_eq_none hu ids next
    rw [hnext, htables]
    refine ⟨?_, h.length_eq, fun i t u => ?_, h.nodup, h.fresh⟩
    · rw [effective_concat_of_none ht, h.next_eq]
    · rw [gains_concat_of_ne (by simp [ht])]
      exact h.grown i t u
  | some i =>
    have hu : a.target? us = some i := by rw [h.target?_eq, ht]
    obtain ⟨g, hg, hgid, hnext, htables⟩ := Action.apply_of_target?_eq_some hu ids next
    rw [hnext, htables]
    have hid : ∀ u ∈ us, ∀ c ∈ u.columns, c.id ≠ g.id := by
      intro u hu c hc
      rw [hgid]
      exact h.fresh u hu c hc next (Nat.le_refl next)
    refine ⟨?_, by rw [List.length_modify, h.length_eq], fun j t u htj huj => ?_,
      fun u hu => ?_, fun u hu c hc n hn => ?_⟩
    · rw [effective_concat_of_some ht, List.length_append, ← h.next_eq]
      rfl
    · rw [List.getElem?_modify] at huj
      obtain ⟨u₀, hu₀, rfl⟩ := Option.map_eq_some_iff.1 huj
      have hmem := List.mem_of_getElem? hu₀
      split
      next hij =>
        subst hij
        rw [gains_concat_of_some ht (by rw [← h.next_eq]; exact hg)]
        exact (h.grown i t u₀ htj hu₀).gain (hid u₀ hmem) (h.nodup u₀ hmem)
      next hij =>
        rw [gains_concat_of_ne (by simp [ht, hij])]
        exact h.grown j t u₀ htj hu₀
    · rcases mem_modify hu with hu | ⟨u₀, hu₀, rfl⟩
      · exact h.nodup u hu
      · exact nodup_addTo (h.nodup u₀ hu₀) (hid u₀ hu₀)
    · rcases mem_modify hu with hu | ⟨u₀, hu₀, rfl⟩
      · exact h.fresh u hu c hc n (by omega)
      · rcases id_of_mem_addTo hc with hc | hc
        · exact h.fresh u₀ hu₀ c hc n (by omega)
        · rw [hc, hgid]
          intro heq
          have := hinj heq
          omega

/-- What the frame of one more action highlights. -/
theorem highlight_apply (h : Replayed ids tables actions next us) (a : Action) :
    (a.apply ids next us).frame.highlight = highlightAfter ids tables actions a := by
  have hu := h.target?_eq a
  cases a with
  | highlight h => rfl
  | addColumn table name seeds =>
    simp only [highlightAfter, ← hu, ← h.next_eq]
    cases hi : Tables.indexOf? us table with
    | none => simp [Action.target?, Action.apply, change, hi]
    | some i => simp [Action.target?, Action.apply, change, hi]
  | addRow table values =>
    simp only [highlightAfter, ← hu, ← h.next_eq]
    cases hi : Tables.indexOf? us table with
    | none => simp [Action.target?, Action.apply, change, hi]
    | some i => simp [Action.target?, Action.apply, change, hi]

/-- All actions. -/
theorem all (hd : ∀ t ∈ tables, (t.columns.map (·.id)).Nodup)
    (hf : ∀ t ∈ tables, ∀ c ∈ t.columns, ∀ n, ids n ≠ c.id) (hinj : Function.Injective ids)
    (actions : List Action) :
    Replayed ids tables actions (after ids 0 tables actions).1 (after ids 0 tables actions).2 := by
  induction actions using List.reverseRecOn with
  | nil => exact start hd hf
  | append_singleton actions a ih =>
    rw [after_concat]
    exact ih.apply hinj a

end Replayed

/-! ## All frames -/

/-- What the frames of an animation are, said without replaying: frame `k` shows the tables with
    what the first `k` actions add to them. -/
structure ClosedForm (ids : IdSupply) (tables : List Table) (actions : List Action)
    (frames : List Frame) : Prop where
  length_eq : frames.length = actions.length + 1
  first : frames[0]? = some ⟨tables, .empty⟩
  length_tables : ∀ (k : Nat) (f : Frame), frames[k]? = some f → f.tables.length = tables.length
  grown : ∀ (k : Nat) (f : Frame), frames[k]? = some f →
    ∀ (i : Nat) (t u : Table), tables[i]? = some t → f.tables[i]? = some u →
      t.Grown (gains ids tables (actions.take k) i) u
  highlight : ∀ (k : Nat) (a : Action) (f : Frame), actions[k]? = some a →
    frames[k + 1]? = some f → f.highlight = highlightAfter ids tables (actions.take k) a
  untouched : ∀ (k : Nat) (a : Action) (f f' : Frame), actions[k]? = some a →
    frames[k]? = some f → frames[k + 1]? = some f' →
    ∀ i : Nat, a.target? tables ≠ some i → f'.tables[i]? = f.tables[i]?

/-- If the columns of every table have different ids and the supply never repeats an id nor gives
    one of these, the frames are what the closed form says. -/
theorem sequence_closedForm (ids : IdSupply) (tables : List Table) (actions : List Action)
    (hd : ∀ t ∈ tables, (t.columns.map (·.id)).Nodup) (hinj : Function.Injective ids)
    (hf : ∀ t ∈ tables, ∀ c ∈ t.columns, ∀ n, ids n ≠ c.id) :
    ClosedForm ids tables actions (sequence ids tables actions) where
  length_eq := length_sequence ids tables actions
  first := rfl
  length_tables k f hk := by
    rw [tables_eq_after hk]
    exact (Replayed.all hd hf hinj _).length_eq
  grown k f hk := by
    rw [tables_eq_after hk]
    exact (Replayed.all hd hf hinj _).grown
  highlight k a f ha hk := by
    rw [getElem?_sequence_succ ha] at hk
    cases hk
    exact (Replayed.all hd hf hinj (actions.take k)).highlight_apply a
  untouched k a f f' ha hk hk' i hi := by
    rw [← (Replayed.all hd hf hinj (actions.take k)).target?_eq] at hi
    rw [getElem?_sequence_succ ha] at hk'
    cases hk'
    rw [tables_eq_after hk]
    cases ht : a.target? (after ids 0 tables (actions.take k)).2 with
    | none => rw [(Action.apply_of_target?_eq_none ht ids _).2]
    | some j =>
      obtain ⟨g, -, -, -, htables⟩ := Action.apply_of_target?_eq_some ht ids
        (after ids 0 tables (actions.take k)).1
      have hij : j ≠ i := fun h => hi (h ▸ ht)
      rw [htables, List.getElem?_modify]
      simp [hij]

/-- Ids of as many strokes as have been given before, and one more. -/
def strokes : IdSupply := fun n => List.replicate (n + 1) (.char '|')

theorem strokes_injective : Function.Injective strokes := by
  intro m n h
  simpa [strokes] using congrArg List.length h

theorem strokes_ne {id : CodePoints} (h : id.head? ≠ some (.char '|')) (n : Nat) :
    strokes n ≠ id := by
  rintro rfl
  exact h rfl

/-- Two tables with one id, of which only the first is ever changed. -/
def twins : List Table :=
  [⟨"t", "T", [⟨"c", "C"⟩], [⟨"r", [("c", "x")]⟩]⟩, ⟨"t", "U", [⟨"c", "C"⟩], []⟩]

theorem sequence_closedForm_twins :
    (∀ t ∈ twins, (t.columns.map (·.id)).Nodup) ∧ Function.Injective strokes ∧
      (∀ t ∈ twins, ∀ c ∈ t.columns, ∀ n, strokes n ≠ c.id) ∧
      ClosedForm strokes twins
        [.addRow "t" ["y"], .addColumn "t" "D" (some [(1, "u"), (0, "v"), (1, "w")]),
          .addColumn "u" "E" none, .addRow "t" ["z"]]
        (sequence strokes twins
          [.addRow "t" ["y"], .addColumn "t" "D" (some [(1, "u"), (0, "v"), (1, "w")]),
            .addColumn "u" "E" none, .addRow "t" ["z"]]) := by
  have hd : ∀ t ∈ twins, (t.columns.map (·.id)).Nodup := by decide
  have hinj : Function.Injective strokes := by
    intro m n h
    have hlen := congrArg List.length h
    simpa [strokes] using hlen
  have hf : ∀ t ∈ twins, ∀ c ∈ t.columns, ∀ n, strokes n ≠ c.id := by
    intro t ht c hc n h
    have hstroke : c.id.head? = some (.char '|') := by
      rw [← h]
      rfl
    have hnone : ∀ t ∈ twins, ∀ c ∈ t.columns, c.id.head? ≠ some (.char '|') := by decide
    exact hnone t ht c hc hstroke
  exact ⟨hd, hinj, hf, sequence_closedForm strokes twins _ hd hinj hf⟩

end Frame

end Storyboard
