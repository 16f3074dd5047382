-- SUMMARY: What a collection in JSON is read as, and which collections are read: those with few tables, distinct names of tables and distinct names of columns.
import Mathlib.Data.List.Forall2
import Mathlib.Data.List.Nodup
import Storyboard.Proofs.Except
import Storyboard.Table.Collection

/-!
# Reading collections

What stands in a JSON value is said of the value and its members alone: the items in order, each with
the texts that stand for its members (`Table.From`). A table is read as what stands in it, if its
columns have different names (`Table.ofJson_eq_ok_iff`), and a collection in the same way
(`Tables.from_of_ofJson`).

Reading makes three checks on tables that have their shape: on their number, on their
names and on the names of the columns of each (`Tables.WellFormed`). What is read has
passed them (`Tables.wellFormed_of_ofJson`), and a collection that passes them is read
back from what it is written as (`Tables.ofJson_toJson`).
-/

namespace Storyboard

namespace Json.Value

/-! ## Members -/

/-- A value is an object that has another value under a key. -/
def Has (v : Value) (key : String) (w : Value) : Prop :=
  ∃ members, v = .object members ∧ member? key members = some w

/-- A value is what another one has under a key, or stands for what it does not have. -/
def HasOr (v : Value) (key : String) (other w : Value) : Prop :=
  v.Has key w ∨ w = other ∧ ∀ u, ¬ v.Has key u

/-- A text stands for what a value has under a key. -/
def HasText (v : Value) (key : String) (s : CodePoints) : Prop :=
  ∃ w, v.Has key w ∧ s = w.text

@[simp]
theorem has_object {members : List (CodePoints × Value)} {key : String} {w : Value} :
    (object members).Has key w ↔ member? key members = some w := by
  constructor
  · rintro ⟨_, ⟨⟩, h⟩
    exact h
  · exact fun h => ⟨members, rfl, h⟩

theorem hasOr_object {members : List (CodePoints × Value)} {key : String} {other w : Value} :
    (object members).HasOr key other w ↔ (member? key members).getD other = w := by
  simp only [HasOr, has_object]
  cases member? key members with
  | none => simp [eq_comm]
  | some u => simp

end Json.Value

/-! ## What stands in a value -/

/-- A column as it stands in JSON. -/
structure Column.From (v : Json.Value) (c : Column) : Prop where
  id : v.HasText "id" c.id
  name : v.HasText "name" c.name

/-- A cell as it stands in JSON, under its key: null is empty, another value is its text. -/
structure Row.CellFrom (member : CodePoints × Json.Value) (cell : CodePoints × CodePoints) : Prop where
  key : cell.1 = member.1
  null : member.2 = .null → cell.2 = []
  text : member.2 ≠ .null → cell.2 = member.2.text

/-- A row as it stands in JSON. -/
structure Row.From (v : Json.Value) (r : Row) : Prop where
  id : v.HasText "id" r.id
  cells : ∃ members, v.HasOr "cells" (.object []) (.object members) ∧
    List.Forall₂ CellFrom members r.cells

/-- A table as it stands in JSON. -/
structure Table.From (v : Json.Value) (t : Table) : Prop where
  id : v.HasText "id" t.id
  name : v.HasText "name" t.name
  columns : ∃ items, v.HasOr "columns" (.array []) (.array items) ∧
    List.Forall₂ Column.From items t.columns
  rows : ∃ items, v.HasOr "rows" (.array []) (.array items) ∧ List.Forall₂ Row.From items t.rows

/-- A collection as it stands in JSON. -/
def Tables.From (v : Json.Value) (tables : List Table) : Prop :=
  ∃ items, v = .array items ∧ List.Forall₂ Table.From items tables

/-! ## Reading -/

theorem Row.cellFrom_iff {member : CodePoints × Json.Value} {cell : CodePoints × CodePoints} :
    CellFrom member cell ↔ (member.1, cellText member.2) = cell := by
  obtain ⟨key, v⟩ := member
  obtain ⟨key', s⟩ := cell
  rw [Prod.mk.injEq]
  constructor
  · rintro ⟨hkey, hnull, htext⟩
    refine ⟨hkey.symm, ?_⟩
    cases v with
    | null => exact (hnull rfl).symm
    | _ => exact (htext nofun).symm
  · rintro ⟨hkey, rfl⟩
    refine ⟨hkey.symm, fun h => ?_, fun h => ?_⟩
    · change v = .null at h
      rw [h]
      rfl
    · cases v with
      | null => exact absurd rfl h
      | _ => rfl

theorem Row.forall₂_cellFrom_iff {members : List (CodePoints × Json.Value)}
    {cells : OrderedMap CodePoints CodePoints} :
    List.Forall₂ CellFrom members cells ↔
      members.map (fun (key, value) => (key, cellText value)) = cells := by
  rw [← List.forall₂_eq_eq_eq, List.forall₂_map_left_iff]
  exact ⟨.imp fun _ _ => cellFrom_iff.1, .imp fun _ _ => cellFrom_iff.2⟩

/-- A value is read as the row that stands in it, and only as that. -/
theorem Row.ofJson_eq_ok_iff {table : CodePoints} {v : Json.Value} {r : Row} :
    Row.ofJson table v = .ok r ↔ Row.From v r := by
  constructor
  · intro h
    unfold Row.ofJson at h
    split at h
    next members =>
      split at h
      next => cases h
      next id hid =>
        split at h
        next cells hcells =>
          cases h
          exact ⟨⟨id, Json.Value.has_object.2 hid, rfl⟩, cells, Json.Value.hasOr_object.2 hcells,
            forall₂_cellFrom_iff.2 rfl⟩
        next => cases h
    next => cases h
  · rintro ⟨⟨id, ⟨members, rfl, hid⟩, hr⟩, cells, hcells, hall⟩
    unfold Row.ofJson
    simp only [hid, Json.Value.hasOr_object.1 hcells]
    rw [forall₂_cellFrom_iff.1 hall, ← hr]

/-- Items are read as the columns that stand in them, if their names are different and new. -/
theorem Table.columnsOfJson_eq_ok_iff {table : CodePoints} {seen : List CodePoints}
    {items : List Json.Value} {columns : List Column} :
    columnsOfJson table seen items = .ok columns ↔ List.Forall₂ Column.From items columns ∧
      (columns.map (·.name)).Nodup ∧ ∀ c ∈ columns, c.name ∉ seen := by
  constructor
  · intro h
    fun_induction columnsOfJson table seen items generalizing columns with
    | case1 seen =>
      cases h
      exact ⟨.nil, List.nodup_nil, nofun⟩
    | case2 => cases h
    | case3 seen members rest id name hid hname hnew ih =>
      obtain ⟨more, hrest, h⟩ := bind_eq_ok h
      cases h
      obtain ⟨hall, hnodup, hseen⟩ := ih hrest
      refine ⟨.cons ⟨⟨id, Json.Value.has_object.2 hname, rfl⟩,
        ⟨name, Json.Value.has_object.2 hid, rfl⟩⟩ hall, ?_, ?_⟩
      · refine List.nodup_cons.2 ⟨fun hmem => ?_, hnodup⟩
        obtain ⟨c, hc, heq⟩ := List.mem_map.1 hmem
        exact hseen c hc (heq ▸ List.mem_cons_self ..)
      · intro c hc
        rcases List.mem_cons.1 hc with rfl | hc
        · exact hnew
        · exact fun hmem => hseen c hc (List.mem_cons_of_mem _ hmem)
    | case4 => cases h
    | case5 => cases h
  · rintro ⟨hall, hd, hseen⟩
    induction hall generalizing seen with
    | nil => rfl
    | @cons v c rest columns hc hall ih =>
      obtain ⟨⟨id, ⟨members, rfl, hid⟩, hcid⟩, name, hname, hcname⟩ := hc
      obtain ⟨hnew, hd⟩ := List.nodup_cons.1 hd
      obtain ⟨hfirst, hseen⟩ := List.forall_mem_cons.1 hseen
      have hrest : columnsOfJson table (c.name :: seen) rest = .ok columns := by
        refine ih hd fun d hmem => List.not_mem_cons_of_ne_of_not_mem (fun heq => ?_) (hseen d hmem)
        exact hnew (List.mem_map.2 ⟨d, hmem, heq⟩)
      rw [columnsOfJson, hid, Json.Value.has_object.1 hname]
      simp only [← hcid, ← hcname, if_neg hfirst, hrest]
      rfl

/-- A value is read as the table that stands in it, if its columns have different names. -/
theorem Table.ofJson_eq_ok_iff {v : Json.Value} {t : Table} :
    Table.ofJson v = .ok t ↔ Table.From v t ∧ (t.columns.map (·.name)).Nodup := by
  constructor
  · intro h
    unfold Table.ofJson at h
    split at h
    next members =>
      split at h
      next => cases h
      next => cases h
      next id name hid hname =>
        split at h
        next columns rows hcolumns hrows =>
          obtain ⟨cs, hcs, h⟩ := bind_eq_ok h
          obtain ⟨rs, hrs, h⟩ := bind_eq_ok h
          cases h
          obtain ⟨hcsfrom, hnames, -⟩ := columnsOfJson_eq_ok_iff.1 hcs
          exact
            ⟨{ id := ⟨id, Json.Value.has_object.2 hid, rfl⟩
               name := ⟨name, Json.Value.has_object.2 hname, rfl⟩
               columns := ⟨columns, Json.Value.hasOr_object.2 hcolumns, hcsfrom⟩
               rows := ⟨rows, Json.Value.hasOr_object.2 hrows,
                 (mapM_eq_ok_iff.1 hrs).imp fun _ _ => Row.ofJson_eq_ok_iff.1⟩ }, hnames⟩
        next => cases h
    next => cases h
  · rintro ⟨⟨⟨id, ⟨members, rfl, hid⟩, htid⟩, ⟨name, hname, htname⟩, ⟨columns, hcolumns, hcs⟩,
      ⟨rows, hrows, hrs⟩⟩, hd⟩
    have hread : columnsOfJson t.name [] columns = .ok t.columns :=
      columnsOfJson_eq_ok_iff.2 ⟨hcs, hd, fun _ _ => List.not_mem_nil⟩
    have hmore : rows.mapM (Row.ofJson t.name) = .ok t.rows :=
      mapM_eq_ok_iff.2 (hrs.imp fun _ _ => Row.ofJson_eq_ok_iff.2)
    unfold Table.ofJson
    simp only [hid, Json.Value.has_object.1 hname, Json.Value.hasOr_object.1 hcolumns,
      Json.Value.hasOr_object.1 hrows, hread, hmore, bind, Except.bind, ← htid, ← htname]

/-! ## Writing -/

theorem Column.from_toJson (c : Column) : Column.From c.toJson c :=
  ⟨⟨.string c.id, Json.Value.has_object.2 rfl, rfl⟩,
    ⟨.string c.name, Json.Value.has_object.2 rfl, rfl⟩⟩

theorem Row.from_toJson (r : Row) : Row.From r.toJson r := by
  refine ⟨⟨.string r.id, Json.Value.has_object.2 rfl, rfl⟩, _, .inl (Json.Value.has_object.2 rfl), ?_⟩
  rw [forall₂_cellFrom_iff, List.map_map]
  exact List.map_id _

theorem Table.from_toJson (t : Table) : Table.From t.toJson t where
  id := ⟨.string t.id, Json.Value.has_object.2 rfl, rfl⟩
  name := ⟨.string t.name, Json.Value.has_object.2 rfl, rfl⟩
  columns := ⟨_, .inl (Json.Value.has_object.2 rfl),
    List.forall₂_map_left_iff.2 (List.forall₂_same.2 fun c _ => c.from_toJson)⟩
  rows := ⟨_, .inl (Json.Value.has_object.2 rfl),
    List.forall₂_map_left_iff.2 (List.forall₂_same.2 fun r _ => r.from_toJson)⟩

/-! ## Collections -/

namespace Tables

/-- A collection that passes the checks. -/
structure WellFormed (tables : List Table) : Prop where
  few : tables.length ≤ maxTables
  names : (tables.map (·.name)).Nodup
  columns : ∀ t ∈ tables, (t.columns.map (·.name)).Nodup

theorem check_eq_ok_iff {tables : List Table} :
    check tables = .ok () ↔ tables.length ≤ maxTables ∧ (tables.map (·.name)).Nodup := by
  unfold check
  split
  next h =>
    simp only [reduceCtorEq, false_iff, not_and]
    omega
  next h =>
    have hfew := Nat.le_of_not_lt h
    simp only
    split
    next name hfind =>
      have hcount := List.find?_some hfind
      simp only [decide_eq_true_eq] at hcount
      simp only [reduceCtorEq, false_iff, not_and]
      intro _ hd
      exact absurd (List.nodup_iff_count_le_one.1 hd name) (Nat.not_le_of_lt hcount)
    next hfind =>
      refine iff_of_true rfl ⟨hfew, List.nodup_iff_count_le_one.2 fun name => ?_⟩
      by_cases hmem : name ∈ tables.map (·.name)
      · have hcount := List.find?_eq_none.1 hfind name hmem
        simpa using hcount
      · rw [List.count_eq_zero_of_not_mem hmem]
        exact Nat.zero_le 1

/-- A collection that is read comes from the items of an array and has been checked. -/
theorem exists_of_ofJson {v : Json.Value} {tables : List Table} (h : ofJson v = .ok tables) :
    ∃ items, v = .array items ∧ items.mapM Table.ofJson = .ok tables ∧ check tables = .ok () := by
  unfold ofJson at h
  split at h
  next items =>
    obtain ⟨ts, hitems, h⟩ := bind_eq_ok h
    obtain ⟨u, hcheck, h⟩ := bind_eq_ok h
    cases h
    exact ⟨items, rfl, hitems, hcheck⟩
  next => cases h

/-- What a value is read as stands in it. -/
theorem from_of_ofJson {v : Json.Value} {tables : List Table} (h : ofJson v = .ok tables) :
    From v tables := by
  obtain ⟨items, rfl, hitems, -⟩ := exists_of_ofJson h
  exact ⟨items, rfl, (mapM_eq_ok_iff.1 hitems).imp fun _ _ ht => (Table.ofJson_eq_ok_iff.1 ht).1⟩

/-- What is read passes the checks. -/
theorem wellFormed_of_ofJson {v : Json.Value} {tables : List Table}
    (h : ofJson v = .ok tables) : WellFormed tables := by
  obtain ⟨items, rfl, hitems, hcheck⟩ := exists_of_ofJson h
  obtain ⟨hfew, hnames⟩ := check_eq_ok_iff.1 hcheck
  refine ⟨hfew, hnames, fun t ht => ?_⟩
  obtain ⟨item, -, hitem⟩ := exists_of_mapM hitems ht
  exact (Table.ofJson_eq_ok_iff.1 hitem).2

/-- A collection that is loaded is read from a value. -/
theorem exists_of_load {text : List Char} {tables : List Table} (h : load text = .ok tables) :
    ∃ v, Json.Value.read text = .ok v ∧ ofJson v = .ok tables := by
  unfold load at h
  split at h
  next => cases h
  next v hread =>
    cases hv : ofJson v with
    | error e =>
      rw [hv] at h
      cases h
    | ok ts =>
      rw [hv] at h
      cases h
      exact ⟨v, hread, hv⟩

/-- What is read from a text passes the checks. -/
theorem wellFormed_of_load {text : List Char} {tables : List Table}
    (h : load text = .ok tables) : WellFormed tables := by
  obtain ⟨v, -, hv⟩ := exists_of_load h
  exact wellFormed_of_ofJson hv

/-- A collection that passes the checks is read back from what it is written as. -/
theorem ofJson_toJson {tables : List Table} (h : WellFormed tables) :
    ofJson (toJson tables) = .ok tables := by
  have hitems : (tables.map Table.toJson).mapM Table.ofJson = .ok tables :=
    mapM_map_eq_ok fun t ht => Table.ofJson_eq_ok_iff.2 ⟨t.from_toJson, h.columns t ht⟩
  unfold toJson ofJson
  simp only [hitems, bind, Except.bind, check_eq_ok_iff.2 ⟨h.few, h.names⟩]

end Tables

end Storyboard
