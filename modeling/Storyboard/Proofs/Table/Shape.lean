-- SUMMARY: Which JSON values are collections, said of the values.
import Storyboard.Proofs.Table.Collection

/-!
# The shape of a collection

The shape that a JSON value needs to be a collection (`Json.Value.IsCollection`) is said of the value
and its members alone. Something is read just from the values that have the shape
(`Json.Value.isCollection_iff`), layer by layer. So the text of a value is loaded if and only if the
value has the shape, and as the collection that stands in it (`Tables.load_ok_iff_isCollection`).
-/

namespace Storyboard

namespace Json.Value

/-! ## Members -/

theorem Has.unique {v : Value} {key : String} {w u : Value} (hw : v.Has key w) (hu : v.Has key u) :
    w = u := by
  obtain ⟨members, rfl, hw⟩ := hw
  rw [has_object, hw] at hu
  exact Option.some.inj hu

/-- What holds of a member if there is one, and of what stands for it, holds of the one or the other. -/
theorem exists_hasOr {v : Value} {key : String} {other : Value} {P : Value → Prop}
    (h : ∀ w, v.Has key w → P w) (hother : P other) : ∃ w, v.HasOr key other w ∧ P w := by
  by_cases hv : ∃ w, v.Has key w
  · obtain ⟨w, hw⟩ := hv
    exact ⟨w, .inl hw, h w hw⟩
  · exact ⟨other, .inr ⟨rfl, not_exists.1 hv⟩, hother⟩

theorem HasOr.eq_of_has {v : Value} {key : String} {other w u : Value} (h : v.HasOr key other w)
    (hu : v.Has key u) : u = w :=
  h.elim hu.unique fun h => absurd hu (h.2 u)

theorem HasText.unique {v : Value} {key : String} {s t : CodePoints} (hs : v.HasText key s)
    (ht : v.HasText key t) : s = t := by
  obtain ⟨w, hw, rfl⟩ := hs
  obtain ⟨u, hu, rfl⟩ := ht
  rw [hw.unique hu]

/-! ## Shapes -/

/-- The texts that stand for the names of items are all different. -/
def DistinctNames (items : List Value) : Prop :=
  ∃ names, List.Forall₂ (fun v s => v.HasText "name" s) items names ∧ names.Nodup

/-- A column is an object with an id and a name. -/
structure IsColumn (v : Value) : Prop where
  id : ∃ w, v.Has "id" w
  name : ∃ w, v.Has "name" w

/-- A row is an object with an id, whose cells are an object if it has any. -/
structure IsRow (v : Value) : Prop where
  id : ∃ w, v.Has "id" w
  cells : ∀ w, v.Has "cells" w → ∃ members, w = .object members

/-- A table is an object with an id and a name, whose columns and rows are arrays of such if it has any,
    the columns with different names. -/
structure IsTable (v : Value) : Prop where
  id : ∃ w, v.Has "id" w
  name : ∃ w, v.Has "name" w
  columns : ∀ w, v.Has "columns" w →
    ∃ items, w = .array items ∧ (∀ c ∈ items, c.IsColumn) ∧ DistinctNames items
  rows : ∀ w, v.Has "rows" w → ∃ items, w = .array items ∧ ∀ r ∈ items, r.IsRow

/-- A collection is an array of at most three tables with different names. -/
def IsCollection (v : Value) : Prop :=
  ∃ items, v = .array items ∧ items.length ≤ 3 ∧ (∀ t ∈ items, t.IsTable) ∧ DistinctNames items

end Json.Value

/-! ## What has the shape -/

/-- A list has another one at its side if each of its items has something. -/
theorem exists_forall₂_iff {α β : Type} {R : α → β → Prop} {xs : List α} :
    (∃ ys, List.Forall₂ R xs ys) ↔ ∀ x ∈ xs, ∃ y, R x y := by
  induction xs with
  | nil => exact ⟨fun _ => nofun, fun _ => ⟨[], .nil⟩⟩
  | cons x xs ih =>
    rw [List.forall_mem_cons, ← ih]
    constructor
    · rintro ⟨_, hxs⟩
      cases hxs with
      | cons hx hxs => exact ⟨⟨_, hx⟩, _, hxs⟩
    · rintro ⟨⟨y, hx⟩, ys, hxs⟩
      exact ⟨y :: ys, .cons hx hxs⟩

namespace Json.Value

/-- The names of items are different if what they are read as has different names. -/
theorem distinctNames_iff {α : Type} {R : Value → α → Prop} {name : α → CodePoints}
    (hname : ∀ v a, R v a → v.HasText "name" (name a)) {items : List Value} {as : List α}
    (h : List.Forall₂ R items as) : DistinctNames items ↔ (as.map name).Nodup := by
  have hnames : List.Forall₂ (fun v s => v.HasText "name" s) items (as.map name) :=
    List.forall₂_map_right_iff.2 (h.imp hname)
  constructor
  · rintro ⟨names, hother, hd⟩
    have hunique : Relator.RightUnique fun (v : Value) (s : CodePoints) => v.HasText "name" s :=
      fun _ _ _ => HasText.unique
    exact hunique.forall₂ hother hnames ▸ hd
  · exact fun hd => ⟨_, hnames, hd⟩

theorem isColumn_iff {v : Value} : v.IsColumn ↔ ∃ c, Column.From v c := by
  constructor
  · rintro ⟨⟨id, hid⟩, name, hname⟩
    exact ⟨⟨id.text, name.text⟩, ⟨id, hid, rfl⟩, ⟨name, hname, rfl⟩⟩
  · rintro ⟨c, ⟨id, hid, -⟩, name, hname, -⟩
    exact ⟨⟨id, hid⟩, name, hname⟩

theorem isRow_iff {v : Value} : v.IsRow ↔ ∃ r, Row.From v r := by
  constructor
  · rintro ⟨⟨id, hid⟩, hcells⟩
    obtain ⟨_, hmembers, members, rfl⟩ := exists_hasOr hcells ⟨[], rfl⟩
    exact ⟨⟨id.text, _⟩, ⟨id, hid, rfl⟩, members, hmembers, Row.forall₂_cellFrom_iff.2 rfl⟩
  · rintro ⟨r, ⟨id, hid, -⟩, members, hmembers, -⟩
    exact ⟨⟨id, hid⟩, fun w hw => ⟨members, hmembers.eq_of_has hw⟩⟩

theorem isTable_iff {v : Value} : v.IsTable ↔ ∃ t, Table.ofJson v = .ok t := by
  simp only [Table.ofJson_eq_ok_iff]
  constructor
  · rintro ⟨⟨id, hid⟩, ⟨name, hname⟩, hcolumns, hrows⟩
    obtain ⟨_, hcs, columns, rfl, hiscolumn, hd⟩ :=
      exists_hasOr hcolumns ⟨[], rfl, nofun, [], .nil, List.nodup_nil⟩
    obtain ⟨_, hrs, rows, rfl, hisrow⟩ := exists_hasOr hrows ⟨[], rfl, nofun⟩
    obtain ⟨cs, hcsfrom⟩ := exists_forall₂_iff.2 fun c hc => isColumn_iff.1 (hiscolumn c hc)
    obtain ⟨rs, hrsfrom⟩ := exists_forall₂_iff.2 fun r hr => isRow_iff.1 (hisrow r hr)
    exact ⟨⟨id.text, name.text, cs, rs⟩,
      ⟨⟨id, hid, rfl⟩, ⟨name, hname, rfl⟩, ⟨columns, hcs, hcsfrom⟩, rows, hrs, hrsfrom⟩,
      (distinctNames_iff (fun _ _ hc => hc.name) hcsfrom).1 hd⟩
  · rintro ⟨t, ⟨⟨id, hid, -⟩, ⟨name, hname, -⟩, ⟨columns, hcs, hcsfrom⟩, rows, hrs, hrsfrom⟩, hd⟩
    refine ⟨⟨id, hid⟩, ⟨name, hname⟩, fun w hw => ?_, fun w hw => ?_⟩
    · exact ⟨columns, hcs.eq_of_has hw,
        fun c hc => isColumn_iff.2 (exists_forall₂_iff.1 ⟨_, hcsfrom⟩ c hc),
        (distinctNames_iff (fun _ _ hc => hc.name) hcsfrom).2 hd⟩
    · exact ⟨rows, hrs.eq_of_has hw,
        fun r hr => isRow_iff.2 (exists_forall₂_iff.1 ⟨_, hrsfrom⟩ r hr)⟩

theorem isCollection_iff {v : Value} : v.IsCollection ↔ ∃ tables, Tables.ofJson v = .ok tables := by
  have hname (v : Value) (t : Table) (h : Table.ofJson v = .ok t) : v.HasText "name" t.name :=
    (Table.ofJson_eq_ok_iff.1 h).1.name
  constructor
  · rintro ⟨items, rfl, hfew, hitems, hd⟩
    obtain ⟨tables, hall⟩ := exists_forall₂_iff.2 fun v hv => isTable_iff.1 (hitems v hv)
    have hread : items.mapM Table.ofJson = .ok tables := mapM_eq_ok_iff.2 hall
    have hcheck : Tables.check tables = .ok () :=
      Tables.check_eq_ok_iff.2 ⟨hall.length_eq ▸ hfew, (distinctNames_iff hname hall).1 hd⟩
    refine ⟨tables, ?_⟩
    unfold Tables.ofJson
    simp only [hread, hcheck, bind, Except.bind]
  · rintro ⟨tables, h⟩
    obtain ⟨items, rfl, hread, hcheck⟩ := Tables.exists_of_ofJson h
    have hall := mapM_eq_ok_iff.1 hread
    obtain ⟨hfew, hd⟩ := Tables.check_eq_ok_iff.1 hcheck
    exact ⟨items, rfl, hall.length_eq ▸ hfew,
      fun v hv => isTable_iff.2 (exists_forall₂_iff.1 ⟨_, hall⟩ v hv),
      (distinctNames_iff hname hall).2 hd⟩

end Json.Value

namespace Tables

/-! ## Loading -/

/-- A text of a value is loaded as what its value is read as. -/
theorem load_of_read {text : List Char} {v : Json.Value} (h : Json.Value.read text = .ok v) :
    load text = (ofJson v).mapError .shape := by
  rw [load, h]

/-- A text that fails for its shape is that of a value. -/
theorem exists_of_load_eq_shape {text : List Char} {e : ShapeError}
    (h : load text = .error (.shape e)) : ∃ v, Json.Value.read text = .ok v := by
  unfold load at h
  split at h
  next => cases h
  next v hread => exact ⟨v, hread⟩

/-- The text of a value is loaded if and only if the value has the shape of a collection; what is loaded
    is the collection that stands in the value, and without the shape the error is one of shape. -/
theorem load_ok_iff_isCollection {text : List Char} {v : Json.Value}
    (h : Json.Value.read text = .ok v) :
    ((∃ tables, load text = .ok tables) ↔ v.IsCollection) ∧
      (∀ tables, load text = .ok tables → From v tables) ∧
      (¬ v.IsCollection → ∃ e : ShapeError, load text = .error (.shape e)) := by
  rw [Json.Value.isCollection_iff, load_of_read h]
  cases hv : ofJson v with
  | ok tables =>
    refine ⟨⟨fun _ => ⟨tables, rfl⟩, fun _ => ⟨tables, rfl⟩⟩, ?_, fun hno => ?_⟩
    · rintro _ ⟨⟩
      exact from_of_ofJson hv
    · exact absurd ⟨tables, rfl⟩ hno
  | error e => exact ⟨⟨nofun, nofun⟩, nofun, fun _ => ⟨e, rfl⟩⟩

/-- A collection in JSON whose ids, names and cells are hardly ever strings. -/
def coarse : List Char :=
  ("[\x7b\"name\": 7, \"id\": null, \"columns\": [\x7b\"id\": 1, \"name\": null\x7d], "
    ++ "\"rows\": [\x7b\"cells\": \x7b\"1\": null, \"\": [true]\x7d, \"id\": false\x7d, "
    ++ "\x7b\"id\": \"\"\x7d]\x7d]").toList

/-- The collection that stands in it. -/
def refined : List Table :=
  [⟨"None", "7", [⟨"1", "None"⟩], [⟨"False", [("1", ""), ("", "[True]")]⟩, ⟨"", []⟩]⟩]

/-- Two tables in JSON whose names are alike as texts, though not as values. -/
def alike : List Char :=
  "[\x7b\"id\": 0, \"name\": 7\x7d, \x7b\"name\": \"7\", \"id\": 1\x7d]".toList

theorem load_ok_iff_isCollection_coarse :
    (∃ v, Json.Value.read coarse = .ok v ∧ v.IsCollection ∧ From v refined ∧
      load coarse = .ok refined) ∧
    ∃ v, Json.Value.read alike = .ok v ∧ ¬ v.IsCollection ∧
      load alike = .error (.shape (.duplicateTable "7")) := by
  have hload : load coarse = .ok refined := by decide +kernel
  have hfail : load alike = .error (.shape (.duplicateTable "7")) := by decide +kernel
  constructor
  · obtain ⟨v, hread, -⟩ := exists_of_load hload
    obtain ⟨hok, hfrom, -⟩ := load_ok_iff_isCollection hread
    exact ⟨v, hread, hok.1 ⟨refined, hload⟩, hfrom refined hload, hload⟩
  · obtain ⟨v, hread⟩ := exists_of_load_eq_shape hfail
    obtain ⟨hok, -, -⟩ := load_ok_iff_isCollection hread
    refine ⟨v, hread, fun hshape => ?_, hfail⟩
    obtain ⟨tables, htables⟩ := hok.2 hshape
    rw [hfail] at htables
    cases htables

end Tables

end Storyboard
