-- SUMMARY: Collections that are saved are loaded again as they were, and so is all that has been loaded.
import Storyboard.Proofs.Json.RoundTrip
import Storyboard.Proofs.Table.Collection

/-!
# Saved collections

A collection is saved as a value of strings, arrays and objects, which is read back, and
what passes the checks is then the same collection again (`load_save_of_savable`). This
takes joined texts and, in each row, distinct keys (`Table.Savable`). All tables that
have been loaded are of this kind (`savable_of_load`): strings are joined as they are
read, and the text that stands for any other value is one of characters.
-/

namespace Storyboard

theorem OrderedMap.mem_of_get? {κ α : Type} [DecidableEq κ] {key : κ} {m : OrderedMap κ α} {v : α}
    (h : m.get? key = some v) : (key, v) ∈ m := by
  induction m with
  | nil => cases h
  | cons entry rest ih =>
    obtain ⟨k, w⟩ := entry
    rw [get?] at h
    split at h
    next hk =>
      cases h
      exact hk ▸ List.mem_cons_self ..
    next => exact List.mem_cons_of_mem _ (ih h)

/-! ## Tables that can be saved -/

namespace Table

/-- All ids, names, keys of cells and values of cells of a table have a property. -/
structure AllTexts (P : CodePoints → Prop) (t : Table) : Prop where
  id : P t.id
  name : P t.name
  columns : ∀ c ∈ t.columns, P c.id ∧ P c.name
  rows : ∀ r ∈ t.rows, P r.id ∧ ∀ e ∈ r.cells, P e.1 ∧ P e.2

theorem AllTexts.imp {P Q : CodePoints → Prop} (hPQ : ∀ s, P s → Q s) {t : Table}
    (h : t.AllTexts P) : t.AllTexts Q where
  id := hPQ _ h.id
  name := hPQ _ h.name
  columns c hc := (h.columns c hc).imp (hPQ _) (hPQ _)
  rows r hr := (h.rows r hr).imp (hPQ _) fun he e hmem => (he e hmem).imp (hPQ _) (hPQ _)

/-- The texts of a table are joined, and no row has two cells under one key. -/
structure Savable (t : Table) : Prop where
  joined : t.AllTexts CodePoints.Joined
  keys : ∀ r ∈ t.rows, r.cells.keys.Nodup

end Table

/-! ## Values that are written -/

/-- An object whose keys are given in the text of this library. -/
theorem Json.Value.plain_object {members : List (CodePoints × Json.Value)}
    (hkeys : (members.map (·.1)).Nodup)
    (h : ∀ e ∈ members, (∃ key : String, e.1 = .ofString key) ∧ e.2.Plain) :
    (Json.Value.object members).Plain := by
  refine .object hkeys (fun e he => ?_) fun e he => (h e he).2
  obtain ⟨key, hkey⟩ := (h e he).1
  rw [hkey]
  exact CodePoints.joined_ofChars key.toList

theorem Column.plain_toJson {c : Column} (hid : c.id.Joined) (hname : c.name.Joined) :
    c.toJson.Plain := by
  refine Json.Value.plain_object (show [CodePoints.ofString "id", "name"].Nodup by decide) ?_
  simp only [List.forall_mem_cons]
  exact ⟨⟨⟨_, rfl⟩, .string hid⟩, ⟨⟨_, rfl⟩, .string hname⟩, nofun⟩

theorem Row.plain_toJson {r : Row} (hid : r.id.Joined) (hkeys : r.cells.keys.Nodup)
    (hcells : ∀ e ∈ r.cells, CodePoints.Joined e.1 ∧ CodePoints.Joined e.2) : r.toJson.Plain := by
  have hobject :
      (Json.Value.object (r.cells.map fun cell => (cell.1, .string cell.2))).Plain := by
    refine .object ?_ (fun e he => ?_) fun e he => ?_
    · rw [List.map_map]
      exact hkeys
    · obtain ⟨cell, hcell, rfl⟩ := List.mem_map.1 he
      exact (hcells cell hcell).1
    · obtain ⟨cell, hcell, rfl⟩ := List.mem_map.1 he
      exact .string (hcells cell hcell).2
  refine Json.Value.plain_object (show [CodePoints.ofString "id", "cells"].Nodup by decide) ?_
  simp only [List.forall_mem_cons]
  exact ⟨⟨⟨_, rfl⟩, .string hid⟩, ⟨⟨_, rfl⟩, hobject⟩, List.forall_mem_nil _⟩

theorem Table.Savable.plain_toJson {t : Table} (h : t.Savable) : t.toJson.Plain := by
  have hcolumns : (Json.Value.array (t.columns.map Column.toJson)).Plain := by
    refine .array fun v hv => ?_
    obtain ⟨c, hc, rfl⟩ := List.mem_map.1 hv
    exact Column.plain_toJson (h.joined.columns c hc).1 (h.joined.columns c hc).2
  have hrows : (Json.Value.array (t.rows.map Row.toJson)).Plain := by
    refine .array fun v hv => ?_
    obtain ⟨r, hr, rfl⟩ := List.mem_map.1 hv
    exact Row.plain_toJson (h.joined.rows r hr).1 (h.keys r hr) (h.joined.rows r hr).2
  refine Json.Value.plain_object
    (show [CodePoints.ofString "id", "name", "columns", "rows"].Nodup by decide) ?_
  simp only [List.forall_mem_cons]
  exact ⟨⟨⟨_, rfl⟩, .string h.joined.id⟩, ⟨⟨_, rfl⟩, .string h.joined.name⟩,
    ⟨⟨_, rfl⟩, hcolumns⟩, ⟨⟨_, rfl⟩, hrows⟩, nofun⟩

theorem Tables.load_save_of_savable {tables : List Table} (h : WellFormed tables)
    (hs : ∀ t ∈ tables, t.Savable) (indent : Option Nat) :
    load (save indent tables).toList = .ok tables := by
  have hplain : (toJson tables).Plain := by
    refine .array fun v hv => ?_
    obtain ⟨t, ht, rfl⟩ := List.mem_map.1 hv
    exact (hs t ht).plain_toJson
  rw [load, save, hplain.read_write]
  exact congrArg (Except.mapError LoadError.shape) (ofJson_toJson h)

/-! ## Tables that have been loaded -/

namespace Json.Value

/-- The text that stands for a tidy value is joined. -/
theorem Tidy.joined_text {v : Json.Value} (h : v.Tidy True) : v.text.Joined := by
  cases h with
  | string hs => exact hs
  | _ => exact CodePoints.joined_ofChars _

theorem Tidy.joined_cellText {v : Json.Value} (h : v.Tidy True) : (Row.cellText v).Joined := by
  cases h with
  | null => rfl
  | string hs => exact hs
  | _ => exact CodePoints.joined_ofChars _

theorem Tidy.of_has {v w : Json.Value} (h : v.Tidy True) {key : String} (hw : v.Has key w) :
    w.Tidy True := by
  obtain ⟨members, rfl, hw⟩ := hw
  cases h with
  | object hkeys hjoined hmembers => exact hmembers _ (OrderedMap.mem_of_get? hw)

/-- A member of a tidy object is tidy, as is what stands for it if it is missing. -/
theorem Tidy.of_hasOr {v other w : Json.Value} (h : v.Tidy True) (hother : other.Tidy True)
    {key : String} (hw : v.HasOr key other w) : w.Tidy True := by
  rcases hw with hw | ⟨rfl, -⟩
  · exact h.of_has hw
  · exact hother

theorem Tidy.joined_of_hasText {v : Json.Value} (h : v.Tidy True) {key : String} {s : CodePoints}
    (hs : v.HasText key s) : s.Joined := by
  obtain ⟨w, hw, rfl⟩ := hs
  exact (h.of_has hw).joined_text

end Json.Value

theorem Row.keys_of_from {v : Json.Value} (hv : v.Tidy True) {r : Row} (h : Row.From v r) :
    r.cells.keys.Nodup ∧ r.id.Joined ∧
      ∀ e ∈ r.cells, CodePoints.Joined e.1 ∧ CodePoints.Joined e.2 := by
  obtain ⟨hid, members, hmembers, hcells⟩ := h
  have hempty : (Json.Value.object []).Tidy True := .object List.nodup_nil nofun nofun
  cases hv.of_hasOr hempty hmembers with
  | object hkeys hjoined htidy =>
    rw [← forall₂_cellFrom_iff.1 hcells]
    refine ⟨?_, hv.joined_of_hasText hid, fun e he => ?_⟩
    · rw [OrderedMap.keys, List.map_map]
      exact hkeys
    · obtain ⟨cell, hcell, rfl⟩ := List.mem_map.1 he
      exact ⟨hjoined cell hcell, (htidy cell hcell).joined_cellText⟩

theorem Table.savable_of_from {v : Json.Value} (hv : v.Tidy True) {t : Table} (h : Table.From v t) :
    t.Savable := by
  obtain ⟨hid, hname, ⟨columns, hcolumns, hcs⟩, rows, hrows, hrs⟩ := h
  have hempty : (Json.Value.array []).Tidy True := .array nofun
  have hitems : ∀ {key items}, v.HasOr key (.array []) (.array items) → ∀ w ∈ items, w.Tidy True := by
    intro key items hor
    cases hv.of_hasOr hempty hor with
    | array hitems => exact hitems
  have hrow : ∀ r ∈ t.rows, r.cells.keys.Nodup ∧ r.id.Joined ∧
      ∀ e ∈ r.cells, CodePoints.Joined e.1 ∧ CodePoints.Joined e.2 := by
    intro r hr
    obtain ⟨w, hw, hfrom⟩ := exists_of_forall₂ hrs hr
    exact Row.keys_of_from (hitems hrows w hw) hfrom
  have hcolumn : ∀ c ∈ t.columns, c.id.Joined ∧ c.name.Joined := by
    intro c hc
    obtain ⟨w, hw, hfrom⟩ := exists_of_forall₂ hcs hc
    have htidy := hitems hcolumns w hw
    exact ⟨htidy.joined_of_hasText hfrom.id, htidy.joined_of_hasText hfrom.name⟩
  exact
    { joined :=
        { id := hv.joined_of_hasText hid
          name := hv.joined_of_hasText hname
          columns := hcolumn
          rows := fun r hr => (hrow r hr).2 }
      keys := fun r hr => (hrow r hr).1 }

namespace Tables

/-- What has been loaded can be saved. -/
theorem savable_of_load {text : List Char} {tables : List Table} (h : load text = .ok tables) :
    ∀ t ∈ tables, t.Savable := by
  obtain ⟨v, hread, hv⟩ := exists_of_load h
  obtain ⟨items, rfl, hitems⟩ := from_of_ofJson hv
  intro t ht
  obtain ⟨item, hitem, hfrom⟩ := exists_of_forall₂ hitems ht
  cases Json.tidy_of_read hread with
  | array htidy => exact Table.savable_of_from (htidy item hitem) hfrom

/-- Saving loses nothing. A collection that passes the checks, whose texts are of characters and
    whose rows have no key twice, is loaded as it was saved, with any indent or none; and so is
    every collection that has been loaded from a text. -/
theorem load_save :
    (∀ tables : List Table, WellFormed tables →
      (∀ t ∈ tables, t.AllTexts fun s => ∃ chars, s = .ofChars chars) →
      (∀ t ∈ tables, ∀ r ∈ t.rows, r.cells.keys.Nodup) →
      ∀ indent, load (save indent tables).toList = .ok tables) ∧
    ∀ text tables, load text = .ok tables →
      ∀ indent, load (save indent tables).toList = .ok tables := by
  constructor
  · intro tables h htexts hkeys indent
    refine load_save_of_savable h (fun t ht => ⟨(htexts t ht).imp ?_, hkeys t ht⟩) indent
    rintro s ⟨chars, rfl⟩
    exact CodePoints.joined_ofChars chars
  · intro text tables h indent
    exact load_save_of_savable (wellFormed_of_load h) (savable_of_load h) indent

/-- Tables whose texts take every kind of escape, with a row without cells and a table without rows;
    all but the names may come twice. -/
def oddities : List Table :=
  [⟨"", "\"\\/\n\x08\x7f", [⟨"c", "é"⟩, ⟨"c", "😀"⟩],
      [⟨"r", [("d", "\uffff"), ("", "\x00")]⟩, ⟨"r", []⟩]⟩,
    ⟨"", "", [], []⟩]

/-- A collection in JSON with a lone half, values that are no strings and a key that comes twice. -/
def loose : List Char :=
  ("[\x7b\"id\": 7, \"name\": \"\\ud83d\\ud83d\\ude00\", "
    ++ "\"rows\": [\x7b\"cells\": \x7b\"a\": 1.50, \"b\": [\"x\"], \"a\": null\x7d, "
    ++ "\"id\": true\x7d]\x7d]").toList

/-- This collection. -/
def loosened : List Table :=
  [⟨"7", [.half 0x3D, .char '😀'], [], [⟨"True", [("a", ""), ("b", "['x']")]⟩]⟩]

theorem load_save_oddities :
    WellFormed oddities ∧ (∀ t ∈ oddities, t.AllTexts fun s => ∃ chars, s = .ofChars chars) ∧
      (∀ t ∈ oddities, ∀ r ∈ t.rows, r.cells.keys.Nodup) ∧
      load (save (some 2) oddities).toList = .ok oddities ∧
      load loose = .ok loosened ∧ load (save none loosened).toList = .ok loosened := by
  have hchecks : WellFormed oddities := ⟨by decide, by decide, by decide⟩
  have htexts : ∀ t ∈ oddities, t.AllTexts fun s => ∃ chars, s = .ofChars chars := by
    have hwhole : ∀ t ∈ oddities, t.AllTexts CodePoints.IsWhole := by
      simp only [oddities, List.forall_mem_cons]
      exact ⟨⟨by decide, by decide, by decide, by decide⟩,
        ⟨by decide, by decide, by decide, by decide⟩, nofun⟩
    exact fun t ht => (hwhole t ht).imp fun s hs => CodePoints.isWhole_iff.1 hs
  have hkeys : ∀ t ∈ oddities, ∀ r ∈ t.rows, r.cells.keys.Nodup := by decide
  have hloose : load loose = .ok loosened := by decide +kernel
  exact ⟨hchecks, htexts, hkeys, load_save.1 oddities hchecks htexts hkeys (some 2), hloose,
    load_save.2 loose loosened hloose none⟩

end Tables

end Storyboard
