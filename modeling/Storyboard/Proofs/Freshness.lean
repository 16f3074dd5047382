-- SUMMARY: When ids that are counted up are new: just if no table that gains a column or a row has its id already.
import Storyboard.Proofs.Except
import Storyboard.Proofs.Growth
import Storyboard.Script.Compile
import Storyboard.Table.Collection

/-!
# New ids

Ids that are counted up never repeat (`counting_injective`), but nothing keeps them from
those that a table has from its file. The frames are sound just if no new column or row
gets an id that its table has for a column or a row already (`sound_iff`). Then the
cells stay as well: gains whose columns have ids of their own leave every old cell
alone (`Table.grown_withGains`).
-/

namespace Storyboard

/-- Ids that are counted up never repeat. -/
theorem IdSupply.counting_injective (name : String) : Function.Injective (counting name) := by
  intro m n h
  have hnumbers := congrArg String.toList
    ((String.append_right_inj _).1 (CodePoints.ofString_inj.1 h))
  rw [Nat.toString_eq_repr, Nat.toString_eq_repr, Nat.toList_repr, Nat.toList_repr] at hnumbers
  have hvalues := congrArg (Nat.ofDigitChars 10 · 0) hnumbers
  simp only [Nat.ofDigitChars_ten_toDigits] at hvalues
  exact Nat.succ.inj hvalues

/-! ## Ids of gains -/

namespace Gain

theorem columns_cons (g : Gain) (gains : List Gain) :
    columns (g :: gains) = columns [g] ++ columns gains :=
  columns_append [g] gains

theorem rows_cons (g : Gain) (gains : List Gain) :
    rows (g :: gains) = rows [g] ++ rows gains :=
  rows_append [g] gains

theorem columns_sublist (gains : List Gain) :
    ((columns gains).map (·.id)).Sublist (gains.map Gain.id) := by
  induction gains with
  | nil => exact .slnil
  | cons g rest ih =>
    rw [columns_cons, List.map_append]
    cases g with
    | column id name seeds => exact ih.cons_cons id
    | row id values => exact ih.cons id

theorem rows_sublist (gains : List Gain) : (rows gains).Sublist (gains.map Gain.id) := by
  induction gains with
  | nil => exact .slnil
  | cons g rest ih =>
    rw [rows_cons]
    cases g with
    | column id name seeds => exact ih.cons id
    | row id values => exact ih.cons_cons id

end Gain

namespace Table

/-- The columns of a table have different ids, and so have its rows. -/
structure DistinctIds (t : Table) : Prop where
  columns : (t.columns.map (·.id)).Nodup
  rows : (t.rows.map (·.id)).Nodup

/-- The table has no column with the id of one that is gained, and no such row. -/
structure Lacks (t : Table) (gains : List Gain) : Prop where
  columns : ∀ c ∈ Gain.columns gains, c.id ∉ t.columns.map (·.id)
  rows : ∀ id ∈ Gain.rows gains, id ∉ t.rows.map (·.id)

theorem Lacks.of_isPrefix {t : Table} {gains more : List Gain} (h : t.Lacks more)
    (hp : gains <+: more) : t.Lacks gains where
  columns c hc := h.columns c ((hp.filterMap _).subset hc)
  rows id hid := h.rows id ((hp.filterMap _).subset hid)

/-- Gains whose columns have ids of their own leave all else as it is. -/
theorem grown_withGains {t : Table} {gains : List Gain}
    (h : ((t.withGains gains).columns.map (·.id)).Nodup) : t.Grown gains (t.withGains gains) := by
  induction gains using List.reverseRecOn with
  | nil => exact .refl t
  | append_singleton gains g ih =>
    rw [withGains_concat, Gain.addTo_columns, List.map_append, List.nodup_append] at h
    obtain ⟨hd, -, hnew⟩ := h
    rw [withGains_concat]
    cases g with
    | column id name seeds =>
      refine (ih hd).column (fun c hc => ?_) name seeds
      exact hnew c.id (List.mem_map_of_mem hc) id (List.mem_singleton_self id)
    | row id values => exact (ih hd).row hd id values

/-- The ids stay distinct just if the table lacks those of its gains. -/
theorem DistinctIds.withGains_iff {t : Table} (h : t.DistinctIds) {gains : List Gain}
    (hd : (gains.map Gain.id).Nodup) : (t.withGains gains).DistinctIds ↔ t.Lacks gains := by
  constructor
  · rintro ⟨hcolumns, hrows⟩
    rw [withGains_columns, List.map_append, List.nodup_append] at hcolumns
    rw [withGains_rowIds, List.nodup_append] at hrows
    refine ⟨fun c hc hmem => ?_, fun id hid hmem => hrows.2.2 id hmem id hid rfl⟩
    exact hcolumns.2.2 c.id hmem c.id (List.mem_map_of_mem hc) rfl
  · rintro ⟨hcolumns, hrows⟩
    constructor
    · rw [withGains_columns, List.map_append, List.nodup_append]
      refine ⟨h.columns, hd.sublist (Gain.columns_sublist gains), ?_⟩
      rintro old hold new hnew rfl
      obtain ⟨c, hc, rfl⟩ := List.mem_map.1 hnew
      exact hcolumns c hc hold
    · rw [withGains_rowIds, List.nodup_append]
      refine ⟨h.rows, hd.sublist (Gain.rows_sublist gains), ?_⟩
      rintro old hold new hnew rfl
      exact hrows old hnew hold

/-- What the second table shows of the first: its columns in their places, and its rows in theirs,
    with the values that they had under these columns. -/
structure KeptBy (t u : Table) : Prop where
  columns : t.columns <+: u.columns
  rows : ∀ (p : Nat) (r : Row), t.rows[p]? = some r →
    ∃ s, u.rows[p]? = some s ∧ s.id = r.id ∧ ∀ c ∈ t.columns, s.cell c.id = r.cell c.id

theorem Grown.keptBy {t u : Table} {gains : List Gain} (h : t.Grown gains u) : t.KeptBy u where
  columns := ⟨Gain.columns gains, h.columns_eq.symm⟩
  rows p r hr := by
    have hid : (u.rows.map (·.id))[p]? = some r.id := by
      have hlt : p < (t.rows.map (·.id)).length := by
        rw [List.length_map]
        exact (List.getElem?_eq_some_iff.1 hr).1
      rw [h.rowIds_eq, List.getElem?_append_left hlt, List.getElem?_map, hr]
      rfl
    rw [List.getElem?_map] at hid
    obtain ⟨s, hs, hid⟩ := Option.map_eq_some_iff.1 hid
    exact ⟨s, hs, hid, h.old p r s hr hs⟩

end Table

namespace Frame

/-! ## Gains of actions -/

variable (ids : IdSupply) (tables : List Table)

/-- Actions behind others bring gains behind theirs. -/
theorem gains_isPrefix {xs ys : List Action} (h : xs <+: ys) (i : Nat) :
    gains ids tables xs i <+: gains ids tables ys i := by
  obtain ⟨zs, rfl⟩ := h
  unfold gains effective
  rw [List.filter_append, List.zipIdx_append, List.filterMap_append]
  exact List.prefix_append _ _

/-- The ids of gains are taken from those of all effective actions, in their order. -/
theorem ids_gains_sublist (actions : List Action) (i : Nat) :
    ((gains ids tables actions i).map Gain.id).Sublist
      ((List.range (effective tables actions).length).map ids) := by
  induction actions using List.reverseRecOn with
  | nil => exact .slnil
  | append_singleton actions a ih =>
    cases ht : a.target? tables with
    | none =>
      rw [effective_concat_of_none ht, gains_concat_of_ne (by simp [ht])]
      exact ih
    | some j =>
      rw [effective_concat_of_some ht, List.length_append, List.length_singleton, List.range_succ,
        List.map_append]
      by_cases hij : j = i
      · subst hij
        obtain ⟨g, hg, hid, -⟩ :=
          Action.apply_of_target?_eq_some ht ids (effective tables actions).length
        rw [gains_concat_of_some ht hg, List.map_append, List.map_singleton, hid]
        exact ih.append (List.Sublist.refl _)
      · rw [gains_concat_of_ne (by simp [ht, hij])]
        exact ih.trans (List.sublist_append_left _ _)

variable {ids tables}

theorem nodup_ids_gains (hinj : Function.Injective ids) (actions : List Action) (i : Nat) :
    ((gains ids tables actions i).map Gain.id).Nodup :=
  (List.nodup_range.map hinj).sublist (ids_gains_sublist ids tables actions i)

/-! ## Sound frames -/

/-- In every frame the ids in each table are distinct, and what a frame shows is kept by all later
    ones. -/
structure Sound (frames : List Frame) : Prop where
  distinct : ∀ f ∈ frames, ∀ t ∈ f.tables, t.DistinctIds
  kept : ∀ (k m : Nat) (f f' : Frame), k ≤ m → frames[k]? = some f → frames[m]? = some f' →
    ∀ (i : Nat) (t u : Table), f.tables[i]? = some t → f'.tables[i]? = some u → t.KeptBy u

theorem exists_withGains {actions : List Action} {k : Nat} {f : Frame}
    (h : (sequence ids tables actions)[k]? = some f) {i : Nat} {u : Table}
    (hu : f.tables[i]? = some u) :
    ∃ t, tables[i]? = some t ∧ u = t.withGains (gains ids tables (actions.take k) i) := by
  rw [tables_eq_grown h, getElem?_grown] at hu
  obtain ⟨t, ht, rfl⟩ := Option.map_eq_some_iff.1 hu
  exact ⟨t, ht, rfl⟩

/-- Frames whose ids are counted up are sound if and only if no new column or row gets an id that
    its table has for a column or a row already. -/
theorem sound_iff (hd : ∀ t ∈ tables, t.DistinctIds) (name : String) (actions : List Action) :
    Sound (sequence (.counting name) tables actions) ↔
      ∀ (i : Nat) (t : Table), tables[i]? = some t →
        t.Lacks (gains (.counting name) tables actions i) := by
  have hgains : ∀ xs i, ((gains (.counting name) tables xs i).map Gain.id).Nodup :=
    nodup_ids_gains (IdSupply.counting_injective name)
  constructor
  · intro h i t ht
    -- the last frame shows all gains
    have hlast : actions.length < (sequence (.counting name) tables actions).length := by simp
    have hf := List.getElem?_eq_getElem hlast
    have hu := getElem?_grown (.counting name) tables (actions.take actions.length) i
    rw [ht, Option.map_some, ← tables_eq_grown hf, List.take_length] at hu
    have hdistinct := h.distinct _ (List.mem_of_getElem? hf) _ (List.mem_of_getElem? hu)
    exact ((hd t (List.mem_of_getElem? ht)).withGains_iff (hgains actions i)).1 hdistinct
  · intro h
    have hdistinct : ∀ {k : Nat} {f : Frame} {i : Nat} {u : Table},
        (sequence (.counting name) tables actions)[k]? = some f → f.tables[i]? = some u →
          u.DistinctIds := by
      intro k f i u hf hu
      obtain ⟨t, ht, rfl⟩ := exists_withGains hf hu
      refine ((hd t (List.mem_of_getElem? ht)).withGains_iff (hgains _ i)).2 ?_
      exact (h i t ht).of_isPrefix (gains_isPrefix _ _ (List.take_prefix k actions) i)
    constructor
    · intro f hf u hu
      obtain ⟨k, hk⟩ := List.mem_iff_getElem?.1 hf
      obtain ⟨i, hi⟩ := List.mem_iff_getElem?.1 hu
      exact hdistinct hk hi
    · intro k m f f' hkm hk hm i u u' hu hu'
      have hcolumns := (hdistinct hm hu').columns
      obtain ⟨t, ht, rfl⟩ := exists_withGains hk hu
      obtain ⟨t', ht', rfl⟩ := exists_withGains hm hu'
      cases ht.symm.trans ht'
      obtain ⟨more, hmore⟩ := gains_isPrefix (.counting name) tables
        (List.take_prefix_take_left (l := actions) hkm) i
      rw [← hmore, Table.withGains_append] at hcolumns ⊢
      exact (Table.grown_withGains hcolumns).keptBy

/-- A table in JSON with ids such as are counted up. -/
def numbered : List Char :=
  ("[\x7b\"id\": \"t\", \"name\": \"T\", "
    ++ "\"columns\": [\x7b\"id\": \"new-1\", \"name\": \"C\"\x7d], "
    ++ "\"rows\": [\x7b\"id\": \"new-2\", \"cells\": \x7b\"new-1\": \"x\"\x7d\x7d]\x7d]").toList

/-- This table. -/
def taken : Table :=
  ⟨"t", "T", [⟨"new-1", "C"⟩], [⟨"new-2", [("new-1", "x")]⟩]⟩

theorem load_numbered : Tables.load numbered = .ok [taken] := by decide +kernel

theorem distinctIds_taken : ∀ t ∈ [taken], t.DistinctIds := by
  intro t ht
  cases List.mem_singleton.1 ht
  exact ⟨by decide, by decide⟩

theorem sound_iff_numbered :
    Tables.load numbered = .ok [taken] ∧ (∀ t ∈ [taken], t.DistinctIds) ∧
      ∃ compiled,
        Script.compile [taken]
          "add in table 'T' row [\x7b'y'\x7d]; add in table 'T' column 'D'".toList = .ok compiled ∧
        compiled.actions.length = 2 ∧
        Sound (sequence (.counting "new") [taken] compiled.actions) := by
  have hcompile : (Script.compile [taken]
      "add in table 'T' row [\x7b'y'\x7d]; add in table 'T' column 'D'".toList).map
        Script.Compiled.actions = .ok [.addRow "t" ["y"], .addColumn "t" "D" none] := by
    decide +kernel
  obtain ⟨compiled, hc, hactions⟩ := exists_of_map_eq_ok hcompile
  refine ⟨load_numbered, distinctIds_taken, compiled, hc, by rw [hactions]; rfl, ?_⟩
  rw [hactions, sound_iff distinctIds_taken]
  intro i t ht
  cases i with
  | succ i => cases ht
  | zero =>
    -- the row is given the id of the column, and the column that of the row
    cases ht
    exact ⟨by decide, by decide⟩

/-- A column is given the id of another. -/
theorem not_sound_numbered :
    Tables.load numbered = .ok [taken] ∧ (∀ t ∈ [taken], t.DistinctIds) ∧
      ∃ compiled, Script.compile [taken] "add in table 'T' column 'D'".toList = .ok compiled ∧
        ¬ Sound (sequence (.counting "new") [taken] compiled.actions) := by
  have hcompile : (Script.compile [taken] "add in table 'T' column 'D'".toList).map
      Script.Compiled.actions = .ok [.addColumn "t" "D" none] := by
    decide +kernel
  obtain ⟨compiled, hc, hactions⟩ := exists_of_map_eq_ok hcompile
  refine ⟨load_numbered, distinctIds_taken, compiled, hc, ?_⟩
  rw [hactions]
  intro h
  have hcolumns := (h.distinct _ (List.mem_cons_of_mem _ (List.mem_cons_self ..)) _
    (List.mem_cons_self ..)).columns
  exact absurd hcolumns (by decide)

end Frame

end Storyboard
