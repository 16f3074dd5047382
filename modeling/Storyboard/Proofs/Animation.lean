-- SUMMARY: What holds in every frame of a compiled script: the names of columns stay distinct, and what is highlighted is there.
import Storyboard.Proofs.Growth
import Storyboard.Proofs.Script.Verdict
import Storyboard.Proofs.Table.Collection

/-!
# Frames of compiled scripts

What a script is compiled to is checked against the tables as they are before it. Two
things nevertheless hold in each frame, whatever has been added by then. No table has
two columns of one name (`names_of_compile`): the resolver compares a new name with the
columns at the start, the compiler with the columns added before, and the columns of a
frame are just these (`names_gains`). And no highlight is of something that is not in
the frame (`highlight_liesIn`): what was there stays, and what is new is in the table
to which it is added (`apply_liesIn`).
-/

namespace Storyboard

/-! ## Places -/

namespace Tables

variable {tables : List Table}

/-- The table at the place of an id has this id. -/
theorem id_of_indexOf? {i : Nat} {id : CodePoints} {t : Table}
    (h : indexOf? tables id = some i) (ht : tables[i]? = some t) : t.id = id := by
  obtain ⟨hlt, hid, -⟩ := List.findIdx?_eq_some_iff_getElem.1 h
  rw [List.getElem?_eq_getElem hlt] at ht
  cases ht
  exact eq_of_beq hid

/-- Different ids have different places. -/
theorem eq_of_indexOf? {i : Nat} {a b : CodePoints} (ha : indexOf? tables a = some i)
    (hb : indexOf? tables b = some i) : a = b := by
  have ht := List.getElem?_eq_getElem (indexOf?_lt ha)
  exact (id_of_indexOf? ha ht).symm.trans (id_of_indexOf? hb ht)

/-- The first table with an id has a place. -/
theorem exists_indexOf? {t : Table} (ht : t ∈ tables) :
    ∃ i u, indexOf? tables t.id = some i ∧ tables[i]? = some u ∧ u.id = t.id := by
  have hsome : (indexOf? tables t.id).isSome := by
    unfold indexOf?
    rw [List.findIdx?_isSome, List.any_eq_true]
    exact ⟨t, ht, beq_self_eq_true t.id⟩
  obtain ⟨i, hi⟩ := Option.isSome_iff_exists.1 hsome
  have hu := List.getElem?_eq_getElem (indexOf?_lt hi)
  exact ⟨i, _, hi, hu, id_of_indexOf? hi hu⟩

end Tables

/-! ## Names -/

/-- The name of the column that an action adds to the table at a place. -/
def Action.nameAt? (tables : List Table) (i : Nat) (a : Action) : Option CodePoints :=
  a.addedColumn?.bind fun p => if Tables.indexOf? tables p.1 = some i then some p.2 else none

namespace Action

variable {tables : List Table} {i : Nat} {a : Action}

/-- An action on a table brings a gain. -/
theorem exists_gain (h : a.target? tables = some i) (id : CodePoints) :
    ∃ g, Gain.ofAction? id a = some g := by
  cases a with
  | highlight hl => cases h
  | addColumn table name seeds => exact ⟨_, rfl⟩
  | addRow table values => exact ⟨_, rfl⟩

/-- The gain of an action on a table has the name that the action adds there. -/
theorem names_gain (h : a.target? tables = some i) {id : CodePoints} {g : Gain}
    (hg : Gain.ofAction? id a = some g) :
    (Gain.columns [g]).map (·.name) = (a.nameAt? tables i).toList := by
  cases a with
  | highlight hl => cases h
  | addColumn table name seeds =>
    cases hg
    have hname : (addColumn table name seeds).nameAt? tables i = some name := if_pos h
    rw [hname]
    rfl
  | addRow table values =>
    cases hg
    rfl

/-- An action that is not on a table adds no name there. -/
theorem nameAt?_of_ne (h : a.target? tables ≠ some i) : a.nameAt? tables i = none := by
  cases a with
  | highlight hl => rfl
  | addColumn table name seeds => exact if_neg h
  | addRow table values => rfl

end Action

namespace Frame

variable {tables : List Table} {actions : List Action}

/-- The columns that a table gains have the names that the actions on it give. -/
theorem names_gains (ids : IdSupply) (tables : List Table) (actions : List Action) (i : Nat) :
    (Gain.columns (gains ids tables actions i)).map (·.name) =
      actions.filterMap (Action.nameAt? tables i) := by
  induction actions using List.reverseRecOn with
  | nil => rfl
  | append_singleton actions a ih =>
    have hlast : [a].filterMap (Action.nameAt? tables i) = (a.nameAt? tables i).toList := by
      cases h : a.nameAt? tables i <;> simp [h]
    rw [List.filterMap_append, ← ih, hlast]
    by_cases ht : a.target? tables = some i
    · obtain ⟨g, hg⟩ := Action.exists_gain ht (ids (effective tables actions).length)
      rw [gains_concat_of_some ht hg, Gain.columns_append, List.map_append,
        Action.names_gain ht hg]
    · rw [gains_concat_of_ne ht, Action.nameAt?_of_ne ht]
      exact (List.append_nil _).symm

/-- Actions that add different columns give different names to those of one table. -/
theorem nodup_names_added (h : (actions.filterMap Action.addedColumn?).Nodup) (i : Nat) :
    (actions.filterMap (Action.nameAt? tables i)).Nodup := by
  unfold Action.nameAt?
  rw [← List.filterMap_filterMap]
  refine h.filterMap ?_
  rintro ⟨table, name⟩ ⟨table', name'⟩ n hn hn'
  simp only [Option.mem_def, Option.ite_none_right_eq_some, Option.some.injEq] at hn hn'
  obtain ⟨hi, rfl⟩ := hn
  obtain ⟨hi', rfl⟩ := hn'
  rw [Tables.eq_of_indexOf? hi hi']

/-- If the tables have different ids, a name that is added to one is new to it. -/
theorem name_not_mem (hids : (tables.map (·.id)).Nodup)
    (hsuits : ∀ a ∈ actions, ∃ t ∈ tables, a.Suits t) {i : Nat} {t : Table}
    (ht : tables[i]? = some t) {name : CodePoints}
    (hname : name ∈ actions.filterMap (Action.nameAt? tables i)) :
    name ∉ t.columns.map (·.name) := by
  obtain ⟨a, ha, han⟩ := List.mem_filterMap.1 hname
  obtain ⟨⟨table, n⟩, hp, hpn⟩ := Option.bind_eq_some_iff.1 han
  simp only [Option.ite_none_right_eq_some, Option.some.injEq] at hpn
  obtain ⟨hi, rfl⟩ := hpn
  obtain ⟨u, hu, hon, hnew⟩ := hsuits a ha
  have hid : u.id = t.id := by
    rw [Tables.id_of_indexOf? hi ht]
    cases a with
    | addColumn table name seeds =>
      cases hp
      exact hon.symm
    | highlight h => cases hp
    | addRow table values => cases hp
  have hut : u = t := List.inj_on_of_nodup_map hids hu (List.mem_of_getElem? ht) hid
  subst hut
  exact hnew _ hp

/-- Actions that suit the tables and add different columns leave the names distinct. -/
theorem nodup_names_grown (ids : IdSupply) (hids : (tables.map (·.id)).Nodup)
    (hnames : ∀ t ∈ tables, (t.columns.map (·.name)).Nodup)
    (hsuits : ∀ a ∈ actions, ∃ t ∈ tables, a.Suits t)
    (hadded : (actions.filterMap Action.addedColumn?).Nodup) :
    ∀ u ∈ grown ids tables actions, (u.columns.map (·.name)).Nodup := by
  intro u hu
  obtain ⟨i, hi⟩ := List.mem_iff_getElem?.1 hu
  rw [getElem?_grown] at hi
  obtain ⟨t, ht, rfl⟩ := Option.map_eq_some_iff.1 hi
  rw [Table.withGains_columns, List.map_append, names_gains, List.nodup_append]
  refine ⟨hnames t (List.mem_of_getElem? ht), nodup_names_added hadded i, ?_⟩
  intro old hold new hnew heq
  exact name_not_mem hids hsuits ht hnew (heq ▸ hold)

/-- The names of a collection with different ids stay distinct: in every frame of a script that
    compiles, the tables have the ids and names that they had, no table has two columns of one
    name, and if the collection could have been read from JSON, so can that of the frame. -/
theorem names_of_compile {script : List Char} {compiled : Script.Compiled}
    (hids : (tables.map (·.id)).Nodup) (hnames : ∀ t ∈ tables, (t.columns.map (·.name)).Nodup)
    (h : Script.compile tables script = .ok compiled) (ids : IdSupply) :
    ∀ f ∈ sequence ids tables compiled.actions,
      f.tables.map (fun t => (t.id, t.name)) = tables.map (fun t => (t.id, t.name)) ∧
        (∀ t ∈ f.tables, (t.columns.map (·.name)).Nodup) ∧
        ((∃ v, Tables.ofJson v = .ok tables) →
          Tables.ofJson (Tables.toJson f.tables) = .ok f.tables) := by
  intro f hf
  obtain ⟨k, hk⟩ := List.mem_iff_getElem?.1 hf
  rw [tables_eq_grown hk]
  have hlabels := labels_grown ids tables (compiled.actions.take k)
  have hnodup := nodup_names_grown ids hids hnames
    (fun a ha => Script.suits_of_compile h (List.mem_of_mem_take ha))
    ((Script.nodup_added h).sublist ((List.take_sublist k compiled.actions).filterMap _))
  refine ⟨hlabels, hnodup, ?_⟩
  rintro ⟨v, hv⟩
  obtain ⟨hfew, hdistinct, -⟩ := Tables.wellFormed_of_ofJson hv
  refine Tables.ofJson_toJson ⟨?_, ?_, hnodup⟩
  · rw [length_grown]
    exact hfew
  · have hkept := congrArg (List.map Prod.snd) hlabels
    rw [List.map_map, List.map_map] at hkept
    exact hkept ▸ hdistinct

/-- Two tables with a column of one name. -/
def shelves : List Table :=
  [⟨"t", "T", [⟨"c", "C"⟩], [⟨"r", [("c", "x")]⟩]⟩, ⟨"u", "U", [⟨"c", "C"⟩], [⟨"s", []⟩]⟩]

/-- A script that tries to add a column twice to one of the tables. -/
def crowded : List Char :=
  ("add in table 'T' column 'D'; add in table 'U' column 'D'; add in table 'T' column 'D'; "
    ++ "highlight in table 'T' column 'C' row 1").toList

theorem compile_crowded :
    ∃ compiled, Script.compile shelves crowded = .ok compiled ∧
      compiled.actions =
        [.addColumn "t" "D" none, .addColumn "u" "D" none,
          .highlight ⟨"t", some ["r"], some "c"⟩] := by
  have hactions : (Script.compile shelves crowded).map Script.Compiled.actions =
      .ok [.addColumn "t" "D" none, .addColumn "u" "D" none,
        .highlight ⟨"t", some ["r"], some "c"⟩] := by
    decide +kernel
  exact exists_of_map_eq_ok hactions

theorem names_of_compile_crowded :
    (shelves.map (·.id)).Nodup ∧ (∀ t ∈ shelves, (t.columns.map (·.name)).Nodup) ∧
      (∃ v, Tables.ofJson v = .ok shelves) ∧
      ∃ compiled, Script.compile shelves crowded = .ok compiled ∧
        compiled.actions.length = 3 ∧
        ∀ f ∈ sequence (.counting "new") shelves compiled.actions,
          f.tables.map (fun t => (t.id, t.name)) = shelves.map (fun t => (t.id, t.name)) ∧
            (∀ t ∈ f.tables, (t.columns.map (·.name)).Nodup) ∧
            Tables.ofJson (Tables.toJson f.tables) = .ok f.tables := by
  have hids : (shelves.map (·.id)).Nodup := by decide
  have hnames : ∀ t ∈ shelves, (t.columns.map (·.name)).Nodup := by decide
  have hread : ∃ v, Tables.ofJson v = .ok shelves :=
    ⟨_, Tables.ofJson_toJson ⟨by decide, by decide, hnames⟩⟩
  obtain ⟨compiled, hc, hactions⟩ := compile_crowded
  refine ⟨hids, hnames, hread, compiled, hc, by rw [hactions]; rfl, ?_⟩
  intro f hf
  obtain ⟨hlabels, hcolumns, hchecks⟩ := names_of_compile hids hnames hc (.counting "new") f hf
  exact ⟨hlabels, hcolumns, hchecks hread⟩

end Frame

/-! ## Highlights -/

/-- What lies in a table lies in it when it has grown. -/
theorem Highlight.LiesIn.withGains {h : Highlight} {t : Table} (hl : h.LiesIn t)
    (gains : List Gain) : h.LiesIn (t.withGains gains) where
  table := by rw [hl.table, Table.withGains_id]
  column id hid := by
    rw [Table.withGains_columns, List.map_append]
    exact List.mem_append_left _ (hl.column id hid)
  rows ids hids id hid := by
    rw [Table.withGains_rowIds]
    exact List.mem_append_left _ (hl.rows ids hids id hid)

theorem Action.IsOn.withGains {a : Action} {t : Table} (h : a.IsOn t) (gains : List Gain) :
    a.IsOn (t.withGains gains) := by
  cases a with
  | highlight hl => exact Highlight.LiesIn.withGains h gains
  | addColumn table name seeds => exact h.trans (Table.withGains_id t gains).symm
  | addRow table values => exact h.trans (Table.withGains_id t gains).symm

namespace Frame

variable {tables : List Table}

/-- An action on a table is on it when it has grown. -/
theorem isOn_grown {a : Action} {t : Table} (ht : t ∈ tables) (h : a.IsOn t) (ids : IdSupply)
    (actions : List Action) : ∃ u ∈ grown ids tables actions, a.IsOn u := by
  obtain ⟨i, hi⟩ := List.mem_iff_getElem?.1 ht
  refine ⟨t.withGains (gains ids tables actions i), ?_, h.withGains _⟩
  refine List.mem_of_getElem? (i := i) ?_
  rw [getElem?_grown, hi]
  rfl

/-- An action on one of the tables highlights what is in a table of its frame. -/
theorem apply_liesIn {a : Action} {t : Table} (ht : t ∈ tables) (h : a.IsOn t) (ids : IdSupply)
    (next : Nat) :
    ∃ u ∈ (a.apply ids next tables).frame.tables,
      (a.apply ids next tables).frame.highlight.LiesIn u := by
  cases a with
  | highlight hl => exact ⟨t, ht, h⟩
  | addColumn table name seeds =>
    cases h
    obtain ⟨i, u, hi, hu, hid⟩ := Tables.exists_indexOf? ht
    simp only [Action.apply, change, hi]
    refine ⟨u.appendColumn (ids next) name seeds, ?_, hid.symm, ?_, ?_⟩
    · refine List.mem_of_getElem? (i := i) ?_
      rw [List.getElem?_modify, hu]
      simp
    · intro id hnew
      cases hnew
      simp
    · intro rows hrows
      cases hrows
  | addRow table values =>
    cases h
    obtain ⟨i, u, hi, hu, hid⟩ := Tables.exists_indexOf? ht
    simp only [Action.apply, change, hi]
    refine ⟨u.appendRow (ids next) values, ?_, hid.symm, ?_, ?_⟩
    · refine List.mem_of_getElem? (i := i) ?_
      rw [List.getElem?_modify, hu]
      simp
    · intro id hnew
      cases hnew
    · intro rows hrows id hid
      cases hrows
      cases List.mem_singleton.1 hid
      simp

/-- No highlight is of something that is not there. The first frame of a compiled script has none,
    and what any other highlights is in one table of this frame. -/
theorem highlight_liesIn {script : List Char} {compiled : Script.Compiled}
    (h : Script.compile tables script = .ok compiled) (ids : IdSupply) :
    ∀ k f, (sequence ids tables compiled.actions)[k]? = some f →
      (k = 0 → f.highlight = .empty) ∧ (0 < k → ∃ t ∈ f.tables, f.highlight.LiesIn t) := by
  intro k f hk
  cases k with
  | zero =>
    cases hk
    exact ⟨fun _ => rfl, nofun⟩
  | succ k =>
    refine ⟨nofun, fun _ => ?_⟩
    have hlt : k < compiled.actions.length := by
      have := (List.getElem?_eq_some_iff.1 hk).1
      rw [length_sequence] at this
      omega
    have ha := List.getElem?_eq_getElem hlt
    rw [getElem?_sequence_succ ha, after_eq] at hk
    cases hk
    obtain ⟨t, ht, hsuits⟩ := Script.suits_of_compile h (List.mem_of_getElem? ha)
    obtain ⟨u, hu, hon⟩ := isOn_grown ht hsuits.isOn ids (compiled.actions.take k)
    exact apply_liesIn hu hon ids _

theorem highlight_liesIn_crowded :
    ∃ compiled, Script.compile shelves crowded = .ok compiled ∧
      compiled.actions.length = 3 ∧
      ∀ k f, (sequence (.counting "new") shelves compiled.actions)[k]? = some f →
        (k = 0 → f.highlight = .empty) ∧ (0 < k → ∃ t ∈ f.tables, f.highlight.LiesIn t) := by
  obtain ⟨compiled, hc, hactions⟩ := compile_crowded
  refine ⟨compiled, hc, ?_, highlight_liesIn hc (.counting "new")⟩
  rw [hactions]
  rfl

end Frame

end Storyboard
