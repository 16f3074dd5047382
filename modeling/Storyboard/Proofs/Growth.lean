-- SUMMARY: How the tables of a frame have grown, whatever the ids are: their columns and rows are the old ones and then the new ones.
import Storyboard.Proofs.Replay

/-!
# Growth

The tables after actions are those at the start, each with its gains one after the
other (`after_eq`). This needs nothing of the ids, not even that they differ, since
it leaves the cells aside. A table with gains has its id and its name as before, and
the new columns and rows stand behind the old ones (`withGains_columns`,
`withGains_rowIds`).
-/

namespace Storyboard

/-! ## Tables with gains -/

namespace Gain

variable (g : Gain) (t : Table)

@[simp]
theorem addTo_id : (g.addTo t).id = t.id := by
  cases g <;> rfl

@[simp]
theorem addTo_name : (g.addTo t).name = t.name := by
  cases g <;> rfl

theorem addTo_columns : (g.addTo t).columns = t.columns ++ columns [g] := by
  cases g with
  | column id name seeds => rfl
  | row id values => exact (List.append_nil _).symm

theorem addTo_rowIds : (g.addTo t).rows.map (·.id) = t.rows.map (·.id) ++ rows [g] := by
  cases g with
  | row id values => exact List.map_append
  | column id name seeds =>
    exact (Table.appendColumn_rowIds t id name seeds).trans (List.append_nil _).symm

end Gain

namespace Table

/-- The table with gains, one after the other. -/
def withGains (t : Table) (gains : List Gain) : Table :=
  gains.foldl Gain.addTo t

variable (t : Table) (gains : List Gain)

theorem withGains_append (more : List Gain) :
    t.withGains (gains ++ more) = (t.withGains gains).withGains more :=
  List.foldl_append

theorem withGains_concat (g : Gain) : t.withGains (gains ++ [g]) = g.addTo (t.withGains gains) :=
  withGains_append t gains [g]

@[simp]
theorem withGains_id : (t.withGains gains).id = t.id := by
  induction gains using List.reverseRecOn with
  | nil => rfl
  | append_singleton gains g ih => rw [withGains_concat, Gain.addTo_id, ih]

@[simp]
theorem withGains_name : (t.withGains gains).name = t.name := by
  induction gains using List.reverseRecOn with
  | nil => rfl
  | append_singleton gains g ih => rw [withGains_concat, Gain.addTo_name, ih]

theorem withGains_columns : (t.withGains gains).columns = t.columns ++ Gain.columns gains := by
  induction gains using List.reverseRecOn with
  | nil => exact (List.append_nil _).symm
  | append_singleton gains g ih =>
    rw [withGains_concat, Gain.addTo_columns, ih, Gain.columns_append, List.append_assoc]

theorem withGains_rowIds :
    (t.withGains gains).rows.map (·.id) = t.rows.map (·.id) ++ Gain.rows gains := by
  induction gains using List.reverseRecOn with
  | nil => exact (List.append_nil _).symm
  | append_singleton gains g ih =>
    rw [withGains_concat, Gain.addTo_rowIds, ih, Gain.rows_append, List.append_assoc]

end Table

/-! ## Frames -/

namespace Frame

/-- The tables with the gains that actions bring. -/
def grown (ids : IdSupply) (tables : List Table) (actions : List Action) : List Table :=
  tables.mapIdx fun i t => t.withGains (gains ids tables actions i)

variable (ids : IdSupply) (tables : List Table)

theorem getElem?_grown (actions : List Action) (i : Nat) :
    (grown ids tables actions)[i]? =
      tables[i]?.map fun t => t.withGains (gains ids tables actions i) :=
  List.getElem?_mapIdx

@[simp]
theorem length_grown (actions : List Action) :
    (grown ids tables actions).length = tables.length :=
  List.length_mapIdx

theorem grown_nil : grown ids tables [] = tables := by
  refine List.ext_getElem? fun i => ?_
  rw [getElem?_grown]
  exact Option.map_id'

/-- Growing changes no id and no name. -/
theorem labels_grown (actions : List Action) :
    (grown ids tables actions).map (fun t => (t.id, t.name)) =
      tables.map fun t => (t.id, t.name) := by
  refine List.ext_getElem? fun i => ?_
  simp only [List.getElem?_map, getElem?_grown, Option.map_map]
  exact congrArg (Option.map · _) (funext fun t => by simp)

theorem ids_grown (actions : List Action) :
    (grown ids tables actions).map (·.id) = tables.map (·.id) := by
  have h := congrArg (List.map Prod.fst) (labels_grown ids tables actions)
  rw [List.map_map, List.map_map] at h
  exact h

theorem names_grown (actions : List Action) :
    (grown ids tables actions).map (·.name) = tables.map (·.name) := by
  have h := congrArg (List.map Prod.snd) (labels_grown ids tables actions)
  rw [List.map_map, List.map_map] at h
  exact h

variable {tables}

/-- An action without a target brings no gain. -/
theorem grown_concat_of_none {a : Action} (h : a.target? tables = none) (actions : List Action) :
    grown ids tables (actions ++ [a]) = grown ids tables actions := by
  have hne : ∀ i, a.target? tables ≠ some i := by
    intro i hi
    rw [h] at hi
    cases hi
  unfold grown
  simp only [gains_concat_of_ne (hne _)]

/-- An action with a target brings one gain, to the table there. -/
theorem grown_concat_of_some {a : Action} {i : Nat} (h : a.target? tables = some i)
    {actions : List Action} {g : Gain}
    (hg : Gain.ofAction? (ids (effective tables actions).length) a = some g) :
    grown ids tables (actions ++ [a]) = (grown ids tables actions).modify i g.addTo := by
  refine List.ext_getElem? fun j => ?_
  rw [List.getElem?_modify, getElem?_grown, getElem?_grown]
  by_cases hij : i = j
  · subst hij
    rw [gains_concat_of_some h hg]
    simp only [Table.withGains_concat, if_true, Option.map_eq_map, Option.map_map]
    rfl
  · have hne : a.target? tables ≠ some j := by
      intro hj
      rw [h] at hj
      exact hij (Option.some.inj hj)
    rw [gains_concat_of_ne hne]
    simp [hij]

variable (tables)

/-- After actions, each effective one has taken an id and the tables have grown by them. -/
theorem after_eq (actions : List Action) :
    after ids 0 tables actions =
      ((effective tables actions).length, grown ids tables actions) := by
  induction actions using List.reverseRecOn with
  | nil => exact Prod.ext rfl (grown_nil ids tables).symm
  | append_singleton actions a ih =>
    rw [after_concat, ih]
    have htarget := Action.target?_congr (ids_grown ids tables actions) a
    cases ht : a.target? tables with
    | none =>
      rw [ht] at htarget
      obtain ⟨hnext, htables⟩ :=
        Action.apply_of_target?_eq_none htarget ids (effective tables actions).length
      rw [effective_concat_of_none ht, grown_concat_of_none ids ht]
      exact Prod.ext hnext htables
    | some i =>
      rw [ht] at htarget
      obtain ⟨g, hg, -, hnext, htables⟩ :=
        Action.apply_of_target?_eq_some htarget ids (effective tables actions).length
      rw [effective_concat_of_some ht, grown_concat_of_some ids ht hg, List.length_append]
      exact Prod.ext hnext htables

variable {ids tables}

/-- A frame shows the tables as they have grown by the actions before it. -/
theorem tables_eq_grown {actions : List Action} {k : Nat} {f : Frame}
    (h : (sequence ids tables actions)[k]? = some f) :
    f.tables = grown ids tables (actions.take k) := by
  rw [tables_eq_after h, after_eq]

end Frame

end Storyboard
