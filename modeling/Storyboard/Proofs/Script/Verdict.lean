-- SUMMARY: Where the verdicts on a script come from, and what is certain of the actions that are kept.
import Mathlib.Data.List.Nodup
import Storyboard.Proofs.Except
import Storyboard.Proofs.Script.Joining

/-!
# Verdicts

The text of a command has one of three fates: it is no command, or one that cannot be
resolved, or it is kept (`interpret_cases`). All that a script adds to this is that no
column is added twice, so that the verdicts on a script are of the same three kinds
(`cases_of_mem_verdicts`) and its actions add different columns (`nodup_added`). The
ids in an action that is kept are those of one table of the collection and of its rows
and columns, and the name of a new column is not one of the table's (`Action.Suits`,
`suits_of_compile`).
-/

namespace Storyboard

/-! ## Actions that suit a table -/

/-- What the highlight names is in the table. -/
structure Highlight.LiesIn (h : Highlight) (t : Table) : Prop where
  table : h.table = t.id
  column : ∀ id, h.column = some id → id ∈ t.columns.map (·.id)
  rows : ∀ ids, h.rows = some ids → ∀ id ∈ ids, id ∈ t.rows.map (·.id)

/-- The column that an action adds, as a table id with a name. -/
def Action.addedColumn? : Action → Option (CodePoints × CodePoints)
  | addColumn table name _ => some (table, name)
  | _ => none

/-- The action is on the table: a highlight lies in it. -/
def Action.IsOn (t : Table) : Action → Prop
  | highlight h => h.LiesIn t
  | addColumn table _ _ => table = t.id
  | addRow table _ => table = t.id

/-- The action is on the table, which has no column of the name of a new one. -/
structure Action.Suits (t : Table) (a : Action) : Prop where
  isOn : a.IsOn t
  isNew : ∀ p, a.addedColumn? = some p → p.2 ∉ t.columns.map (·.name)

/-- An action that adds no column suits the table that it is on. -/
theorem Action.IsOn.suits {t : Table} {a : Action} (h : a.IsOn t) (hnone : a.addedColumn? = none) :
    a.Suits t := by
  refine ⟨h, fun p hp => ?_⟩
  rw [hnone] at hp
  cases hp

/-- A row at a position is a row of the table. -/
theorem Table.rowAt?_mem {t : Table} {position : Int} {r : Row} (h : t.rowAt? position = some r) :
    r ∈ t.rows := by
  unfold Table.rowAt? at h
  split at h
  next => exact List.mem_of_getElem? h
  next => cases h

namespace Script

/-! ## Resolving -/

theorem resolveRows_suits (t : Table) (rows : List Int) :
    (resolveRows t rows).action.Suits t := by
  refine Action.IsOn.suits ⟨rfl, ?_, ?_⟩ rfl
  · intro id h
    cases h
  · intro ids h id hid
    cases h
    obtain ⟨r, hr, rfl⟩ := List.mem_map.1 hid
    obtain ⟨n, -, hn⟩ := List.mem_filterMap.1 hr
    exact List.mem_map_of_mem (Table.rowAt?_mem hn)

theorem resolveColumn_suits {t : Table} {name : String} {row : Option Int} {r : Resolved}
    (h : resolveColumn t name row = .ok r) : r.action.Suits t := by
  unfold resolveColumn at h
  split at h
  next => cases h
  next c hc =>
    cases h
    refine Action.IsOn.suits ⟨rfl, ?_, ?_⟩ rfl
    · intro id hid
      cases hid
      exact List.mem_map_of_mem (Table.column?_mem hc)
    · intro ids hids id hid
      simp only [Option.map_eq_some_iff, Option.bind_eq_some_iff] at hids
      obtain ⟨r, ⟨n, -, hn⟩, rfl⟩ := hids
      cases List.mem_singleton.1 hid
      exact List.mem_map_of_mem (Table.rowAt?_mem hn)

theorem resolveAddColumn_suits {t : Table} {name : String} {seeds : Option (List CellSeed)}
    {r : Resolved} (h : resolveAddColumn t name seeds = .ok r) : r.action.Suits t := by
  unfold resolveAddColumn at h
  split at h
  next => cases h
  next hnone =>
    cases h
    refine ⟨rfl, ?_⟩
    rw [Bool.not_eq_true, Option.isSome_eq_false_iff, Option.isNone_iff_eq_none,
      Table.column?_eq_none] at hnone
    intro p hp hmem
    cases hp
    obtain ⟨c, hc, hname⟩ := List.mem_map.1 hmem
    exact hnone c hc hname

/-- A new row has its values in order, with empty cells behind them, or under the columns that they
    name. -/
theorem resolveAddRow_cases {t : Table} {entries : List RowEntry} {r : Resolved}
    (h : resolveAddRow t entries = .ok r) :
    (∃ missing, r.action = .addRow t.id
        ((entries.map fun e => CodePoints.ofString e.value).take t.columns.length ++
          List.replicate missing [])) ∨
      ∃ named values, namedValues t named [] = .ok values ∧
        r.action = .addRow t.id (t.columns.map fun c => (values.get? c.id).getD []) := by
  unfold resolveAddRow at h
  simp only at h
  split at h
  next =>
    cases h
    exact .inl ⟨_, rfl⟩
  next =>
    split at h
    next => cases h
    next =>
      obtain ⟨values, hvalues, h⟩ := bind_eq_ok h
      cases h
      exact .inr ⟨_, values, hvalues, rfl⟩

theorem resolveAddRow_action {t : Table} {entries : List RowEntry} {r : Resolved}
    (h : resolveAddRow t entries = .ok r) : ∃ values, r.action = .addRow t.id values := by
  obtain ⟨missing, haction⟩ | ⟨named, values, -, haction⟩ := resolveAddRow_cases h
  · exact ⟨_, haction⟩
  · exact ⟨_, haction⟩

theorem resolveAddRow_suits {t : Table} {entries : List RowEntry} {r : Resolved}
    (h : resolveAddRow t entries = .ok r) : r.action.Suits t := by
  obtain ⟨values, haction⟩ := resolveAddRow_action h
  rw [haction]
  exact Action.IsOn.suits rfl rfl

theorem Request.resolve_suits {t : Table} {q : Request} {r : Resolved}
    (h : q.resolve t = .ok r) : r.action.Suits t := by
  cases q with
  | highlightRows rows =>
    cases h
    exact resolveRows_suits t rows
  | highlightColumn column row => exact resolveColumn_suits h
  | addColumn column seeds => exact resolveAddColumn_suits h
  | addRow entries => exact resolveAddRow_suits h

/-- A command that is resolved is a request on the first table of its name. -/
theorem Command.exists_table {tables : List Table} {c : Command} {r : Resolved}
    (h : c.resolve tables = .ok r) :
    ∃ t, Tables.named? tables c.table = some t ∧ c.request.resolve t = .ok r := by
  obtain ⟨t, ht, h⟩ := bind_eq_ok h
  unfold findTable at ht
  split at ht
  next => cases ht
  next hnamed =>
    cases ht
    exact ⟨t, hnamed, h⟩

/-- What a command comes down to suits a table of the collection. -/
theorem Command.resolve_suits {tables : List Table} {c : Command} {r : Resolved}
    (h : c.resolve tables = .ok r) : ∃ t ∈ tables, r.action.Suits t := by
  obtain ⟨t, hnamed, h⟩ := exists_table h
  exact ⟨t, Tables.named?_mem hnamed, Request.resolve_suits h⟩

/-! ## Outcomes -/

/-- The fates of the text of a command. -/
theorem interpret_cases {tables : List Table} {text : List Char} {o : Outcome}
    (h : interpret tables text = .ok o) :
    (∃ f position, parse text = .error (.fault f) ∧ faultPosition f = .ok position ∧
      o = .rejected (.malformed text f) position) ∨
    (∃ c cause, parse text = .ok c ∧ c.resolve tables = .error cause ∧
      o = .rejected cause none) ∨
    (∃ c r, parse text = .ok c ∧ c.resolve tables = .ok r ∧ o = .kept r) := by
  unfold interpret at h
  split at h
  next => cases h
  next f hp =>
    obtain ⟨position, hf, h⟩ := bind_eq_ok h
    cases h
    exact .inl ⟨f, position, hp, hf, rfl⟩
  next c hp =>
    split at h
    next cause hr =>
      cases h
      exact .inr (.inl ⟨c, cause, hp, hr, rfl⟩)
    next r hr =>
      cases h
      exact .inr (.inr ⟨c, r, hp, hr, rfl⟩)

/-- Among other added columns an outcome is what it is alone, or a rejection at no position. -/
theorem Outcome.amid_cases (added : AddedColumns) (o : Outcome) :
    o.amid added = o ∨ ∃ name, o.amid added = .rejected (.columnAdded name) none := by
  unfold Outcome.amid
  split
  next table name _ =>
    split
    next => exact .inr ⟨name, rfl⟩
    next => exact .inl rfl
  next => exact .inl rfl

/-- No outcome adds a column that has been added before. -/
theorem Outcome.not_mem_of_amid {added : AddedColumns} {o : Outcome}
    {p : CodePoints × CodePoints} (h : (o.amid added).addedColumn? = some p) : p ∉ added := by
  unfold Outcome.amid at h
  split at h
  next table name ho =>
    split at h
    next => cases h
    next hnot =>
      rw [ho] at h
      cases h
      exact hnot
  next ho =>
    rw [ho] at h
    cases h

/-! ## Verdicts -/

/-- A verdict is on a command, and is what its text comes to among other added columns. -/
theorem exists_of_mem_judge {tables : List Table} {added : AddedColumns} {cmds : List CommandText}
    {v : Verdict} (h : v ∈ (judge tables added cmds).1) :
    v.command ∈ cmds ∧
      ∃ o before, interpret tables v.command.text = .ok o ∧ v.outcome = o.amid before := by
  induction cmds generalizing added with
  | nil => cases h
  | cons c rest ih =>
    cases hc : interpret tables c.text with
    | error e =>
      rw [judge_cons_of_error hc] at h
      cases h
    | ok o =>
      rw [judge_cons_of_ok hc] at h
      rcases List.mem_cons.1 h with rfl | h
      · exact ⟨List.mem_cons_self .., o, added, hc, rfl⟩
      · obtain ⟨hmem, hv⟩ := ih h
        exact ⟨List.mem_cons_of_mem c hmem, hv⟩

/-- A verdict on a compiled script is on one of its commands, which is rejected for a fault, or for
    a cause that has no position, or kept. -/
theorem cases_of_mem_verdicts {tables : List Table} {s : List Char} {compiled : Compiled}
    {v : Verdict} (hc : compile tables s = .ok compiled) (h : v ∈ compiled.verdicts) :
    v.command ∈ split s ∧
      ((∃ f position, parse v.command.text = .error (.fault f) ∧ faultPosition f = .ok position ∧
          v.outcome = .rejected (.malformed v.command.text f) position) ∨
        (∃ cause, v.outcome = .rejected cause none) ∨
        ∃ c r, parse v.command.text = .ok c ∧ c.resolve tables = .ok r ∧ v.outcome = .kept r) := by
  rw [verdicts_of_compile hc] at h
  obtain ⟨hmem, o, before, ho, hv⟩ := exists_of_mem_judge h
  refine ⟨hmem, ?_⟩
  rcases o.amid_cases before with hamid | ⟨name, hamid⟩
  · rw [hamid] at hv
    obtain ⟨f, position, hp, hposition, rfl⟩ | ⟨c, cause, -, -, rfl⟩ | ⟨c, r, hp, hr, rfl⟩ :=
      interpret_cases ho
    · exact .inl ⟨f, position, hp, hposition, hv⟩
    · exact .inr (.inl ⟨cause, hv⟩)
    · exact .inr (.inr ⟨c, r, hp, hr, hv⟩)
  · exact .inr (.inl ⟨_, hv.trans hamid⟩)

/-- The commands that are kept add different columns, none of which has been added before. -/
theorem nodup_judge (tables : List Table) (added : AddedColumns) (cmds : List CommandText) :
    ((judge tables added cmds).1.filterMap (·.outcome.addedColumn?)).Nodup ∧
      ∀ p ∈ (judge tables added cmds).1.filterMap (·.outcome.addedColumn?), p ∉ added := by
  induction cmds generalizing added with
  | nil => simp [judge]
  | cons c rest ih =>
    cases hc : interpret tables c.text with
    | error e => simp [judge_cons_of_error hc]
    | ok o =>
      rw [judge_cons_of_ok hc]
      obtain ⟨hnodup, hnew⟩ := ih ((o.amid added).addedColumn?.toList ++ added)
      cases ho : (o.amid added).addedColumn? with
      | none =>
        simp only [ho, Option.toList_none, List.nil_append] at hnodup hnew
        rw [List.filterMap_cons_none (by exact ho), Option.toList_none, List.nil_append]
        exact ⟨hnodup, hnew⟩
      | some p =>
        simp only [ho, Option.toList_some, List.singleton_append] at hnodup hnew
        rw [List.filterMap_cons_some (by exact ho), Option.toList_some, List.singleton_append]
        refine ⟨List.nodup_cons.2 ⟨fun hp => hnew p hp (List.mem_cons_self ..), hnodup⟩, ?_⟩
        intro q hq
        rcases List.mem_cons.1 hq with rfl | hq
        · exact Outcome.not_mem_of_amid ho
        · exact fun hmem => hnew q hq (List.mem_cons_of_mem p hmem)

/-! ## Actions of compiled scripts -/

theorem Verdict.addedColumn?_eq (v : Verdict) :
    v.action?.bind Action.addedColumn? = v.outcome.addedColumn? := by
  obtain ⟨command, outcome⟩ := v
  cases outcome with
  | rejected cause position => rfl
  | kept r =>
    obtain ⟨action, cautions⟩ := r
    cases action <;> rfl

/-- The actions of a compiled script add different columns. -/
theorem nodup_added {tables : List Table} {s : List Char} {compiled : Compiled}
    (h : compile tables s = .ok compiled) :
    (compiled.actions.filterMap Action.addedColumn?).Nodup := by
  have hadded : compiled.actions.filterMap Action.addedColumn? =
      compiled.verdicts.filterMap (·.outcome.addedColumn?) := by
    unfold Compiled.actions
    rw [List.filterMap_filterMap]
    exact congrArg (List.filterMap · _) (funext Verdict.addedColumn?_eq)
  rw [hadded, verdicts_of_compile h]
  exact (nodup_judge tables [] (split s)).1

/-- Every action of a compiled script is what a command comes down to. -/
theorem exists_resolve_of_mem_actions {tables : List Table} {s : List Char} {compiled : Compiled}
    (h : compile tables s = .ok compiled) {a : Action} (ha : a ∈ compiled.actions) :
    ∃ (c : Command) (r : Resolved), c.resolve tables = .ok r ∧ r.action = a := by
  obtain ⟨v, hv, hva⟩ := List.mem_filterMap.1 ha
  unfold Verdict.action? at hva
  obtain ⟨-, ⟨f, position, -, -, ho⟩ | ⟨cause, ho⟩ | ⟨c, r, -, hr, ho⟩⟩ :=
    cases_of_mem_verdicts h hv
  · rw [ho] at hva
    cases hva
  · rw [ho] at hva
    cases hva
  · rw [ho] at hva
    cases hva
    exact ⟨c, r, hr, rfl⟩

/-- Every action of a compiled script suits a table of the collection. -/
theorem suits_of_compile {tables : List Table} {s : List Char} {compiled : Compiled}
    (h : compile tables s = .ok compiled) {a : Action} (ha : a ∈ compiled.actions) :
    ∃ t ∈ tables, a.Suits t := by
  obtain ⟨c, r, hr, rfl⟩ := exists_resolve_of_mem_actions h ha
  exact Command.resolve_suits hr

end Script

end Storyboard
