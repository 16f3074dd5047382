-- SUMMARY: When the table that a command names is the one that its frame changes.
import Storyboard.Proofs.Animation

/-!
# The table that changes

A command names its table, but its action carries the id of that table, and replaying
changes the first table with the id. The two are the same table just if no table before
the named one has its id (`follows_iff`). Reading a collection makes sure that names are
distinct, and takes no heed of ids. If the ids are distinct as well, the frame of a
command shows at the place of the named table what the action makes of it
(`exists_frame_of_kept`).
-/

namespace Storyboard

/-! ## Names and ids -/

namespace Tables

variable {tables : List Table}

theorem withId?_of_indexOf? {i : Nat} {id : CodePoints} {t : Table}
    (h : indexOf? tables id = some i) (ht : tables[i]? = some t) : withId? tables id = some t := by
  unfold indexOf? at h
  unfold withId?
  rw [List.find?_eq_some_iff_getElem]
  obtain ⟨hlt, hid, hfirst⟩ := List.findIdx?_eq_some_iff_getElem.1 h
  rw [List.getElem?_eq_getElem hlt] at ht
  cases ht
  exact ⟨hid, i, hlt, rfl, fun j hj => by simpa using hfirst j hj⟩

end Tables

/-- Of entries with different keys, two with one key are at one place. -/
theorem eq_of_getElem?_of_nodup {α κ : Type} {key : α → κ} {xs : List α}
    (hd : (xs.map key).Nodup) {i j : Nat} {a b : α} (ha : xs[i]? = some a) (hb : xs[j]? = some b)
    (hk : key a = key b) : i = j := by
  have hi : i < (xs.map key).length := by
    rw [List.length_map]
    exact (List.getElem?_eq_some_iff.1 ha).1
  refine (List.getElem?_inj hi hd).1 ?_
  rw [List.getElem?_map, List.getElem?_map, ha, hb, Option.map_some, Option.map_some, hk]

/-! ## Rows by number -/

/-- The table has a row with the number. -/
def Table.HasRow (t : Table) (n : Int) : Prop :=
  1 ≤ n ∧ n ≤ t.rows.length

instance (t : Table) (n : Int) : Decidable (t.HasRow n) :=
  inferInstanceAs (Decidable (1 ≤ n ∧ n ≤ t.rows.length))

theorem Table.rowAt?_isSome_iff {t : Table} {n : Int} :
    (t.rowAt? (n - 1)).isSome ↔ t.HasRow n := by
  rw [rowAt?_isSome, HasRow]
  omega

/-! ## Actions on their tables -/

namespace Action

/-- What an action makes of its table, with an id for what is new. -/
def enacted (id : CodePoints) (t : Table) : Action → Table
  | highlight _ => t
  | addColumn _ name seeds => t.appendColumn id name seeds
  | addRow _ values => t.appendRow id values

/-- What the frame of an action highlights, with an id for what is new. -/
def emphasis (id : CodePoints) : Action → Highlight
  | highlight h => h
  | addColumn table _ _ => { table, rows := none, column := some id }
  | addRow table _ => { table, rows := some [id], column := none }

theorem IsOn.table_eq {a : Action} {t : Table} (h : a.IsOn t) : a.table = t.id := by
  cases a with
  | highlight hl => exact Highlight.LiesIn.table h
  | addColumn table name seeds => exact h
  | addRow table values => exact h

@[simp]
theorem enacted_id (id : CodePoints) (t : Table) (a : Action) : (a.enacted id t).id = t.id := by
  cases a <;> rfl

@[simp]
theorem emphasis_table (id : CodePoints) (a : Action) : (a.emphasis id).table = a.table := by
  cases a <;> rfl

/-- Among tables with distinct ids, an action is on the table with its id. -/
theorem apply_of_nodup {us : List Table} (hd : (us.map (·.id)).Nodup) {a : Action} {i : Nat}
    {u : Table} (hu : us[i]? = some u) (hid : u.id = a.table) (ids : IdSupply) (next : Nat) :
    (a.apply ids next us).frame.tables[i]? = some (a.enacted (ids next) u) ∧
      (a.apply ids next us).frame.highlight = a.emphasis (ids next) := by
  have hindex : Tables.indexOf? us a.table = some i := by
    obtain ⟨j, v, hj, hv, hvid⟩ := Tables.exists_indexOf? (List.mem_of_getElem? hu)
    rw [← hid, hj, eq_of_getElem?_of_nodup hd hv hu hvid]
  cases a with
  | highlight h => exact ⟨hu, rfl⟩
  | addColumn table name seeds =>
    simp only [Action.table] at hindex
    simp only [apply, Frame.change, hindex, List.getElem?_modify_eq, hu]
    exact ⟨rfl, rfl⟩
  | addRow table values =>
    simp only [Action.table] at hindex
    simp only [apply, Frame.change, hindex, List.getElem?_modify_eq, hu]
    exact ⟨rfl, rfl⟩

end Action

namespace Script

/-! ## Requests that add -/

/-- Whether a request is for a new column or a new row. -/
def Request.adds : Request → Bool
  | addColumn .. => true
  | addRow _ => true
  | _ => false

/-- The second table has what is asked for more than the first: one column, or one row. -/
def Request.Extends : Request → Table → Table → Prop
  | addColumn .. => fun t u =>
    u.columns.length = t.columns.length + 1 ∧ u.rows.length = t.rows.length
  | addRow _ => fun t u =>
    u.rows.length = t.rows.length + 1 ∧ u.columns.length = t.columns.length
  | _ => fun t u => u = t

theorem Request.not_extends_self {q : Request} (h : q.adds = true) (t : Table) :
    ¬ q.Extends t t := by
  cases q with
  | highlightRows rows => cases h
  | highlightColumn column row => cases h
  | addColumn column seeds => exact fun he => absurd he.1 (Nat.ne_of_lt (Nat.lt_succ_self _))
  | addRow entries => exact fun he => absurd he.1 (Nat.ne_of_lt (Nat.lt_succ_self _))

/-- A request that adds comes down to an action whose gain is what is asked for. -/
theorem Request.exists_gain {q : Request} (hq : q.adds = true) {t : Table} {r : Resolved}
    (h : q.resolve t = .ok r) (tables : List Table) :
    r.action.target? tables = Tables.indexOf? tables t.id ∧
      ∀ id g, Gain.ofAction? id r.action = some g → ∀ u, q.Extends u (g.addTo u) := by
  cases q with
  | highlightRows rows => cases hq
  | highlightColumn column row => cases hq
  | addColumn column seeds =>
    change resolveAddColumn t column seeds = .ok r at h
    unfold resolveAddColumn at h
    split at h
    next => cases h
    next =>
      cases h
      refine ⟨rfl, fun id g hg u => ?_⟩
      cases hg
      exact ⟨by simp [Gain.addTo], by simp [Gain.addTo]⟩
  | addRow entries =>
    obtain ⟨values, hvalues⟩ := resolveAddRow_action h
    rw [hvalues]
    refine ⟨rfl, fun id g hg u => ?_⟩
    cases hg
    exact ⟨by simp [Gain.addTo], by simp [Gain.addTo]⟩

/-- A kept command is resolved to what is kept of it. -/
theorem resolve_of_kept {tables : List Table} {script : List Char} {compiled : Compiled}
    (h : compile tables script = .ok compiled) {command : CommandText} {r : Resolved}
    (hv : ⟨command, .kept r⟩ ∈ compiled.verdicts) {c : Command}
    (hp : parse command.text = .ok c) : c.resolve tables = .ok r := by
  obtain ⟨-, ⟨f, position, -, -, ho⟩ | ⟨cause, ho⟩ | ⟨c', r', hp', hr, ho⟩⟩ :=
    cases_of_mem_verdicts h hv
  · cases ho
  · cases ho
  · cases ho
    cases hp.symm.trans hp'
    exact hr

/-- A command that is parsed has the outcome to which its request on the table comes, unless that
    adds a column. -/
theorem outcome_of_resolve {tables : List Table} {script : List Char} {compiled : Compiled}
    (h : compile tables script = .ok compiled) {v : Verdict} (hv : v ∈ compiled.verdicts)
    {c : Command} (hp : parse v.command.text = .ok c) {t : Table}
    (ht : Tables.named? tables c.table = some t) :
    (∀ cause, c.request.resolve t = .error cause → v.outcome = .rejected cause none) ∧
      ∀ r, c.request.resolve t = .ok r → r.action.addedColumn? = none → v.outcome = .kept r := by
  have hresolve : c.resolve tables = c.request.resolve t := by
    unfold Command.resolve findTable
    rw [ht]
    rfl
  rw [verdicts_of_compile h] at hv
  obtain ⟨-, o, before, ho, hvo⟩ := exists_of_mem_judge hv
  unfold interpret at ho
  simp only [hp, hresolve] at ho
  refine ⟨fun cause herror => ?_, fun r hok hadded => ?_⟩
  · rw [herror] at ho
    cases ho
    exact hvo
  · rw [hok] at ho
    cases ho
    obtain ⟨action, cautions⟩ := r
    cases action with
    | addColumn table name seeds => cases hadded
    | highlight highlight => exact hvo
    | addRow table values => exact hvo

end Script

/-! ## From one frame to the next -/

namespace Frame

open Script

/-- From one frame to the next, a table of the name that a command gives is extended as the command
    asks, and no other table is changed. -/
def Follows (c : Command) (f f' : Frame) : Prop :=
  ∃ (i : Nat) (t u : Table), f.tables[i]? = some t ∧ f'.tables[i]? = some u ∧
    t.name = .ofString c.table ∧ u.name = .ofString c.table ∧ c.request.Extends t u ∧
    ∀ j, j ≠ i → f'.tables[j]? = f.tables[j]?

/-- A gain at a place is the change that a command asks for if and only if a table of its name is
    there. The names must be distinct. -/
theorem follows_iff_place {c : Command} {f f' : Frame} (hd : (f.tables.map (·.name)).Nodup)
    (hadds : c.request.adds = true) {i j : Nat} {t u : Table} (ht : f.tables[i]? = some t)
    (hname : t.name = .ofString c.table) (hu : f.tables[j]? = some u) {g : Gain}
    (hg : c.request.Extends u (g.addTo u)) (hf' : f'.tables = f.tables.modify j g.addTo) :
    Follows c f f' ↔ j = i := by
  constructor
  · rintro ⟨i', t', u', ht', hu', hname', -, hext, hothers⟩
    have hi : i' = i := eq_of_getElem?_of_nodup hd ht' ht (hname'.trans hname.symm)
    by_contra hij
    -- the named table stays as it is
    have hsame : f'.tables[i']? = f.tables[i']? := by
      rw [hf', List.getElem?_modify, hi]
      simp [hij]
    rw [hsame, ht'] at hu'
    cases hu'
    exact Request.not_extends_self hadds t' hext
  · rintro rfl
    rw [ht] at hu
    cases hu
    refine ⟨j, t, g.addTo t, ht, ?_, hname, ?_, hg, fun k hk => ?_⟩
    · rw [hf', List.getElem?_modify, ht]
      simp
    · rw [Gain.addTo_name, hname]
    · rw [hf', List.getElem?_modify]
      simp [Ne.symm hk]

/-- The frames around an action with a target: the second has one gain more at the target. -/
theorem exists_frames_of_target (ids : IdSupply) {tables : List Table} {actions : List Action}
    {n : Nat} {a : Action} (ha : actions[n]? = some a) {j : Nat}
    (hj : a.target? tables = some j) :
    ∃ f f' g, (sequence ids tables actions)[n]? = some f ∧
      (sequence ids tables actions)[n + 1]? = some f' ∧
      f.tables = grown ids tables (actions.take n) ∧
      Gain.ofAction? (ids (effective tables (actions.take n)).length) a = some g ∧
      f'.tables = f.tables.modify j g.addTo := by
  have hlt : n < (sequence ids tables actions).length := by
    rw [length_sequence]
    exact Nat.lt_succ_of_lt (List.getElem?_eq_some_iff.1 ha).1
  have hf := List.getElem?_eq_getElem hlt
  have hf' := getElem?_sequence_succ ha ids tables
  rw [after_eq] at hf'
  have htarget : a.target? (grown ids tables (actions.take n)) = some j := by
    rw [Action.target?_congr (ids_grown ids tables _), hj]
  obtain ⟨g, hg, -, -, htables⟩ := Action.apply_of_target?_eq_some htarget ids
    (effective tables (actions.take n)).length
  have hgrown := tables_eq_grown hf
  exact ⟨_, _, g, hf, hf', hgrown, hg, by rw [htables, hgrown]⟩

/-- The action of a kept command stands behind those of the verdicts before it. -/
theorem getElem?_actions {compiled : Compiled} {before after : List Verdict}
    {command : CommandText} {r : Resolved}
    (h : compiled.verdicts = before ++ ⟨command, .kept r⟩ :: after) :
    compiled.actions[(before.filterMap Verdict.action?).length]? = some r.action := by
  have hkept : Verdict.action? ⟨command, .kept r⟩ = some r.action := rfl
  rw [Compiled.actions, h, List.filterMap_append, List.filterMap_cons_some hkept]
  simp

/-- The frame of a kept command shows the table that it names, with what this has gained before and
    what the action makes of it, under the emphasis of the action. The ids of the tables must be
    distinct. -/
theorem exists_frame_of_kept {tables : List Table} (hids : (tables.map (·.id)).Nodup)
    {script : List Char} {compiled : Compiled} (hc : compile tables script = .ok compiled)
    {before after : List Verdict} {command : CommandText} {r : Resolved}
    (hv : compiled.verdicts = before ++ ⟨command, .kept r⟩ :: after) {c : Command}
    (hp : parse command.text = .ok c) (ids : IdSupply) :
    ∃ (f : Frame) (i : Nat) (t : Table) (gained : List Gain) (id : CodePoints),
      (sequence ids tables compiled.actions)[(before.filterMap Verdict.action?).length + 1]? =
        some f ∧
      tables[i]? = some t ∧ Tables.named? tables c.table = some t ∧
      c.request.resolve t = .ok r ∧
      f.tables[i]? = some (r.action.enacted id (t.withGains gained)) ∧
      f.highlight = r.action.emphasis id := by
  have hmem : ⟨command, .kept r⟩ ∈ compiled.verdicts := by simp [hv]
  obtain ⟨t, hnamed, hrequest⟩ := Command.exists_table (resolve_of_kept hc hmem hp)
  obtain ⟨i, hi⟩ := List.mem_iff_getElem?.1 (Tables.named?_mem hnamed)
  let actions := compiled.actions.take (before.filterMap Verdict.action?).length
  have hf := getElem?_sequence_succ (getElem?_actions hv) ids tables
  rw [after_eq] at hf
  have hu : (grown ids tables actions)[i]? = some (t.withGains (gains ids tables actions i)) := by
    rw [getElem?_grown, hi]
    rfl
  have htable : (t.withGains (gains ids tables actions i)).id = r.action.table := by
    rw [Table.withGains_id, (Request.resolve_suits hrequest).isOn.table_eq]
  have hnodup : ((grown ids tables actions).map (·.id)).Nodup := by
    rw [ids_grown]
    exact hids
  obtain ⟨htables, hhighlight⟩ := Action.apply_of_nodup hnodup hu htable ids
    (effective tables actions).length
  exact ⟨_, i, t, _, _, hf, hi, hnamed, hrequest, htables, hhighlight⟩

/-- In the frame of a kept command that adds to a table, the table of the name it gives is extended
    as it asks and no other table is changed, if and only if the first table with the id of the
    named one is the named one itself. -/
theorem follows_iff {text : List Char} {tables : List Table}
    (hl : Tables.load text = .ok tables) {script : List Char} {compiled : Compiled}
    (hc : compile tables script = .ok compiled) {before after : List Verdict}
    {command : CommandText} {r : Resolved}
    (hv : compiled.verdicts = before ++ ⟨command, .kept r⟩ :: after) {c : Command}
    (hp : parse command.text = .ok c) (hadds : c.request.adds = true) (ids : IdSupply) :
    ∃ f f',
      (sequence ids tables compiled.actions)[(before.filterMap Verdict.action?).length]? = some f ∧
      (sequence ids tables compiled.actions)[(before.filterMap Verdict.action?).length + 1]? =
        some f' ∧
      (Follows c f f' ↔
        ∃ t, Tables.named? tables c.table = some t ∧ Tables.withId? tables t.id = some t) := by
  have hmem : ⟨command, .kept r⟩ ∈ compiled.verdicts := by simp [hv]
  obtain ⟨t, hnamed, hrequest⟩ := Command.exists_table (resolve_of_kept hc hmem hp)
  obtain ⟨htarget, hgain⟩ := Request.exists_gain hadds hrequest tables
  obtain ⟨i, hi⟩ := List.mem_iff_getElem?.1 (Tables.named?_mem hnamed)
  obtain ⟨j, u, hj, hu, -⟩ := Tables.exists_indexOf? (Tables.named?_mem hnamed)
  obtain ⟨f, f', g, hf, hf', hgrown, hg, hmodify⟩ :=
    exists_frames_of_target ids (getElem?_actions hv) (htarget.trans hj)
  refine ⟨f, f', hf, hf', ?_⟩
  have hnames := (Tables.wellFormed_of_load hl).names
  have hd : (f.tables.map (·.name)).Nodup := by
    rw [hgrown, names_grown]
    exact hnames
  -- what is at a place of the collection is there in the frame, with its gains
  have hplace : ∀ {k : Nat} {v : Table}, tables[k]? = some v →
      ∃ gains, f.tables[k]? = some (v.withGains gains) := by
    intro k v hk
    rw [hgrown, getElem?_grown, hk]
    exact ⟨_, rfl⟩
  obtain ⟨gains, ht'⟩ := hplace hi
  obtain ⟨others, hu'⟩ := hplace hu
  have hname : (t.withGains gains).name = .ofString c.table := by
    rw [Table.withGains_name, Tables.named?_name hnamed]
  rw [follows_iff_place hd hadds ht' hname hu' (hgain _ g hg _) hmodify]
  have hfirst := Tables.withId?_of_indexOf? hj hu
  constructor
  · rintro rfl
    cases hi.symm.trans hu
    exact ⟨t, hnamed, hfirst⟩
  · rintro ⟨v, hv, hvid⟩
    cases hnamed.symm.trans hv
    cases hfirst.symm.trans hvid
    exact eq_of_getElem?_of_nodup hnames hu hi rfl

/-- Three tables in JSON, the second with the id of the first. -/
def doubles : List Char :=
  ("[\x7b\"id\": \"t\", \"name\": \"T\"\x7d, \x7b\"id\": \"t\", \"name\": \"U\"\x7d, "
    ++ "\x7b\"id\": \"v\", \"name\": \"V\"\x7d]").toList

/-- These tables. -/
def doubled : List Table :=
  [⟨"t", "T", [], []⟩, ⟨"t", "U", [], []⟩, ⟨"v", "V", [], []⟩]

theorem load_doubles : Tables.load doubles = .ok doubled := by decide +kernel

theorem follows_iff_doubles :
    Tables.load doubles = .ok doubled ∧
      ∃ compiled v command r c,
        compile doubled "add in table 'V' column 'C'; add in table 'T' row".toList =
          .ok compiled ∧
        compiled.verdicts = [v] ++ ⟨command, .kept r⟩ :: [] ∧
        parse command.text = .ok c ∧ c.request.adds = true ∧
        ∃ f f', (sequence strokes doubled compiled.actions)[1]? = some f ∧
          (sequence strokes doubled compiled.actions)[2]? = some f' ∧ Follows c f f' := by
  have hc : compile doubled "add in table 'V' column 'C'; add in table 'T' row".toList =
      .ok ⟨[⟨⟨0, "add in table 'V' column 'C'".toList⟩, .kept ⟨.addColumn "v" "C" none, []⟩⟩] ++
        ⟨⟨29, "add in table 'T' row".toList⟩, .kept ⟨.addRow "t" [], []⟩⟩ :: []⟩ := by
    decide +kernel
  have hp : parse "add in table 'T' row".toList = .ok ⟨"T", .addRow []⟩ := by decide +kernel
  obtain ⟨f, f', hf, hf', hfollows⟩ := follows_iff load_doubles hc rfl hp rfl strokes
  refine ⟨load_doubles, _, _, _, _, _, hc, rfl, hp, rfl, f, f', hf, hf', ?_⟩
  exact hfollows.2 ⟨⟨"t", "T", [], []⟩, by decide, by decide⟩

/-- A row for the second of these tables goes to the first. -/
theorem not_follows_doubles :
    Tables.load doubles = .ok doubled ∧
      ∃ compiled command r c,
        compile doubled "add in table 'U' row".toList = .ok compiled ∧
        compiled.verdicts = [⟨command, .kept r⟩] ∧
        parse command.text = .ok c ∧ c.request.adds = true ∧
        ∃ f f', (sequence strokes doubled compiled.actions)[0]? = some f ∧
          (sequence strokes doubled compiled.actions)[1]? = some f' ∧ ¬ Follows c f f' := by
  have hc : compile doubled "add in table 'U' row".toList =
      .ok ⟨[⟨⟨0, "add in table 'U' row".toList⟩, .kept ⟨.addRow "t" [], []⟩⟩]⟩ := by
    decide +kernel
  have hp : parse "add in table 'U' row".toList = .ok ⟨"U", .addRow []⟩ := by decide +kernel
  refine ⟨load_doubles, _, _, _, _, hc, rfl, hp, rfl, _, _, rfl, rfl, fun h => ?_⟩
  -- the gain is at place 0, the named table at place 1
  have hu : doubled[0]? = some ⟨"t", "T", [], []⟩ := rfl
  have ht : doubled[1]? = some ⟨"t", "U", [], []⟩ := rfl
  have hg : (Request.addRow []).Extends ⟨"t", "T", [], []⟩
      ((Gain.row (strokes 0) []).addTo ⟨"t", "T", [], []⟩) := ⟨rfl, rfl⟩
  exact absurd ((follows_iff_place (by decide) rfl ht rfl hu hg rfl).1 h) (by decide)

end Frame

end Storyboard
