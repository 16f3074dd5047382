-- SUMMARY: Compiling a script accounts for every command exactly once, whatever the reader has read before.
import Storyboard.Proofs.Script.Span
import Storyboard.Proofs.Script.Verdict
import Storyboard.Script.Reader

/-!
# Accounting for commands

A reader drops its notes before it reads, so that it makes of a text what is made of it
without a reader (`Reader.read_of_ok`), and the one pass over a script comes to what the
verdicts on its commands say (`Reader.exists_compiled`). Each command then has a share
in the result, either one error or one action with the warnings on it, and which of them
it is depends on its text and the actions kept before it (`Share.Due`). The shares in
order are the whole result (`exists_shares`).
-/

namespace Storyboard.Script

/-! ## Readers -/

/-- What a reader makes of a text with the outcome. -/
def Outcome.reading : Outcome → Reading
  | rejected cause position => .failure cause position
  | kept r => .action r.action

/-- The notes that an outcome leaves. -/
def Outcome.cautions : Outcome → List Caution
  | rejected .. => []
  | kept r => r.cautions

theorem Reader.read_of_ok {tables : List Table} {text : List Char} {o : Outcome}
    (h : interpret tables text = .ok o) (r : Reader) :
    r.read tables text = (.ok o.reading, ⟨o.cautions⟩) := by
  unfold Reader.read
  obtain ⟨f, position, hp, hf, rfl⟩ | ⟨c, cause, hp, hr, rfl⟩ | ⟨c, resolved, hp, hr, rfl⟩ :=
    interpret_cases h
  · simp only [hp, hf]
    rfl
  · simp only [hp, Reader.resolve, hr]
    rfl
  · simp only [hp, Reader.resolve, hr]
    rfl

theorem Reader.read_of_error {tables : List Table} {text : List Char} {e : Text.Numeral.TooLong}
    (h : interpret tables text = .error e) (r : Reader) :
    r.read tables text = (.error e, .fresh) := by
  unfold interpret at h
  unfold Reader.read
  cases hp : parse text with
  | ok c =>
    simp only [hp] at h
    split at h <;> cases h
  | error cause =>
    cases cause with
    | numeral e' =>
      simp only [hp] at h
      cases h
      rfl
    | fault f =>
      simp only [hp] at h
      have hposition := eq_error_of_bind_ok h
      simp only [hposition]
      rfl

/-! ## One command -/

theorem filterMap_cons_toList {α β : Type} (f : α → Option β) (a : α) (as : List α) :
    (a :: as).filterMap f = (f a).toList ++ as.filterMap f := by
  rw [List.filterMap_eq_flatMap_toList, List.filterMap_eq_flatMap_toList, List.flatMap_cons]

namespace Draft

/-- The draft with a verdict on one more command, of which the reader has the notes. -/
def judged (d : Draft) (v : Verdict) (r : Reader) : Draft where
  reader := r
  added := v.outcome.addedColumn?.toList ++ d.added
  actions := d.actions ++ v.action?.toList
  diagnostics := d.diagnostics ++ v.diagnostics
  commandCount := d.commandCount + 1

theorem refuse_eq_judged (d : Draft) (c : CommandText) (cause : Rejection) (position : Option Nat)
    (r : Reader) :
    { d with reader := r, commandCount := d.commandCount + 1 }.refuse c cause position =
      d.judged ⟨c, .rejected cause position⟩ r := by
  simp [refuse, judged, Outcome.addedColumn?, Verdict.action?, Verdict.diagnostics,
    CommandText.refusal]

theorem keep_eq_judged (d : Draft) (c : CommandText) (a : Action) (cautions : List Caution) :
    { d with
      reader := ⟨cautions⟩
      added := (Outcome.kept ⟨a, cautions⟩).addedColumn?.toList ++ d.added
      commandCount := d.commandCount + 1 }.keep c a =
      d.judged ⟨c, .kept ⟨a, cautions⟩⟩ ⟨cautions⟩ :=
  rfl

/-- Reading a command and going on with it comes to a verdict among the columns added so far. -/
theorem step_of_ok {tables : List Table} {c : CommandText} {o : Outcome}
    (h : interpret tables c.text = .ok o) (d : Draft) :
    d.step tables c = .ok (d.judged ⟨c, o.amid d.added⟩ ⟨o.cautions⟩) := by
  simp only [step, Reader.read_of_ok h, Except.map]
  refine congrArg Except.ok ?_
  cases o with
  | rejected cause position => exact d.refuse_eq_judged c cause position .fresh
  | kept r =>
    obtain ⟨action, cautions⟩ := r
    cases action with
    | addColumn table name seeds =>
      by_cases hmem : (table, name) ∈ d.added
      · have hamid : (Outcome.kept ⟨.addColumn table name seeds, cautions⟩).amid d.added =
            .rejected (.columnAdded name) none := if_pos hmem
        rw [hamid]
        exact (if_pos (List.contains_iff_mem.2 hmem)).trans
          (d.refuse_eq_judged c (.columnAdded name) none ⟨cautions⟩)
      · have hamid : (Outcome.kept ⟨.addColumn table name seeds, cautions⟩).amid d.added =
            .kept ⟨.addColumn table name seeds, cautions⟩ := if_neg hmem
        rw [hamid]
        exact (if_neg fun h => hmem (List.contains_iff_mem.1 h)).trans
          (d.keep_eq_judged c (.addColumn table name seeds) cautions)
    | highlight highlight => exact d.keep_eq_judged c (.highlight highlight) cautions
    | addRow table values => exact d.keep_eq_judged c (.addRow table values) cautions

theorem step_of_error {tables : List Table} {c : CommandText} {e : Text.Numeral.TooLong}
    (h : interpret tables c.text = .error e) (d : Draft) : d.step tables c = .error e := by
  simp only [step, Reader.read_of_error h]
  rfl

/-! ## All commands -/

/-- The result of a draft: its actions, its problems and the number of its commands. -/
def result (d : Draft) : List Action × List Diagnostic × Nat :=
  (d.actions, d.diagnostics, d.commandCount)

/-- The result with verdicts on more commands, unless a numeral is too long to go on. -/
def resultWith (d : Draft) :
    List Verdict × Option Text.Numeral.TooLong →
      Except Text.Numeral.TooLong (List Action × List Diagnostic × Nat)
  | (vs, none) =>
    .ok (d.actions ++ vs.filterMap Verdict.action?,
      d.diagnostics ++ vs.flatMap Verdict.diagnostics, d.commandCount + vs.length)
  | (_, some e) => .error e

theorem resultWith_judged (d : Draft) (v : Verdict) (r : Reader) (vs : List Verdict)
    (stop : Option Text.Numeral.TooLong) :
    (d.judged v r).resultWith (vs, stop) = d.resultWith (v :: vs, stop) := by
  cases stop with
  | none => simp [resultWith, judged, filterMap_cons_toList, Nat.add_assoc, Nat.add_comm 1]
  | some e => rfl

/-- One pass over commands comes to the verdicts on them. -/
theorem foldlM_step (tables : List Table) (cmds : List CommandText) (d : Draft) :
    (cmds.foldlM (step tables) d).map result = d.resultWith (judge tables d.added cmds) := by
  -- the draft goes on as the verdicts do: both carry along the columns added so far
  induction cmds generalizing d with
  | nil => simp [judge, resultWith, result, Except.map, pure, Except.pure]
  | cons c rest ih =>
    rw [List.foldlM_cons]
    cases hc : interpret tables c.text with
    | error e =>
      rw [judge_cons_of_error hc, step_of_error hc]
      rfl
    | ok o =>
      rw [judge_cons_of_ok hc, step_of_ok hc, ← resultWith_judged]
      exact ih (d.judged ⟨c, o.amid d.added⟩ ⟨o.cautions⟩)

end Draft

/-- With any reader a script comes to what it comes to without one. -/
theorem Reader.compile_eq (r : Reader) (tables : List Table) (script : List Char) :
    (r.compile tables script).map Draft.result =
      match Script.compile tables script with
      | .ok c => .ok (c.actions, c.diagnostics, c.commandCount)
      | .error i => .error i.reason := by
  unfold Reader.compile Script.compile
  rw [Draft.foldlM_step]
  change (Draft.empty r).resultWith (judge tables [] (split script)) = _
  rcases judge tables [] (split script) with ⟨vs, _ | e⟩
  · simp [Draft.resultWith, Draft.empty, Compiled.actions, Compiled.diagnostics,
      Compiled.commandCount]
  · rfl

theorem Reader.exists_compiled {r : Reader} {tables : List Table} {script : List Char} {d : Draft}
    (h : r.compile tables script = .ok d) :
    ∃ c, Script.compile tables script = .ok c ∧ d.actions = c.actions ∧
      d.diagnostics = c.diagnostics ∧ d.commandCount = c.commandCount := by
  have heq := r.compile_eq tables script
  rw [h] at heq
  cases hc : Script.compile tables script with
  | error i =>
    rw [hc] at heq
    cases heq
  | ok c =>
    rw [hc] at heq
    simp only [Except.map, Draft.result, Except.ok.injEq, Prod.mk.injEq] at heq
    exact ⟨c, rfl, heq⟩

theorem Reader.exists_draft {tables : List Table} {script : List Char} {c : Compiled}
    (h : Script.compile tables script = .ok c) (r : Reader) :
    ∃ d, r.compile tables script = .ok d ∧ d.actions = c.actions ∧
      d.diagnostics = c.diagnostics ∧ d.commandCount = c.commandCount := by
  have heq := r.compile_eq tables script
  rw [h] at heq
  cases hd : r.compile tables script with
  | error e =>
    rw [hd] at heq
    cases heq
  | ok d =>
    rw [hd] at heq
    simp only [Except.map, Draft.result, Except.ok.injEq, Prod.mk.injEq] at heq
    exact ⟨d, rfl, heq⟩

/-! ## Verdicts -/

/-- Without a numeral that is too long there is a verdict on every command, which is what its text
    comes to among the columns that the commands before it add. -/
theorem verdicts_of_judge {tables : List Table} {added : AddedColumns} {cmds : List CommandText}
    {vs : List Verdict} (h : judge tables added cmds = (vs, none)) :
    vs.map (·.command) = cmds ∧ ∀ before v after, vs = before ++ v :: after →
      ∃ o earlier, interpret tables v.command.text = .ok o ∧ v.outcome = o.amid earlier ∧
        ∀ p, p ∈ earlier ↔ p ∈ before.filterMap (·.outcome.addedColumn?) ∨ p ∈ added := by
  induction cmds generalizing added vs with
  | nil =>
    cases h
    refine ⟨rfl, fun before v after hvs => ?_⟩
    exact absurd hvs.symm (by simp)
  | cons c rest ih =>
    cases hc : interpret tables c.text with
    | error e =>
      rw [judge_cons_of_error hc] at h
      cases h
    | ok o =>
      rw [judge_cons_of_ok hc] at h
      obtain ⟨rfl, hstop⟩ := Prod.mk.inj h
      obtain ⟨hcommands, hverdicts⟩ := ih (Prod.ext rfl hstop)
      refine ⟨by rw [List.map_cons, hcommands], fun before v after hvs => ?_⟩
      -- the verdict is the first one, or one of those that follow among one more column
      cases before with
      | nil =>
        obtain ⟨rfl, -⟩ := List.cons.inj hvs
        exact ⟨o, added, hc, rfl, fun p => by simp⟩
      | cons first before =>
        obtain ⟨rfl, htail⟩ := List.cons.inj hvs
        obtain ⟨o', earlier, ho', hv, hearlier⟩ := hverdicts before v after htail
        refine ⟨o', earlier, ho', hv, fun p => ?_⟩
        rw [hearlier, List.mem_append, filterMap_cons_toList, List.mem_append]
        exact or_left_comm.trans or_assoc.symm

/-! ## Shares -/

/-- What a command contributes to a compiled script. -/
structure Share where
  command : CommandText
  actions : List Action
  diagnostics : List Diagnostic
deriving DecidableEq, Repr

/-- The share that a verdict gives its command. -/
def Verdict.share (v : Verdict) : Share where
  command := v.command
  actions := v.action?.toList
  diagnostics := v.diagnostics

/-- The text of a command is rejected behind earlier actions: it is no command that can be carried
    out, or it adds a column that an earlier action adds. -/
inductive Refused (tables : List Table) (earlier : List Action) (text : List Char) :
    Rejection → Option Nat → Prop where
  | failure {cause : Rejection} {position : Option Nat} :
      (Reader.fresh.read tables text).1 = .ok (.failure cause position) →
      Refused tables earlier text cause position
  | repeated {table name : CodePoints} {seeds others : Option (List (Int × CodePoints))} :
      (Reader.fresh.read tables text).1 = .ok (.action (.addColumn table name seeds)) →
      .addColumn table name others ∈ earlier →
      Refused tables earlier text (.columnAdded name) none

/-- The share is what is due to its command behind earlier actions: the error for which it is
    rejected, or else its action and the warnings on it. -/
structure Share.Due (tables : List Table) (earlier : List Action) (s : Share) : Prop where
  refused : ∀ cause position, Refused tables earlier s.command.text cause position →
    s.actions = [] ∧ s.diagnostics = [s.command.refusal cause position]
  kept : (∀ cause position, ¬ Refused tables earlier s.command.text cause position) →
    ∃ a r, Reader.fresh.read tables s.command.text = (.ok (.action a), r) ∧
      s.actions = [a] ∧ s.diagnostics = r.cautions.map s.command.warning

/-- What is kept among other added columns is what it is alone. -/
theorem Outcome.eq_kept_of_amid {added : AddedColumns} {o : Outcome} {r : Resolved}
    (h : o.amid added = .kept r) : o = .kept r := by
  rcases o.amid_cases added with hamid | ⟨name, hamid⟩
  · exact hamid.symm.trans h
  · rw [hamid] at h
    cases h

section Due

variable {tables : List Table} {earlier : List Action} {added : AddedColumns}

/-- A text is rejected behind earlier actions just if its outcome is, among the columns that these
    add. -/
theorem refused_iff {text : List Char} {o : Outcome} (h : interpret tables text = .ok o)
    (hadded : ∀ table name, (table, name) ∈ added ↔ ∃ seeds, .addColumn table name seeds ∈ earlier)
    {cause : Rejection} {position : Option Nat} :
    Refused tables earlier text cause position ↔ o.amid added = .rejected cause position := by
  have hread : (Reader.fresh.read tables text).1 = .ok o.reading := by
    rw [Reader.read_of_ok h]
  constructor
  · intro hrefused
    cases hrefused with
    | failure hfailure =>
      have ho := Except.ok.inj (hread.symm.trans hfailure)
      cases o with
      | rejected cause' position' =>
        cases ho
        rfl
      | kept r => cases ho
    | @repeated table name seeds others haction hmem =>
      have ho := Except.ok.inj (hread.symm.trans haction)
      cases o with
      | rejected cause' position' => cases ho
      | kept r =>
        obtain ⟨action, cautions⟩ := r
        cases ho
        exact if_pos ((hadded table name).2 ⟨others, hmem⟩)
  · intro hamid
    cases o with
    | rejected cause' position' =>
      cases hamid
      exact .failure hread
    | kept r =>
      obtain ⟨action, cautions⟩ := r
      cases action with
      | addColumn table name seeds =>
        by_cases hmem : (table, name) ∈ added
        · obtain ⟨others, hothers⟩ := (hadded table name).1 hmem
          cases (if_pos hmem).symm.trans hamid
          exact .repeated hread hothers
        · cases (if_neg hmem).symm.trans hamid
      | highlight highlight => cases hamid
      | addRow table values => cases hamid

/-- A share is due if it comes from the outcome of the text among the columns that the earlier
    actions add. -/
theorem due_of_amid {c : CommandText} {o : Outcome} (h : interpret tables c.text = .ok o)
    (hadded : ∀ table name,
      (table, name) ∈ added ↔ ∃ seeds, .addColumn table name seeds ∈ earlier) :
    (Verdict.share ⟨c, o.amid added⟩).Due tables earlier := by
  cases hv : o.amid added with
  | rejected cause position =>
    constructor
    · intro cause' position' hrefused
      cases hv.symm.trans ((refused_iff h hadded).1 hrefused)
      exact ⟨rfl, rfl⟩
    · intro hnot
      exact absurd ((refused_iff h hadded).2 hv) (hnot cause position)
  | kept r =>
    constructor
    · intro cause position hrefused
      cases hv.symm.trans ((refused_iff h hadded).1 hrefused)
    · intro _
      have hread := Reader.read_of_ok h .fresh
      rw [Outcome.eq_kept_of_amid hv] at hread
      exact ⟨r.action, ⟨r.cautions⟩, hread, rfl, rfl⟩

end Due

/-! ## The whole result -/

theorem Action.addedColumn?_eq_some {a : Action} {table name : CodePoints} :
    a.addedColumn? = some (table, name) ↔ ∃ seeds, a = .addColumn table name seeds := by
  cases a <;> simp [Action.addedColumn?]

/-- The columns that verdicts add are those of their actions. -/
theorem mem_addedColumns {vs : List Verdict} {table name : CodePoints} :
    (table, name) ∈ vs.filterMap (·.outcome.addedColumn?) ↔
      ∃ seeds, .addColumn table name seeds ∈ vs.filterMap Verdict.action? := by
  simp only [List.mem_filterMap, ← Verdict.addedColumn?_eq, Option.bind_eq_some_iff,
    Action.addedColumn?_eq_some]
  constructor
  · rintro ⟨v, hv, a, ha, seeds, rfl⟩
    exact ⟨seeds, v, hv, ha⟩
  · rintro ⟨seeds, v, hv, ha⟩
    exact ⟨v, hv, _, ha, seeds, rfl⟩

theorem flatMap_share_actions (vs : List Verdict) :
    (vs.map Verdict.share).flatMap (·.actions) = vs.filterMap Verdict.action? := by
  rw [List.flatMap_map, List.filterMap_eq_flatMap_toList]
  rfl

/-- The problems of a verdict are about its command. -/
theorem Verdict.command_of_mem {v : Verdict} {p : Diagnostic} (h : p ∈ v.diagnostics) :
    p.command = v.command := by
  unfold Verdict.diagnostics at h
  split at h
  next =>
    rw [List.mem_singleton.1 h]
  next =>
    obtain ⟨caution, -, rfl⟩ := List.mem_map.1 h
    rfl

/-- A verdict gives an action or an error, and just one. -/
theorem Verdict.length_action? (v : Verdict) :
    v.action?.toList.length + (v.diagnostics.filter (·.severity = .error)).length = 1 := by
  obtain ⟨command, outcome⟩ := v
  cases outcome with
  | rejected cause position => rfl
  | kept r => simp [Verdict.action?, Verdict.diagnostics]

theorem length_actions_add_errors (vs : List Verdict) :
    (vs.filterMap Verdict.action?).length +
      ((vs.flatMap Verdict.diagnostics).filter (·.severity = .error)).length = vs.length := by
  induction vs with
  | nil => rfl
  | cons v vs ih =>
    have hv := v.length_action?
    simp only [filterMap_cons_toList, List.flatMap_cons, List.filter_append, List.length_append,
      List.length_cons]
    omega

/-- The command that a problem is about stands at its offset. -/
theorem drop_take_of_mem_split {script : List Char} {c : CommandText} (h : c ∈ split script) :
    (script.take c.stop).drop c.offset = c.text := by
  have hstands := List.prefix_iff_eq_take.1 (standsAt_of_mem_split h)
  rw [List.drop_take, CommandText.stop, Nat.add_sub_cancel_left]
  exact hstands.symm

/-- The problems of verdicts on commands one behind the other are in the order of these. -/
theorem pairwise_diagnostics {vs : List Verdict}
    (h : (vs.map (·.command)).Pairwise fun c d => c.offset < d.offset) :
    (vs.flatMap Verdict.diagnostics).Pairwise
      fun p q => p.command.offset ≤ q.command.offset := by
  refine List.pairwise_flatMap.2 ⟨fun v _ => ?_, ?_⟩
  · refine List.pairwise_of_forall_mem_list fun p hp q hq => ?_
    rw [Verdict.command_of_mem hp, Verdict.command_of_mem hq]
  · refine (List.pairwise_map.1 h).imp fun hlt p hp q hq => ?_
    rw [Verdict.command_of_mem hp, Verdict.command_of_mem hq]
    exact Nat.le_of_lt hlt

/-- The problems of a compiled script that are about a command are those of the verdict on it. -/
theorem filter_diagnostics {tables : List Table} {script : List Char} {compiled : Compiled}
    (hc : compile tables script = .ok compiled) {before after : List Verdict} {v : Verdict}
    (hv : compiled.verdicts = before ++ v :: after) :
    compiled.diagnostics.filter (·.command = v.command) = v.diagnostics := by
  have hcommands : compiled.verdicts.map (·.command) = split script :=
    (verdicts_of_judge (compile_eq_ok_iff.1 hc)).1
  have hnodup : (compiled.verdicts.map (·.command)).Pairwise (· ≠ ·) := by
    rw [hcommands]
    refine (pairwise_offset_commandsFrom 0 (stretches script)).imp ?_
    rintro c d hlt rfl
    exact Nat.lt_irrefl _ hlt
  rw [hv, List.pairwise_map, List.pairwise_append, List.pairwise_cons] at hnodup
  obtain ⟨-, ⟨hafter, -⟩, hbefore⟩ := hnodup
  have hothers : ∀ {vs : List Verdict}, (∀ w ∈ vs, w.command ≠ v.command) →
      (vs.flatMap Verdict.diagnostics).filter (·.command = v.command) = [] := by
    intro vs hvs
    refine List.filter_eq_nil_iff.2 fun p hp => ?_
    obtain ⟨w, hw, hp⟩ := List.mem_flatMap.1 hp
    rw [w.command_of_mem hp, decide_eq_true_eq]
    exact hvs w hw
  have hself : v.diagnostics.filter (·.command = v.command) = v.diagnostics :=
    List.filter_eq_self.2 fun p hp => decide_eq_true (v.command_of_mem hp)
  rw [Compiled.diagnostics, hv, List.flatMap_append, List.flatMap_cons, List.filter_append,
    List.filter_append, hself, hothers fun w hw => hbefore w hw v (List.mem_cons_self ..),
    hothers fun w hw => (hafter w hw).symm, List.append_nil, List.nil_append]

/-- Each command of a script that is compiled with a reader has its share in the result, which is
    due to it behind the actions of the commands before; and there is nothing else in the result.
    The problems are in the order of the commands, each at the place of its command, and there are
    as many actions and errors together as commands. -/
theorem exists_shares {r : Reader} {tables : List Table} {script : List Char} {d : Draft}
    (h : r.compile tables script = .ok d) :
    d.commandCount = (split script).length ∧
      (∃ shares : List Share, shares.map (·.command) = split script ∧
        shares.flatMap (·.actions) = d.actions ∧ shares.flatMap (·.diagnostics) = d.diagnostics ∧
        ∀ before s after, shares = before ++ s :: after →
          s.Due tables (before.flatMap (·.actions))) ∧
      d.diagnostics.Pairwise (fun p q => p.command.offset ≤ q.command.offset) ∧
      (∀ p ∈ d.diagnostics, (script.take p.command.stop).drop p.command.offset = p.command.text) ∧
      d.actions.length + (d.diagnostics.filter (·.severity = .error)).length = d.commandCount := by
  obtain ⟨⟨vs⟩, hc, hactions, hdiagnostics, hcount⟩ := Reader.exists_compiled h
  have hjudge : judge tables [] (split script) = (vs, none) := by
    unfold compile at hc
    split at hc
    next vs' hvs =>
      cases hc
      exact hvs
    next => cases hc
  obtain ⟨hcommands, hverdicts⟩ := verdicts_of_judge hjudge
  rw [hactions, hdiagnostics, hcount]
  refine ⟨?_, ⟨vs.map Verdict.share, ?_, ?_, ?_, ?_⟩, ?_, ?_, ?_⟩
  · rw [← hcommands, List.length_map]
    rfl
  · rw [List.map_map]
    exact hcommands
  · exact flatMap_share_actions vs
  · rw [List.flatMap_map]
    rfl
  · intro before s after hshares
    obtain ⟨before, rest, rfl, rfl, hrest⟩ := List.map_eq_append_iff.1 hshares
    obtain ⟨v, after, rfl, rfl, rfl⟩ := List.map_eq_cons_iff.1 hrest
    obtain ⟨o, added, ho, hv, hadded⟩ := hverdicts before v after rfl
    have hmem : ∀ table name, (table, name) ∈ added ↔
        ∃ seeds, .addColumn table name seeds ∈ (before.map Verdict.share).flatMap (·.actions) := by
      intro table name
      rw [hadded, flatMap_share_actions, ← mem_addedColumns]
      simp
    have hdue := due_of_amid ho hmem
    rw [← hv] at hdue
    exact hdue
  · refine pairwise_diagnostics ?_
    rw [hcommands]
    exact pairwise_offset_commandsFrom 0 (stretches script)
  · intro p hp
    obtain ⟨v, hv, hpv⟩ := List.mem_flatMap.1 hp
    rw [Verdict.command_of_mem hpv]
    refine drop_take_of_mem_split ?_
    rw [← hcommands]
    exact List.mem_map_of_mem hv
  · exact length_actions_add_errors vs

/-- A table with one column and one row. -/
def ledger : Table :=
  ⟨"t", "T", [⟨"c", "C"⟩], [⟨"r", [("c", "x")]⟩]⟩

/-- A reader that has just read a new row with a value too many. -/
def used : Reader :=
  (Reader.fresh.read [ledger] "add in table 'T' row [\x7b'a'\x7d, \x7b'b'\x7d]".toList).2

/-- A script with a command that leaves a note, one that adds the same column again, one that is no
    command, and one with nothing to remark. -/
def mixed : List Char :=
  ("add in table 'T' column 'D' cells [\x7b9-'y'\x7d];\nadd in table 'T' column 'D'; oops;\n"
    ++ "highlight in table 'T' row 1").toList

theorem exists_shares_mixed :
    used.cautions = [.tooManyValues "T" 1 2] ∧ ∃ d, used.compile [ledger] mixed = .ok d ∧
      d.actions = [.addColumn "t" "D" (some []), .highlight ⟨"t", some ["r"], none⟩] ∧
      d.diagnostics.map (fun p => (p.severity, p.command.offset)) =
        [(.warning, 0), (.error, 45), (.error, 74)] ∧
      d.commandCount = (split mixed).length ∧
      (∃ shares : List Share, shares.map (·.command) = split mixed ∧
        shares.flatMap (·.actions) = d.actions ∧ shares.flatMap (·.diagnostics) = d.diagnostics ∧
        ∀ before s after, shares = before ++ s :: after →
          s.Due [ledger] (before.flatMap (·.actions))) ∧
      d.diagnostics.Pairwise (fun p q => p.command.offset ≤ q.command.offset) ∧
      (∀ p ∈ d.diagnostics, (mixed.take p.command.stop).drop p.command.offset = p.command.text) ∧
      d.actions.length + (d.diagnostics.filter (·.severity = .error)).length = d.commandCount := by
  have hused : used.cautions = [.tooManyValues "T" 1 2] := by decide +kernel
  have hresult : (used.compile [ledger] mixed).map (fun d =>
      (d.actions, d.diagnostics.map fun p => (p.severity, p.command.offset))) =
      .ok ([.addColumn "t" "D" (some []), .highlight ⟨"t", some ["r"], none⟩],
        [(.warning, 0), (.error, 45), (.error, 74)]) := by
    decide +kernel
  cases hd : used.compile [ledger] mixed with
  | error e =>
    rw [hd] at hresult
    cases hresult
  | ok d =>
    rw [hd] at hresult
    obtain ⟨hactions, hdiagnostics⟩ := Prod.mk.inj (Except.ok.inj hresult)
    exact ⟨hused, d, rfl, hactions, hdiagnostics, exists_shares hd⟩

end Storyboard.Script
