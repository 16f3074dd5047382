-- SUMMARY: Which scripts compile to the same actions with a semicolon behind them, and which printed scripts to those of their sessions.
import Storyboard.Proofs.Script.Accounting
import Storyboard.Proofs.Script.Overlong
import Storyboard.Proofs.Script.Trailing
import Storyboard.Proofs.Session

/-!
# Closing semicolons

A semicolon behind a script ends its last command, or it stands in a comment at the end.
Either way it should change no action, and a session prints its script with one. It does
change an action where splitter and scanner disagree on what is a comment (`Undone`),
which can happen since the scanner reads literals that the splitter does not take for such:
over the end of a line, or with a letter right behind them. The semicolon then goes to the
last command and is illegal there. In all other cases the actions and the number of
commands stay the same (`closed_iff`).
-/

namespace Storyboard

namespace Script

/-! ## The action of a text -/

theorem Outcome.action?_amid_of_none {o : Outcome} (h : o.action? = none) (added : AddedColumns) :
    (o.amid added).action? = none := by
  rcases o.amid_cases added with hamid | ⟨name, hamid⟩
  · rw [hamid, h]
  · rw [hamid]
    rfl

theorem Outcome.action?_amid_congr {o o' : Outcome} (h : o'.action? = o.action?)
    (added : AddedColumns) : (o'.amid added).action? = (o.amid added).action? := by
  cases o with
  | rejected cause position =>
    rw [action?_amid_of_none h, action?_amid_of_none rfl]
  | kept r =>
    cases o' with
    | rejected cause position => cases h
    | kept r' =>
      obtain ⟨action, cautions⟩ := r
      obtain ⟨action', cautions'⟩ := r'
      obtain rfl : action' = action := Option.some.inj h
      cases action' with
      | addColumn table name seeds =>
        simp only [Outcome.amid, Outcome.addedColumn?]
        split
        next => rfl
        next => rfl
      | highlight h => rfl
      | addRow table values => rfl

/-- The action of a text hangs on what it is parsed as. -/
theorem exists_interpret_of_parse_eq {tables : List Table} {t t' : List Char} {o : Outcome}
    (h : parse t' = parse t) (ho : interpret tables t = .ok o) :
    ∃ o', interpret tables t' = .ok o' ∧ o'.action? = o.action? := by
  obtain ⟨f, position, hp, hposition, rfl⟩ | ⟨c, cause, hp, hr, rfl⟩ | ⟨c, r, hp, hr, rfl⟩ :=
    interpret_cases ho
  · refine ⟨.rejected (.malformed t' f) position, ?_, rfl⟩
    rw [interpret_of_fault (h.trans hp), hposition]
    rfl
  · exact ⟨.rejected cause none, by simp only [interpret, h, hp, hr], rfl⟩
  · exact ⟨.kept r, by simp only [interpret, h, hp, hr], rfl⟩

theorem action?_of_illegal {tables : List Table} {t : List Char} {i : Illegal} {o : Outcome}
    (h : (scan t).illegal = some i) (ho : interpret tables t = .ok o) : o.action? = none := by
  obtain ⟨f, position, -, -, rfl⟩ | ⟨c, cause, -, -, rfl⟩ | ⟨c, r, hp, -, rfl⟩ :=
    interpret_cases ho
  · rfl
  · rfl
  · obtain ⟨hlegal, -⟩ := legal_of_parse hp
    rw [hlegal] at h
    cases h

section Semicolon

variable {tables : List Table} {t e : List Char}

theorem isQuote_semicolon (he : ∀ d ∈ e, Text.isBlank d = true) :
    ∀ q ∈ e ++ [';'], isQuote q = false := by
  intro q hq
  rcases List.mem_append.1 hq with hq | hq
  · rw [Bool.eq_false_iff]
    intro hquote
    have hblank := isQuote_not_isBlank hquote
    rw [he q hq] at hblank
    cases hblank
  · rw [List.mem_singleton.1 hq]
    rfl

theorem parts_semicolon (he : ∀ d ∈ e, Text.isBlank d = true) : Parts (e ++ [';']) := by
  intro d hd
  cases e with
  | nil =>
    cases hd
    exact .inr rfl
  | cons a e =>
    cases hd
    exact .inl (he _ (List.mem_cons_self ..))

/-- A semicolon that the scanner does not take for a part of a comment makes a text illegal. -/
theorem exists_illegal_semicolon (he : ∀ d ∈ e, Text.isBlank d = true)
    (h : CommentsEnd (lexemes t)) : ∃ i, (scan (t ++ (e ++ [';']))).illegal = some i := by
  cases hi : (scan t).illegal with
  | some i =>
    have hscan := scanFrom_append_of_illegal (isQuote_semicolon he) hi
    exact ⟨i, (congrArg Scan.illegal hscan).trans hi⟩
  | none =>
    obtain ⟨position, line, hscan⟩ := scanFrom_append_of_parts (parts_semicolon he) hi h
    obtain ⟨i, hillegal⟩ := exists_illegal_of_blank he position line
    rw [hillegal] at hscan
    exact ⟨i, congrArg Scan.illegal hscan⟩

/-- With a semicolon behind it a command comes to the same action, if the scanner takes the
    semicolon for a part of a comment, or if there is no action that could be lost. -/
theorem exists_outcome_semicolon_iff (he : ∀ d ∈ e, Text.isBlank d = true) (hfeed : '\n' ∉ e)
    {o : Outcome} (ho : interpret tables t = .ok o) (added : AddedColumns) :
    (∃ o', interpret tables (t ++ (e ++ [';'])) = .ok o' ∧
        (o'.amid added).action? = (o.amid added).action?) ↔
      (CommentsEnd (lexemes t) →
        (o.amid added).action? = none ∧ Readable (t ++ (e ++ [';']))) := by
  constructor
  · rintro ⟨o', ho', hsame⟩ hends
    obtain ⟨i, hi⟩ := exists_illegal_semicolon he hends
    have hnone := Outcome.action?_amid_of_none (action?_of_illegal hi ho') added
    exact ⟨hsame.symm.trans hnone, (exists_interpret_iff tables _).1 ⟨o', ho'⟩⟩
  · intro h
    by_cases hends : CommentsEnd (lexemes t)
    · obtain ⟨hnone, hreadable⟩ := h hends
      obtain ⟨o', ho'⟩ := (exists_interpret_iff tables _).2 hreadable
      obtain ⟨i, hi⟩ := exists_illegal_semicolon he hends
      refine ⟨o', ho', ?_⟩
      rw [Outcome.action?_amid_of_none (action?_of_illegal hi ho'), hnone]
    · have hline : '\n' ∉ e ++ [';'] := by simp [hfeed]
      have hparse : parse (t ++ (e ++ [';'])) = parse t := by
        rw [parse, parse, scan, scan, scanFrom_append_of_comment hline hends]
      obtain ⟨o', ho', hsame⟩ := exists_interpret_of_parse_eq hparse ho
      exact ⟨o', ho', Outcome.action?_amid_congr hsame added⟩

end Semicolon

/-- Where all of the first commands are judged, the others are judged by themselves. -/
theorem judge_append_of_ok {tables : List Table} {added : AddedColumns} {xs : List CommandText}
    (h : (judge tables added xs).2 = none) :
    ∃ added', ∀ ys, judge tables added (xs ++ ys) =
      ((judge tables added xs).1 ++ (judge tables added' ys).1, (judge tables added' ys).2) := by
  induction xs generalizing added with
  | nil => exact ⟨added, fun ys => rfl⟩
  | cons x xs ih =>
    cases hx : interpret tables x.text with
    | error e =>
      rw [judge_cons_of_error hx] at h
      cases h
    | ok o =>
      rw [judge_cons_of_ok hx] at h
      obtain ⟨added', hys⟩ := ih h
      refine ⟨added', fun ys => ?_⟩
      rw [List.cons_append, judge_cons_of_ok hx, judge_cons_of_ok hx, hys]
      rfl

/-- Scripts with the same commands but for the last one have the same verdicts but for the last
    one, which hangs on the last command alone. -/
theorem exists_verdicts_of_split_concat {tables : List Table} {s : List Char} {c : Compiled}
    {cmds : List CommandText} {cmd : CommandText} (h : compile tables s = .ok c)
    (hs : split s = cmds ++ [cmd]) :
    ∃ vs added, ∀ {t : List Char} {x : CommandText} {c' : Compiled}, split t = cmds ++ [x] →
      (compile tables t = .ok c' ↔
        ∃ o, interpret tables x.text = .ok o ∧ c'.verdicts = vs ++ [⟨x, o.amid added⟩]) := by
  have hjudge := compile_eq_ok_iff.1 h
  rw [hs] at hjudge
  have hfirst : (judge tables [] cmds).2 = none :=
    judge_eq_none_iff.2 fun x hx =>
      judge_eq_none_iff.1 (congrArg Prod.snd hjudge) x (List.mem_append_left _ hx)
  obtain ⟨added, hlater⟩ := judge_append_of_ok hfirst
  refine ⟨(judge tables [] cmds).1, added, fun {t x c'} ht => ?_⟩
  rw [compile_eq_ok_iff, ht, hlater]
  cases hx : interpret tables x.text with
  | error e => simp [judge_cons_of_error hx]
  | ok o =>
    rw [judge_cons_of_ok hx]
    simp [judge, eq_comm]

/-! ## Actions that a semicolon undoes -/

/-- A semicolon behind the script undoes the verdict on its last command. For the splitter the
    script ends within a comment, which takes the semicolon in, so that it goes to the command. For
    the scanner the command does not end in a comment, and the semicolon is illegal. So an action is
    lost, or the place of the semicolon is a number that is too long. -/
structure Undone (s : List Char) (v : Verdict) : Prop where
  comment : endsInComment s = true
  last : ∀ d ∈ s.drop v.command.stop, Text.isBlank d = true
  apart : CommentsEnd (lexemes v.command.text)
  lost : v.action? ≠ none ∨ ¬ Readable (s.drop v.command.offset ++ [';'])

theorem compile_congr {s t : List Char} (h : split s = split t) (tables : List Table) :
    compile tables s = compile tables t := by
  rw [compile, compile, h]

/-- There is a verdict on every command of a compiled script. -/
theorem commandCount_of_compile {tables : List Table} {s : List Char} {c : Compiled}
    (h : compile tables s = .ok c) : c.commandCount = (split s).length := by
  obtain ⟨hcommands, -⟩ := verdicts_of_judge (compile_eq_ok_iff.1 h)
  rw [Compiled.commandCount, ← hcommands, List.length_map]

theorem filterMap_action?_concat (vs : List Verdict) (c : CommandText) (o : Outcome) :
    (vs ++ [(⟨c, o⟩ : Verdict)]).filterMap Verdict.action? =
      vs.filterMap Verdict.action? ++ o.action?.toList := by
  rw [List.filterMap_append, filterMap_cons_toList, Verdict.action?_eq, List.filterMap_nil,
    List.append_nil]

theorem toList_action?_eq_iff {o o' : Outcome} :
    o.action?.toList = o'.action?.toList ↔ o.action? = o'.action? :=
  ⟨fun h => by simpa using congrArg List.head? h, congrArg Option.toList⟩

/-- What undoes the verdict on the last command, where the semicolon goes to this command. -/
theorem undone_iff {s e : List Char} {cmd : CommandText} (hopen : endsInComment s = true)
    (hdrop : s.drop cmd.offset = cmd.text ++ e) (he : ∀ d ∈ e, Text.isBlank d = true)
    (o : Outcome) :
    Undone s ⟨cmd, o⟩ ↔ CommentsEnd (lexemes cmd.text) ∧
      (o.action? ≠ none ∨ ¬ Readable (cmd.text ++ (e ++ [';']))) := by
  have hbehind : s.drop cmd.stop = e := by
    rw [CommandText.stop, ← List.drop_drop, hdrop, List.drop_left]
  have hfrom : s.drop cmd.offset ++ [';'] = cmd.text ++ (e ++ [';']) := by
    rw [hdrop, List.append_assoc]
  rw [← hfrom]
  constructor
  · rintro ⟨-, -, hends, hlost⟩
    rw [Verdict.action?_eq] at hlost
    exact ⟨hends, hlost⟩
  · rintro ⟨hends, hlost⟩
    refine ⟨hopen, by rwa [hbehind], hends, ?_⟩
    rwa [Verdict.action?_eq]

/-- The actions stay with a semicolon behind the script, unless it undoes the last verdict. -/
theorem exists_actions_semicolon_iff {tables : List Table} {s : List Char} {c : Compiled}
    (h : compile tables s = .ok c) :
    (∃ c', compile tables (s ++ [';']) = .ok c' ∧ c'.actions = c.actions) ↔
      ∀ v, c.verdicts.getLast? = some v → ¬ Undone s v := by
  rcases split_semicolon_cases s with
    ⟨hsplit, hbehind⟩ | ⟨hopen, cmds, cmd, e, hsplit, hmore, hdrop, he, hfeed⟩
  · refine iff_of_true ⟨c, (compile_congr hsplit tables).trans h, rfl⟩ fun v hv hundone => ?_
    obtain ⟨hmem, -⟩ := cases_of_mem_verdicts h (List.mem_of_getLast? hv)
    obtain ⟨d, hd, hreal⟩ := hbehind hundone.comment v.command hmem
    rw [hundone.last d hd] at hreal
    cases hreal
  · obtain ⟨vs, added, hcompile⟩ := exists_verdicts_of_split_concat h hsplit
    obtain ⟨o, ho, hverdicts⟩ := (hcompile hsplit).1 h
    have hactions : ∀ {c' : Compiled} {x : CommandText} {o' : Outcome},
        c'.verdicts = vs ++ [⟨x, o'.amid added⟩] →
          (c'.actions = c.actions ↔ (o'.amid added).action? = (o.amid added).action?) := by
      intro c' x o' hc'
      rw [Compiled.actions, Compiled.actions, hc', hverdicts, filterMap_action?_concat,
        filterMap_action?_concat, List.append_cancel_left_eq, toList_action?_eq_iff]
    have hsame : (∃ c', compile tables (s ++ [';']) = .ok c' ∧ c'.actions = c.actions) ↔
        ∃ o', interpret tables (cmd.text ++ (e ++ [';'])) = .ok o' ∧
          (o'.amid added).action? = (o.amid added).action? := by
      constructor
      · rintro ⟨c', hc', heq⟩
        obtain ⟨o', ho', hlast⟩ := (hcompile hmore).1 hc'
        exact ⟨o', ho', (hactions hlast).1 heq⟩
      · rintro ⟨o', ho', heq⟩
        exact ⟨⟨_⟩, (hcompile hmore).2 ⟨o', ho', rfl⟩, (hactions rfl).2 heq⟩
    rw [hsame, exists_outcome_semicolon_iff he hfeed ho added, hverdicts, List.getLast?_concat]
    simp only [Option.some.injEq, forall_eq', undone_iff hopen hdrop he]
    tauto

end Script

namespace Session

open Script (Compiled compile Undone)

/-! ## Printed scripts -/

/-- The word that prints the script. -/
theorem step_script {s : Session} {line : List Char} (ids : IdSupply) (hs : s.buffer = [])
    (hline : Word.ofLine? line = some .script) :
    (s.step ids (.line line)).output.toList =
      if s.accepted = [] then "(empty script)\n".toList else Script.join s.script [] := by
  have hstep : s.step ids (.line line) = replyWord ids s .script := by
    rw [step, hs, hline]
  rw [hstep, replyWord]
  by_cases haccepted : s.accepted = []
  · simp [haccepted]
  · rw [if_neg haccepted, if_neg (by simpa using haccepted), String.toList_append,
      String.toList_ofList]
    rfl

/-- What is printed for an empty session is no command. -/
theorem compile_empty (tables : List Table) :
    ∃ c, compile tables "(empty script)\n".toList = .ok c ∧ c.actions = [] := by
  have hsplit : Script.split "(empty script)\n".toList = [⟨0, "(empty script)".toList⟩] := by
    decide +kernel
  have hparse : Script.parse "(empty script)".toList = .error (.fault (.illegal '(' 0)) := by
    decide +kernel
  have hjudge : Script.judge tables [] (Script.split "(empty script)\n".toList) =
      ([⟨⟨0, "(empty script)".toList⟩,
        .rejected (.malformed "(empty script)".toList (.illegal '(' 0)) (some 0)⟩], none) := by
    rw [hsplit, Script.judge_cons_of_ok (Script.interpret_of_fault hparse tables)]
    rfl
  exact ⟨_, Script.compile_eq_ok_iff.2 hjudge, rfl⟩

theorem exists_actions_printed_iff {tables : List Table} {s : Session} {line : List Char}
    (ids : IdSupply) {c : Compiled} (h : compile tables s.script = .ok c) (hs : s.buffer = [])
    (hline : Word.ofLine? line = some .script) :
    (∃ c', compile tables (s.step ids (.line line)).output.toList = .ok c' ∧
        c'.actions = c.actions) ↔
      ∀ v, c.verdicts.getLast? = some v → ¬ Undone s.script v := by
  rw [step_script ids hs hline]
  split
  next haccepted =>
    have hscript : s.script = [] := by
      rw [script, haccepted]
      rfl
    rw [hscript, compile_nil] at h
    cases h
    obtain ⟨c', hc', hnone⟩ := compile_empty tables
    exact iff_of_true ⟨c', hc', hnone⟩ fun v hv => by cases hv
  next =>
    rw [← Script.compile_congr (Script.split_semicolon s.script),
      Script.exists_actions_semicolon_iff h]

/-- A semicolon behind a script that compiles leaves the actions and the number of commands as they
    are, unless it undoes the verdict on the last command. So what a session prints as its script
    compiles to its actions, with the same exception. -/
theorem closed_iff (tables : List Table) :
    (∀ {s c}, compile tables s = .ok c →
      ((∃ c', compile tables (s ++ [';']) = .ok c' ∧ c'.actions = c.actions ∧
          c'.commandCount = c.commandCount) ↔
        ∀ v, c.verdicts.getLast? = some v → ¬ Undone s v)) ∧
    ∀ {session line} (ids), Reached tables session → session.buffer = [] →
      Word.ofLine? line = some .script →
        ∃ c, compile tables session.script = .ok c ∧
          ((∃ c', compile tables (session.step ids (.line line)).output.toList = .ok c' ∧
              c'.actions = c.actions) ↔
            ∀ v, c.verdicts.getLast? = some v → ¬ Undone session.script v) := by
  constructor
  · intro s c h
    rw [← Script.exists_actions_semicolon_iff h]
    constructor
    · rintro ⟨c', hc', hactions, -⟩
      exact ⟨c', hc', hactions⟩
    · rintro ⟨c', hc', hactions⟩
      refine ⟨c', hc', hactions, ?_⟩
      rw [Script.commandCount_of_compile hc', Script.commandCount_of_compile h,
        Script.length_split_semicolon]
  · intro session line ids hreached hbuffer hline
    obtain ⟨htables, c, hc⟩ := hreached.compiles
    rw [htables] at hc
    exact ⟨c, hc, exists_actions_printed_iff ids hc hbuffer hline⟩

/-- A command with a literal over two lines, the second of which looks like a comment. -/
def spanning : List Char :=
  "add in table 'T' row [\x7b'a\n-- b'\x7d]".toList

/-- The session that has accepted this command. -/
def spanned : Session where
  tables := [shelf]
  accepted := [spanning]
  buffer := []

theorem compile_spanning : compile [shelf] spanning =
    .ok ⟨[⟨⟨0, spanning⟩, .kept ⟨.addRow "t" ["a\n-- b"], []⟩⟩]⟩ := by
  decide +kernel

theorem reached_spanned : Reached [shelf] spanned := by
  have hfirst : ((initial [shelf]).step (.counting "new")
      (.line "add in table 'T' row [\x7b'a".toList)).status =
        .running ⟨[shelf], [], ["add in table 'T' row [\x7b'a".toList]⟩ := by
    decide +kernel
  refine .step (.counting "new") (.line "-- b'\x7d];".toList)
    (.step (.counting "new") _ .start hfirst) ?_
  decide +kernel

theorem closed_iff_spanned :
    (∃ c, compile [shelf] spanning = .ok c ∧
      ((∃ c', compile [shelf] (spanning ++ [';']) = .ok c' ∧ c'.actions = c.actions ∧
          c'.commandCount = c.commandCount) ↔
        ∀ v, c.verdicts.getLast? = some v → ¬ Undone spanning v)) ∧
    Reached [shelf] spanned ∧ spanned.buffer = [] ∧
      Word.ofLine? "script".toList = some .script ∧
        ∃ c, compile [shelf] spanned.script = .ok c ∧
          ((∃ c', compile [shelf]
                (spanned.step (.counting "new") (.line "script".toList)).output.toList = .ok c' ∧
              c'.actions = c.actions) ↔
            ∀ v, c.verdicts.getLast? = some v → ¬ Undone spanned.script v) := by
  have hword : Word.ofLine? "script".toList = some .script := by decide +kernel
  exact ⟨⟨_, compile_spanning, (closed_iff [shelf]).1 compile_spanning⟩, reached_spanned, rfl,
    hword, (closed_iff [shelf]).2 (.counting "new") reached_spanned rfl hword⟩

/-- The row that the command adds is lost with a semicolon behind it, and so it is in what is
    printed as the script of the session. -/
theorem not_closed_spanned :
    ∃ c, compile [shelf] spanning = .ok c ∧
      (¬ ∃ c', compile [shelf] (spanning ++ [';']) = .ok c' ∧ c'.actions = c.actions) ∧
      Reached [shelf] spanned ∧ spanned.buffer = [] ∧ spanned.script = spanning ∧
      ¬ ∃ c', compile [shelf]
            (spanned.step (.counting "new") (.line "script".toList)).output.toList = .ok c' ∧
          c'.actions = c.actions := by
  have hlost : (compile [shelf] (spanning ++ [';'])).map (·.actions) = .ok [] := by
    decide +kernel
  have hprinted : (compile [shelf]
      (spanned.step (.counting "new") (.line "script".toList)).output.toList).map (·.actions) =
        .ok [] := by
    decide +kernel
  refine ⟨_, compile_spanning, ?_, reached_spanned, rfl, rfl, ?_⟩
  · rintro ⟨c', hc', hactions⟩
    rw [hc', Except.map, hactions] at hlost
    cases hlost
  · rintro ⟨c', hc', hactions⟩
    rw [hc', Except.map, hactions] at hprinted
    cases hprinted

end Session

end Storyboard
