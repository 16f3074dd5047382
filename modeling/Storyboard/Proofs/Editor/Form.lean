-- SUMMARY: Checking only the form of a document shows the same problems of form as compiling it, at the same ranges.
import Storyboard.Editor.Diagnostics
import Storyboard.Proofs.Script.Accounting

/-!
# Problems of form

Without a collection a document is only checked for the form of its commands. This is
what compiling it against any collection says of the form as well: the same problems at
the same ranges, in the same order, or the same numeral at which both stop
(`diagnostics_agree`). Whatever else compiling shows belongs to commands that are well
formed.
-/

namespace Storyboard.Script

/-- Whether a text is no command because of a fault. -/
def isFaulty (text : List Char) : Bool :=
  match parse text with
  | .error (.fault _) => true
  | _ => false

theorem isFaulty_of_ok {text : List Char} {c : Command} (h : parse text = .ok c) :
    isFaulty text = false := by
  rw [isFaulty, h]

theorem isFaulty_of_fault {text : List Char} {f : Fault} (h : parse text = .error (.fault f)) :
    isFaulty text = true := by
  rw [isFaulty, h]

/-- A verdict on a well-formed command tells of no fault. -/
theorem Verdict.filter_diagnostics_of_ok {v : Verdict} {c : Command}
    (h : parse v.command.text = .ok c) :
    v.diagnostics.filter (isFaulty ·.command.text) = [] := by
  rw [List.filter_eq_nil_iff]
  intro p hp
  rw [v.command_of_mem hp, isFaulty_of_ok h]
  decide

/-- A text that can be interpreted is a command or faulty. -/
theorem exists_parse_of_interpret {tables : List Table} {text : List Char} {o : Outcome}
    (h : interpret tables text = .ok o) (hf : isFaulty text = false) :
    ∃ c, parse text = .ok c := by
  obtain ⟨f, position, hp, -, -⟩ | ⟨c, cause, hp, -, -⟩ | ⟨c, r, hp, -, -⟩ := interpret_cases h
  · rw [isFaulty_of_fault hp] at hf
    cases hf
  · exact ⟨c, hp⟩
  · exact ⟨c, hp⟩

end Storyboard.Script

namespace Storyboard.Editor

open Script

variable {tables : List Table} {source : List Char} {command : CommandText}

/-- Where a problem is shown and how much it matters. -/
def Diagnostic.mark (d : Diagnostic) : Range × Severity :=
  (d.range, d.severity)

/-- The marks of those problems of verdicts that are of form. -/
def faultMarks (source : List Char) (vs : List Verdict) : List (Range × Severity) :=
  ((vs.flatMap Verdict.diagnostics).filter (isFaulty ·.command.text)).map fun p =>
    (Diagnostic.ofCompiled source p).mark

theorem faultMarks_cons (v : Verdict) (vs : List Verdict) :
    faultMarks source (v :: vs) = faultMarks source [v] ++ faultMarks source vs := by
  simp [faultMarks]

/-! ## One command -/

/-- Where a command cannot be interpreted, its form cannot be checked. -/
theorem formDiagnostic?_of_error {e : Text.Numeral.TooLong}
    (h : interpret tables command.text = .error e) :
    formDiagnostic? source command = .error e := by
  unfold interpret at h
  unfold formDiagnostic?
  split at h
  next hp =>
    cases h
    rw [hp]
  next f hp =>
    rw [hp]
    simp only [eq_error_of_bind_ok h]
    rfl
  next hp =>
    split at h
    next => cases h
    next => cases h

/-- The problem of form that a command has is that of the verdict on it. -/
theorem exists_formDiagnostic? {o : Outcome} (h : interpret tables command.text = .ok o)
    (source : List Char) (added : AddedColumns) :
    ∃ d, formDiagnostic? source command = .ok d ∧
      d.toList.map Diagnostic.mark = faultMarks source [⟨command, o.amid added⟩] := by
  have hnone : ∀ {c}, parse command.text = .ok c →
      faultMarks source [⟨command, o.amid added⟩] = [] := by
    intro c hp
    rw [faultMarks, List.flatMap_singleton,
      Verdict.filter_diagnostics_of_ok (v := ⟨command, o.amid added⟩) hp, List.map_nil]
  unfold formDiagnostic?
  obtain ⟨f, position, hp, hposition, rfl⟩ | ⟨c, cause, hp, -, -⟩ | ⟨c, r, hp, -, -⟩ :=
    interpret_cases h
  · rw [hp]
    simp only [hposition]
    refine ⟨_, rfl, ?_⟩
    simp [faultMarks, Verdict.diagnostics, Outcome.amid, Outcome.addedColumn?,
      isFaulty_of_fault hp, Diagnostic.mark, Diagnostic.ofCompiled]
  · rw [hp]
    exact ⟨none, rfl, (hnone hp).symm⟩
  · rw [hp]
    exact ⟨none, rfl, (hnone hp).symm⟩

/-! ## All commands -/

/-- Where judging commands stops, checking their form does. -/
theorem mapM_formDiagnostic?_of_error {cmds : List CommandText} {added : AddedColumns}
    {vs : List Verdict} {e : Text.Numeral.TooLong} (h : judge tables added cmds = (vs, some e))
    (source : List Char) : cmds.mapM (formDiagnostic? source) = .error e := by
  induction cmds generalizing added vs with
  | nil => cases h
  | cons command rest ih =>
    rw [List.mapM_cons]
    cases ho : interpret tables command.text with
    | error e' =>
      rw [judge_cons_of_error ho] at h
      cases h
      rw [formDiagnostic?_of_error ho]
      rfl
    | ok o =>
      rw [judge_cons_of_ok ho] at h
      obtain ⟨d, hd, -⟩ := exists_formDiagnostic? ho source added
      rw [hd, ih (Prod.ext rfl (Prod.mk.inj h).2)]
      rfl

/-- If commands are judged, checking their form finds the problems of form of the verdicts. -/
theorem exists_mapM_formDiagnostic? {cmds : List CommandText} {added : AddedColumns}
    {vs : List Verdict} (h : judge tables added cmds = (vs, none)) (source : List Char) :
    ∃ found, cmds.mapM (formDiagnostic? source) = .ok found ∧
      (found.filterMap id).map Diagnostic.mark = faultMarks source vs := by
  induction cmds generalizing added vs with
  | nil =>
    cases h
    exact ⟨[], rfl, rfl⟩
  | cons command rest ih =>
    cases ho : interpret tables command.text with
    | error e =>
      rw [judge_cons_of_error ho] at h
      cases h
    | ok o =>
      rw [judge_cons_of_ok ho] at h
      obtain ⟨hvs, hstop⟩ := Prod.mk.inj h
      obtain ⟨d, hd, hmark⟩ := exists_formDiagnostic? ho source added
      obtain ⟨found, hfound, hmarks⟩ := ih (Prod.ext rfl hstop)
      refine ⟨d :: found, ?_, ?_⟩
      · rw [List.mapM_cons, hd, hfound]
        rfl
      · rw [← hvs, faultMarks_cons, ← hmark, ← hmarks, ← List.map_append]
        cases d <;> rfl

/-! ## Documents -/

/-- Checking the form stops just where compiling stops. -/
theorem diagnostics_eq_error_iff (tables : List Table) (source : List Char)
    (e : Text.Numeral.TooLong) :
    diagnostics none source = .error e ↔ diagnostics (some tables) source = .error e := by
  cases hjudge : judge tables [] (split source) with
  | mk vs stop =>
    cases stop with
    | some e' =>
      simp [diagnostics, formDiagnostics, compile, hjudge,
        mapM_formDiagnostic?_of_error hjudge source, bind, Except.bind]
    | none =>
      obtain ⟨found, hfound, -⟩ := exists_mapM_formDiagnostic? hjudge source
      simp [diagnostics, formDiagnostics, compile, hjudge, hfound, bind, Except.bind]

/-- The problems of form are those that compiling shows of faulty commands. -/
theorem mark_diagnostics {compiled : Compiled} (hc : compile tables source = .ok compiled)
    {ds : List Diagnostic} (hd : diagnostics none source = .ok ds) :
    ds.map Diagnostic.mark =
      ((compiled.diagnostics.filter (isFaulty ·.command.text)).map (.ofCompiled source)).map
        Diagnostic.mark := by
  obtain ⟨found, hfound, hmarks⟩ := exists_mapM_formDiagnostic? (compile_eq_ok_iff.1 hc) source
  obtain ⟨found', hfound', hd⟩ := bind_eq_ok hd
  cases hfound.symm.trans hfound'
  cases hd
  rw [List.map_map]
  exact hmarks

/-- Checking the form of a document and compiling it agree. They stop at the same numeral or at
    none. In the second case the problems that checking shows are, by range and severity and in
    order, those that compiling shows of faulty commands; and all other problems belong to commands
    that are well formed. -/
theorem diagnostics_agree (tables : List Table) (source : List Char) :
    (∀ e, diagnostics none source = .error e ↔ diagnostics (some tables) source = .error e) ∧
    ∀ ds es, diagnostics none source = .ok ds → diagnostics (some tables) source = .ok es →
      ∃ compiled, compile tables source = .ok compiled ∧
        es = compiled.diagnostics.map (.ofCompiled source) ∧
        ds.map Diagnostic.mark =
          ((compiled.diagnostics.filter (isFaulty ·.command.text)).map (.ofCompiled source)).map
            Diagnostic.mark ∧
        ∀ p ∈ compiled.diagnostics, p.command ∈ split source ∧
          (isFaulty p.command.text = false → ∃ c, parse p.command.text = .ok c) := by
  refine ⟨diagnostics_eq_error_iff tables source, fun ds es hd he => ?_⟩
  simp only [diagnostics] at he
  split at he
  next compiled hc =>
    cases he
    refine ⟨compiled, hc, rfl, mark_diagnostics hc hd, fun p hp => ?_⟩
    obtain ⟨v, hv, hp⟩ := List.mem_flatMap.1 hp
    rw [verdicts_of_compile hc] at hv
    obtain ⟨hmem, o, before, ho, -⟩ := exists_of_mem_judge hv
    rw [v.command_of_mem hp]
    exact ⟨hmem, exists_parse_of_interpret ho⟩
  next => cases he

/-- A document with three faulty commands, the last of them cut off, a value for a row that is not
    there, and a table that is not. -/
def jumble : List Char :=
  ("highlight at table 'T' row 1;\nadd in table 'T' column 'D' cells [\x7b9-'y'\x7d];\n"
    ++ "highlight in table 'V' row 1; add in table 'T'\n row [\x7b,; highlight in").toList

theorem diagnostics_agree_jumble :
    ∃ ds es compiled, diagnostics none jumble = .ok ds ∧
      diagnostics (some [⟨"t", "T", [], [⟨"r", []⟩]⟩]) jumble = .ok es ∧
      ds.length = 3 ∧ es.length = 5 ∧
      compile [⟨"t", "T", [], [⟨"r", []⟩]⟩] jumble = .ok compiled ∧
      es = compiled.diagnostics.map (.ofCompiled jumble) ∧
      ds.map Diagnostic.mark =
        ((compiled.diagnostics.filter (isFaulty ·.command.text)).map (.ofCompiled jumble)).map
          Diagnostic.mark ∧
      ∀ p ∈ compiled.diagnostics, p.command ∈ split jumble ∧
        (isFaulty p.command.text = false → ∃ c, parse p.command.text = .ok c) := by
  have hform : (diagnostics none jumble).map List.length = .ok 3 := by decide +kernel
  have hall :
      (diagnostics (some [⟨"t", "T", [], [⟨"r", []⟩]⟩]) jumble).map List.length = .ok 5 := by
    decide +kernel
  obtain ⟨ds, hd, hds⟩ := exists_of_map_eq_ok hform
  obtain ⟨es, he, hes⟩ := exists_of_map_eq_ok hall
  obtain ⟨compiled, hc, hagree⟩ := (diagnostics_agree _ jumble).2 ds es hd he
  exact ⟨ds, es, compiled, hd, he, hds, hes, hc, hagree⟩

end Storyboard.Editor
