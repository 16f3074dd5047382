-- SUMMARY: How a run on a file with tables and a file with a script ends, and what makes it crash: a script that is no UTF-8, and tables that cannot be printed.
import Storyboard.CommandLine.Run
import Storyboard.Proofs.Printing
import Storyboard.Proofs.Script.Moderate
import Storyboard.Proofs.Text.Utf8

/-!
# Files that are reported

A run on a file with tables and a file with a script should end with 0 if it shows frames
and with 1 if a file is bad (`Reports`). The tables may be no UTF-8, no JSON or no
collection, and the script may come to no action: all this is reported. If the tables are
accepted, a script that is no UTF-8 is not, and neither is one with a numeral that is too
long to be read. And if the script comes to an action, the frames must be printed, which
they cannot be if the tables show one half of a surrogate pair. The run then ends with a
fault that it has no message for (`reports_iff`).
-/

namespace Storyboard.CommandLine

open Script (Compiled compile Moderate)

/-! ## Files and ends -/

/-- The word of a command line names a file: it is no option, and the file holds the bytes. -/
structure Names (disk : Disk) (word : String) (bytes : List UInt8) : Prop where
  plain : Word.ofString word = .ok (.plain word)
  found : disk (.ofString word) = .file bytes

/-- The bytes are those of a text. -/
def IsText (bytes : List UInt8) : Prop :=
  ∃ s : List Char, bytes = s.flatMap String.utf8EncodeChar

/-- The bytes are those of a script whose commands can be read. -/
def Legible (bytes : List UInt8) : Prop :=
  ∃ text, textOf bytes = .ok text ∧ ∀ c ∈ Script.split text, Script.Readable c.text

/-- The bytes are those of a collection that is accepted. -/
def Holds (bytes : List UInt8) (tables : List Table) : Prop :=
  ∃ text, textOf bytes = .ok text ∧ Tables.load text = .ok tables

/-- The bytes are those of a script that comes to at least one action. -/
def Acts (tables : List Table) (bytes : List UInt8) : Prop :=
  ∃ text c, textOf bytes = .ok text ∧ compile tables text = .ok c ∧ c.actions ≠ []

/-- The end of a run on two files says whether they are good: it is 0 if the tables are accepted and
    the script comes to at least one action, and else 1. -/
structure Reports (exit : Exit) (tables script : List UInt8) : Prop where
  code : exit = .code 0 ∨ exit = .code 1
  good : exit = .code 0 ↔ ∃ ts, Holds tables ts ∧ Acts ts script

section Files

variable {bytes tableBytes scriptBytes : List UInt8}

theorem textOf_of_decode {s : List Char} (h : Text.Utf8.decode bytes = .ok s) :
    textOf bytes = .ok (Text.unifyLineEnds s) := by
  rw [textOf, h]
  rfl

/-- The files that are read are those of texts. -/
theorem isText_iff : IsText bytes ↔ ∃ text, textOf bytes = .ok text := by
  constructor
  · rintro ⟨s, hs⟩
    exact ⟨_, textOf_of_decode (Text.Utf8.decode_eq_ok_iff.2 hs)⟩
  · rintro ⟨text, htext⟩
    cases hdecode : Text.Utf8.decode bytes with
    | error f =>
      rw [textOf, hdecode] at htext
      cases htext
    | ok s => exact ⟨s, Text.Utf8.decode_eq_ok_iff.1 hdecode⟩

/-- With short numerals the commands of a text can be read. -/
theorem legible_iff_isText (h : ∀ text, textOf bytes = .ok text → Moderate text) :
    Legible bytes ↔ IsText bytes := by
  rw [isText_iff]
  constructor
  · rintro ⟨text, htext, -⟩
    exact ⟨text, htext⟩
  · rintro ⟨text, htext⟩
    exact ⟨text, htext, (h text htext).readable_of_mem_split⟩

theorem Holds.unique {ts ts' : List Table} (h : Holds bytes ts) (h' : Holds bytes ts') :
    ts = ts' := by
  obtain ⟨text, htext, hload⟩ := h
  obtain ⟨text', htext', hload'⟩ := h'
  rw [htext] at htext'
  cases htext'
  rw [hload] at hload'
  exact Except.ok.inj hload'

theorem loadTables_eq_ok_iff {disk : Disk} {path : Path} {ts : List Table}
    (h : disk path = .file bytes) : loadTables disk path = .ok ts ↔ Holds bytes ts := by
  simp only [loadTables, h, Holds]
  cases htext : textOf bytes with
  | error f => simp
  | ok text => cases hload : Tables.load text <;> simp [Except.mapError, hload]

theorem not_reports_crash (c : Crash) : ¬ Reports (.crash c) tableBytes scriptBytes := by
  rintro ⟨hcode | hcode, -⟩ <;> cases hcode

theorem reports_of_not_holds (h : ¬ ∃ ts, Holds tableBytes ts) :
    Reports (.code 1) tableBytes scriptBytes where
  code := .inr rfl
  good := iff_of_false (by simp) fun ⟨ts, hts, _⟩ => h ⟨ts, hts⟩

theorem acts_iff {ts : List Table} {text : List Char} {c : Compiled}
    (htext : textOf bytes = .ok text) (hc : compile ts text = .ok c) :
    Acts ts bytes ↔ c.actions ≠ [] := by
  constructor
  · rintro ⟨text', c', htext', hc', hactions⟩
    rw [htext] at htext'
    cases htext'
    rw [hc] at hc'
    cases hc'
    exact hactions
  · exact fun hactions => ⟨text, c, htext, hc, hactions⟩

/-- With tables that are accepted, the end is to say whether the script comes to an action. -/
theorem reports_of_holds {ts : List Table} (h : Holds tableBytes ts) :
    (Acts ts scriptBytes → Reports (.code 0) tableBytes scriptBytes) ∧
      (¬ Acts ts scriptBytes → Reports (.code 1) tableBytes scriptBytes) := by
  have hacts : (∃ ts, Holds tableBytes ts ∧ Acts ts scriptBytes) ↔ Acts ts scriptBytes := by
    constructor
    · rintro ⟨ts', hts', hacts⟩
      cases h.unique hts'
      exact hacts
    · exact fun hacts => ⟨ts, h, hacts⟩
  exact ⟨fun h => ⟨.inl rfl, by simp [hacts, h]⟩, fun h => ⟨.inr rfl, by simp [hacts, h]⟩⟩

end Files

/-! ## Playing a script -/

section Playing

variable {o : Options} {disk : Disk} {ids : IdSupply} {tables : List Table}

theorem requireActions_eq_ok {c : Compiled} (h : c.actions ≠ []) :
    c.requireActions = .ok c.actions := by
  have hverdicts : c.verdicts.isEmpty = false := by
    cases hv : c.verdicts with
    | nil => exact absurd (by rw [Compiled.actions, hv]; rfl) h
    | cons v vs => rfl
  rw [Compiled.requireActions, hverdicts, List.isEmpty_eq_false_iff.2 h]
  rfl

theorem exists_requireActions_eq_error {c : Compiled} (h : c.actions = []) :
    ∃ e, c.requireActions = .error e := by
  unfold Compiled.requireActions
  split
  next => exact ⟨_, rfl⟩
  next => exact ⟨_, by rw [if_pos (by rw [h]; rfl)]⟩

/-- Frames in JSON are always printed, and frames as texts if the tables show no half. -/
theorem fault_showFrames_iff {script : List Char} {c : Compiled}
    (h : compile tables script = .ok c) :
    (Print.texts (showFrames o (Frame.sequence ids tables c.actions))).fault = none ↔
      o.json = true ∨ ∀ t ∈ tables, t.ShowsWhole := by
  cases hjson : o.json with
  | true =>
    refine iff_of_true (Print.fault_eq_none_iff.2 ?_) (.inl rfl)
    simp [showFrames, hjson]
  | false =>
    simp only [showFrames, hjson, Bool.false_eq_true, if_false, false_or]
    rw [Print.fault_eq_none_iff, List.forall_mem_append,
      ← @Print.fault_eq_none_iff (Session.showFrames ..), Session.fault_showFrames_iff h]
    exact and_iff_right (by cases o.delay <;> simp)

/-- A script without an action is reported. -/
theorem exit_runScript_of_nil {script : List Char} {c : Compiled}
    (h : compile tables script = .ok c) (hactions : c.actions = []) :
    (runScript o ids tables script).exit = .code 1 := by
  obtain ⟨e, he⟩ := exists_requireActions_eq_error hactions
  simp only [runScript, h, he]
  cases e <;> rfl

/-- A script with an action is played, up to a text that cannot be printed. -/
theorem exit_runScript_of_ne_nil {script : List Char} {c : Compiled}
    (h : compile tables script = .ok c) (hactions : c.actions ≠ [])
    {fault : Option Print.Fault}
    (hfault : (Print.texts (showFrames o (Frame.sequence ids tables c.actions))).fault = fault) :
    (runScript o ids tables script).exit = fault.elim (.code 0) fun f => .crash (.text f) := by
  simp only [runScript, h, requireActions_eq_ok hactions, hfault]
  cases fault <;> rfl

theorem exit_runScript_of_error {script : List Char} {i : Script.Interrupted}
    (h : compile tables script = .error i) :
    (runScript o ids tables script).exit = .crash (.numeral i.reason) := by
  simp only [runScript, h]

theorem exit_runFile_of_error {path : Path} {bytes : List UInt8} {f : Text.Utf8.Fault}
    (h : disk path = .file bytes) (hf : textOf bytes = .error f) :
    (runFile o disk ids tables path).exit = .crash (.bytes f) := by
  simp only [runFile, h, hf]

theorem runFile_of_ok {path : Path} {bytes : List UInt8} {script : List Char}
    (h : disk path = .file bytes) (hs : textOf bytes = .ok script) :
    runFile o disk ids tables path = runScript o ids tables script := by
  simp only [runFile, h, hs]

/-- A script that compiles is reported on unless it is to be played and the tables show a half. -/
theorem reports_runScript_iff {tableBytes bytes : List UInt8} {script : List Char} {c : Compiled}
    (h : Holds tableBytes tables) (htext : textOf bytes = .ok script)
    (hc : compile tables script = .ok c) :
    Reports (runScript o ids tables script).exit tableBytes bytes ↔
      (Acts tables bytes → o.json = true ∨ ∀ t ∈ tables, t.ShowsWhole) := by
  obtain ⟨hzero, hone⟩ := @reports_of_holds tableBytes bytes tables h
  rw [acts_iff htext hc] at hzero hone ⊢
  by_cases hactions : c.actions = []
  · rw [exit_runScript_of_nil hc hactions]
    exact iff_of_true (hone (not_not_intro hactions)) fun hacts => absurd hactions hacts
  · rw [← fault_showFrames_iff hc, exit_runScript_of_ne_nil hc hactions rfl]
    cases (Print.texts (showFrames o (Frame.sequence ids tables c.actions))).fault with
    | none => exact iff_of_true (hzero hactions) fun _ => rfl
    | some f => exact iff_of_false (not_reports_crash _) fun h => nomatch h hactions

/-- Playing the script of a file reports on it just if its commands can be read and, if it comes
    to an action, the frames can be printed. -/
theorem reports_runFile_iff {path : Path} {tableBytes bytes : List UInt8}
    (h : Holds tableBytes tables) (hscript : disk path = .file bytes) :
    Reports (runFile o disk ids tables path).exit tableBytes bytes ↔
      Legible bytes ∧ (Acts tables bytes → o.json = true ∨ ∀ t ∈ tables, t.ShowsWhole) := by
  cases htext : textOf bytes with
  | error f =>
    rw [exit_runFile_of_error hscript htext]
    refine iff_of_false (not_reports_crash _) ?_
    rintro ⟨⟨text, htext', -⟩, -⟩
    rw [htext] at htext'
    cases htext'
  | ok text =>
    have hlegible : Legible bytes ↔ ∃ c, compile tables text = .ok c := by
      unfold Legible
      simp only [htext, Except.ok.injEq, exists_eq_left', Script.exists_compile_iff]
    rw [runFile_of_ok hscript htext, hlegible]
    cases hc : compile tables text with
    | error i =>
      rw [exit_runScript_of_error hc]
      exact iff_of_false (not_reports_crash _) (by simp)
    | ok c =>
      rw [reports_runScript_iff h htext hc]
      exact (and_iff_right ⟨c, rfl⟩).symm

end Playing

/-! ## Runs on two files -/

/-- The options of a run on a file with tables and a file with a script. -/
def onFiles (tables script : String) : Options :=
  { Draft.initial.options with tables := tables, file := some script }

/-- A word that is no option, nor begins one, is not the mark behind which there are no options. -/
theorem ne_dashes_of_plain {s : String} (h : Word.ofString s = .ok (.plain s)) : s ≠ "--" := by
  rintro rfl
  have hseveral : Word.ofString "--" ≠ .ok (.plain "--") := by decide +kernel
  exact hseveral h

theorem read_onFiles {tables script : String} (ht : Word.ofString tables = .ok (.plain tables))
    (hs : Word.ofString script = .ok (.plain script)) :
    Options.read [tables, "-f", script] = .ok (onFiles tables script) := by
  have hfile : Word.ofString "-f" = .ok (.option .file true none) := by decide +kernel
  have hwords : wordsOf [tables, "-f", script] =
      .ok [.plain tables, .option .file true none, .plain script] := by
    simp only [wordsOf, if_neg (ne_dashes_of_plain ht), if_neg (ne_dashes_of_plain hs), ht, hs,
      hfile, if_neg (show "-f" ≠ "--" by decide)]
    rfl
  have hvalue : script.toList ≠ ['-', '-'] := by
    intro hdashes
    exact ne_dashes_of_plain hs (String.toList_inj.1 hdashes)
  have hconsume : consume .initial [.plain tables, .option .file true none, .plain script] =
      ((Draft.initial.name tables).takeAll [(.file, script.toList)]).bind (consume · []) := by
    -- the words behind an option are looked at before the next step, so `consume` opens as a whole
    delta consume
    rfl
  have htake : (Draft.initial.name tables).takeAll [(.file, script.toList)] =
      .ok ⟨onFiles tables script, true, false, []⟩ := by
    simp only [Draft.takeAll, Draft.take, if_neg hvalue, Draft.takeValue, String.ofList_toList]
    rfl
  rw [htake] at hconsume
  rw [Options.read, hwords]
  simp only [bind, Except.bind, hconsume]
  rfl

section Runs

variable {disk : Disk} {fresh : IdSupply} {events : List Session.Event} {tables script : String}
  {tableBytes scriptBytes : List UInt8}

/-- Tables that are not accepted are reported. -/
theorem exit_run_of_not_holds (ht : Names disk tables tableBytes)
    (hs : Word.ofString script = .ok (.plain script)) (h : ¬ ∃ ts, Holds tableBytes ts) :
    (run disk fresh [tables, "-f", script] events).exit = .code 1 := by
  have hload : ∃ message,
      loadTables disk (.ofString (onFiles tables script).tables) = .error message := by
    cases hl : loadTables disk (.ofString (onFiles tables script).tables) with
    | error message => exact ⟨message, rfl⟩
    | ok ts => exact absurd ⟨ts, (loadTables_eq_ok_iff ht.found).1 hl⟩ h
  obtain ⟨message, hmessage⟩ := hload
  simp only [run, start, read_onFiles ht.plain hs, hmessage]
  rfl

/-- With tables that are accepted a run ends as playing the file with the script does. -/
theorem exit_run_of_holds (ht : Names disk tables tableBytes)
    (hs : Word.ofString script = .ok (.plain script)) {ts : List Table}
    (h : Holds tableBytes ts) :
    (run disk fresh [tables, "-f", script] events).exit =
      (runFile (onFiles tables script) disk fresh ts (.ofString script)).exit := by
  have hload : loadTables disk (.ofString (onFiles tables script).tables) = .ok ts :=
    (loadTables_eq_ok_iff ht.found).2 h
  simp only [run, start, read_onFiles ht.plain hs, hload]
  rfl

/-- A run on a file with tables and a file with a script reports bad files, unless the tables are
    accepted and either the script is none whose commands can be read, or it comes to an action
    and the tables show a half. With short numerals the commands can be read if the file is
    UTF-8. -/
theorem reports_iff (ht : Names disk tables tableBytes) (hs : Names disk script scriptBytes) :
    (Reports (run disk fresh [tables, "-f", script] events).exit tableBytes scriptBytes ↔
      ∀ ts, Holds tableBytes ts →
        Legible scriptBytes ∧ (Acts ts scriptBytes → ∀ t ∈ ts, t.ShowsWhole)) ∧
    ((∀ text, textOf scriptBytes = .ok text → Moderate text) →
      (Reports (run disk fresh [tables, "-f", script] events).exit tableBytes scriptBytes ↔
        ∀ ts, Holds tableBytes ts →
          IsText scriptBytes ∧ (Acts ts scriptBytes → ∀ t ∈ ts, t.ShowsWhole))) := by
  have hreports :
      Reports (run disk fresh [tables, "-f", script] events).exit tableBytes scriptBytes ↔
        ∀ ts, Holds tableBytes ts →
          Legible scriptBytes ∧ (Acts ts scriptBytes → ∀ t ∈ ts, t.ShowsWhole) := by
    by_cases haccepted : ∃ ts, Holds tableBytes ts
    · obtain ⟨ts, hts⟩ := haccepted
      rw [exit_run_of_holds ht hs.plain hts, reports_runFile_iff hts hs.found]
      simp only [onFiles, Draft.initial, Bool.false_eq_true, false_or]
      constructor
      · intro h ts' hts'
        cases hts.unique hts'
        exact h
      · exact fun h => h ts hts
    · rw [exit_run_of_not_holds ht hs.plain haccepted]
      exact iff_of_true (reports_of_not_holds haccepted) fun ts hts => absurd ⟨ts, hts⟩ haccepted
  refine ⟨hreports, fun hshort => ?_⟩
  rw [hreports, legible_iff_isText hshort]

end Runs

/-- The bytes of a collection of one table with one row. -/
def oneTable : List UInt8 :=
  "[\x7b\"id\": \"t\", \"name\": \"T\", \"rows\": [\x7b\"id\": \"r\"\x7d]\x7d]".toList.flatMap
    String.utf8EncodeChar

/-- The bytes of a script of one command. -/
def oneCommand : List UInt8 :=
  "highlight in table 'T' row 1".toList.flatMap String.utf8EncodeChar

/-- A directory with a collection and a script. -/
def folder (tables script : List UInt8) : Disk :=
  Disk.ofFiles [("tables.json", tables), ("script.tanim", script)]

theorem folder_paths : Path.ofString "tables.json" = ⟨"", ["tables.json"]⟩ ∧
    Path.ofString "script.tanim" = ⟨"", ["script.tanim"]⟩ := by
  decide +kernel

theorem names_tables (tables script : List UInt8) :
    Names (folder tables script) "tables.json" tables where
  plain := by decide +kernel
  found := by simp [folder, Disk.ofFiles, folder_paths, Disk.Files.follow, Disk.Files.find]

theorem names_script (tables script : List UInt8) :
    Names (folder tables script) "script.tanim" script where
  plain := by decide +kernel
  found := by simp [folder, Disk.ofFiles, folder_paths, Disk.Files.follow, Disk.Files.find]

theorem holds_oneTable : Holds oneTable [⟨"t", "T", [], [⟨"r", []⟩]⟩] := by
  refine ⟨_, textOf_of_decode (Text.Utf8.decode_eq_ok_iff.2 rfl), ?_⟩
  decide +kernel

theorem textOf_oneCommand : textOf oneCommand = .ok "highlight in table 'T' row 1".toList := by
  have hdecode : Text.Utf8.decode oneCommand = .ok "highlight in table 'T' row 1".toList :=
    Text.Utf8.decode_eq_ok_iff.2 rfl
  rw [textOf_of_decode hdecode]
  decide +kernel

theorem moderate_oneCommand : ∀ text, textOf oneCommand = .ok text → Moderate text := by
  intro text htext
  rw [textOf_oneCommand] at htext
  cases htext
  exact .of_length (by decide)

theorem reports_iff_oneCommand :
    Names (folder oneTable oneCommand) "tables.json" oneTable ∧
      Names (folder oneTable oneCommand) "script.tanim" oneCommand ∧
      (∀ text, textOf oneCommand = .ok text → Moderate text) ∧
      (Reports (run (folder oneTable oneCommand) (.counting "new")
          ["tables.json", "-f", "script.tanim"] []).exit oneTable oneCommand ↔
        ∀ ts, Holds oneTable ts →
          Legible oneCommand ∧ (Acts ts oneCommand → ∀ t ∈ ts, t.ShowsWhole)) ∧
      (Reports (run (folder oneTable oneCommand) (.counting "new")
          ["tables.json", "-f", "script.tanim"] []).exit oneTable oneCommand ↔
        ∀ ts, Holds oneTable ts →
          IsText oneCommand ∧ (Acts ts oneCommand → ∀ t ∈ ts, t.ShowsWhole)) := by
  have hreports := @reports_iff (folder oneTable oneCommand) (.counting "new") [] _ _ _ _
    (names_tables oneTable oneCommand) (names_script oneTable oneCommand)
  exact ⟨names_tables oneTable oneCommand, names_script oneTable oneCommand, moderate_oneCommand,
    hreports.1, hreports.2 moderate_oneCommand⟩

theorem textOf_stray : textOf [0xFF] = .error ⟨0xFF, 0, 1, .startByte⟩ := by
  have hdecode : Text.Utf8.decode [0xFF] = .error ⟨0xFF, 0, 1, .startByte⟩ := by
    simp [Text.Utf8.decode, Text.Utf8.decodeFrom, Text.Utf8.Lead.ofByte?]
  rw [textOf, hdecode]
  rfl

/-- A script of one byte that starts no character is not reported. -/
theorem not_reports_stray :
    Names (folder oneTable [0xFF]) "tables.json" oneTable ∧
      Names (folder oneTable [0xFF]) "script.tanim" [0xFF] ∧
      (∀ text, textOf [0xFF] = .ok text → Moderate text) ∧
      (run (folder oneTable [0xFF]) (.counting "new") ["tables.json", "-f", "script.tanim"]
          []).exit = .crash (.bytes ⟨0xFF, 0, 1, .startByte⟩) ∧
      ¬ Reports (run (folder oneTable [0xFF]) (.counting "new")
          ["tables.json", "-f", "script.tanim"] []).exit oneTable [0xFF] := by
  have hexit : (run (folder oneTable [0xFF]) (.counting "new") ["tables.json", "-f", "script.tanim"]
      []).exit = .crash (.bytes ⟨0xFF, 0, 1, .startByte⟩) := by
    rw [exit_run_of_holds (names_tables _ _) (names_script oneTable [0xFF]).plain holds_oneTable,
      exit_runFile_of_error (names_script oneTable [0xFF]).found textOf_stray]
  refine ⟨names_tables _ _, names_script _ _, ?_, hexit, ?_⟩
  · intro text htext
    rw [textOf_stray] at htext
    cases htext
  · rw [hexit]
    exact not_reports_crash _

/-- The bytes of a collection with one half of a surrogate pair as the name of a column. -/
def halfTable : List UInt8 :=
  ("[\x7b\"id\": \"t\", \"name\": \"T\", " ++
    "\"columns\": [\x7b\"id\": \"c\", \"name\": \"\\ud800\"\x7d], " ++
    "\"rows\": [\x7b\"id\": \"r\"\x7d]\x7d]").toList.flatMap String.utf8EncodeChar

theorem holds_halfTable : Holds halfTable [⟨"t", "T", [⟨"c", [.half 0]⟩], [⟨"r", []⟩]⟩] := by
  refine ⟨_, textOf_of_decode (Text.Utf8.decode_eq_ok_iff.2 rfl), ?_⟩
  decide +kernel

/-- With such a name in a collection that is accepted, a good script is not reported either: its
    first frame cannot be printed. -/
theorem not_reports_half :
    Names (folder halfTable oneCommand) "tables.json" halfTable ∧
      Names (folder halfTable oneCommand) "script.tanim" oneCommand ∧
      (∀ text, textOf oneCommand = .ok text → Moderate text) ∧
      (run (folder halfTable oneCommand) (.counting "new") ["tables.json", "-f", "script.tanim"]
          []).exit = .crash (.text ⟨0, 25, 1⟩) ∧
      ¬ Reports (run (folder halfTable oneCommand) (.counting "new")
          ["tables.json", "-f", "script.tanim"] []).exit halfTable oneCommand := by
  have hexit : (run (folder halfTable oneCommand) (.counting "new")
      ["tables.json", "-f", "script.tanim"] []).exit = .crash (.text ⟨0, 25, 1⟩) := by
    rw [exit_run_of_holds (names_tables _ _) (names_script halfTable oneCommand).plain
      holds_halfTable, runFile_of_ok (names_script halfTable oneCommand).found textOf_oneCommand]
    decide +kernel
  refine ⟨names_tables _ _, names_script _ _, moderate_oneCommand, hexit, ?_⟩
  rw [hexit]
  exact not_reports_crash _

end Storyboard.CommandLine
