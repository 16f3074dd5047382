-- SUMMARY: Places as line and character lead back to the offsets that they were made from, and ranges to the text of the command.
import Mathlib.Data.List.Induction
import Storyboard.Editor.Diagnostics
import Storyboard.Proofs.Script.Accounting

/-!
# Places and offsets

A place is read back by walking along the lines of the source (`Position.offset?`). The
place of an offset leads back to the offset (`offset?_positionAt`), and later offsets
have later places (`positionAt_before`). So the range at which a problem of a whole
command is shown leads back to where the command starts and stops, and holds the text
of the command, over however many lines it goes (`diagnostics_cover`).
-/

namespace Storyboard.Editor

open Script

/-! ## Reading places -/

/-- The number of characters up to a place in lines, with a line feed behind each; none if there is no
    such line, or if it is shorter. -/
def offsetIn : List (List Char) → Nat → Nat → Option Nat
  | [], _, _ => none
  | line :: _, 0, character => if character ≤ line.length then some character else none
  | line :: more, n + 1, character => (offsetIn more n character).map (line.length + 1 + ·)

/-- The number of characters of a source up to a place, if it has such a place. -/
def Position.offset? (source : List Char) (p : Position) : Option Nat :=
  offsetIn (Text.lines source) p.line p.character

/-- The text of a source in a range, if it has such places. -/
def Range.textIn? (source : List Char) (r : Range) : Option (List Char) := do
  let start ← r.start.offset? source
  let stop ← r.stop.offset? source
  some (Text.slice start stop source)

/-- One place is on an earlier line than another, or on the same line at an earlier character. -/
def Position.Before (p q : Position) : Prop :=
  p.line < q.line ∨ p.line = q.line ∧ p.character < q.character

/-- A place that can be read is on a line, and not beyond its end. -/
theorem exists_line_of_offsetIn {lines : List (List Char)} {n character offset : Nat}
    (h : offsetIn lines n character = some offset) :
    ∃ line, lines[n]? = some line ∧ character ≤ line.length := by
  fun_induction offsetIn lines n character generalizing offset with
  | case1 => cases h
  | case2 line more character hle => exact ⟨line, rfl, hle⟩
  | case3 => cases h
  | case4 line more n character ih =>
    obtain ⟨rest, hrest, -⟩ := Option.map_eq_some_iff.1 h
    exact ih hrest

/-! ## Places behind a text -/

namespace Position

theorem after_lineFeed_cons (s : List Char) :
    after ('\n' :: s) = ⟨(after s).line + 1, (after s).character⟩ := by
  induction s using List.reverseRecOn with
  | nil => rfl
  | append_singleton s c ih =>
    rw [← List.cons_append]
    by_cases hc : c = '\n'
    · rw [hc, after_append_lineFeed, after_append_lineFeed, ih]
    · rw [after_append_of_ne _ hc, after_append_of_ne _ hc, ih]

/-- Another character at the start counts for the first line. -/
theorem after_cons {c : Char} (h : c ≠ '\n') (s : List Char) :
    after (c :: s) =
      if (after s).line = 0 then ⟨0, (after s).character + 1⟩ else after s := by
  induction s using List.reverseRecOn with
  | nil => exact after_append_of_ne [] h
  | append_singleton s d ih =>
    rw [← List.cons_append]
    by_cases hd : d = '\n'
    · rw [hd, after_append_lineFeed, after_append_lineFeed, ih, if_neg (Nat.succ_ne_zero _)]
      split
      next hzero => rw [hzero]
      next => rfl
    · rw [after_append_of_ne _ hd, after_append_of_ne _ hd, ih]
      by_cases hzero : (after s).line = 0 <;> simp [hzero]

theorem Before.trans {p q r : Position} (hpq : p.Before q) (hqr : q.Before r) : p.Before r := by
  unfold Before at *
  omega

theorem before_after_append_singleton (s : List Char) (c : Char) :
    (after s).Before (after (s ++ [c])) := by
  by_cases hc : c = '\n'
  · rw [hc, after_append_lineFeed]
    exact .inl (Nat.lt_succ_self _)
  · rw [after_append_of_ne s hc]
    exact .inr ⟨rfl, Nat.lt_succ_self _⟩

/-- The place behind a longer text comes later. -/
theorem before_after_append (s : List Char) {w : List Char} (h : w ≠ []) :
    (after s).Before (after (s ++ w)) := by
  induction w using List.reverseRecOn with
  | nil => exact absurd rfl h
  | append_singleton w c ih =>
    rw [← List.append_assoc]
    have hlast := before_after_append_singleton (s ++ w) c
    by_cases hw : w = []
    · rwa [hw, List.append_nil] at hlast ⊢
    · exact (ih hw).trans hlast

/-- The place behind the start of a source is read back as the length of the start. -/
theorem offset?_after (before rest : List Char) :
    (after before).offset? (before ++ rest) = some before.length := by
  unfold offset?
  induction before with
  | nil =>
    obtain ⟨line, more, hl⟩ := List.exists_cons_of_ne_nil (Text.lines_ne_nil rest)
    rw [List.nil_append, hl]
    exact if_pos (Nat.zero_le _)
  | cons c s ih =>
    -- the first character is the end of the first line, or makes it longer by one
    by_cases hc : c = '\n'
    · rw [hc, List.cons_append, Text.lines_lineFeed, after_lineFeed_cons, offsetIn, ih]
      exact congrArg some (Nat.add_comm ..)
    · obtain ⟨line, more, hl, hcl⟩ := Text.lines_cons hc (s ++ rest)
      rw [hl] at ih
      rw [List.cons_append, hcl, after_cons hc]
      split
      next hzero =>
        rw [hzero, offsetIn, Option.ite_none_right_eq_some] at ih
        obtain ⟨hle, hlen⟩ := ih
        rw [Option.some.inj hlen] at hle ⊢
        exact if_pos (Nat.succ_le_succ hle)
      next hne =>
        obtain ⟨n, hn⟩ := Nat.exists_eq_succ_of_ne_zero hne
        rw [hn, offsetIn] at ih ⊢
        obtain ⟨m, hm, hlen⟩ := Option.map_eq_some_iff.1 ih
        rw [hm, Option.map_some, List.length_cons, List.length_cons, ← hlen]
        exact congrArg some (by omega)

end Position

/-! ## Places of offsets -/

variable {source : List Char} {m n : Nat}

theorem positionAt_natCast (source : List Char) (n : Nat) :
    positionAt source n = .after (source.take n) := by
  rw [positionAt, Text.upTo_natCast]

/-- The place of an offset is read back as the offset. -/
theorem offset?_positionAt (h : n ≤ source.length) :
    (positionAt source n).offset? source = some n := by
  have hback := Position.offset?_after (source.take n) (source.drop n)
  rwa [List.take_append_drop, List.length_take_of_le h, ← positionAt_natCast] at hback

/-- Later offsets have later places. -/
theorem positionAt_before (hmn : m < n) (hn : n ≤ source.length) :
    (positionAt source m).Before (positionAt source n) := by
  have htake : source.take n = source.take m ++ (source.drop m).take (n - m) := by
    rw [← List.take_add, Nat.add_sub_cancel' (Nat.le_of_lt hmn)]
  have hne : (source.drop m).take (n - m) ≠ [] := by
    rw [← List.length_pos_iff, List.length_take, List.length_drop]
    omega
  rw [positionAt_natCast, positionAt_natCast, htake]
  exact Position.before_after_append _ hne

/-! ## Ranges of commands -/

/-- A range leads from the start of a command to its end, and holds its text. -/
structure Range.Covers (source : List Char) (command : CommandText) (r : Range) : Prop where
  start : r.start.offset? source = some command.offset
  stop : r.stop.offset? source = some command.stop
  text : r.textIn? source = some command.text

/-- The range of a whole command covers it. -/
theorem covers_rangeOf {command : CommandText} (h : command ∈ split source) :
    (rangeOf source command none).Covers source command := by
  have hstop : command.stop ≤ source.length := by
    obtain ⟨before, after, hs, hoff⟩ := exists_of_mem_split h
    rw [CommandText.stop, hoff, hs, List.length_append, List.length_append]
    omega
  have hstart : command.offset ≤ source.length := (Nat.le_add_right ..).trans hstop
  have hs := offset?_positionAt hstart
  have he := offset?_positionAt hstop
  refine ⟨hs, he, ?_⟩
  simp only [Range.textIn?, rangeOf, hs, he]
  exact congrArg some (drop_take_of_mem_split h)

/-- The problems of a compiled script are about its commands. -/
theorem command_mem_split {tables : List Table} {compiled : Compiled}
    (hc : compile tables source = .ok compiled) {d : Script.Diagnostic}
    (hd : d ∈ compiled.diagnostics) : d.command ∈ split source := by
  obtain ⟨v, hv, hdv⟩ := List.mem_flatMap.1 hd
  rw [Verdict.command_of_mem hdv]
  exact (cases_of_mem_verdicts hc hv).1

/-- Editor ranges cover the commands. Of a script that compiles all problems are shown, and each that
    has no position of its own at a range that covers its command. Places of later offsets are later,
    and the place of an offset leads back to it, on a line that goes as far as the place. -/
theorem diagnostics_cover (tables : List Table) (source : List Char) :
    (∀ compiled, compile tables source = .ok compiled →
      diagnostics (some tables) source = .ok (compiled.diagnostics.map (.ofCompiled source)) ∧
      ∀ d ∈ compiled.diagnostics, d.position = none →
        d.command ∈ split source ∧ (Diagnostic.ofCompiled source d).range.Covers source d.command) ∧
    (∀ m n : Nat, m < n → n ≤ source.length →
      (positionAt source m).Before (positionAt source n)) ∧
    ∀ n : Nat, n ≤ source.length →
      (positionAt source n).offset? source = some n ∧
      ∃ line, (Text.lines source)[(positionAt source n).line]? = some line ∧
        (positionAt source n).character ≤ line.length := by
  refine ⟨fun compiled hc => ⟨?_, fun d hd hnone => ?_⟩, fun m n => positionAt_before, fun n hn => ?_⟩
  · simp only [diagnostics, hc]
  · have hmem := command_mem_split hc hd
    refine ⟨hmem, ?_⟩
    rw [Diagnostic.ofCompiled, hnone]
    exact covers_rangeOf hmem
  · have hback := offset?_positionAt hn
    exact ⟨hback, exists_line_of_offsetIn hback⟩

/-- A command over four lines, on a table that is not there, between a lone semicolon and a comment. -/
def sprawling : List Char :=
  ";\n highlight\n--'\n\tin table 'V'\n row 1 ; -- a\n".toList

/-- What is wrong with it. -/
def tableMissing : Script.Diagnostic where
  kind := Rejection.kind (.unknownTable "V")
  severity := .error
  message := "Table 'V' not found"
  command := ⟨3, "highlight\n--'\n\tin table 'V'\n row 1".toList⟩
  position := none

theorem diagnostics_cover_sprawling :
    ∃ compiled, compile [] sprawling = .ok compiled ∧ compiled.diagnostics = [tableMissing] ∧
      diagnostics (some []) sprawling = .ok [.ofCompiled sprawling tableMissing] ∧
      (Diagnostic.ofCompiled sprawling tableMissing).range = ⟨⟨1, 1⟩, ⟨4, 6⟩⟩ ∧
      (Diagnostic.ofCompiled sprawling tableMissing).range.Covers sprawling tableMissing.command ∧
      (positionAt sprawling 12).Before (positionAt sprawling 13) ∧
      (positionAt sprawling 12).offset? sprawling = some 12 := by
  have hmap : (compile [] sprawling).map Compiled.diagnostics = .ok [tableMissing] := by
    decide +kernel
  have hrange : (Diagnostic.ofCompiled sprawling tableMissing).range = ⟨⟨1, 1⟩, ⟨4, 6⟩⟩ := by
    decide +kernel
  obtain ⟨compiled, hc, hd⟩ := exists_of_map_eq_ok hmap
  obtain ⟨hcompiled, hbefore, hback⟩ := diagnostics_cover [] sprawling
  obtain ⟨hshown, hcovers⟩ := hcompiled compiled hc
  rw [hd] at hshown hcovers
  have hcover := (hcovers tableMissing (List.mem_singleton_self _) rfl).2
  exact ⟨compiled, hc, hd, hshown, hrange, hcover, hbefore 12 13 (by decide) (by decide),
    (hback 12 (by decide)).1⟩

end Storyboard.Editor
