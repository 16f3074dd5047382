-- SUMMARY: Every command of a script is a script of one command, and the commands that are kept come to the same when they are put together again without the others.
import Storyboard.Proofs.Script.Accounting
import Storyboard.Proofs.Script.Seam

/-!
# Putting commands together again

What stands around a command in its script decides how its quotes are read. Without it
one thing may change: a quote that found its partner at the end of the command, but
before a blank that may not follow a literal, now opens a literal. That literal takes
in all the rest, so that there is still no cut in the command (`stretches_of_append`,
`split_text`). Hence commands with semicolons on lines of their own between them are
split back into the same texts (`text_split_rejoin`), and since a rejected command adds
no column, those that are kept are judged as they were among the others
(`judge_kept`, `Reader.compile_kept`).
-/

namespace Storyboard.Script

/-! ## Stretches by themselves -/

/-- Behind the first stretch the script is at its end or at a semicolon. -/
theorem exists_behind_first {s first : List Char} {more : List (List Char)}
    (h : stretches s = first :: more) : ∃ t, s = first ++ t ∧ ∀ c ∈ t.head?, c = ';' := by
  have hjoin := join_stretches s
  rw [h] at hjoin
  cases more with
  | nil => exact ⟨[], by simpa [List.intercalate] using hjoin.symm, by simp⟩
  | cons next more =>
    rw [List.intercalate_cons_of_ne_nil (by simp)] at hjoin
    exact ⟨';' :: List.intercalate [';'] (next :: more), by simpa using hjoin.symm, by simp⟩

/-- Every stretch is the first one of some text. -/
theorem exists_first_of_mem_stretches {s stretch : List Char} (h : stretch ∈ stretches s) :
    ∃ u more, stretches u = stretch :: more := by
  fun_induction stretches s with
  | case1 =>
    cases List.mem_singleton.1 h
    exact ⟨[], [], stretches_nil⟩
  | case2 rest ih =>
    rcases List.mem_cons.1 h with rfl | h
    · exact ⟨';' :: rest, stretches rest, stretches_semicolon rest⟩
    · exact ih h
  | case3 c rest hc n ih =>
    cases hs : stretches (rest.drop n) with
    | nil => exact absurd hs (stretches_ne_nil _)
    | cons first more =>
      rw [hs] at h
      rcases List.mem_cons.1 h with rfl | h
      · exact ⟨c :: rest, more, by rw [stretches_cons hc, hs]; rfl⟩
      · exact ih (hs ▸ List.mem_cons_of_mem first h)

/-- Without what stands behind it, a quote opens the same literal or one that takes in all the
    rest. The blanks that go with what stands behind are not part of the literal. -/
theorem unitExtra_quote_alone {q : Char} (hq : isQuote q = true) {w e t : List Char} (he : q ∉ e)
    (hn : unitExtra q (w ++ (e ++ t)) ≤ (w ++ e).length) :
    unitExtra q w = unitExtra q (w ++ (e ++ t)) ∨ unitExtra q w = w.length := by
  simp only [unitExtra_quote hq] at hn ⊢
  by_cases hm : q ∈ w
  · obtain ⟨body, after, rfl, hbody⟩ := List.eq_append_cons_of_mem hm
    rw [List.append_assoc, List.cons_append, literalLength?_span hbody, literalLength?_span hbody]
    cases after with
    | cons c after => exact .inl rfl
    | nil =>
      by_cases hline : '\n' ∈ body
      · simp [hline]
      · simp [hline, endsLiteral]
  · -- a literal that ends behind the blanks would be longer than it is
    rw [literalLength?_unclosed hm]
    refine .inl ?_
    by_cases hmt : q ∈ t
    · obtain ⟨body, after, rfl, hbody⟩ := List.eq_append_cons_of_mem hmt
      have hspan : q ∉ w ++ (e ++ body) := by simp [hm, he, hbody]
      rw [← List.append_assoc e, ← List.append_assoc w, literalLength?_span hspan] at hn ⊢
      split at hn
      next =>
        simp only [Option.getD_some, List.length_append] at hn
        omega
      next hnone => rw [if_neg hnone]
    · rw [literalLength?_unclosed (by simp [hm, he, hmt])]

/-- The same for any unit: by itself it is what it was, or it takes in all the rest. -/
theorem unitExtra_alone {c : Char} {w e t : List Char} (he : ∀ d ∈ e, Text.isBlank d = true)
    (ht : ∀ d ∈ t.head?, d = ';') (hn : unitExtra c (w ++ (e ++ t)) ≤ (w ++ e).length) :
    unitExtra c w = unitExtra c (w ++ (e ++ t)) ∨ unitExtra c w = w.length := by
  by_cases hq : isQuote c = true
  · refine unitExtra_quote_alone hq (fun hm => ?_) hn
    have hblank := he c hm
    rw [isQuote_not_isBlank hq] at hblank
    cases hblank
  have hq : isQuote c = false := Bool.eq_false_iff.2 hq
  have hbehind : (e ++ t).head? ≠ some '-' := by
    intro hd
    cases e with
    | nil => exact absurd (ht '-' hd) (by decide)
    | cons d e =>
      cases hd
      exact absurd (he '-' (List.mem_cons_self ..)) (by decide)
  cases w with
  | nil => exact .inr (unitExtra_eq_zero hq (by simp))
  | cons d w =>
    by_cases hdash : c = '-' ∧ d = '-'
    · obtain ⟨rfl, rfl⟩ := hdash
      rw [List.cons_append, unitExtra_comment, unitExtra_comment, ← List.cons_append]
      by_cases hline : '\n' ∈ '-' :: w
      · obtain ⟨line, more, hw, hnone⟩ := List.eq_append_cons_of_mem hline
        rw [hw, List.append_assoc, List.cons_append, Text.takeWhile_ne_append hnone,
          Text.takeWhile_ne_append hnone]
        exact .inl rfl
      · rw [Text.takeWhile_ne_self hline]
        exact .inr rfl
    · have hhead : ∀ s : List Char, c = '-' → (d :: s).head? ≠ some '-' := by
        intro s hc hd
        exact hdash ⟨hc, Option.some.inj hd⟩
      exact .inl (by rw [List.cons_append, unitExtra_eq_zero hq (hhead w),
        unitExtra_eq_zero hq (hhead _)])

/-- Blanks aside at its end, the first stretch of a script has no cut when it stands alone. -/
theorem stretches_of_append {s first c e : List Char} {more : List (List Char)}
    (h : stretches s = first :: more) (hf : first = c ++ e)
    (he : ∀ d ∈ e, Text.isBlank d = true) : stretches c = [c] := by
  fun_induction stretches s generalizing first more c with
  | case1 =>
    obtain ⟨rfl, -⟩ := List.cons.inj h
    rw [(List.append_eq_nil_iff.1 hf.symm).1, stretches_nil]
  | case2 rest =>
    obtain ⟨rfl, -⟩ := List.cons.inj h
    rw [(List.append_eq_nil_iff.1 hf.symm).1, stretches_nil]
  | @case3 d rest hd n ih =>
    obtain ⟨head, tail, hs⟩ :=
      List.exists_cons_of_ne_nil (stretches_ne_nil (rest.drop (unitExtra d rest)))
    rw [hs] at h
    obtain ⟨rfl, -⟩ := List.cons.inj h
    cases c with
    | nil => exact stretches_nil
    | cons d' w =>
      obtain ⟨rfl, hw⟩ := List.cons.inj hf
      change rest.take (unitExtra d rest) ++ head = w ++ e at hw
      obtain ⟨t, hdrop, ht⟩ := exists_behind_first hs
      have hrest : rest = w ++ (e ++ t) := by
        rw [← List.append_assoc, ← hw, List.append_assoc, ← hdrop, List.take_append_drop]
      have hle : unitExtra d rest ≤ (w ++ e).length := by
        rw [← hw, List.length_append, List.length_take_of_le (unitExtra_le d rest)]
        exact Nat.le_add_right ..
      have hunit := unitExtra_alone (c := d) (w := w) he ht (by rw [← hrest]; exact hle)
      rw [← hrest] at hunit
      rw [stretches_cons hd]
      rcases hunit with hunit | hunit
      · -- the unit is the same, and the rest of the stretch has no cut either
        have hlen := unitExtra_le d w
        rw [hunit] at hlen ⊢
        have htake : rest.take (unitExtra d rest) = w.take (unitExtra d rest) := by
          rw [hrest] at hlen ⊢
          exact List.take_append_of_le_length hlen
        have hhead : head = w.drop (unitExtra d rest) ++ e := by
          refine (List.append_right_inj (w.take (unitExtra d rest))).1 ?_
          rw [← htake, hw, htake, ← List.append_assoc, List.take_append_drop]
        rw [ih hs hhead, extendFirst, List.cons_append, List.take_append_drop]
      · rw [hunit, List.take_length, List.drop_length, stretches_nil, extendFirst, List.append_nil]

/-- A stretch without the blanks at its ends is a script without a cut. -/
theorem stretches_strip {s stretch : List Char} (h : stretch ∈ stretches s) :
    stretches (Text.strip stretch) = [Text.strip stretch] := by
  obtain ⟨u, more, hu⟩ := exists_first_of_mem_stretches h
  obtain ⟨b, e, hs, -, hb, he⟩ := Text.exists_margins stretch
  have hwhole : stretches (b ++ Text.strip stretch) = [b ++ Text.strip stretch] :=
    stretches_of_append hu (by rw [List.append_assoc]; exact hs) he
  have hplain : ∀ d ∈ b, isPlain d = true := fun d hd => isPlain_of_class (by decide) (hb d hd)
  rw [stretches_append_of_plain hplain] at hwhole
  obtain ⟨head, tail, hhead⟩ :=
    List.exists_cons_of_ne_nil (stretches_ne_nil (Text.strip stretch))
  rw [hhead] at hwhole ⊢
  obtain ⟨heq, rfl⟩ := List.cons.inj hwhole
  rw [List.append_cancel_left heq]

/-! ## Commands by themselves -/

/-- A command of stretches is the one in some stretch. -/
theorem exists_stretch_of_mem {start : Nat} {l : List (List Char)} {c : CommandText}
    (h : c ∈ commandsFrom start l) : ∃ stretch ∈ l, ∃ n, commandIn? n stretch = some c := by
  induction l generalizing start with
  | nil => cases h
  | cons stretch more ih =>
    rcases List.mem_append.1 h with h | h
    · exact ⟨stretch, List.mem_cons_self .., start, Option.mem_toList.1 h⟩
    · obtain ⟨other, hm, hn⟩ := ih h
      exact ⟨other, List.mem_cons_of_mem stretch hm, hn⟩

/-- The command in a stretch is all that it holds. -/
theorem commandIn?_strip {start : Nat} {stretch : List Char} {c : CommandText}
    (h : commandIn? start stretch = some c) :
    c.text = Text.strip stretch ∧ commandIn? 0 c.text = some ⟨0, c.text⟩ := by
  unfold commandIn? at h
  simp only at h
  split at h
  next => cases h
  next hreal =>
    cases h
    have hleft : Text.stripLeft (Text.strip stretch) = Text.strip stretch :=
      Text.stripLeft_eq_self fun d hd => Text.strip_head hd
    refine ⟨rfl, ?_⟩
    simp only [commandIn?, Text.strip_strip, hleft, if_neg hreal, Nat.sub_self, Nat.add_zero]

/-- Every command of a script is, as a script, this one command. -/
theorem split_text {script : List Char} {c : CommandText} (h : c ∈ split script) :
    split c.text = [⟨0, c.text⟩] := by
  obtain ⟨stretch, hm, n, hc⟩ := exists_stretch_of_mem h
  obtain ⟨htext, halone⟩ := commandIn?_strip hc
  have hwhole : stretches c.text = [c.text] := by
    rw [htext]
    exact stretches_strip hm
  simp only [split, hwhole, commandsFrom, halone]
  rfl

/-- Texts with a semicolon on a line of its own between every two of them. -/
def rejoin (texts : List (List Char)) : List Char :=
  List.intercalate ['\n', ';', '\n'] texts

/-- Commands that are put together again are split into the same texts. -/
theorem text_split_rejoin {texts : List (List Char)} (h : ∀ t ∈ texts, split t = [⟨0, t⟩]) :
    (split (rejoin texts)).map (·.text) = texts := by
  induction texts with
  | nil => decide +kernel
  | cons t texts ih =>
    have ht := h t (List.mem_cons_self ..)
    have ih := ih fun u hu => h u (List.mem_cons_of_mem t hu)
    cases texts with
    | nil =>
      have hlone : rejoin [t] = t := by simp [rejoin, List.intercalate]
      rw [hlone, ht]
      rfl
    | cons u texts =>
      have hrejoin : rejoin (t :: u :: texts) = t ++ '\n' :: ';' :: '\n' :: rejoin (u :: texts) := by
        rw [rejoin, List.intercalate_cons_of_ne_nil (by simp)]
        simp [rejoin]
      have hshift : ∀ (n : Nat) (cs : List CommandText),
          (cs.map (CommandText.shift n)).map (·.text) = cs.map (·.text) := by
        intro n cs
        rw [List.map_map]
        rfl
      rw [hrejoin, split_loneSemicolon, List.map_append, hshift, ih, ht]
      rfl

/-- Splitting is stable. The commands of a script that are put together again are split into the
    same texts, and each by itself is split into itself. -/
theorem split_rejoin (script : List Char) :
    (split (rejoin ((split script).map (·.text)))).map (·.text) = (split script).map (·.text) ∧
      ∀ c ∈ split script, split c.text = [⟨0, c.text⟩] := by
  refine ⟨text_split_rejoin fun t ht => ?_, fun c hc => split_text hc⟩
  obtain ⟨c, hc, rfl⟩ := List.mem_map.1 ht
  exact split_text hc

/-! ## Verdicts on the commands that are kept -/

/-- The verdicts that keep their commands. -/
def keptAmong (vs : List Verdict) : List Verdict :=
  vs.filter (·.action?.isSome)

/-- The commands that are kept have the same outcomes when the rejected ones are left out. -/
theorem judge_kept {tables : List Table} {added : AddedColumns} {cmds others : List CommandText}
    {vs : List Verdict} (h : judge tables added cmds = (vs, none))
    (ho : others.map (·.text) = (keptAmong vs).map (·.command.text)) :
    ∃ vs', judge tables added others = (vs', none) ∧
      vs'.map (·.outcome) = (keptAmong vs).map (·.outcome) := by
  induction cmds generalizing added others vs with
  | nil =>
    cases h
    rw [List.map_eq_nil_iff.1 ho]
    exact ⟨[], rfl, rfl⟩
  | cons c rest ih =>
    cases hc : interpret tables c.text with
    | error e =>
      rw [judge_cons_of_error hc] at h
      cases h
    | ok o =>
      rw [judge_cons_of_ok hc] at h
      obtain ⟨rfl, hstop⟩ := Prod.mk.inj h
      have hrest : judge tables ((o.amid added).addedColumn?.toList ++ added) rest = (_, none) :=
        Prod.ext rfl hstop
      cases hv : o.amid added with
      | rejected cause position =>
        -- the command adds no column, and the others are those behind it
        rw [hv] at hrest ho
        obtain ⟨vs', hjudge, houtcomes⟩ := ih hrest ho
        exact ⟨vs', hjudge, houtcomes⟩
      | kept r =>
        rw [hv] at hrest ho
        obtain ⟨c', others, rfl, htext, ho⟩ := List.map_eq_cons_iff.1 ho
        obtain ⟨vs', hjudge, houtcomes⟩ := ih hrest ho
        have hc' : interpret tables c'.text = .ok o := by rw [htext, hc]
        refine ⟨⟨c', .kept r⟩ :: vs', ?_, congrArg (_ :: ·) houtcomes⟩
        rw [judge_cons_of_ok hc', hv, hjudge]

/-! ## What the kept commands come to -/

/-- The texts of the commands of a script that are kept. -/
def Compiled.keptTexts (c : Compiled) : List (List Char) :=
  (keptAmong c.verdicts).map (·.command.text)

/-- The kind and the wording of a problem, without its place. -/
def Diagnostic.remark (p : Diagnostic) : ProblemKind × CodePoints :=
  (p.kind, p.message)

/-- The remarks that an outcome leaves. -/
def Outcome.remarks (o : Outcome) : List (ProblemKind × CodePoints) :=
  o.cautions.map fun c => (c.kind, c.message)

/-- The action of an outcome. -/
def Outcome.action? : Outcome → Option Action
  | rejected .. => none
  | kept r => some r.action

theorem Verdict.action?_eq (v : Verdict) : v.action? = v.outcome.action? := by
  obtain ⟨command, outcome⟩ := v
  cases outcome <;> rfl

/-- The actions of verdicts hang on their outcomes only. -/
theorem filterMap_action? (vs : List Verdict) :
    vs.filterMap Verdict.action? = (vs.map (·.outcome)).filterMap Outcome.action? := by
  rw [List.filterMap_map]
  exact congrArg (List.filterMap · vs) (funext Verdict.action?_eq)

theorem filterMap_keptAmong (vs : List Verdict) :
    (keptAmong vs).filterMap Verdict.action? = vs.filterMap Verdict.action? := by
  unfold keptAmong
  rw [List.filterMap_filter]
  refine congrArg (List.filterMap · vs) (funext fun v => ?_)
  cases v.action? <;> rfl

theorem Verdict.remarks_eq (v : Verdict) :
    (v.diagnostics.filter (·.severity = .warning)).map Diagnostic.remark = v.outcome.remarks := by
  obtain ⟨command, outcome⟩ := v
  cases outcome with
  | rejected cause position => rfl
  | kept r =>
    have hall : (diagnostics ⟨command, .kept r⟩).filter (·.severity = .warning) =
        diagnostics ⟨command, .kept r⟩ := by
      refine List.filter_eq_self.2 fun p hp => ?_
      obtain ⟨caution, -, rfl⟩ := List.mem_map.1 hp
      rfl
    rw [hall]
    exact List.map_map

/-- The warnings of verdicts are the remarks that their outcomes leave. -/
theorem remarks_diagnostics (vs : List Verdict) :
    ((vs.flatMap Verdict.diagnostics).filter (·.severity = .warning)).map Diagnostic.remark =
      (vs.map (·.outcome)).flatMap Outcome.remarks := by
  induction vs with
  | nil => rfl
  | cons v vs ih =>
    simp only [List.flatMap_cons, List.filter_append, List.map_append, List.map_cons, ih,
      v.remarks_eq]

/-- A rejected command leaves no remark. -/
theorem remarks_keptAmong (vs : List Verdict) :
    ((keptAmong vs).map (·.outcome)).flatMap Outcome.remarks =
      (vs.map (·.outcome)).flatMap Outcome.remarks := by
  induction vs with
  | nil => rfl
  | cons v vs ih =>
    obtain ⟨command, outcome⟩ := v
    cases outcome with
    | rejected cause position => exact ih
    | kept r => exact congrArg (Outcome.remarks (.kept r) ++ ·) ih

/-- The problems of commands that are all kept are warnings. -/
theorem severity_of_kept {vs : List Verdict}
    (h : ∀ o ∈ vs.map (·.outcome), o.action?.isSome = true) :
    ∀ p ∈ vs.flatMap Verdict.diagnostics, p.severity = .warning := by
  intro p hp
  obtain ⟨⟨command, outcome⟩, hv, hp⟩ := List.mem_flatMap.1 hp
  have hkept := h outcome (List.mem_map_of_mem hv)
  cases outcome with
  | rejected cause position => cases hkept
  | kept r =>
    obtain ⟨caution, -, rfl⟩ := List.mem_map.1 hp
    rfl

/-- Rejected commands leave no trace. A script is compiled with any reader; the texts of its kept
    commands alone, with semicolons on lines of their own between them, then compile with any
    reader to the same actions, without an error and with the same warnings. -/
theorem Reader.compile_kept {r : Reader} {tables : List Table} {script : List Char} {d : Draft}
    (h : r.compile tables script = .ok d) :
    ∃ c, Script.compile tables script = .ok c ∧ c.actions = d.actions ∧
      ∀ r' : Reader, ∃ d', r'.compile tables (rejoin c.keptTexts) = .ok d' ∧
        d'.actions = d.actions ∧ (∀ p ∈ d'.diagnostics, p.severity = .warning) ∧
        d'.diagnostics.map Diagnostic.remark =
          (d.diagnostics.filter (·.severity = .warning)).map Diagnostic.remark := by
  obtain ⟨c, hc, hactions, hdiagnostics, -⟩ := exists_compiled h
  have hjudge := compile_eq_ok_iff.1 hc
  obtain ⟨hcommands, -⟩ := verdicts_of_judge hjudge
  have htexts : (split (rejoin c.keptTexts)).map (·.text) = c.keptTexts := by
    refine text_split_rejoin fun t ht => ?_
    obtain ⟨v, hv, rfl⟩ := List.mem_map.1 ht
    have hmem : v.command ∈ split script := by
      rw [← hcommands]
      exact List.mem_map_of_mem (List.mem_of_mem_filter hv)
    exact split_text hmem
  obtain ⟨vs, hvs, houtcomes⟩ := judge_kept hjudge htexts
  have hagain : Script.compile tables (rejoin c.keptTexts) = .ok ⟨vs⟩ := compile_eq_ok_iff.2 hvs
  have hsame : vs.filterMap Verdict.action? = c.actions := by
    rw [filterMap_action?, houtcomes, ← filterMap_action?, filterMap_keptAmong]
    rfl
  have hwarnings : ∀ p ∈ vs.flatMap Verdict.diagnostics, p.severity = .warning := by
    refine severity_of_kept fun o ho => ?_
    rw [houtcomes] at ho
    obtain ⟨v, hv, rfl⟩ := List.mem_map.1 ho
    rw [← v.action?_eq]
    exact (List.mem_filter.1 hv).2
  have hremarks : (vs.flatMap Verdict.diagnostics).map Diagnostic.remark =
      (c.diagnostics.filter (·.severity = .warning)).map Diagnostic.remark := by
    have hall : (vs.flatMap Verdict.diagnostics).filter (·.severity = .warning) =
        vs.flatMap Verdict.diagnostics :=
      List.filter_eq_self.2 fun p hp => decide_eq_true (hwarnings p hp)
    rw [← hall, remarks_diagnostics, houtcomes, remarks_keptAmong, ← remarks_diagnostics]
    rfl
  refine ⟨c, hc, hactions.symm, fun r' => ?_⟩
  obtain ⟨d', hd', ha, hp, -⟩ := exists_draft hagain r'
  refine ⟨d', hd', ?_, ?_, ?_⟩
  · rw [ha, hactions]
    exact hsame
  · rw [hp]
    exact hwarnings
  · rw [hp, hdiagnostics]
    exact hremarks

/-- A script with a literal before a blank that may not follow one, a stray quote, a value for a
    row that is not there, and a column that is added twice. -/
def strewn : List Char :=
  ("highlight in table 'T' column 'C'\u00a0;\noops';\nadd in table 'T' column 'D' "
    ++ "cells [\x7b9-';'\x7d]; add in table 'T' column 'D'").toList

theorem Reader.compile_kept_strewn :
    ∃ d, used.compile [ledger] strewn = .ok d ∧ d.commandCount = 4 ∧
      ∃ c, Script.compile [ledger] strewn = .ok c ∧
        c.keptTexts = ["highlight in table 'T' column 'C'".toList,
          "add in table 'T' column 'D' cells [\x7b9-';'\x7d]".toList] ∧
        c.actions = d.actions ∧
        ∀ r' : Reader, ∃ d', r'.compile [ledger] (rejoin c.keptTexts) = .ok d' ∧
          d'.actions = d.actions ∧ (∀ p ∈ d'.diagnostics, p.severity = .warning) ∧
          d'.diagnostics.map Diagnostic.remark =
            (d.diagnostics.filter (·.severity = .warning)).map Diagnostic.remark := by
  have hresult : (Script.compile [ledger] strewn).map (fun c => (c.commandCount, c.keptTexts)) =
      .ok (4, ["highlight in table 'T' column 'C'".toList,
        "add in table 'T' column 'D' cells [\x7b9-';'\x7d]".toList]) := by
    decide +kernel
  obtain ⟨c, hc, hparts⟩ := exists_of_map_eq_ok hresult
  obtain ⟨hcount, htexts⟩ := Prod.mk.inj hparts
  obtain ⟨d, hd, -, -, hdraft⟩ := Reader.exists_draft hc used
  obtain ⟨c', hc', hactions, hkept⟩ := Reader.compile_kept hd
  cases hc.symm.trans hc'
  exact ⟨d, hd, hdraft.trans hcount, c, hc, htexts, hactions, hkept⟩

end Storyboard.Script
