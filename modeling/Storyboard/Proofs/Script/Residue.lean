-- SUMMARY: Before, between and behind the commands of a script there are only blanks, semicolons and comments.
import Storyboard.Proofs.Script.Rejoining

/-!
# What is left beside the commands

Two tests say that there is no command in some part of a script: the splitter goes
through comments character by character, while a stretch is dropped when each of its
lines is blank or a comment. Both come to one notion, that of the text without its
comments (`withoutComments`): a text is idle just if only blanks are left of it
(`isIdle_iff`). Texts of which only blanks and semicolons are left (`Barren`) can be put
together (`Barren.append`), so that a script is made up of its commands and barren texts
around them (`parted_split`), and has no command just if it is itself barren
(`split_eq_nil_iff`).
-/

namespace Storyboard.Script

/-! ## Texts without their comments -/

/-- The text without its comments: two dashes are left out with the rest of their line. -/
def withoutComments : List Char → List Char
  | [] => []
  | c :: rest =>
    if c = '-' ∧ rest.head? = some '-' then withoutComments (rest.dropWhile (· ≠ '\n'))
    else c :: withoutComments rest
termination_by s => s.length
decreasing_by
  · exact Nat.lt_succ_of_le (List.dropWhile_sublist _).length_le
  · exact Nat.lt_succ_self _

@[simp]
theorem withoutComments_nil : withoutComments [] = [] := by
  rw [withoutComments]

theorem withoutComments_dashes (w : List Char) :
    withoutComments ('-' :: '-' :: w) = withoutComments (w.dropWhile (· ≠ '\n')) := by
  rw [withoutComments, if_pos ⟨rfl, rfl⟩, List.dropWhile_cons_of_pos (by decide)]

theorem withoutComments_cons {c : Char} {s : List Char} (h : c = '-' → s.head? ≠ some '-') :
    withoutComments (c :: s) = c :: withoutComments s := by
  rw [withoutComments, if_neg fun hc => h hc.1 hc.2]

/-- A text is empty, it starts with a comment, or with a character that starts none. -/
theorem withoutComments_induction {motive : List Char → Prop} (nil : motive [])
    (comment : ∀ w, motive (w.dropWhile (· ≠ '\n')) → motive ('-' :: '-' :: w))
    (char : ∀ c rest, (c = '-' → rest.head? ≠ some '-') → motive rest → motive (c :: rest))
    (s : List Char) : motive s := by
  fun_induction withoutComments s with
  | case1 => exact nil
  | case2 c rest h ih =>
    obtain ⟨rfl, hhead⟩ := h
    obtain ⟨w, rfl⟩ := List.head?_eq_some_iff.1 hhead
    rw [List.dropWhile_cons_of_pos (by decide)] at ih
    exact comment w ih
  | case3 c rest h ih => exact char c rest (fun hc hhead => h ⟨hc, hhead⟩) ih

theorem withoutComments_sublist (s : List Char) : (withoutComments s).Sublist s := by
  induction s using withoutComments_induction with
  | nil => simp
  | comment w ih =>
    rw [withoutComments_dashes]
    exact ((ih.trans (List.dropWhile_sublist _)).cons '-').cons '-'
  | char c rest h ih =>
    rw [withoutComments_cons h]
    exact ih.cons_cons c

/-- What is left from the end of the first line on is left of the whole text. -/
theorem withoutComments_dropWhile_subset (s : List Char) :
    withoutComments (s.dropWhile (· ≠ '\n')) ⊆ withoutComments s := by
  induction s using withoutComments_induction with
  | nil => simp
  | comment w ih =>
    rw [withoutComments_dashes, List.dropWhile_cons_of_pos (by decide),
      List.dropWhile_cons_of_pos (by decide)]
    exact List.Subset.refl _
  | char c rest h ih =>
    by_cases hc : c = '\n'
    · rw [List.dropWhile_cons_of_neg (by simp [hc])]
      exact List.Subset.refl _
    · rw [List.dropWhile_cons_of_pos (by simpa using hc), withoutComments_cons h]
      exact List.subset_cons_of_subset c ih

/-- What is left of two texts put together is left of one of them. A comment may go on in the
    second, and dashes may meet. -/
theorem withoutComments_append_subset (s t : List Char) :
    withoutComments (s ++ t) ⊆ withoutComments s ++ withoutComments t := by
  induction s using withoutComments_induction with
  | nil => simp
  | comment w ih =>
    rw [List.cons_append, List.cons_append, withoutComments_dashes, withoutComments_dashes,
      List.dropWhile_append]
    split
    next => exact List.subset_append_of_subset_right _ (withoutComments_dropWhile_subset t)
    next => exact ih
  | char c rest h ih =>
    -- a dash at the end of the first text and one at the start of the second make a comment
    by_cases hmeet : c = '-' ∧ (rest ++ t).head? = some '-'
    · obtain ⟨rfl, hhead⟩ := hmeet
      cases rest with
      | cons d rest => exact absurd hhead (h rfl)
      | nil =>
        obtain ⟨w, rfl⟩ := List.head?_eq_some_iff.1 hhead
        have hline := withoutComments_dropWhile_subset ('-' :: w)
        rw [List.dropWhile_cons_of_pos (by decide)] at hline
        rw [List.cons_append, List.nil_append, withoutComments_dashes]
        exact List.subset_append_of_subset_right _ hline
    · rw [List.cons_append, withoutComments_cons fun hc hhead => hmeet ⟨hc, hhead⟩,
        withoutComments_cons h]
      exact List.cons_subset_cons c ih

/-- What is left of a text is left of it with another behind it that does not start with a dash. -/
theorem withoutComments_subset_append {t : List Char} (ht : t.head? ≠ some '-') (s : List Char) :
    withoutComments s ⊆ withoutComments (s ++ t) := by
  induction s using withoutComments_induction with
  | nil => simp
  | comment w ih =>
    rw [List.cons_append, List.cons_append, withoutComments_dashes, withoutComments_dashes,
      List.dropWhile_append]
    split
    next hnone =>
      rw [List.isEmpty_iff.1 hnone, withoutComments_nil]
      exact List.nil_subset _
    next => exact ih
  | char c rest h ih =>
    have hapart : c = '-' → (rest ++ t).head? ≠ some '-' := by
      intro hc hhead
      cases rest with
      | nil => exact ht hhead
      | cons d rest => exact h hc hhead
    rw [List.cons_append, withoutComments_cons h, withoutComments_cons hapart]
    exact List.cons_subset_cons c ih

/-! ## Idle texts -/

theorem isIdleLine_dashes (w : List Char) : isIdleLine ('-' :: '-' :: w) = true := by
  have hdash : Text.isBlank '-' = false := by decide
  rw [isIdleLine, Text.strip_cons hdash, Text.stripRight_cons hdash]
  rfl

/-- A comment makes no difference to whether a text is idle. -/
theorem isIdle_dashes (w : List Char) :
    isIdle ('-' :: '-' :: w) = isIdle (w.dropWhile (· ≠ '\n')) := by
  by_cases hm : '\n' ∈ w
  · obtain ⟨line, t, rfl, hline⟩ := List.eq_append_cons_of_mem hm
    have hdashes : '\n' ∉ '-' :: '-' :: line := by simp [hline]
    have hidle := isIdle_append_lineFeed hdashes t
    rw [isIdleLine_dashes, Bool.true_and] at hidle
    rw [Text.dropWhile_ne_append hline, isIdle_cons_of_isBlank (c := '\n') (by decide)]
    exact hidle
  · have hlines : Text.lines ('-' :: '-' :: w) = ['-' :: '-' :: w] :=
      Text.lines_eq_singleton (by simp [hm])
    rw [Text.dropWhile_ne_self hm, isIdle, hlines, List.all_cons, isIdleLine_dashes]
    rfl

/-- A text is idle just if only blanks are left of it without its comments. -/
theorem isIdle_iff (s : List Char) :
    isIdle s = true ↔ ∀ c ∈ withoutComments s, Text.isBlank c = true := by
  induction s using withoutComments_induction with
  | nil => exact iff_of_true rfl (by simp)
  | comment w ih => rw [isIdle_dashes, withoutComments_dashes, ih]
  | char c rest h ih =>
    rw [withoutComments_cons h, List.forall_mem_cons]
    by_cases hb : Text.isBlank c = true
    · rw [isIdle_cons_of_isBlank hb, ih]
      exact (and_iff_right hb).symm
    · rw [isIdle_cons_eq_false (Bool.eq_false_iff.2 hb) h]
      exact iff_of_false Bool.false_ne_true fun hall => hb hall.1

theorem isIdle_append_of_blank {b : List Char} (hb : ∀ c ∈ b, Text.isBlank c = true)
    (s : List Char) : isIdle (b ++ s) = isIdle s := by
  induction b with
  | nil => rfl
  | cons c b ih =>
    rw [List.forall_mem_cons] at hb
    rw [List.cons_append, isIdle_cons_of_isBlank hb.1, ih hb.2]

/-- Trimming makes no difference to whether a text is idle. -/
theorem isIdle_strip (s : List Char) : isIdle (Text.strip s) = isIdle s := by
  obtain ⟨b, e, hs, -, hb, he⟩ := Text.exists_margins s
  have hdash : e.head? ≠ some '-' := fun hd =>
    absurd (he '-' (List.mem_of_head? hd)) (by decide)
  conv_rhs => rw [hs, isIdle_append_of_blank hb]
  rw [Bool.eq_iff_iff, isIdle_iff, isIdle_iff]
  constructor
  · intro h c hc
    rcases List.mem_append.1 (withoutComments_append_subset _ _ hc) with hc | hc
    · exact h c hc
    · exact he c ((withoutComments_sublist e).subset hc)
  · intro h c hc
    exact h c (withoutComments_subset_append hdash _ hc)

/-- There is no command in a stretch just if this is idle. -/
theorem commandIn?_eq_none_iff {start : Nat} {stretch : List Char} :
    commandIn? start stretch = none ↔ isIdle stretch = true := by
  have htest : ((Text.strip stretch).isEmpty || isIdle (Text.strip stretch)) = isIdle stretch := by
    rw [← isIdle_strip stretch]
    cases Text.strip stretch <;> rfl
  simp [commandIn?, htest]

/-- Every command is trimmed, and has a line that is neither blank nor a comment. -/
theorem text_of_mem_split {script : List Char} {c : CommandText} (h : c ∈ split script) :
    c.text ≠ [] ∧ Text.strip c.text = c.text ∧
      ∃ line ∈ Text.lines c.text, Text.strip line ≠ [] ∧ ¬ ['-', '-'] <+: Text.strip line := by
  obtain ⟨stretch, -, n, hn⟩ := exists_stretch_of_mem h
  have htext := (commandIn?_strip hn).1
  have hidle : isIdle c.text = false := by
    rw [htext, isIdle_strip, Bool.eq_false_iff, ← commandIn?_eq_none_iff.ne, hn]
    simp
  refine ⟨?_, by rw [htext, Text.strip_strip], ?_⟩
  · intro hempty
    rw [hempty] at hidle
    cases hidle
  · obtain ⟨line, hline, hreal⟩ := List.all_eq_false.1 hidle
    simp only [isIdleLine, Bool.or_eq_true, List.isEmpty_iff, not_or] at hreal
    refine ⟨line, hline, hreal.1, ?_⟩
    rintro ⟨rest, hrest⟩
    exact hreal.2 (by rw [Text.dropStart?_eq_some.2 hrest.symm]; rfl)

/-! ## Barren texts -/

/-- Nothing but blanks and semicolons is left of the text without its comments. -/
def Barren (s : List Char) : Prop :=
  ∀ c ∈ withoutComments s, c = ';' ∨ Text.isBlank c = true

theorem barren_of_blank {s : List Char} (h : ∀ c ∈ s, Text.isBlank c = true) : Barren s :=
  fun c hc => .inr (h c ((withoutComments_sublist s).subset hc))

theorem barren_semicolon : Barren [';'] :=
  fun _ hc => .inl (List.mem_singleton.1 ((withoutComments_sublist [';']).subset hc))

theorem barren_of_isIdle {s : List Char} (h : isIdle s = true) : Barren s :=
  fun c hc => .inr ((isIdle_iff s).1 h c hc)

theorem Barren.append {s t : List Char} (hs : Barren s) (ht : Barren t) : Barren (s ++ t) := by
  intro c hc
  rcases List.mem_append.1 (withoutComments_append_subset s t hc) with hc | hc
  · exact hs c hc
  · exact ht c hc

theorem stretches_dashes (w : List Char) :
    stretches ('-' :: '-' :: w) =
      extendFirst ('-' :: '-' :: w.takeWhile (· ≠ '\n')) (stretches (w.dropWhile (· ≠ '\n'))) := by
  have hunit : unitExtra '-' ('-' :: w.takeWhile (· ≠ '\n') ++ w.dropWhile (· ≠ '\n')) =
      ('-' :: w.takeWhile (· ≠ '\n')).length := by
    rw [List.cons_append, List.takeWhile_append_dropWhile, unitExtra_comment,
      List.takeWhile_cons_of_pos (by decide)]
  have h := stretches_append_of_unit (c := '-') (by decide) hunit
  rwa [List.cons_append, List.takeWhile_append_dropWhile] at h

theorem isIdle_of_mem_extendFirst {w : List Char} {l : List (List Char)} (hl : l ≠ [])
    (hidle : ∀ s ∈ l, isIdle s = true) (hw : ∀ s, isIdle s = true → isIdle (w ++ s) = true) :
    ∀ s ∈ extendFirst w l, isIdle s = true := by
  cases l with
  | nil => exact absurd rfl hl
  | cons first more =>
    rw [List.forall_mem_cons] at hidle
    exact List.forall_mem_cons.2 ⟨hw first hidle.1, hidle.2⟩

/-- Every stretch of a barren script is idle. -/
theorem isIdle_of_mem_stretches {s : List Char} (h : Barren s) :
    ∀ stretch ∈ stretches s, isIdle stretch = true := by
  induction s using withoutComments_induction with
  | nil =>
    rw [stretches_nil, List.forall_mem_singleton]
    rfl
  | comment w ih =>
    rw [Barren, withoutComments_dashes] at h
    rw [stretches_dashes]
    refine isIdle_of_mem_extendFirst (stretches_ne_nil _) (ih h) fun first hfirst => ?_
    have hline : ∀ d ∈ w.takeWhile (· ≠ '\n'), decide (d ≠ '\n') = true :=
      fun d hd => List.mem_takeWhile_imp (p := (· ≠ '\n')) hd
    rw [List.cons_append, List.cons_append, isIdle_dashes, List.dropWhile_append_of_pos hline,
      isIdle_iff]
    exact fun d hd => (isIdle_iff first).1 hfirst d (withoutComments_dropWhile_subset first hd)
  | char c rest hchar ih =>
    rw [Barren, withoutComments_cons hchar, List.forall_mem_cons] at h
    obtain ⟨rfl | hblank, hrest⟩ := h
    · rw [stretches_semicolon]
      exact List.forall_mem_cons.2 ⟨rfl, ih hrest⟩
    · have hplain : ∀ d ∈ [c], isPlain d = true := by
        rw [List.forall_mem_singleton]
        exact isPlain_of_class (by decide) hblank
      have hstep := stretches_append_of_plain hplain rest
      rw [List.singleton_append] at hstep
      rw [hstep]
      refine isIdle_of_mem_extendFirst (stretches_ne_nil rest) (ih hrest) fun first hfirst => ?_
      rw [List.singleton_append, isIdle_cons_of_isBlank hblank, hfirst]

/-! ## Commands and what is around them -/

/-- From an offset on, a text is made up of commands at their places, and of barren texts before,
    between and behind them. -/
inductive Parted : Nat → List CommandText → List Char → Prop where
  | behind {start : Nat} {gap : List Char} : Barren gap → Parted start [] gap
  | command {start : Nat} {gap rest : List Char} {c : CommandText} {cs : List CommandText} :
    Barren gap → c.offset = start + gap.length → Parted c.stop cs rest →
      Parted start (c :: cs) (gap ++ (c.text ++ rest))

theorem Parted.prepend {start : Nat} {gap s : List Char} {cs : List CommandText}
    (hgap : Barren gap) (h : Parted (start + gap.length) cs s) : Parted start cs (gap ++ s) := by
  cases h with
  | behind hs => exact .behind (hgap.append hs)
  | command hs hoff hrest =>
    rw [← List.append_assoc]
    refine .command (hgap.append hs) ?_ hrest
    rw [hoff, List.length_append, Nat.add_assoc]

theorem parted_commandsFrom (start : Nat) (l : List (List Char)) :
    Parted start (commandsFrom start l) (List.intercalate [';'] l) := by
  induction l generalizing start with
  | nil => exact .behind (barren_of_blank (by simp [List.intercalate]))
  | cons stretch more ih =>
    -- behind the stretch is the end, or a semicolon and the other stretches
    have hbehind : ∃ t, List.intercalate [';'] (stretch :: more) = stretch ++ t ∧
        Parted (start + stretch.length) (commandsFrom (start + stretch.length + 1) more) t := by
      cases more with
      | nil => exact ⟨[], by simp [List.intercalate], .behind (barren_of_blank (by simp))⟩
      | cons next more =>
        refine ⟨[';'] ++ List.intercalate [';'] (next :: more), ?_, (ih _).prepend barren_semicolon⟩
        rw [List.intercalate_cons_of_ne_nil (by simp), List.append_assoc]
    obtain ⟨t, ht, hparted⟩ := hbehind
    rw [ht, commandsFrom]
    cases hc : commandIn? start stretch with
    | none => exact hparted.prepend (barren_of_isIdle (commandIn?_eq_none_iff.1 hc))
    | some c =>
      obtain ⟨b, e, rfl, hoff, hb, he⟩ := exists_of_commandIn? hc
      rw [List.append_assoc, List.append_assoc]
      refine .command (barren_of_blank hb) hoff (Parted.prepend (barren_of_blank he) ?_)
      have hstop : c.stop + e.length = start + (b ++ (c.text ++ e)).length := by
        simp only [CommandText.stop, hoff, List.length_append]
        omega
      rw [hstop]
      exact hparted

/-- A script is made up of its commands and of barren texts around them. -/
theorem parted_split (script : List Char) : Parted 0 (split script) script := by
  have h := parted_commandsFrom 0 (stretches script)
  rwa [join_stretches] at h

/-- What stands before, between and behind commands of a script from a place on. -/
def gaps (script : List Char) (start : Nat) : List CommandText → List (List Char)
  | [] => [script.drop start]
  | c :: cs => (script.take c.offset).drop start :: gaps script c.stop cs

theorem Parted.barren_of_mem_gaps {start : Nat} {cs : List CommandText} {s : List Char}
    (h : Parted start cs s) (before : List Char) (hstart : before.length = start) :
    ∀ gap ∈ gaps (before ++ s) start cs, Barren gap := by
  induction h generalizing before with
  | behind hgap =>
    subst hstart
    rw [gaps, List.drop_left, List.forall_mem_singleton]
    exact hgap
  | @command start gap rest c cs hgap hoff _ ih =>
    subst hstart
    have htake : (before ++ (gap ++ (c.text ++ rest))).take c.offset = before ++ gap := by
      rw [hoff, ← List.length_append, ← List.append_assoc, List.take_left]
    have hstop : (before ++ (gap ++ c.text)).length = c.stop := by
      simp only [CommandText.stop, hoff, List.length_append]
      omega
    have hrest := ih (before ++ (gap ++ c.text)) hstop
    rw [List.append_assoc, List.append_assoc] at hrest
    rw [gaps, htake, List.drop_left]
    exact List.forall_mem_cons.2 ⟨hgap, hrest⟩

theorem barren_of_mem_gaps_split {script gap : List Char}
    (h : gap ∈ gaps script 0 (split script)) : Barren gap :=
  (parted_split script).barren_of_mem_gaps [] rfl gap h

/-- A script has no command just if it is barren. -/
theorem split_eq_nil_iff {script : List Char} : split script = [] ↔ Barren script := by
  constructor
  · intro hnone
    have hwhole : script ∈ gaps script 0 (split script) := by
      rw [hnone]
      exact List.mem_singleton_self script
    exact barren_of_mem_gaps_split hwhole
  · intro hbarren
    refine List.eq_nil_iff_forall_not_mem.2 fun c hc => ?_
    obtain ⟨stretch, hstretch, n, hn⟩ := exists_stretch_of_mem hc
    have hidle := isIdle_of_mem_stretches hbarren stretch hstretch
    rw [commandIn?_eq_none_iff.2 hidle] at hn
    cases hn

/-- Splitting loses nothing but blanks, semicolons and comments. Every command is trimmed, stands at
    its offset, and has a line that is neither blank nor a comment. There is something between one
    command and the next, and all that is before, between and behind them is barren; so a script has
    no command just if it is barren itself. -/
theorem gaps_split (script : List Char) :
    (∀ c ∈ split script, c.text ≠ [] ∧ Text.strip c.text = c.text ∧
      (script.take c.stop).drop c.offset = c.text ∧
      ∃ line ∈ Text.lines c.text, Text.strip line ≠ [] ∧ ¬ ['-', '-'] <+: Text.strip line) ∧
    ((split script).Pairwise fun c d => c.stop < d.offset) ∧
    (∀ gap ∈ gaps script 0 (split script), Barren gap) ∧
    (split script = [] ↔ Barren script) := by
  refine ⟨fun c hc => ?_, pairwise_stop_commandsFrom 0 _, fun _ => barren_of_mem_gaps_split,
    split_eq_nil_iff⟩
  obtain ⟨hne, htrimmed, hline⟩ := text_of_mem_split hc
  exact ⟨hne, htrimmed, drop_take_of_mem_split hc, hline⟩

/-- Around two commands: an idle stretch, a stray semicolon and a comment to the end. -/
example : gaps " -- a; b\n ;;c;\td -- e;\n; -- f".toList 0
    (split " -- a; b\n ;;c;\td -- e;\n; -- f".toList) =
      [" -- a; b\n ;;".toList, ";\t".toList, "\n; -- f".toList] := by
  decide +kernel

end Storyboard.Script
