-- SUMMARY: Joining scripts by a semicolon and a line feed, and what becomes of the commands of the first one.
import Storyboard.Proofs.Script.Splitting
import Storyboard.Script.Compile

/-!
# Joining scripts

A semicolon and a line feed behind a script end its last command, since no literal
goes on over the end of a line. There is one exception: a comment at the end of the
script takes the semicolon in (`endsInComment`). Without one the stretches of both
scripts follow one another (`stretches_join`). With one the last stretch of the first
script and the first stretch of the second become one (`stretches_join_of_comment`),
so that of the actions of the first script all but the last are certain to stay
(`compile_join`).
-/

namespace Storyboard.Script

/-! ## Units at the end of a script -/

/-- Whether the splitter comes to the end of a text within a comment. -/
def endsInComment : List Char → Bool
  | [] => false
  | c :: rest =>
    if c = '-' && rest.head? = some '-' && !rest.contains '\n' then true
    else endsInComment (rest.drop (unitExtra c rest))
termination_by s => s.length
decreasing_by
  simp only [List.length_drop, List.length_cons]
  omega

/-- A text joined to another one that stands behind it. -/
def join (s t : List Char) : List Char :=
  s ++ ';' :: '\n' :: t

theorem join_cons (c : Char) (s t : List Char) : join (c :: s) t = c :: join s t := rfl

theorem join_append (w s t : List Char) : join (w ++ s) t = w ++ join s t :=
  List.append_assoc ..

/-- A quote without its like behind it opens no literal. -/
theorem literalLength?_unclosed {q : Char} {w : List Char} (h : q ∉ w) :
    literalLength? q w = none := by
  simp only [literalLength?, Text.takeWhile_ne_self h, List.drop_length]

/-- A quote opens no literal if a line feed comes first. -/
theorem literalLength?_of_lineFeed {q : Char} {w t : List Char} (hq : q ≠ '\n') (h : q ∉ w) :
    literalLength? q (w ++ '\n' :: t) = none := by
  have hline : q ∉ w ++ ['\n'] := by simp [h, hq]
  have htake : (w ++ '\n' :: t).takeWhile (· ≠ q) = w ++ '\n' :: t.takeWhile (· ≠ q) := by
    rw [List.append_cons, List.takeWhile_append, Text.takeWhile_ne_self hline, if_pos rfl,
      ← List.append_cons]
  simp only [literalLength?, htake]
  split
  next => rfl
  next => rw [if_pos (by simp)]

/-- A line end behind a text, with or without semicolons before it, does not change its literals. -/
theorem literalLength?_append {q : Char} (hq : isQuote q = true) {u : List Char}
    (hu : ∀ c ∈ u, c = ';') (w t : List Char) :
    literalLength? q (w ++ (u ++ '\n' :: t)) = literalLength? q w := by
  have hfeed : q ≠ '\n' := by
    rintro rfl
    cases hq
  have hnot : q ∉ u := fun hm => ne_semicolon_of_isQuote hq (hu q hm)
  have hends : endsLiteral (u ++ '\n' :: t) = true := by
    cases u with
    | nil => rfl
    | cons c u =>
      obtain rfl := hu c (List.mem_cons_self ..)
      rfl
  by_cases hm : q ∈ w
  · obtain ⟨body, after, rfl, hbody⟩ := List.eq_append_cons_of_mem hm
    have hafter : endsLiteral (after ++ (u ++ '\n' :: t)) = endsLiteral after := by
      cases after with
      | nil => exact hends
      | cons c after => rfl
    rw [List.append_assoc, List.cons_append, literalLength?_span hbody, literalLength?_span hbody,
      hafter]
  · rw [literalLength?_unclosed hm, ← List.append_assoc]
    exact literalLength?_of_lineFeed hfeed (by simp [hm, hnot])

/-- A line end behind a text, with or without semicolons before it, does not change its units, but
    for a comment that is still open and takes the semicolons in. -/
theorem unitExtra_append {c : Char} {rest u : List Char} (hu : ∀ c ∈ u, c = ';')
    (h : c = '-' → rest.head? = some '-' → '\n' ∈ rest ∨ u = []) (t : List Char) :
    unitExtra c (rest ++ (u ++ '\n' :: t)) = unitExtra c rest := by
  by_cases hq : isQuote c = true
  · rw [unitExtra_quote hq, unitExtra_quote hq, literalLength?_append hq hu]
  have hq : isQuote c = false := Bool.eq_false_iff.2 hq
  by_cases hd : c = '-' ∧ rest.head? = some '-'
  · obtain ⟨rfl, hhead⟩ := hd
    obtain ⟨w, rfl⟩ := List.head?_eq_some_iff.1 hhead
    rw [List.cons_append, unitExtra_comment, unitExtra_comment, ← List.cons_append]
    by_cases hfeed : '\n' ∈ '-' :: w
    · obtain ⟨line, more, hrest, hline⟩ := List.eq_append_cons_of_mem hfeed
      rw [hrest, List.append_assoc, List.cons_append, Text.takeWhile_ne_append hline,
        Text.takeWhile_ne_append hline]
    · obtain rfl : u = [] := (h rfl hhead).resolve_left hfeed
      rw [List.nil_append, Text.takeWhile_ne_append hfeed, Text.takeWhile_ne_self hfeed]
  · have hd : c = '-' → rest.head? ≠ some '-' := fun hc hh => hd ⟨hc, hh⟩
    rw [unitExtra_eq_zero hq hd, unitExtra_eq_zero hq]
    intro hc
    cases rest with
    | nil =>
      cases u with
      | nil => simp
      | cons d u =>
        obtain rfl := hu d (List.mem_cons_self ..)
        simp
    | cons d w => exact hd hc

theorem unitExtra_semicolon (rest : List Char) : unitExtra ';' rest = 0 :=
  unitExtra_eq_zero rfl fun h => absurd h (by decide)

theorem unitExtra_le (c : Char) (rest : List Char) : unitExtra c rest ≤ rest.length := by
  by_cases hq : isQuote c = true
  · rw [unitExtra_quote hq]
    by_cases hm : c ∈ rest
    · obtain ⟨body, after, rfl, hbody⟩ := List.eq_append_cons_of_mem hm
      rw [literalLength?_span hbody, List.length_append, List.length_cons]
      split
      next => simp only [Option.getD_some]; omega
      next => exact Nat.zero_le _
    · rw [literalLength?_unclosed hm]
      exact Nat.zero_le _
  · rw [unitExtra, if_neg (by simpa [isQuote] using hq)]
    split
    next => exact (List.takeWhile_sublist _).length_le
    next => exact Nat.zero_le _

/-! ## Stretches of joined scripts -/

/-- Two lists of stretches, the last of the first list and the first of the second being one. -/
def glue : List (List Char) → List (List Char) → List (List Char)
  | [], m => m
  | [last], m => extendFirst last m
  | s :: next :: l, m => s :: glue (next :: l) m

theorem glue_cons (s : List Char) {l : List (List Char)} (h : l ≠ []) (m : List (List Char)) :
    glue (s :: l) m = s :: glue l m := by
  cases l with
  | nil => exact absurd rfl h
  | cons next l => rfl

theorem glue_concat (init : List (List Char)) (last : List Char) (m : List (List Char)) :
    glue (init ++ [last]) m = init ++ extendFirst last m := by
  induction init with
  | nil => rfl
  | cons s init ih => rw [List.cons_append, glue_cons s (by simp), ih, List.cons_append]

theorem extendFirst_glue (w : List Char) {l : List (List Char)} (h : l ≠ [])
    (m : List (List Char)) : extendFirst w (glue l m) = glue (extendFirst w l) m := by
  cases l with
  | nil => exact absurd rfl h
  | cons first more =>
    cases more with
    | nil => exact extendFirst_extendFirst w first m
    | cons next more => rfl

theorem extendFirst_append (w : List Char) {l : List (List Char)} (h : l ≠ [])
    (m : List (List Char)) : extendFirst w (l ++ m) = extendFirst w l ++ m := by
  cases l with
  | nil => exact absurd rfl h
  | cons first more => rfl

/-- A unit that is not changed by what stands behind the text is gone through as if it did not. -/
theorem stretches_cons_append {c : Char} {rest t : List Char} (hc : c ≠ ';')
    (h : unitExtra c (rest ++ t) = unitExtra c rest) :
    stretches (c :: (rest ++ t)) =
      extendFirst (c :: rest.take (unitExtra c rest))
        (stretches (rest.drop (unitExtra c rest) ++ t)) := by
  have hle := unitExtra_le c rest
  rw [stretches_cons hc, h, List.take_append_of_le_length hle, List.drop_append_of_le_length hle]

/-- No stretch but the last is changed by a line end behind the text. -/
theorem stretches_append_lineFeed (s t : List Char) :
    stretches (s ++ '\n' :: t) = glue (stretches s) (stretches ('\n' :: t)) := by
  fun_induction stretches s with
  | case1 => exact (extendFirst_nil (stretches_ne_nil _)).symm
  | case2 rest ih =>
    rw [List.cons_append, stretches_semicolon, ih, glue_cons _ (stretches_ne_nil rest)]
  | case3 c rest hc n ih =>
    have hunit : unitExtra c (rest ++ '\n' :: t) = unitExtra c rest :=
      unitExtra_append (u := []) (by simp) (fun _ _ => .inr rfl) t
    rw [List.cons_append, stretches_cons_append hc hunit, ih,
      extendFirst_glue _ (stretches_ne_nil _)]

/-- Where the first script is not within an open comment, its unit is the same when joined. -/
theorem unitExtra_join {c : Char} {rest : List Char}
    (h : ¬ (c = '-' && rest.head? = some '-' && !rest.contains '\n') = true) (t : List Char) :
    unitExtra c (rest ++ ';' :: '\n' :: t) = unitExtra c rest := by
  refine unitExtra_append (u := [';']) (by simp) (fun hdash hhead => .inl ?_) t
  simpa [hdash, hhead] using h

/-- If the first script does not end within a comment, its last stretch ends with it. -/
theorem stretches_join {s : List Char} (h : endsInComment s = false) (t : List Char) :
    stretches (join s t) = stretches s ++ stretches ('\n' :: t) := by
  fun_induction endsInComment s with
  | case1 => rw [join, List.nil_append, stretches_semicolon, stretches_nil]; rfl
  | case2 => cases h
  | case3 c rest hopen ih =>
    have ih := ih h
    by_cases hc : c = ';'
    · subst hc
      rw [unitExtra_semicolon, List.drop_zero] at ih
      rw [join_cons, stretches_semicolon, stretches_semicolon, ih]
      rfl
    · have hstep := stretches_cons_append hc (unitExtra_join hopen t)
      rw [← join] at hstep
      rw [join_cons, hstep, ← join, stretches_cons hc, ih,
        extendFirst_append _ (stretches_ne_nil _)]

/-- If the first script ends within a comment, its last stretch goes on with the semicolon. -/
theorem stretches_join_of_comment {s : List Char} (h : endsInComment s = true) (t : List Char) :
    stretches (join s t) = glue (stretches s) (extendFirst [';'] (stretches ('\n' :: t))) := by
  fun_induction endsInComment s with
  | case1 => cases h
  | case2 c rest hopen =>
    simp only [Bool.and_eq_true, decide_eq_true_eq, Bool.not_eq_true', List.contains_eq_mem,
      decide_eq_false_iff_not] at hopen
    obtain ⟨⟨rfl, hhead⟩, hfeed⟩ := hopen
    obtain ⟨w, rfl⟩ := List.head?_eq_some_iff.1 hhead
    have hunit : unitExtra '-' ('-' :: w) = ('-' :: w).length := by
      rw [unitExtra_comment, Text.takeWhile_ne_self hfeed]
    have hlone : stretches ('-' :: '-' :: w) = ['-' :: '-' :: w] := by
      rw [stretches_cons (by decide), hunit, List.take_length, List.drop_length, stretches_nil]
      simp [extendFirst]
    have hlex : Lexical ('-' :: '-' :: (w ++ [';'])) none ['\n'] := by
      refine .comment (fun hm => ?_) fun d hd => by simpa using hd.symm
      rcases List.mem_append.1 hm with hm | hm
      · exact hfeed (List.mem_cons_of_mem _ hm)
      · exact absurd (List.mem_singleton.1 hm) (by decide)
    have hjoin := hlex.stretches_append (t := t) (by simp) (by simp) (by simp)
    rw [hlone, glue, extendFirst_extendFirst]
    simpa [join] using hjoin
  | case3 c rest hopen ih =>
    have ih := ih h
    by_cases hc : c = ';'
    · subst hc
      rw [unitExtra_semicolon, List.drop_zero] at ih
      rw [join_cons, stretches_semicolon, stretches_semicolon, ih, glue_cons _ (stretches_ne_nil _)]
    · have hstep := stretches_cons_append hc (unitExtra_join hopen t)
      rw [join_cons, join, hstep, ← join, stretches_cons hc, ih,
        extendFirst_glue _ (stretches_ne_nil _)]

/-! ## Commands and verdicts -/

/-- The number of characters of stretches with a semicolon behind each of them. -/
def extent : List (List Char) → Nat
  | [] => 0
  | stretch :: more => stretch.length + 1 + extent more

/-- Further stretches are counted on from the end of the first ones. -/
theorem commandsFrom_append (start : Nat) (xs ys : List (List Char)) :
    commandsFrom start (xs ++ ys) =
      commandsFrom start xs ++ commandsFrom (start + extent xs) ys := by
  induction xs generalizing start with
  | nil => rfl
  | cons x xs ih =>
    rw [List.cons_append, commandsFrom, commandsFrom, ih, List.append_assoc, extent,
      ← Nat.add_assoc, ← Nat.add_assoc]

theorem judge_cons_of_error {tables : List Table} {c : CommandText} {e : Text.Numeral.TooLong}
    (h : interpret tables c.text = .error e) (added : AddedColumns) (rest : List CommandText) :
    judge tables added (c :: rest) = ([], some e) := by
  rw [judge, h]

theorem judge_cons_of_ok {tables : List Table} {c : CommandText} {o : Outcome}
    (h : interpret tables c.text = .ok o) (added : AddedColumns) (rest : List CommandText) :
    judge tables added (c :: rest) =
      (⟨c, o.amid added⟩ :: (judge tables ((o.amid added).addedColumn?.toList ++ added) rest).1,
        (judge tables ((o.amid added).addedColumn?.toList ++ added) rest).2) := by
  rw [judge, h]

/-- There is no more than one verdict for a command. -/
theorem length_judge_le (tables : List Table) (added : AddedColumns) (cmds : List CommandText) :
    (judge tables added cmds).1.length ≤ cmds.length := by
  induction cmds generalizing added with
  | nil => exact Nat.le_refl 0
  | cons c rest ih =>
    cases h : interpret tables c.text with
    | error e =>
      rw [judge_cons_of_error h]
      exact Nat.zero_le _
    | ok o =>
      rw [judge_cons_of_ok h]
      exact Nat.succ_le_succ (ih _)

/-- The verdicts on commands stay when others follow, each of which adds one verdict at most. -/
theorem judge_append (tables : List Table) (added : AddedColumns) (xs ys : List CommandText) :
    ∃ w, (judge tables added (xs ++ ys)).1 = (judge tables added xs).1 ++ w ∧
      w.length ≤ ys.length := by
  induction xs generalizing added with
  | nil => exact ⟨_, rfl, length_judge_le tables added ys⟩
  | cons x xs ih =>
    cases h : interpret tables x.text with
    | error e =>
      refine ⟨[], ?_, Nat.zero_le _⟩
      rw [List.cons_append, judge_cons_of_error h, judge_cons_of_error h]
      rfl
    | ok o =>
      obtain ⟨w, hw, hlen⟩ := ih ((o.amid added).addedColumn?.toList ++ added)
      refine ⟨w, ?_, hlen⟩
      rw [List.cons_append, judge_cons_of_ok h, judge_cons_of_ok h, hw]
      rfl

/-- A script compiles if there is a verdict on each of its commands. -/
theorem compile_eq_ok_iff {tables : List Table} {s : List Char} {c : Compiled} :
    compile tables s = .ok c ↔ judge tables [] (split s) = (c.verdicts, none) := by
  unfold compile
  rcases judge tables [] (split s) with ⟨vs, _ | e⟩
  · constructor
    · intro h
      cases h
      rfl
    · intro h
      obtain ⟨rfl, -⟩ := Prod.mk.inj h
      rfl
  · simp

/-- The verdicts of a compiled script are those on its commands. -/
theorem verdicts_of_compile {tables : List Table} {s : List Char} {c : Compiled}
    (h : compile tables s = .ok c) : c.verdicts = (judge tables [] (split s)).1 := by
  rw [compile_eq_ok_iff.1 h]

/-! ## Actions of joined scripts -/

theorem dropLast_append_isPrefix {α : Type} (xs : List α) {ys : List α} (h : ys.length ≤ 1) :
    (xs ++ ys).dropLast <+: xs := by
  cases ys with
  | nil =>
    rw [List.append_nil]
    exact List.dropLast_prefix xs
  | cons y ys =>
    have hys : ys = [] := List.length_eq_zero_iff.1 (Nat.le_zero.1 (Nat.le_of_succ_le_succ h))
    exact ⟨[], by rw [hys, List.dropLast_concat, List.append_nil]⟩

/-- Joining a script to another one puts no more than the last action at stake, and none if the
    script does not end within a comment. -/
theorem compile_join {tables : List Table} {s t : List Char} {before after : Compiled}
    (hb : compile tables s = .ok before) (ha : compile tables (join s t) = .ok after) :
    before.actions.dropLast <+: after.actions ∧
      (endsInComment s = false → before.actions <+: after.actions) := by
  have hb := verdicts_of_compile hb
  have ha := verdicts_of_compile ha
  cases hopen : endsInComment s with
  | false =>
    rw [split, stretches_join hopen, commandsFrom_append] at ha
    obtain ⟨w, hw, -⟩ := judge_append tables [] (split s) (commandsFrom _ (stretches ('\n' :: t)))
    have hverdicts : before.verdicts <+: after.verdicts := ⟨w, by rw [ha, hb, ← hw]; rfl⟩
    have hactions : before.actions <+: after.actions := hverdicts.filterMap _
    have hdrop := List.dropLast_prefix before.actions
    exact ⟨hdrop.trans hactions, fun _ => hactions⟩
  | true =>
    obtain ⟨init, last, hs⟩ : ∃ init last, stretches s = init ++ [last] :=
      ⟨_, _, (List.dropLast_concat_getLast (stretches_ne_nil s)).symm⟩
    rw [split, stretches_join_of_comment hopen, hs, glue_concat, commandsFrom_append] at ha
    rw [split, hs, commandsFrom_append] at hb
    obtain ⟨w, hw, -⟩ := judge_append tables [] (commandsFrom 0 init)
      (commandsFrom _ (extendFirst last (extendFirst [';'] (stretches ('\n' :: t)))))
    obtain ⟨v, hv, hlen⟩ := judge_append tables [] (commandsFrom 0 init) (commandsFrom _ [last])
    -- what both scripts have in common: the commands before the stretch with the comment
    have hcommon : (judge tables [] (commandsFrom 0 init)).1 <+: after.verdicts :=
      ⟨w, by rw [ha, hw]⟩
    have hone : (v.filterMap Verdict.action?).length ≤ 1 := by
      refine (List.length_filterMap_le _ _).trans (hlen.trans ?_)
      rw [commandsFrom, commandsFrom, List.append_nil]
      exact Option.length_toList_le
    refine ⟨?_, fun h => by cases h⟩
    rw [Compiled.actions, hb, hv, List.filterMap_append]
    exact List.IsPrefix.trans (dropLast_append_isPrefix _ hone) (hcommon.filterMap _)

end Storyboard.Script
