-- SUMMARY: Scripts put together at a line end are split as each of them is by itself.
import Storyboard.Proofs.Script.Joining

/-!
# Seams between scripts

No literal and no comment goes on over the end of a line. So a line feed behind a
script changes no more than its last stretch, which takes in what comes up to the
next separating semicolon (`stretches_append_lineFeed`). A semicolon on a line of its
own is therefore a seam between any two scripts, and a semicolon at the end of a line
is one unless a comment takes it in: the commands on either side are those of the two
scripts, the later ones counted on from the seam (`split_seam`).
-/

namespace Storyboard

namespace Text

/-- Where something is left of a text, the blanks behind it are left as well. -/
theorem stripLeft_concat {s : List Char} (h : stripLeft s ≠ []) (e : List Char) :
    stripLeft (s ++ e) = stripLeft s ++ e := by
  unfold stripLeft at h ⊢
  rw [List.dropWhile_append, if_neg]
  intro hnil
  exact h (List.isEmpty_iff.1 hnil)

theorem strip_eq_nil_of_stripLeft {s : List Char} (h : stripLeft s = []) : strip s = [] := by
  rw [strip, h]
  rfl

/-- Nothing is left of a text that is all blank. -/
theorem stripLeft_eq_nil {s : List Char} : stripLeft s = [] ↔ ∀ c ∈ s, isBlank c = true :=
  List.dropWhile_eq_nil_iff

end Text

namespace Script

/-! ## Commands in their stretches -/

/-- The command as it stands behind so many more characters. -/
def CommandText.shift (n : Nat) (c : CommandText) : CommandText :=
  { c with offset := n + c.offset }

/-- Blanks around a stretch do not change its command. -/
theorem commandIn?_margins {b e : List Char} (hb : ∀ c ∈ b, Text.isBlank c = true)
    (he : ∀ c ∈ e, Text.isBlank c = true) (start : Nat) (s : List Char) :
    commandIn? start (b ++ (s ++ e)) = commandIn? (start + b.length) s := by
  have hleft : Text.stripLeft (b ++ (s ++ e)) = Text.stripLeft (s ++ e) :=
    Text.stripLeft_append_of_blank hb
  by_cases hs : Text.stripLeft s = []
  · have hblank : Text.stripLeft (b ++ (s ++ e)) = [] := by
      rw [hleft, Text.stripLeft_eq_nil]
      intro c hc
      rcases List.mem_append.1 hc with hc | hc
      · exact Text.stripLeft_eq_nil.1 hs c hc
      · exact he c hc
    simp [commandIn?, Text.strip_eq_nil_of_stripLeft hs, Text.strip_eq_nil_of_stripLeft hblank]
  · have hconcat := Text.stripLeft_concat hs e
    have hstrip : Text.strip (b ++ (s ++ e)) = Text.strip s := by
      rw [Text.strip, hleft, hconcat, Text.stripRight_append_of_blank he, Text.strip]
    have hle : (Text.stripLeft s).length ≤ s.length := (List.dropWhile_sublist _).length_le
    have hlead : (b ++ (s ++ e)).length - (Text.stripLeft (b ++ (s ++ e))).length =
        b.length + (s.length - (Text.stripLeft s).length) := by
      rw [hleft, hconcat]
      simp only [List.length_append]
      omega
    simp only [commandIn?, hstrip, hlead, Nat.add_assoc]

theorem commandIn?_shift (n start : Nat) (s : List Char) :
    commandIn? (n + start) s = (commandIn? start s).map (.shift n) := by
  simp only [commandIn?]
  split
  next => rfl
  next => simp [CommandText.shift, Nat.add_assoc]

theorem commandsFrom_shift (n start : Nat) (l : List (List Char)) :
    commandsFrom (n + start) l = (commandsFrom start l).map (.shift n) := by
  induction l generalizing start with
  | nil => rfl
  | cons s l ih =>
    simp only [commandsFrom, commandIn?_shift, Nat.add_assoc, ih, List.map_append]
    cases commandIn? start s <;> rfl

/-- Blanks in front of the first stretch only count. -/
theorem commandsFrom_extendFirst {b : List Char} (hb : ∀ c ∈ b, Text.isBlank c = true)
    (start : Nat) {l : List (List Char)} (h : l ≠ []) :
    commandsFrom start (extendFirst b l) = commandsFrom (start + b.length) l := by
  cases l with
  | nil => exact absurd rfl h
  | cons first more =>
    have hfirst := commandIn?_margins hb (e := []) (by simp) start first
    rw [List.append_nil] at hfirst
    simp only [extendFirst, commandsFrom, hfirst, List.length_append, Nat.add_assoc]

/-! ## Seams -/

theorem stretches_lineFeed (s : List Char) :
    stretches ('\n' :: s) = extendFirst ['\n'] (stretches s) :=
  stretches_append_of_plain (List.forall_mem_singleton.2 rfl) s

/-- The stretches of a script and the semicolons between them, and one more place. -/
theorem extent_stretches (s : List Char) : extent (stretches s) = s.length + 1 := by
  fun_induction stretches s with
  | case1 => rfl
  | case2 rest ih =>
    simp only [extent, ih, List.length_nil, List.length_cons]
    omega
  | case3 c rest h n ih =>
    have hle : n ≤ rest.length := unitExtra_le c rest
    cases hs : stretches (rest.drop n) with
    | nil => exact absurd hs (stretches_ne_nil _)
    | cons first more =>
      simp only [hs, extent, List.length_drop] at ih
      simp only [extendFirst, extent, List.length_append, List.length_cons, List.length_take]
      omega

/-- At a seam the stretches of the two scripts follow one another, and so do their commands. -/
theorem split_of_stretches {s t script : List Char}
    (h : stretches script = stretches s ++ stretches ('\n' :: t)) :
    split script = split s ++ (split t).map (.shift (s.length + 2)) := by
  have hbehind : commandsFrom (s.length + 1) (stretches ('\n' :: t)) =
      (split t).map (.shift (s.length + 2)) := by
    have hblank : ∀ c ∈ ['\n'], Text.isBlank c = true := List.forall_mem_singleton.2 rfl
    rw [stretches_lineFeed, commandsFrom_extendFirst hblank _ (stretches_ne_nil t)]
    exact commandsFrom_shift _ 0 (stretches t)
  rw [split, h, commandsFrom_append, extent_stretches, Nat.zero_add, hbehind]
  rfl

/-- A line feed behind a script changes none of its commands. -/
theorem split_append_lineFeed (s : List Char) : split (s ++ ['\n']) = split s := by
  obtain ⟨init, last, hs⟩ : ∃ init last, stretches s = init ++ [last] :=
    ⟨_, _, (List.dropLast_concat_getLast (stretches_ne_nil s)).symm⟩
  have hfeed : stretches (s ++ ['\n']) = init ++ [last ++ ['\n']] := by
    rw [stretches_append_lineFeed, stretches_lineFeed, stretches_nil, hs, glue_concat]
    rfl
  have hlast : ∀ start, commandIn? start (last ++ ['\n']) = commandIn? start last := by
    intro start
    exact commandIn?_margins (b := []) (by simp) (List.forall_mem_singleton.2 rfl) start last
  simp only [split, hfeed, hs, commandsFrom_append, commandsFrom, hlast]

/-- A semicolon on a line of its own begins a stretch of its own. -/
theorem stretches_loneSemicolon (s t : List Char) :
    stretches (s ++ '\n' :: ';' :: '\n' :: t) =
      stretches (s ++ ['\n']) ++ stretches ('\n' :: t) := by
  obtain ⟨init, last, hs⟩ : ∃ init last, stretches s = init ++ [last] :=
    ⟨_, _, (List.dropLast_concat_getLast (stretches_ne_nil s)).symm⟩
  have hsemi : stretches ('\n' :: ';' :: '\n' :: t) = ['\n'] :: stretches ('\n' :: t) := by
    rw [stretches_lineFeed, stretches_semicolon]
    rfl
  rw [stretches_append_lineFeed, stretches_append_lineFeed, hsemi, hs, glue_concat, glue_concat,
    stretches_lineFeed [], stretches_nil]
  simp [extendFirst]

/-- A semicolon on a line of its own parts any two scripts. -/
theorem split_loneSemicolon (a b : List Char) :
    split (a ++ '\n' :: ';' :: '\n' :: b) = split a ++ (split b).map (.shift (a.length + 3)) := by
  have hsplit := split_of_stretches (stretches_loneSemicolon a b)
  rwa [split_append_lineFeed, List.length_append] at hsplit

/-- A semicolon between two line feeds parts any two scripts: the commands are those of the first
    and those of the second, counted on from the seam. A semicolon before a line feed does so too,
    unless the first script ends within a comment. -/
theorem split_seam (a b : List Char) :
    split (a ++ '\n' :: ';' :: '\n' :: b) = split a ++ (split b).map (.shift (a.length + 3)) ∧
      (endsInComment a = false →
        split (a ++ ';' :: '\n' :: b) = split a ++ (split b).map (.shift (a.length + 2))) := by
  constructor
  · exact split_loneSemicolon a b
  · intro hopen
    exact split_of_stretches (stretches_join hopen b)

/-- A script with quotes of both kinds that are never closed, and a comment that ends before it. -/
def unbalanced : List Char :=
  "highlight in table 'T\" row 1; -- it's;\nadd in table 'T' row".toList

theorem split_seam_unbalanced :
    endsInComment unbalanced = false ∧
      split (unbalanced ++ '\n' :: ';' :: '\n' :: unbalanced) =
        split unbalanced ++ (split unbalanced).map (.shift (unbalanced.length + 3)) ∧
      split (unbalanced ++ ';' :: '\n' :: unbalanced) =
        split unbalanced ++ (split unbalanced).map (.shift (unbalanced.length + 2)) := by
  have h : endsInComment unbalanced = false := by decide +kernel
  exact ⟨h, (split_seam unbalanced unbalanced).1, (split_seam unbalanced unbalanced).2 h⟩

end Script

end Storyboard
