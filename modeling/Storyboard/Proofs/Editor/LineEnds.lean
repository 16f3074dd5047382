-- SUMMARY: Hover and completion find a character where its problem is shown, unless a line end before it has no line feed.
import Storyboard.Editor.Document
import Storyboard.Proofs.Editor.Coordinates
import Storyboard.Proofs.Except

/-!
# Places in the lines of a document

Problems are shown at places on lines that end at line feeds, and hover and completion look
places up in the lines of the document, which end at other characters as well. A character
stands on the line that is counted for it plus one for each line end before it that has
no line feed (`counted_of_spotIn`). So a place leads hover and completion to the character
that it was made for if and only if there is no such line end before it
(`diagnostics_found_iff`).
-/

namespace Storyboard.Editor

/-! ## Characters in lines -/

/-- The number of characters before a place in lines that hold their line ends; none if there is no
    character at the place. -/
def spotIn : List (List Char) → Nat → Nat → Option Nat
  | [], _, _ => none
  | line :: _, 0, character => if character < line.length then some character else none
  | line :: more, n + 1, character => (spotIn more n character).map (line.length + ·)

/-- The offset of the character of a document at a place, if there is one. -/
def Position.spot? (source : List Char) (p : Position) : Option Nat :=
  spotIn (documentLines source) p.line p.character

theorem spotIn_zero_iff {line : List Char} {more : List (List Char)} {character offset : Nat} :
    spotIn (line :: more) 0 character = some offset ↔
      character < line.length ∧ character = offset := by
  rw [spotIn, Option.ite_none_right_eq_some, Option.some.injEq]

theorem spotIn_succ_iff {line : List Char} {more : List (List Char)} {n character offset : Nat} :
    spotIn (line :: more) (n + 1) character = some offset ↔
      ∃ rest, spotIn more n character = some rest ∧ line.length + rest = offset :=
  Option.map_eq_some_iff

/-- The character at a place in the lines is the one at the offset in the whole text. -/
theorem getElem?_of_spotIn {lines : List (List Char)} {n character offset : Nat}
    (h : spotIn lines n character = some offset) :
    ∃ text, lines[n]? = some text ∧ text[character]? = lines.flatten[offset]? := by
  induction lines generalizing n offset with
  | nil => cases h
  | cons line more ih =>
    rw [List.flatten_cons]
    cases n with
    | zero =>
      obtain ⟨hlt, rfl⟩ := spotIn_zero_iff.1 h
      exact ⟨line, rfl, (List.getElem?_append_left hlt).symm⟩
    | succ n =>
      obtain ⟨rest, hrest, rfl⟩ := spotIn_succ_iff.1 h
      obtain ⟨found, hfound, hchar⟩ := ih hrest
      refine ⟨found, hfound, hchar.trans ?_⟩
      rw [List.getElem?_append_right (Nat.le_add_right ..), Nat.add_sub_cancel_left]

/-- Every character is at some place in the lines. -/
theorem exists_spotIn {lines : List (List Char)} {offset : Nat} (h : offset < lines.flatten.length) :
    ∃ n character, spotIn lines n character = some offset := by
  induction lines generalizing offset with
  | nil => exact absurd h (Nat.not_lt_zero _)
  | cons line more ih =>
    by_cases hlt : offset < line.length
    · exact ⟨0, offset, spotIn_zero_iff.2 ⟨hlt, rfl⟩⟩
    · rw [List.flatten_cons, List.length_append] at h
      have hrest : offset - line.length < more.flatten.length := by omega
      obtain ⟨n, character, hn⟩ := ih hrest
      exact ⟨n + 1, character,
        spotIn_succ_iff.2 ⟨_, hn, Nat.add_sub_cancel' (Nat.not_lt.1 hlt)⟩⟩

/-- A character in front of the first line moves what is on the first line by one character, and the
    rest by one offset. -/
theorem exists_of_spotIn_cons {c : Char} {line : List Char} {more : List (List Char)}
    {n character offset : Nat} (h : spotIn ((c :: line) :: more) n character = some offset) :
    (n = 0 ∧ character = 0 ∧ offset = 0) ∨
    ∃ rest, offset = rest + 1 ∧
      ((n = 0 ∧ ∃ k, character = k + 1 ∧ spotIn (line :: more) 0 k = some rest) ∨
        (n ≠ 0 ∧ spotIn (line :: more) n character = some rest)) := by
  cases n with
  | zero =>
    obtain ⟨hlt, rfl⟩ := spotIn_zero_iff.1 h
    cases character with
    | zero => exact .inl ⟨rfl, rfl, rfl⟩
    | succ k =>
      have hk : spotIn (line :: more) 0 k = some k :=
        spotIn_zero_iff.2 ⟨Nat.lt_of_succ_lt_succ hlt, rfl⟩
      exact .inr ⟨k, rfl, .inl ⟨rfl, k, rfl, hk⟩⟩
  | succ n =>
    obtain ⟨rest, hrest, rfl⟩ := spotIn_succ_iff.1 h
    have hn : spotIn (line :: more) (n + 1) character = some (line.length + rest) :=
      spotIn_succ_iff.2 ⟨rest, hrest, rfl⟩
    exact .inr ⟨_, Nat.add_right_comm .., .inr ⟨Nat.succ_ne_zero n, hn⟩⟩

/-! ## Line ends without a line feed -/

/-- A character ends a line of the document, and the line end has no line feed. -/
def isLoneEnd (source : List Char) (i : Nat) : Bool :=
  source[i]?.any fun c => isLineEnd c && c != '\n' && !(c == '\r' && source[i + 1]? == some '\n')

/-- The number of such line ends before an offset. -/
def loneEnds (source : List Char) (offset : Nat) : Nat :=
  (List.range offset).countP (isLoneEnd source)

theorem loneEnds_cons (c : Char) (rest : List Char) (n : Nat) :
    loneEnds (c :: rest) (n + 1) =
      loneEnds rest n + if isLoneEnd (c :: rest) 0 = true then 1 else 0 := by
  rw [loneEnds, List.range_succ_eq_map, List.countP_cons, List.countP_map]
  rfl

theorem loneEnds_eq_zero_iff {source : List Char} {offset : Nat} :
    loneEnds source offset = 0 ↔ ∀ i < offset, isLoneEnd source i = false := by
  simp [loneEnds, List.countP_eq_zero]

theorem loneEnds_cons_of_not_isLineEnd {c : Char} (h : ¬ isLineEnd c = true) (rest : List Char)
    (n : Nat) : loneEnds (c :: rest) (n + 1) = loneEnds rest n := by
  have hlone : isLoneEnd (c :: rest) 0 = false := by simp [isLoneEnd, h]
  rw [loneEnds_cons, hlone, if_neg Bool.false_ne_true, Nat.add_zero]

/-- A character that is a whole line end has no line feed, unless it is one. -/
theorem isLoneEnd_cons_of_isLineEnd {c : Char} {rest : List Char} (h : isLineEnd c = true)
    (hpair : ∀ more, c = '\r' → rest = '\n' :: more → False) :
    isLoneEnd (c :: rest) 0 = true ↔ c ≠ '\n' := by
  have hunpaired : ¬(c = '\r' ∧ rest[0]? = some '\n') := by
    rintro ⟨hc, hrest⟩
    obtain ⟨more, hmore⟩ := List.head?_eq_some_iff.1 (List.head?_eq_getElem?.trans hrest)
    exact hpair more hc hmore
  simpa [isLoneEnd, h] using fun _ => not_and_or.1 hunpaired

/-! ## Places of characters -/

theorem Position.line_after_cons {c : Char} (h : c ≠ '\n') (s : List Char) :
    (after (c :: s)).line = (after s).line := by
  rw [after_cons h]
  split
  next hzero => exact hzero.symm
  next => rfl

/-- A line and a character in it against those that are counted for an offset: there is one line more
    for each line end before the offset without a line feed, and if there is none, the
    characters are the same. -/
structure Counted (source : List Char) (n character offset : Nat) : Prop where
  line : n = (Position.after (source.take offset)).line + loneEnds source offset
  character : loneEnds source offset = 0 →
    character = (Position.after (source.take offset)).character

namespace Counted

variable {c : Char} {rest : List Char} {n k m : Nat}

theorem zero (source : List Char) : Counted source 0 0 0 where
  line := rfl
  character _ := rfl

/-- A carriage return and a line feed move everything by a line. -/
theorem pair (h : Counted rest n k m) : Counted ('\r' :: '\n' :: rest) (n + 1) k (m + 2) := by
  have hlone : loneEnds ('\r' :: '\n' :: rest) (m + 2) = loneEnds rest m := by
    rw [loneEnds_cons, loneEnds_cons]
    rfl
  have hafter : Position.after (('\r' :: '\n' :: rest).take (m + 2)) =
      ⟨(Position.after (rest.take m)).line + 1, (Position.after (rest.take m)).character⟩ := by
    rw [List.take_succ_cons, List.take_succ_cons, Position.after_cons (by decide),
      Position.after_lineFeed_cons, if_neg (Nat.succ_ne_zero _)]
  refine ⟨?_, fun hzero => ?_⟩
  · rw [hlone, hafter, h.line, Nat.add_right_comm]
  · rw [hafter, h.character (hlone ▸ hzero)]

/-- So does any other line end, which is a line feed or counts as a line end without one. -/
theorem lineEnd (h : Counted rest n k m) (hend : isLineEnd c = true)
    (hpair : ∀ more, c = '\r' → rest = '\n' :: more → False) :
    Counted (c :: rest) (n + 1) k (m + 1) := by
  have hlone := isLoneEnd_cons_of_isLineEnd hend hpair
  by_cases hc : c = '\n'
  · have hmore : loneEnds (c :: rest) (m + 1) = loneEnds rest m := by
      rw [loneEnds_cons, if_neg (fun h => hlone.1 h hc), Nat.add_zero]
    refine ⟨?_, fun hzero => ?_⟩
    · rw [hmore, List.take_succ_cons, hc, Position.after_lineFeed_cons, h.line, Nat.add_right_comm]
    · rw [List.take_succ_cons, hc, Position.after_lineFeed_cons, h.character (hmore ▸ hzero)]
  · have hmore : loneEnds (c :: rest) (m + 1) = loneEnds rest m + 1 := by
      rw [loneEnds_cons, if_pos (hlone.2 hc)]
    refine ⟨?_, fun hzero => ?_⟩
    · rw [hmore, List.take_succ_cons, Position.line_after_cons hc, h.line, Nat.add_assoc]
    · rw [hmore] at hzero
      exact absurd hzero (Nat.succ_ne_zero _)

/-- Any other character moves the characters of the first line. -/
theorem first (h : Counted rest 0 k m) (hend : ¬ isLineEnd c = true) :
    Counted (c :: rest) 0 (k + 1) (m + 1) := by
  have hc : c ≠ '\n' := fun hc => hend (hc ▸ rfl)
  have hmore := loneEnds_cons_of_not_isLineEnd hend rest m
  have hline : (Position.after (rest.take m)).line = 0 :=
    Nat.eq_zero_of_add_eq_zero_right h.line.symm
  refine ⟨?_, fun hzero => ?_⟩
  · rw [hmore, List.take_succ_cons, Position.line_after_cons hc, ← h.line]
  · rw [List.take_succ_cons, Position.after_cons hc, if_pos hline, h.character (hmore ▸ hzero)]

/-- It moves nothing on the other lines. -/
theorem later (h : Counted rest n k m) (hend : ¬ isLineEnd c = true) (hn : n ≠ 0) :
    Counted (c :: rest) n k (m + 1) := by
  have hc : c ≠ '\n' := fun hc => hend (hc ▸ rfl)
  have hmore := loneEnds_cons_of_not_isLineEnd hend rest m
  refine ⟨?_, fun hzero => ?_⟩
  · rw [hmore, List.take_succ_cons, Position.line_after_cons hc, ← h.line]
  · rw [hmore] at hzero
    have hline : (Position.after (rest.take m)).line ≠ 0 := by
      rwa [h.line, hzero] at hn
    rw [List.take_succ_cons, Position.after_cons hc, if_neg hline, h.character hzero]

end Counted

/-- The place of a character in the lines of a document goes with what is counted for it. -/
theorem counted_of_spotIn {source : List Char} {n character offset : Nat}
    (h : spotIn (documentLines source) n character = some offset) :
    Counted source n character offset := by
  fun_induction documentLines source generalizing n character offset with
  | case1 => cases h
  | case2 rest ih =>
    cases n with
    | zero =>
      obtain ⟨hlt, rfl⟩ := spotIn_zero_iff.1 h
      obtain rfl | rfl : character = 0 ∨ character = 1 := by
        have hlt : character < 2 := hlt
        omega
      · exact .zero _
      · exact ⟨rfl, fun _ => rfl⟩
    | succ n =>
      obtain ⟨m, hm, rfl⟩ := spotIn_succ_iff.1 h
      have hoff : ['\r', '\n'].length + m = m + 2 := Nat.add_comm ..
      rw [hoff]
      exact (ih hm).pair
  | case3 c rest hpair hend ih =>
    cases n with
    | zero =>
      obtain ⟨hlt, rfl⟩ := spotIn_zero_iff.1 h
      obtain rfl := Nat.lt_one_iff.1 hlt
      exact .zero _
    | succ n =>
      obtain ⟨m, hm, rfl⟩ := spotIn_succ_iff.1 h
      rw [List.length_singleton, Nat.add_comm 1]
      exact (ih hm).lineEnd hend hpair
  | case4 c rest hpair hend hnil ih =>
    cases n with
    | zero =>
      obtain ⟨hlt, rfl⟩ := spotIn_zero_iff.1 h
      obtain rfl := Nat.lt_one_iff.1 hlt
      exact .zero _
    | succ n => cases h
  | case5 c rest hpair hend line more hlines ih =>
    rw [hlines] at ih
    obtain ⟨rfl, rfl, rfl⟩ | ⟨m, rfl, ⟨rfl, k, rfl, hk⟩ | ⟨hne, hn⟩⟩ := exists_of_spotIn_cons h
    · exact .zero _
    · exact (ih hk).first hend
    · exact (ih hn).later hend hne

variable {source : List Char} {offset : Nat}

/-- Every character of a document stands on the line that is counted for it, moved on by the line ends
    before it without a line feed. -/
theorem exists_spot? (h : offset < source.length) :
    ∃ character, Position.spot? source
      ⟨(positionAt source offset).line + loneEnds source offset, character⟩ = some offset := by
  rw [← flatten_documentLines source] at h
  obtain ⟨n, character, hn⟩ := exists_spotIn h
  rw [positionAt_natCast, ← (counted_of_spotIn hn).line]
  exact ⟨character, hn⟩

/-- The place of an offset leads back to it unless there is a line end before it without a line
    feed. -/
theorem spot?_positionAt_iff (h : offset < source.length) :
    (positionAt source offset).spot? source = some offset ↔ loneEnds source offset = 0 := by
  constructor
  · intro hspot
    have hline := (counted_of_spotIn hspot).line
    rw [positionAt_natCast] at hline
    omega
  · intro hzero
    obtain ⟨character, hspot⟩ := exists_spot? h
    have hchar : character = (Position.after (source.take offset)).character :=
      (counted_of_spotIn hspot).character hzero
    rwa [hzero, Nat.add_zero, positionAt_natCast, hchar, ← positionAt_natCast] at hspot

theorem loneEnds_mono (source : List Char) {m n : Nat} (h : m ≤ n) :
    loneEnds source m ≤ loneEnds source n :=
  (List.range_sublist.2 h).countP_le

/-- The place of an offset leads to no character behind it. -/
theorem le_of_spot? {found : Nat} (h : offset < source.length)
    (hfound : (positionAt source offset).spot? source = some found) : found ≤ offset := by
  by_contra hlt
  have hle : offset ≤ found := Nat.le_of_not_le hlt
  have hline := (counted_of_spotIn hfound).line
  have hfeeds : (positionAt source offset).line ≤ (Position.after (source.take found)).line := by
    rw [positionAt_natCast]
    exact (List.take_sublist_take_left hle).count_le _
  have hlone := loneEnds_mono source hle
  have hback := (spot?_positionAt_iff h).2 (by omega)
  rw [hfound] at hback
  exact hlt (Option.some.inj hback).le

/-! ## Problems and look-ups -/

/-- A place leads hover and completion to the character of the document at an offset: this stands
    there in the line of the document that both of them take. -/
structure Document.Finds (d : Document) (p : Position) (offset : Nat) : Prop where
  spot : p.spot? d.source = some offset
  line : ∃ text, (documentLines d.source)[p.line]? = some text ∧
    text[p.character]? = d.source[offset]? ∧
    d.hover? p.line p.character = Editor.hover? text p.character ∧
    d.complete p.line p.character = completions (d.tables.getD []) (text.take p.character)

theorem Document.finds_iff {d : Document} {p : Position} :
    d.Finds p offset ↔ p.spot? d.source = some offset := by
  refine ⟨Finds.spot, fun h => ⟨h, ?_⟩⟩
  obtain ⟨text, htext, hchar⟩ := getElem?_of_spotIn h
  rw [flatten_documentLines] at hchar
  refine ⟨text, htext, hchar, ?_, ?_⟩
  · simp only [hover?, htext]
    rfl
  · rw [complete, List.getD_eq_getElem?_getD, htext, Option.getD_some]

/-- A range starts at the place of an offset. -/
theorem exists_start_rangeOf (source : List Char) (command : Script.CommandText)
    (position : Option Nat) :
    ∃ p : Nat, (rangeOf source command position).start = positionAt source p := by
  cases position with
  | none => exact ⟨command.offset, rfl⟩
  | some position => exact ⟨position, rfl⟩

/-- Every problem that is shown starts at the place of an offset. -/
theorem exists_start_of_mem_diagnostics {tables : Option (List Table)} {shown : List Diagnostic}
    (h : diagnostics tables source = .ok shown) {x : Diagnostic} (hx : x ∈ shown) :
    ∃ p : Nat, x.range.start = positionAt source p := by
  cases tables with
  | none =>
    obtain ⟨found, hfound, hshown⟩ := bind_eq_ok h
    cases hshown
    obtain ⟨_, hmem, rfl⟩ := List.mem_filterMap.1 hx
    obtain ⟨command, -, hform⟩ := exists_of_mapM hfound hmem
    unfold formDiagnostic? at hform
    split at hform
    next => cases hform
    next => cases hform
    next f _ =>
      obtain ⟨position, -, hform⟩ := bind_eq_ok hform
      cases hform
      exact exists_start_rangeOf ..
  | some tables =>
    simp only [diagnostics] at h
    split at h
    next =>
      cases h
      obtain ⟨problem, -, rfl⟩ := List.mem_map.1 hx
      exact exists_start_rangeOf ..
    next => cases h

/-- Hover and completion take the start of a problem that is shown for the character that it was made
    for if and only if there is no line end before the character that has no line feed. They
    never take it for a later one, and find the character as many lines below as there are
    such line ends. -/
theorem diagnostics_found_iff (d : Document) {shown : List Diagnostic}
    (hd : d.diagnostics = .ok shown) {x : Diagnostic} (hx : x ∈ shown) :
    (∃ p : Nat, x.range.start = positionAt d.source p) ∧
    ∀ p : Nat, p < d.source.length → x.range.start = positionAt d.source p →
      (d.Finds x.range.start p ↔ ∀ i < p, isLoneEnd d.source i = false) ∧
      (∀ q, d.Finds x.range.start q → q ≤ p) ∧
      ∃ character, d.Finds ⟨x.range.start.line + loneEnds d.source p, character⟩ p := by
  refine ⟨exists_start_of_mem_diagnostics hd hx, fun p hp hstart => ?_⟩
  rw [hstart]
  simp only [Document.finds_iff]
  exact ⟨(spot?_positionAt_iff hp).trans loneEnds_eq_zero_iff, fun q => le_of_spot? hp,
    exists_spot? hp⟩

/-- Three commands on a table that is not there, with a carriage return and a line feed behind the
    first of them and a carriage return behind the second. -/
def mixedEnds : Document where
  isFile := true
  tablesText := some "[]".toList
  source := "add in table 'V' row;\r\nadd in table 'V' row;\radd in table 'V' row".toList

/-- What is shown of such a command. -/
def missingAt (start stop : Position) : Diagnostic where
  range := ⟨start, stop⟩
  severity := .error
  message := "Table 'V' not found"

theorem diagnostics_mixedEnds :
    mixedEnds.diagnostics =
      .ok [missingAt ⟨0, 0⟩ ⟨0, 20⟩, missingAt ⟨1, 0⟩ ⟨1, 20⟩, missingAt ⟨1, 22⟩ ⟨1, 42⟩] := by
  decide +kernel

theorem diagnostics_found_iff_mixedEnds :
    ∃ shown, mixedEnds.diagnostics = .ok shown ∧
      missingAt ⟨1, 0⟩ ⟨1, 20⟩ ∈ shown ∧ mixedEnds.Finds ⟨1, 0⟩ 23 ∧
      missingAt ⟨1, 22⟩ ⟨1, 42⟩ ∈ shown ∧ ¬ mixedEnds.Finds ⟨1, 22⟩ 45 ∧
      ∃ character, mixedEnds.Finds ⟨2, character⟩ 45 := by
  have hsecond := diagnostics_found_iff mixedEnds diagnostics_mixedEnds
    (x := missingAt ⟨1, 0⟩ ⟨1, 20⟩) (by simp)
  have hthird := diagnostics_found_iff mixedEnds diagnostics_mixedEnds
    (x := missingAt ⟨1, 22⟩ ⟨1, 42⟩) (by simp)
  obtain ⟨hfound, -⟩ := hsecond.2 23 (by decide) (by decide +kernel)
  obtain ⟨hmissed, -, hbelow⟩ := hthird.2 45 (by decide) (by decide +kernel)
  refine ⟨_, diagnostics_mixedEnds, by simp, hfound.2 (by decide +kernel), by simp, fun h => ?_, ?_⟩
  · -- the carriage return behind the second command
    exact absurd (hmissed.1 h 44 (by decide)) (by decide +kernel)
  · have hone : loneEnds mixedEnds.source 45 = 1 := by decide +kernel
    rwa [hone] at hbelow

/-- A problem can be shown where the lines of the document do not have the character that it is
    about: behind a carriage return alone. -/
theorem diagnostics_not_found_mixedEnds :
    ¬ ∀ (d : Document) (shown : List Diagnostic), d.diagnostics = .ok shown → ∀ x ∈ shown,
      ∀ p : Nat, p < d.source.length → x.range.start = positionAt d.source p →
        ∃ text, (documentLines d.source)[x.range.start.line]? = some text ∧
          text[x.range.start.character]? = d.source[p]? := by
  intro h
  obtain ⟨text, htext, hchar⟩ := h mixedEnds _ diagnostics_mixedEnds
    (missingAt ⟨1, 22⟩ ⟨1, 42⟩) (by simp) 45 (by decide) (by decide +kernel)
  have hsecond : (documentLines mixedEnds.source)[1]? = some "add in table 'V' row;\r".toList := by
    decide +kernel
  cases hsecond.symm.trans htext
  exact absurd hchar (by decide +kernel)

end Storyboard.Editor
