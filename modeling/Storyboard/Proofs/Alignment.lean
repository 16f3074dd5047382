-- SUMMARY: The lines of a grid have their fields at the same places, as wide as the widest entry.
import Mathlib.Data.List.Forall2
import Storyboard.Frame.Grid
import Storyboard.Proofs.Text.Cut

/-!
# Alignment

The fields of all lines of a grid start at the same places and have the same widths.
Where they are depends on the widths alone (`Grid.fieldStart`). A field is as wide as the
widest entry of the header or of a row (`Grid.tight_widths`), and a line whose fields are
filled up has each of them at its place (`Grid.laidOut_layOut`). With what the entries
show, this is all of the text of the grid but for blanks at the ends of lines
(`Table.grid_aligned`).
-/

namespace Storyboard

namespace Grid

/-! ## Entries -/

/-- A text of at most 24 characters, or the first 21 of a longer one and three dots. -/
def Cut (value text : CodePoints) : Prop :=
  (value.length ≤ 24 ∧ text = value) ∨
    (24 < value.length ∧ text = value.take 21 ++ "...")

/-- What a value is displayed as: cut, and between asterisks if it is marked. -/
inductive Displays : Bool → CodePoints → CodePoints → Prop where
  | plain {value text : CodePoints} : Cut value text → Displays false value text
  | marked {value text : CodePoints} : Cut value text →
      Displays true value ("*" ++ text ++ "*")

theorem cut_shorten (value : CodePoints) : Cut value (shorten maxWidth value) := by
  unfold shorten
  split
  next hlong =>
    refine .inr ⟨?_, by simp [maxWidth, Text.upTo]⟩
    rw [maxWidth] at hlong
    omega
  next hshort =>
    refine .inl ⟨?_, rfl⟩
    rw [maxWidth] at hshort
    omega

theorem displays_field (marked : Bool) (value : CodePoints) :
    Displays marked value (field marked value) := by
  cases marked with
  | false => exact .plain (cut_shorten _)
  | true => exact .marked (cut_shorten _)

/-- A line with a margin, a first entry, and one entry for each column behind it: the value of the
    column, with a mark or without. -/
structure Line.Shows (line : Line) (margin : Char) (first : CodePoints) (columns : List Column)
    (marked : Column → Bool) (value : Column → CodePoints) : Prop where
  margin : line.margin = margin
  length : line.fields.length = columns.length + 1
  first : line.fields[0]? = some first
  entry : ∀ j c, columns[j]? = some c →
    ∃ text, line.fields[j + 1]? = some text ∧ Displays (marked c) (value c) text

/-- The header and the rows of a table under a highlight. A row that is marked has an arrow in the
    margin; its cells are marked with it. -/
structure Depicts (t : Table) (h : Highlight) (head : Line) (rows : List Line) : Prop where
  head : head.Shows ' ' "#" t.columns (fun c => h.marksHeader t.id (some c.id)) (·.name)
  length : rows.length = t.rows.length
  row : ∀ (i : Nat) (r : Row) (line : Line), t.rows[i]? = some r → rows[i]? = some line →
    line.Shows (if h.marksRow t.id r.id then '>' else ' ') (toString (i + 1)) t.columns
      (fun c => h.marksRow t.id r.id || h.marksCell t.id (some c.id) r.id) (r.cell ·.id)

/-- A line that is made up of a first entry and one entry for each column. -/
theorem shows_of_fields (margin : Char) (first : CodePoints) (columns : List Column)
    (marked : Column → Bool) (value : Column → CodePoints) :
    Line.Shows ⟨margin, first :: columns.map fun c => field (marked c) (value c)⟩ margin first
      columns marked value where
  margin := rfl
  length := by simp
  first := rfl
  entry j c hc := ⟨_, by simp [hc], displays_field (marked c) (value c)⟩

theorem depicts_body (t : Table) (h : Highlight) : Depicts t h (header t h) (body t h) where
  head := shows_of_fields ..
  length := by simp [body]
  row i r line hr hline := by
    rw [body, List.getElem?_map, List.getElem?_zipIdx, hr] at hline
    cases hline
    rw [Nat.zero_add]
    exact shows_of_fields ..

/-! ## Widths -/

/-- Widths that every entry of the lines fits, and each of which is that of some entry. -/
structure Tight (widths : List Nat) (lines : List Line) : Prop where
  count : ∀ line ∈ lines, line.fields.length = widths.length
  fits : ∀ line ∈ lines, ∀ (j w : Nat) (text : CodePoints), widths[j]? = some w →
    line.fields[j]? = some text → text.length ≤ w
  attained : ∀ (j w : Nat), widths[j]? = some w →
    ∃ line ∈ lines, ∃ text : CodePoints, line.fields[j]? = some text ∧ text.length = w

theorem getElem?_widen (widths : List Nat) (fields : List CodePoints) (j : Nat) :
    (widen widths fields)[j]? = widths[j]?.map fun w => max w (fields.getD j []).length := by
  rw [widen, List.getElem?_map, List.getElem?_zipIdx, Option.map_map, Nat.zero_add]
  rfl

theorem length_foldl_widen (widths : List Nat) (lines : List Line) :
    (lines.foldl (fun widths line => widen widths line.fields) widths).length = widths.length := by
  induction lines generalizing widths with
  | nil => rfl
  | cons line lines ih => rw [List.foldl_cons, ih, widen, List.length_map, List.length_zipIdx]

/-- A width that is widened for lines one after the other has room for their entries; and it is what
    it was or comes from one of them. -/
theorem exists_width {widths : List Nat} {j w : Nat} (h : widths[j]? = some w)
    (lines : List Line) :
    ∃ v, (lines.foldl (fun widths line => widen widths line.fields) widths)[j]? = some v ∧ w ≤ v ∧
      (∀ line ∈ lines, ∀ text : CodePoints, line.fields[j]? = some text → text.length ≤ v) ∧
      (v = w ∨
        ∃ line ∈ lines, ∃ text : CodePoints, line.fields[j]? = some text ∧ text.length = v) := by
  induction lines generalizing widths w with
  | nil => exact ⟨w, h, Nat.le_refl w, List.forall_mem_nil _, .inl rfl⟩
  | cons line lines ih =>
    have hstep : (widen widths line.fields)[j]? =
        some (max w (line.fields.getD j []).length) := by
      rw [getElem?_widen, h, Option.map_some]
    obtain ⟨v, hv, hle, hfits, hfrom⟩ := ih hstep
    have hroom : ∀ text, line.fields[j]? = some text → text.length ≤ v := by
      intro text htext
      rw [List.getD_eq_getElem?_getD, htext, Option.getD_some] at hle
      exact (Nat.le_max_right ..).trans hle
    refine ⟨v, hv, (Nat.le_max_left ..).trans hle, List.forall_mem_cons.2 ⟨hroom, hfits⟩, ?_⟩
    rcases hfrom with hv | ⟨l, hl, hattained⟩
    · -- the width after this line is the last one: it was so before, or this line has it
      rcases Nat.le_total (line.fields.getD j []).length w with hle' | hle'
      · exact .inl (hv.trans (Nat.max_eq_left hle'))
      · rw [Nat.max_eq_right hle'] at hv
        cases htext : line.fields[j]? with
        | none =>
          rw [List.getD_eq_getElem?_getD, htext, Option.getD_none] at hv hle'
          exact .inl (hv.trans (Nat.le_antisymm (Nat.zero_le w) hle'))
        | some text =>
          rw [List.getD_eq_getElem?_getD, htext, Option.getD_some] at hv
          exact .inr ⟨line, List.mem_cons_self .., text, htext, hv.symm⟩
    · exact .inr ⟨l, List.mem_cons_of_mem _ hl, hattained⟩

/-- The widths of a grid are as small as its entries let them be. -/
theorem tight_widths {head : Line} {lines : List Line}
    (h : ∀ line ∈ lines, line.fields.length = head.fields.length) :
    Tight (widths head lines) (head :: lines) := by
  have hwidth : ∀ {j w : Nat}, (widths head lines)[j]? = some w →
      ∃ text : CodePoints, head.fields[j]? = some text ∧ text.length ≤ w ∧
        (∀ line ∈ lines, ∀ u : CodePoints, line.fields[j]? = some u → u.length ≤ w) ∧
        (w = text.length ∨
          ∃ line ∈ lines, ∃ u : CodePoints, line.fields[j]? = some u ∧ u.length = w) := by
    intro j w hw
    have hlt : j < head.fields.length := by
      have hlt := (List.getElem?_eq_some_iff.1 hw).1
      rwa [widths, length_foldl_widen, List.length_map] at hlt
    have htext := List.getElem?_eq_getElem hlt
    have hstart : (head.fields.map (·.length))[j]? = some head.fields[j].length := by
      rw [List.getElem?_map, htext, Option.map_some]
    obtain ⟨v, hv, hle, hfits, hfrom⟩ := exists_width hstart lines
    cases hv.symm.trans hw
    exact ⟨_, htext, hle, hfits, hfrom⟩
  constructor
  case count =>
    have hlength : (widths head lines).length = head.fields.length := by
      rw [widths, length_foldl_widen, List.length_map]
    rw [hlength]
    exact List.forall_mem_cons.2 ⟨rfl, h⟩
  case fits =>
    intro line hline j w u hw hu
    obtain ⟨text, htext, hle, hfits, -⟩ := hwidth hw
    rcases List.mem_cons.1 hline with rfl | hline
    · cases htext.symm.trans hu
      exact hle
    · exact hfits line hline u hu
  case attained =>
    intro j w hw
    obtain ⟨text, htext, -, -, hfrom⟩ := hwidth hw
    rcases hfrom with rfl | ⟨line, hline, hattained⟩
    · exact ⟨head, List.mem_cons_self .., text, htext, rfl⟩
    · exact ⟨line, List.mem_cons_of_mem _ hline, hattained⟩

/-- The lines of a grid fit its widths. -/
theorem tight_grid (t : Table) (h : Highlight) :
    Tight (widths (header t h) (body t h)) (header t h :: body t h) := by
  have hdepicts := depicts_body t h
  refine tight_widths fun line hline => ?_
  obtain ⟨i, hi⟩ := List.mem_iff_getElem?.1 hline
  have hlt : i < t.rows.length := hdepicts.length ▸ (List.getElem?_eq_some_iff.1 hi).1
  rw [(hdepicts.row i _ line (List.getElem?_eq_getElem hlt) hi).length, hdepicts.head.length]

/-! ## Places of fields -/

/-- The number of characters that fields of some widths take up with what stands between them. -/
def extent : List Nat → Nat
  | [] => 0
  | [w] => w
  | w :: v :: more => w + 3 + extent (v :: more)

/-- The number of characters of a line before its field at a place. -/
def fieldStart : List Nat → Nat → Nat
  | w :: more, j + 1 => w + 3 + fieldStart more j
  | _, _ => 2

/-- A text is a line with its fields at their places: behind the margin each entry, filled up with
    spaces to its width, with a bar between two spaces before the next. -/
structure LaidOut (widths : List Nat) (line : Line) (text : CodePoints) : Prop where
  length : text.length = extent widths + 2
  margin : text.take 2 = [.char line.margin, .char ' ']
  field : ∀ (j w : Nat) (entry : CodePoints), widths[j]? = some w → line.fields[j]? = some entry →
    Text.slice (fieldStart widths j) (fieldStart widths j + w) text =
      entry ++ List.replicate (w - entry.length) (.char ' ')
  separator : ∀ (j w : Nat), widths[j]? = some w → j + 1 < widths.length →
    Text.slice (fieldStart widths j + w) (fieldStart widths (j + 1)) text = " | "

/-- The next field starts behind a field and what separates them. -/
theorem fieldStart_succ {widths : List Nat} {j w : Nat} (h : widths[j]? = some w) :
    fieldStart widths (j + 1) = fieldStart widths j + w + 3 := by
  induction widths generalizing j with
  | nil => cases h
  | cons v more ih =>
    cases j with
    | zero =>
      cases h
      have hzero : fieldStart more 0 = 2 := by cases more <;> rfl
      rw [fieldStart, hzero, fieldStart]
      · omega
      · nofun
    | succ j =>
      rw [fieldStart, ih h, fieldStart]
      omega

theorem intercalate_cons_cons (part next : CodePoints) (parts : List CodePoints) :
    List.intercalate fieldSeparator (part :: next :: parts) =
      part ++ (fieldSeparator ++ List.intercalate fieldSeparator (next :: parts)) := by
  rw [List.intercalate_cons_cons, List.append_assoc]

theorem length_intercalate (parts : List CodePoints) :
    (List.intercalate fieldSeparator parts).length = extent (parts.map (·.length)) := by
  match parts with
  | [] => rfl
  | [part] => simp [extent]
  | part :: next :: parts =>
    have ih := length_intercalate (next :: parts)
    rw [intercalate_cons_cons, List.length_append, List.length_append, ih, ← Nat.add_assoc]
    rfl

/-- A part stands behind as many characters as the parts before it have, with what separates them;
    and if another part follows, it is separated from it. -/
theorem exists_of_part {parts : List CodePoints} {j : Nat} {part : CodePoints}
    (h : parts[j]? = some part) :
    ∃ before behind, List.intercalate fieldSeparator parts = before ++ (part ++ behind) ∧
      before.length + 2 = fieldStart (parts.map (·.length)) j ∧
      (j + 1 < parts.length → ∃ more, behind = fieldSeparator ++ more) := by
  induction parts generalizing j with
  | nil => cases h
  | cons first parts ih =>
    cases parts with
    | nil =>
      cases j with
      | zero =>
        cases h
        exact ⟨[], [], by simp, rfl, fun hlt => absurd hlt (by simp)⟩
      | succ j => cases h
    | cons next parts =>
      rw [intercalate_cons_cons]
      cases j with
      | zero =>
        cases h
        exact ⟨[], _, rfl, rfl, fun _ => ⟨_, rfl⟩⟩
      | succ j =>
        obtain ⟨before, behind, heq, hlength, hmore⟩ := ih h
        refine ⟨first ++ (fieldSeparator ++ before), behind, by simp [heq], ?_, fun hlt => ?_⟩
        · have hseparator : fieldSeparator.length = 3 := rfl
          rw [List.map_cons, fieldStart, ← hlength, List.length_append, List.length_append]
          omega
        · exact hmore (Nat.lt_of_succ_lt_succ hlt)

theorem map_length_zipWith_pad {widths : List Nat} {fields : List CodePoints}
    (hcount : fields.length = widths.length)
    (hfits : ∀ (j w : Nat) (entry : CodePoints), widths[j]? = some w → fields[j]? = some entry →
      entry.length ≤ w) :
    (List.zipWith pad widths fields).map (·.length) = widths := by
  refine List.ext_getElem (by simp [hcount]) fun j hj hj' => ?_
  have hj'' : j < fields.length := hcount ▸ hj'
  rw [List.getElem_map, List.getElem_zipWith]
  exact length_pad (hfits j _ _ (List.getElem?_eq_getElem hj') (List.getElem?_eq_getElem hj''))

/-- A line whose entries fit the widths has them at their places. -/
theorem laidOut_layOut {widths : List Nat} {line : Line}
    (hcount : line.fields.length = widths.length)
    (hfits : ∀ (j w : Nat) (entry : CodePoints), widths[j]? = some w →
      line.fields[j]? = some entry → entry.length ≤ w) :
    LaidOut widths line (line.layOut widths) := by
  have hlengths := map_length_zipWith_pad hcount hfits
  -- the field at a place, with the line around it
  have hplace : ∀ (j w : Nat) (entry : CodePoints), widths[j]? = some w →
      line.fields[j]? = some entry → ∃ before behind, line.layOut widths = before ++ (pad w entry ++ behind) ∧
        before.length = fieldStart widths j ∧
        (j + 1 < widths.length → ∃ more, behind = fieldSeparator ++ more) := by
    intro j w entry hw hentry
    have hpart : (List.zipWith pad widths line.fields)[j]? = some (pad w entry) := by
      rw [List.getElem?_zipWith, hw, hentry]
    obtain ⟨before, behind, heq, hlength, hmore⟩ := exists_of_part hpart
    refine ⟨.char line.margin :: .char ' ' :: before, behind, ?_, ?_, fun hlt => hmore ?_⟩
    · rw [Line.layOut, heq]
      rfl
    · rw [List.length_cons, List.length_cons, hlength, hlengths]
    · rwa [List.length_zipWith, hcount, Nat.min_self]
  constructor
  case length =>
    rw [Line.layOut, List.length_cons, List.length_cons, length_intercalate, hlengths]
  case margin => rfl
  case field =>
    intro j w entry hw hentry
    obtain ⟨before, behind, heq, hstart, -⟩ := hplace j w entry hw hentry
    have hpad : (pad w entry).length = w := length_pad (hfits j w entry hw hentry)
    have hslice := Text.slice_append before (pad w entry) behind
    rwa [hpad, hstart, ← heq] at hslice
  case separator =>
    intro j w hw hlt
    have hj : j < line.fields.length := by
      rw [hcount]
      exact Nat.lt_of_succ_lt hlt
    have hentry := List.getElem?_eq_getElem hj
    obtain ⟨before, behind, heq, hstart, hmore⟩ := hplace j w _ hw hentry
    obtain ⟨more, rfl⟩ := hmore hlt
    have hpad : (pad w line.fields[j]).length = w := length_pad (hfits j w _ hw hentry)
    have hstop : (before ++ pad w line.fields[j]).length = fieldStart widths j + w := by
      rw [List.length_append, hstart, hpad]
    have hnext : fieldStart widths (j + 1) = fieldStart widths j + w + fieldSeparator.length :=
      fieldStart_succ hw
    have hslice := Text.slice_append (before ++ pad w line.fields[j]) fieldSeparator more
    rwa [hstop, List.append_assoc, ← heq, ← hnext] at hslice

end Grid

open Grid

/-- The text of a grid is aligned. It shows the name of the table, the header, a rule, and the rows or
    that there are none. The header and the rows have their entries in fields that start at the same
    places and have the same widths in all lines, the smallest into which all entries fit; the rule
    is as long as the fields. Blanks at the ends of these lines are left out. -/
theorem Table.grid_aligned (t : Table) (h : Highlight) :
    ∃ widths head rows headText rowTexts,
      Depicts t h head rows ∧ Tight widths (head :: rows) ∧ LaidOut widths head headText ∧
      List.Forall₂ (LaidOut widths) rows rowTexts ∧
      t.grid h = List.intercalate "\n"
        (t.name :: headText.stripRight ::
          ("  " ++ List.replicate (extent widths) (CodePoint.char '-')) ::
          if rows = [] then ["  (no rows)"] else rowTexts.map (·.stripRight)) := by
  have htight := tight_grid t h
  have hlaid : ∀ line ∈ header t h :: body t h,
      LaidOut (widths (header t h) (body t h)) line
        (line.layOut (widths (header t h) (body t h))) := fun line hline =>
    laidOut_layOut (htight.count line hline) (htight.fits line hline)
  rw [List.forall_mem_cons] at hlaid
  refine ⟨widths (header t h) (body t h), header t h, body t h, _,
    (body t h).map (·.layOut (widths (header t h) (body t h))), depicts_body t h, htight, hlaid.1,
    ?_, ?_⟩
  · rw [List.forall₂_map_right_iff, List.forall₂_same]
    exact hlaid.2
  · have hrule := hlaid.1.length
    simp only [Table.grid, gridLines, hrule, Nat.add_sub_cancel, List.map_map, List.isEmpty_iff]
    rfl

end Storyboard
