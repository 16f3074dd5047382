-- SUMMARY: What is printed of texts: all of them if they are whole, else those before the first that is not.
import Storyboard.Text.Print

/-!
# What is printed

A text is printed as the characters that it is made up of (`chars_eq_ok_iff`). If it is not
whole, its first halves are at fault (`chars_eq_error_iff`). Of several texts all that stand
before the first that is not whole are printed, and nothing of it and of those behind it
(`fault_eq_none_iff`, `exists_of_fault_eq_some`).
-/

namespace Storyboard.Print

open CodePoints (ofChars ofString)

/-! ## One text -/

/-- A fault is that of a text: there are only characters before its place, and as many halves in a
    row there as it says. -/
inductive Fault.Stops : Fault → CodePoints → Prop where
  | halves {before : List Char} {n : Fin 0x800} {more : List (Fin 0x800)} {behind : CodePoints} :
      (∀ p, behind.head? = some p → p.isHalf = false) →
      Stops ⟨n, before.length, more.length + 1⟩
        (ofChars before ++ .half n :: (more.map .half ++ behind))

variable {text : CodePoints}

theorem charsFrom_char (position : Nat) (c : Char) (rest : CodePoints) :
    charsFrom position (.char c :: rest) = (charsFrom (position + 1) rest).map (c :: ·) := by
  rw [charsFrom]
  cases charsFrom (position + 1) rest <;> rfl

theorem charsFrom_ofChars (position : Nat) (cs : List Char) :
    charsFrom position (ofChars cs) = .ok cs := by
  induction cs generalizing position with
  | nil => rfl
  | cons c cs ih =>
    rw [CodePoints.ofChars_cons, charsFrom_char, ih (position + 1)]
    rfl

/-- Only the characters before a half count for its place. -/
theorem charsFrom_append_half (position : Nat) (before : List Char) (n : Fin 0x800)
    (rest : CodePoints) :
    charsFrom position (ofChars before ++ .half n :: rest) =
      .error ⟨n, position + before.length, (rest.takeWhile CodePoint.isHalf).length + 1⟩ := by
  induction before generalizing position with
  | nil => rfl
  | cons c before ih =>
    have hmore : position + 1 + before.length = position + (c :: before).length := by
      simp only [List.length_cons]
      omega
    rw [CodePoints.ofChars_cons, List.cons_append, charsFrom_char, ih (position + 1), hmore]
    rfl

/-- A text is whole, or there are characters and then a half. -/
theorem cases_of_text (text : CodePoints) :
    (∃ cs, text = ofChars cs) ∨ ∃ before n rest, text = ofChars before ++ .half n :: rest := by
  induction text with
  | nil => exact .inl ⟨[], rfl⟩
  | cons p rest ih =>
    cases p with
    | half n => exact .inr ⟨[], n, rest, rfl⟩
    | char c =>
      rcases ih with ⟨cs, rfl⟩ | ⟨before, n, rest, rfl⟩
      · exact .inl ⟨c :: cs, rfl⟩
      · exact .inr ⟨c :: before, n, rest, rfl⟩

/-- A text is printed as the characters it is made up of, if it is one of characters. -/
theorem chars_eq_ok_iff {cs : List Char} : chars text = .ok cs ↔ text = ofChars cs := by
  constructor
  · intro h
    rcases cases_of_text text with ⟨cs', rfl⟩ | ⟨before, n, rest, rfl⟩
    · rw [chars, charsFrom_ofChars] at h
      cases h
      rfl
    · rw [chars, charsFrom_append_half] at h
      cases h
  · rintro rfl
    exact charsFrom_ofChars 0 cs

/-- The halves at the start of a text. -/
theorem exists_halves (rest : CodePoints) :
    ∃ (more : List (Fin 0x800)) (behind : CodePoints), rest = more.map .half ++ behind ∧
      ∀ p, behind.head? = some p → p.isHalf = false := by
  induction rest with
  | nil => exact ⟨[], [], rfl, nofun⟩
  | cons p rest ih =>
    cases p with
    | char c =>
      refine ⟨[], .char c :: rest, rfl, fun p hp => ?_⟩
      cases hp
      rfl
    | half n =>
      obtain ⟨more, behind, rfl, hbehind⟩ := ih
      exact ⟨n :: more, behind, rfl, hbehind⟩

theorem takeWhile_halves (more : List (Fin 0x800)) {behind : CodePoints}
    (h : ∀ p, behind.head? = some p → p.isHalf = false) :
    ((more.map CodePoint.half ++ behind).takeWhile CodePoint.isHalf).length = more.length := by
  induction more with
  | nil =>
    cases behind with
    | nil => rfl
    | cons p behind => simp [h p rfl]
  | cons n more ih => exact congrArg (· + 1) ih

/-- What stops a text from being printed is its first halves. -/
theorem chars_eq_error_iff {f : Fault} : chars text = .error f ↔ f.Stops text := by
  constructor
  · intro h
    rcases cases_of_text text with ⟨cs, rfl⟩ | ⟨before, n, rest, rfl⟩
    · rw [chars, charsFrom_ofChars] at h
      cases h
    · rw [chars, charsFrom_append_half, Nat.zero_add] at h
      obtain ⟨more, behind, rfl, hbehind⟩ := exists_halves rest
      rw [takeWhile_halves more hbehind] at h
      cases h
      exact .halves hbehind
  · rintro ⟨hbehind⟩
    rw [chars, charsFrom_append_half, Nat.zero_add, takeWhile_halves _ hbehind]

/-! ## Texts one after the other -/

variable {ts : List CodePoints}

theorem texts_cons_of_ofChars (cs : List Char) (ts : List CodePoints) :
    texts (ofChars cs :: ts) =
      { texts ts with output := String.ofList cs ++ (texts ts).output } := by
  rw [texts, chars_eq_ok_iff.2 rfl]

theorem texts_cons_of_stops {f : Fault} (h : f.Stops text) (ts : List CodePoints) :
    texts (text :: ts) = { output := "", fault := some f } := by
  rw [texts, chars_eq_error_iff.2 h]

/-- Texts are printed without a fault if they are whole. -/
theorem fault_eq_none_iff : (texts ts).fault = none ↔ ∀ t ∈ ts, t.IsWhole := by
  induction ts with
  | nil => exact iff_of_true rfl (List.forall_mem_nil _)
  | cons t ts ih =>
    rw [List.forall_mem_cons, CodePoints.isWhole_iff]
    cases ht : chars t with
    | error f =>
      have hnone : ¬ ∃ cs, t = ofChars cs := by
        rintro ⟨cs, hcs⟩
        rw [chars_eq_ok_iff.2 hcs] at ht
        cases ht
      rw [texts_cons_of_stops (chars_eq_error_iff.1 ht)]
      exact iff_of_false nofun fun h => hnone h.1
    | ok cs =>
      obtain rfl := chars_eq_ok_iff.1 ht
      rw [texts_cons_of_ofChars, ih]
      exact ⟨fun h => ⟨⟨cs, rfl⟩, h⟩, And.right⟩

/-- Without a fault all of the texts is printed. -/
theorem ofString_output (h : (texts ts).fault = none) :
    ofString (texts ts).output = ts.flatten := by
  induction ts with
  | nil => rfl
  | cons t ts ih =>
    have hwhole := fault_eq_none_iff.1 h
    rw [List.forall_mem_cons, CodePoints.isWhole_iff] at hwhole
    obtain ⟨⟨cs, rfl⟩, hmore⟩ := hwhole
    rw [texts_cons_of_ofChars, CodePoints.ofString_append, ih (fault_eq_none_iff.2 hmore),
      List.flatten_cons, ofString, String.toList_ofList]

/-- With a fault, which is that of the first text that is not whole, just the texts before it are
    printed. -/
theorem exists_of_fault_eq_some {f : Fault} (h : (texts ts).fault = some f) :
    ∃ before t behind, ts = before ++ t :: behind ∧ (∀ u ∈ before, u.IsWhole) ∧ f.Stops t ∧
      ofString (texts ts).output = before.flatten := by
  induction ts with
  | nil => cases h
  | cons t ts ih =>
    cases ht : chars t with
    | error g =>
      have hstops := chars_eq_error_iff.1 ht
      rw [texts_cons_of_stops hstops] at h ⊢
      cases h
      exact ⟨[], t, ts, rfl, List.forall_mem_nil _, hstops, rfl⟩
    | ok cs =>
      obtain rfl := chars_eq_ok_iff.1 ht
      rw [texts_cons_of_ofChars] at h ⊢
      obtain ⟨before, u, behind, rfl, hwhole, hstops, houtput⟩ := ih h
      refine ⟨ofChars cs :: before, u, behind, rfl, ?_, hstops, ?_⟩
      · exact List.forall_mem_cons.2 ⟨CodePoints.isWhole_ofChars cs, hwhole⟩
      · rw [CodePoints.ofString_append, houtput, List.flatten_cons, ofString,
          String.toList_ofList]

end Storyboard.Print
