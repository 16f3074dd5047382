-- SUMMARY: Where tokens, illegal characters and commands stand in their text.
import Storyboard.Proofs.Script.Lexeme
import Storyboard.Proofs.Text.Cut
import Storyboard.Script.Split

/-!
# Places in a text

The scanner and the splitter count the characters before what they find. The counts
are true: at the position of a token stands a lexeme that is the token
(`Token.standsIn_of_mem_scan`), at that of an illegal character there is one, and up to it the
text is cut into the same tokens as if it ended there (`exists_of_illegal`). At the
offset of a command stands its text (`standsAt_of_mem_split`).
-/

namespace Storyboard.Script

/-! ## Places -/

/-- The piece stands in the text behind its first `n` characters. -/
def StandsAt (piece : List Char) (n : Nat) (s : List Char) : Prop :=
  piece <+: s.drop n

theorem standsAt_append (before piece after : List Char) :
    StandsAt piece before.length (before ++ (piece ++ after)) := by
  unfold StandsAt
  rw [List.drop_left]
  exact List.prefix_append piece after

theorem standsAt_of_getElem? {c : Char} {n : Nat} {s : List Char} (h : s[n]? = some c) :
    StandsAt [c] n s := by
  obtain ⟨hlt, rfl⟩ := List.getElem?_eq_some_iff.1 h
  unfold StandsAt
  rw [List.drop_eq_getElem_cons hlt]
  exact List.prefix_append [s[n]] _

namespace StandsAt

variable {piece s t : List Char} {m n : Nat}

/-- A piece of a piece. -/
theorem trans (h : StandsAt piece n s) (hs : StandsAt s m t) : StandsAt piece (m + n) t := by
  obtain ⟨after, ha⟩ := hs
  obtain ⟨behind, hb⟩ := h
  by_cases hn : n ≤ s.length
  · refine ⟨behind ++ after, ?_⟩
    rw [← List.drop_drop, ← ha, List.drop_append_of_le_length hn, ← hb, List.append_assoc]
  · -- behind the end of the text there is only the empty piece
    rw [List.drop_eq_nil_of_le (Nat.le_of_not_le hn)] at hb
    rw [(List.append_eq_nil_iff.1 hb).1]
    exact List.nil_prefix

/-- A piece that is not empty stands before the end. -/
theorem lt_length (h : StandsAt piece n s) (hne : piece ≠ []) : n < s.length := by
  by_contra hn
  unfold StandsAt at h
  rw [List.drop_eq_nil_of_le (Nat.le_of_not_lt hn), List.prefix_nil] at h
  exact hne h

end StandsAt

/-! ## Tokens -/

/-- At the position of the token, the text has a lexeme that is the token. -/
def Token.StandsIn (t : Token) (s : List Char) : Prop :=
  ∃ chars rest, s.drop t.position = chars ++ rest ∧
    Lexical chars (some (t.kind, t.text.toList)) rest

theorem Scan.mem_tokens_cons {t : Token} {token : Option (TokenKind × List Char)}
    {position line : Nat} {next : Scan} (h : t ∈ (Scan.cons token position line next).tokens) :
    token = some (t.kind, t.text.toList) ∧ t.position = position ∨ t ∈ next.tokens := by
  cases token with
  | none => exact .inr h
  | some token =>
    rcases List.mem_cons.1 h with rfl | hm
    · exact .inl ⟨by simp, rfl⟩
    · exact .inr hm

/-- Every token of a text is a lexeme of it, and its position is the number of characters before. -/
theorem exists_of_mem_tokens {position line : Nat} {s : List Char} {t : Token}
    (h : t ∈ (scanFrom position line s).tokens) :
    ∃ before chars rest, s = before ++ (chars ++ rest) ∧
      t.position = position + before.length ∧
      Lexical chars (some (t.kind, t.text.toList)) rest := by
  induction s using lexemes_induction generalizing position line with
  | nil => simp at h
  | illegal c rest hnone => simp [scanFrom_cons_of_none hnone] at h
  | lexeme c w token rest hlex ih =>
    rw [scanFrom_lexeme hlex] at h
    rcases Scan.mem_tokens_cons h with ⟨rfl, hpos⟩ | hm
    · exact ⟨[], c :: w, rest, rfl, hpos, hlex⟩
    · obtain ⟨before, chars, r, rfl, hpos, hlater⟩ := ih hm
      refine ⟨c :: w ++ before, chars, r, by simp, ?_, hlater⟩
      simp only [hpos, List.length_append, List.length_cons]
      omega

/-- The tokens of a text stand in it. -/
theorem Token.standsIn_of_mem_scan {s : List Char} {t : Token} (h : t ∈ (scan s).tokens) :
    t.StandsIn s := by
  obtain ⟨before, chars, rest, rfl, hpos, hlex⟩ := exists_of_mem_tokens h
  rw [Nat.zero_add] at hpos
  exact ⟨chars, rest, by rw [hpos, List.drop_left], hlex⟩

/-! ## Illegal characters -/

/-- At the position of an illegal character stands that character, with which no lexeme starts.
    Up to it the text is cut into tokens as if it ended there. -/
theorem exists_of_illegal {position line : Nat} {s : List Char} {i : Illegal}
    (h : (scanFrom position line s).illegal = some i) :
    ∃ before rest, s = before ++ i.char :: rest ∧ i.position = position + before.length ∧
      Piece.at? i.char rest = none ∧
      scanFrom position line before = ⟨(scanFrom position line s).tokens, none⟩ := by
  induction s using lexemes_induction generalizing position line with
  | nil => simp at h
  | illegal c rest hnone =>
    rw [scanFrom_cons_of_none hnone] at h ⊢
    cases h
    exact ⟨[], rest, rfl, rfl, hnone, scanFrom_nil position line⟩
  | lexeme c w token rest hlex ih =>
    rw [scanFrom_lexeme hlex, Scan.illegal_cons] at h
    obtain ⟨before, r, rfl, hpos, hnone, hscan⟩ := ih h
    refine ⟨c :: w ++ before, r, by simp, ?_, hnone, ?_⟩
    · simp only [hpos, List.length_append, List.length_cons]
      omega
    · have hcut : Lexical (c :: w) token before := hlex.of_append
      rw [List.cons_append, scanFrom_lexeme hcut, scanFrom_lexeme hlex, hscan]
      cases token <;> rfl

/-! ## Commands -/

/-- A command in a stretch stands there between blanks. -/
theorem exists_of_commandIn? {start : Nat} {stretch : List Char} {c : CommandText}
    (h : commandIn? start stretch = some c) :
    ∃ before after, stretch = before ++ (c.text ++ after) ∧ c.offset = start + before.length ∧
      (∀ d ∈ before, Text.isBlank d = true) ∧ ∀ d ∈ after, Text.isBlank d = true := by
  unfold commandIn? at h
  simp only at h
  split at h
  next => cases h
  next =>
    cases h
    obtain ⟨before, after, hs, hlen, hbefore, hafter⟩ := Text.exists_margins stretch
    refine ⟨before, after, hs, ?_, hbefore, hafter⟩
    simp only
    omega

/-- The commands of stretches stand in the text that these make up. -/
theorem exists_of_mem_commandsFrom {start : Nat} {l : List (List Char)} {c : CommandText}
    (h : c ∈ commandsFrom start l) :
    ∃ before after, List.intercalate [';'] l = before ++ (c.text ++ after) ∧
      c.offset = start + before.length := by
  induction l generalizing start with
  | nil => simp [commandsFrom] at h
  | cons stretch more ih =>
    rcases List.mem_append.1 h with h | h
    · obtain ⟨before, after, rfl, hoff, -⟩ := exists_of_commandIn? (Option.mem_toList.1 h)
      cases more with
      | nil => exact ⟨before, after, by simp [List.intercalate], hoff⟩
      | cons next more =>
        refine ⟨before, after ++ ';' :: List.intercalate [';'] (next :: more), ?_, hoff⟩
        simp [List.intercalate]
    · obtain ⟨before, after, hs, hoff⟩ := ih h
      cases more with
      | nil => simp [commandsFrom] at h
      | cons next more =>
        refine ⟨stretch ++ ';' :: before, after, ?_, ?_⟩
        · rw [List.intercalate_cons_of_ne_nil (by simp), hs]
          simp
        · simp only [hoff, List.length_append, List.length_cons]
          omega

theorem le_offset_of_mem_commandsFrom {start : Nat} {l : List (List Char)} {c : CommandText}
    (h : c ∈ commandsFrom start l) : start ≤ c.offset := by
  obtain ⟨before, after, -, hoff⟩ := exists_of_mem_commandsFrom h
  rw [hoff]
  exact Nat.le_add_right ..

/-- The commands of stretches stand one behind the other, and not side by side. -/
theorem pairwise_stop_commandsFrom (start : Nat) (l : List (List Char)) :
    (commandsFrom start l).Pairwise fun c d => c.stop < d.offset := by
  induction l generalizing start with
  | nil => exact .nil
  | cons stretch more ih =>
    refine List.pairwise_append.2 ⟨?_, ih _, ?_⟩
    · cases commandIn? start stretch with
      | none => exact .nil
      | some c => exact List.pairwise_singleton ..
    · intro c hc d hd
      obtain ⟨before, after, hs, hoff, -⟩ := exists_of_commandIn? (Option.mem_toList.1 hc)
      have hlen := congrArg List.length hs
      have hle := le_offset_of_mem_commandsFrom hd
      rw [List.length_append, List.length_append] at hlen
      rw [CommandText.stop]
      omega

theorem pairwise_offset_commandsFrom (start : Nat) (l : List (List Char)) :
    (commandsFrom start l).Pairwise fun c d => c.offset < d.offset :=
  (pairwise_stop_commandsFrom start l).imp fun h => (Nat.le_add_right ..).trans_lt h

/-- The text of a command is a part of the script. -/
theorem exists_of_mem_split {script : List Char} {c : CommandText} (h : c ∈ split script) :
    ∃ before after, script = before ++ (c.text ++ after) ∧ c.offset = before.length := by
  obtain ⟨before, after, hs, hoff⟩ := exists_of_mem_commandsFrom h
  rw [join_stretches] at hs
  rw [Nat.zero_add] at hoff
  exact ⟨before, after, hs, hoff⟩

/-- The commands of a script stand in it. -/
theorem standsAt_of_mem_split {script : List Char} {c : CommandText} (h : c ∈ split script) :
    StandsAt c.text c.offset script := by
  obtain ⟨before, after, rfl, hoff⟩ := exists_of_mem_split h
  rw [hoff]
  exact standsAt_append before c.text after

end Storyboard.Script
