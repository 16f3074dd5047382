-- SUMMARY: Behind the word column, an editor offers the columns of the table that the line mentions first.
import Storyboard.Editor.Completion
import Storyboard.Proofs.Script.Acceptance
import Storyboard.Proofs.Script.Coverage
import Storyboard.Proofs.Script.Splitting

/-!
# Mentions of tables

Which columns are offered depends on the table that the line mentions first
(`FirstMention`). In a line with nothing but the command that is being typed this is the
table of the command. Behind other commands it is the table of the first of them, as
soon as a gap stands before its name (`findTableName?_of_spread`), and the columns of
that table are offered; they are those of the table of the command that is being typed
if and only if the two have columns of the same names (`labels_typed_iff`).
-/

namespace Storyboard

namespace Text

/-- The last word of a text that ends in a word and blanks. -/
theorem lastWord_append {s word blanks : List Char} {b : Char} (hb : isBlank b = true)
    (hword : ∀ c ∈ word, isBlank c = false) (hblanks : ∀ c ∈ blanks, isBlank c = true)
    (hne : word ≠ []) : lastWord (s ++ (b :: (word ++ blanks))) = word := by
  have hlast : ∀ c, (s ++ b :: word).getLast? = some c → isBlank c = false := by
    intro c hc
    obtain ⟨init, d, rfl⟩ := (List.eq_nil_or_concat' word).resolve_left hne
    rw [← List.cons_append, ← List.append_assoc, List.getLast?_concat] at hc
    cases hc
    exact hword c (by simp)
  have hstrip : stripRight (s ++ (b :: (word ++ blanks))) = s ++ b :: word := by
    rw [← List.cons_append, ← List.append_assoc, stripRight_append_of_blank hblanks,
      stripRight_eq_self hlast]
  have hrun : (s ++ b :: word).reverse.takeWhile (fun c => !isBlank c) = word.reverse := by
    rw [List.reverse_append, List.reverse_cons, List.append_assoc]
    refine takeWhile_span (fun c hc => ?_) fun c hc => ?_
    · rw [hword c (List.mem_reverse.1 hc)]
      rfl
    · cases hc
      rw [hb]
      rfl
  rw [lastWord, hstrip, hrun, List.reverse_reverse]

end Text

namespace Editor

/-! ## Mentions -/

/-- A text starts with a mention of a table: the word `table` in whatever case, blanks, and the name
    of the table between two equal quotes, on one line. -/
inductive Mention : List Char → List Char → Prop where
  | intro {word blanks name rest : List Char} {q : Char} : Text.lower word = "table".toList →
      blanks ≠ [] → (∀ c ∈ blanks, Text.isBlank c = true) → Script.isQuote q = true → q ∉ name →
      '\n' ∉ name → Mention (word ++ (blanks ++ q :: (name ++ q :: rest))) name

/-- A text mentions a table, and none before it. -/
def FirstMention (s name : List Char) : Prop :=
  ∃ before behind, s = before ++ behind ∧ Mention behind name ∧
    ∀ b r, s = b ++ r → b.length < before.length → ∀ n, ¬ Mention r n

theorem dropWord?_eq_some_iff {word : String} {s rest : List Char} :
    dropWord? word s = some rest ↔ ∃ w, s = w ++ rest ∧ Text.lower w = word.toList := by
  unfold dropWord?
  constructor
  · intro h
    obtain ⟨hlower, hrest⟩ := Option.ite_none_right_eq_some.1 h
    cases hrest
    exact ⟨_, (List.take_append_drop ..).symm, hlower⟩
  · rintro ⟨w, rfl, hlower⟩
    have hlength : w.length = word.length := by
      rw [← String.length_toList, ← hlower, Text.lower, List.length_map]
    simp [← hlength, hlower]

/-- What is found at the start of a text is the mention there. -/
theorem tableNameAt?_eq_some_iff {s name : List Char} :
    tableNameAt? s = some name ↔ Mention s name := by
  constructor
  · intro h
    obtain ⟨rest, hword, hfound⟩ := Option.bind_eq_some_iff.1 h
    obtain ⟨word, rfl, hlower⟩ := dropWord?_eq_some_iff.1 hword
    obtain ⟨blanks, r, rfl, hblanks, hin, hout⟩ := Text.exists_span Text.isBlank rest
    have hrest : (blanks ++ r).dropWhile Text.isBlank = r := by
      rw [List.dropWhile_append_of_pos hin]
      exact Text.stripLeft_eq_self hout
    rw [hblanks, hrest] at hfound
    obtain ⟨hempty, hfound⟩ := Option.ite_none_left_eq_some.1 hfound
    have hne : blanks ≠ [] := by simpa using hempty
    cases r with
    | nil => cases hfound
    | cons q after =>
      obtain ⟨w, t, rfl, hw, hin', hout'⟩ := Text.exists_span (· ≠ q) after
      simp only [hw] at hfound
      obtain ⟨hcond, hname⟩ := Option.ite_none_right_eq_some.1 hfound
      cases hname
      simp only [Bool.and_eq_true, decide_eq_true_eq, Bool.not_eq_true'] at hcond
      obtain ⟨⟨hq, hlt⟩, hline⟩ := hcond
      cases t with
      | nil => simp at hlt
      | cons d t =>
        obtain rfl : d = q := by simpa using hout' d rfl
        exact .intro hlower hne hin hq (fun hm => by simpa using hin' d hm) (by simpa using hline)
  · intro h
    cases h with
    | @intro word blanks name rest q hlower hne hblanks hq hname hline =>
      have hword : dropWord? "table" (word ++ (blanks ++ q :: (name ++ q :: rest))) =
          some (blanks ++ q :: (name ++ q :: rest)) := dropWord?_eq_some_iff.2 ⟨word, rfl, hlower⟩
      have hquote : ∀ c, (q :: (name ++ q :: rest)).head? = some c → Text.isBlank c = false := by
        intro c hc
        cases hc
        exact Script.isQuote_not_isBlank hq
      have hdrop : (blanks ++ q :: (name ++ q :: rest)).dropWhile Text.isBlank =
          q :: (name ++ q :: rest) := by
        rw [List.dropWhile_append_of_pos hblanks]
        exact Text.stripLeft_eq_self hquote
      have hempty : blanks.isEmpty = false := by simpa using hne
      simp only [tableNameAt?, hword, Text.takeWhile_span hblanks hquote, hdrop,
        Text.takeWhile_ne_append hname, hq, bind, Option.bind_some]
      simp [hempty, hline]

/-- Looking for a name finds the first mention. -/
theorem findTableName?_eq_some_iff {s name : List Char} :
    findTableName? s = some name ↔ FirstMention s name := by
  induction s with
  | nil =>
    refine iff_of_false nofun ?_
    rintro ⟨before, behind, hs, hm, -⟩
    obtain ⟨rfl, rfl⟩ := List.append_eq_nil_iff.1 hs.symm
    exact absurd (tableNameAt?_eq_some_iff.2 hm) nofun
  | cons c s ih =>
    rw [findTableName?]
    cases hat : tableNameAt? (c :: s) with
    | some n =>
      have hm := tableNameAt?_eq_some_iff.1 hat
      constructor
      · rintro ⟨⟩
        exact ⟨[], c :: s, rfl, hm, fun _ _ _ hlt => absurd hlt (Nat.not_lt_zero _)⟩
      · rintro ⟨before, behind, hs, hname, hfirst⟩
        cases before with
        | nil =>
          rw [List.nil_append] at hs
          rw [← hs, ← tableNameAt?_eq_some_iff, hat] at hname
          exact hname
        | cons d before => exact absurd hm (hfirst [] _ rfl (Nat.succ_pos _) n)
    | none =>
      have hno : ∀ n, ¬ Mention (c :: s) n := fun n hm => by
        rw [← tableNameAt?_eq_some_iff, hat] at hm
        cases hm
      rw [Option.none_or, ih]
      constructor
      · rintro ⟨before, behind, rfl, hname, hfirst⟩
        refine ⟨c :: before, behind, rfl, hname, fun b r hs hlt => ?_⟩
        cases b with
        | nil =>
          rw [List.nil_append] at hs
          exact hs ▸ hno
        | cons d b => exact hfirst b r (List.cons.inj hs).2 (Nat.lt_of_succ_lt_succ hlt)
      · rintro ⟨before, behind, hs, hname, hfirst⟩
        cases before with
        | nil =>
          rw [List.nil_append] at hs
          exact absurd (hs ▸ hname) (hno name)
        | cons d before =>
          obtain ⟨rfl, rfl⟩ := List.cons.inj hs
          exact ⟨before, behind, rfl, hname, fun b r hs hlt =>
            hfirst (c :: b) r (congrArg (c :: ·) hs) (Nat.succ_lt_succ hlt)⟩

/-! ## Looking for the first mention -/

theorem Mention.findTableName? {s name : List Char} (h : Mention s name) :
    findTableName? s = some name :=
  findTableName?_eq_some_iff.2 ⟨[], s, rfl, h, fun _ _ _ hlt => absurd hlt (Nat.not_lt_zero _)⟩

/-- If a text mentions a table, it does so behind another text. -/
theorem isSome_findTableName?_append {s : List Char} (h : (Editor.findTableName? s).isSome = true)
    (before : List Char) : (Editor.findTableName? (before ++ s)).isSome = true := by
  induction before with
  | nil => exact h
  | cons c before ih =>
    rw [List.cons_append, Editor.findTableName?, Option.isSome_or, ih, Bool.or_true]

/-- The word `table` does not start with a character that is no `t`, nor in front of one that is no
    `a`. -/
theorem findTableName?_cons {c : Char} {s : List Char}
    (h : c.toLower ≠ 't' ∨ ∀ d ∈ s.head?, d.toLower ≠ 'a') :
    findTableName? (c :: s) = findTableName? s := by
  have hword : dropWord? "table" (c :: s) = none := by
    cases hdrop : dropWord? "table" (c :: s) with
    | none => rfl
    | some rest =>
      obtain ⟨w, hs, hlower⟩ := dropWord?_eq_some_iff.1 hdrop
      have htable : "table".toList = 't' :: 'a' :: "ble".toList := rfl
      rw [htable] at hlower
      match w with
      | [] => cases hlower
      | [_] => cases (List.cons.inj hlower).2
      | a :: b :: w =>
        obtain ⟨rfl, rfl⟩ := List.cons.inj hs
        obtain ⟨ht, hlower⟩ := List.cons.inj hlower
        obtain ⟨ha, -⟩ := List.cons.inj hlower
        rcases h with hc | hd
        · exact absurd ht hc
        · exact absurd ha (hd b rfl)
  rw [findTableName?, tableNameAt?, hword]
  rfl

/-- The word `table` does not start in a text without `t`. -/
theorem findTableName?_append {w : List Char} (h : ∀ c ∈ w, c.toLower ≠ 't') (s : List Char) :
    findTableName? (w ++ s) = findTableName? s := by
  induction w with
  | nil => rfl
  | cons c w ih =>
    rw [List.forall_mem_cons] at h
    rw [List.cons_append, findTableName?_cons (.inl h.1), ih h.2]

/-- Nor does it start in a verb, unless an `a` comes behind it. -/
theorem findTableName?_verb {v : Script.Verb} {w : List Char}
    (hw : Text.lower w = v.keyword.word.toList) {s : List Char}
    (hs : ∀ d ∈ s.head?, d.toLower ≠ 'a') : findTableName? (w ++ s) = findTableName? s := by
  have hne : w ≠ [] := by
    rintro rfl
    cases v <;> exact absurd hw (by decide)
  have hinit : ∀ c ∈ w.dropLast, c.toLower ≠ 't' := by
    intro c hc ht
    have hmem : c.toLower ∈ v.keyword.word.toList.dropLast := by
      rw [← hw, Text.lower, ← List.map_dropLast]
      exact List.mem_map_of_mem hc
    rw [ht] at hmem
    cases v <;> exact absurd hmem (by decide)
  rw [← List.dropLast_append_getLast hne, List.append_assoc, findTableName?_append hinit]
  exact findTableName?_cons (.inr hs)

/-- A gap is no letter. -/
theorem toLower_ne_of_isGap {c d : Char} (h : Script.isGap c = true) (hd : Script.isGap d = false) :
    c.toLower ≠ d := by
  have hlower : c.toLower = c := by
    have hmem := Script.mem_of_isGap h
    simp only [List.mem_cons, List.not_mem_nil, or_false] at hmem
    rcases hmem with rfl | rfl | rfl | rfl <;> rfl
  rw [hlower]
  rintro rfl
  exact Bool.false_ne_true (hd.symm.trans h)

/-- Behind the start of a command up to the word `table`, the first mention is the one that comes
    next. -/
theorem findTableName?_heading {v : Script.Verb} {g₁ w₁ g₂ w₂ g₃ s : List Char}
    (hg₁ : ∀ c ∈ g₁, Script.isGap c = true) (hw₁ : Text.lower w₁ = v.keyword.word.toList)
    (hg₂ : ∀ c ∈ g₂, Script.isGap c = true)
    (hw₂ : Text.lower w₂ = Script.Keyword.within.word.toList) (hg₃ : ∀ c ∈ g₃, Script.isGap c = true) :
    findTableName? (g₁ ++ (w₁ ++ (g₂ ++ (w₂ ++ (g₃ ++ s))))) = findTableName? s := by
  have hgap : ∀ {g : List Char}, (∀ c ∈ g, Script.isGap c = true) → ∀ c ∈ g, c.toLower ≠ 't' :=
    fun hg c hc => toLower_ne_of_isGap (hg c hc) (by decide)
  have hwithin : ∀ c ∈ w₂, c.toLower ≠ 't' := fun c hc ht => by
    have hmem : c.toLower ∈ Script.Keyword.within.word.toList := hw₂ ▸ List.mem_map_of_mem hc
    rw [ht] at hmem
    exact absurd hmem (by decide)
  have hnext : ∀ d ∈ (g₂ ++ (w₂ ++ (g₃ ++ s))).head?, d.toLower ≠ 'a' := by
    intro d hd ha
    cases g₂ with
    | cons c g =>
      cases hd
      exact toLower_ne_of_isGap (hg₂ d (List.mem_cons_self ..)) (by decide) ha
    | nil =>
      cases w₂ with
      | nil => exact absurd hw₂ (by decide)
      | cons c w =>
        cases hd
        have hi := (List.cons.inj hw₂).1
        exact absurd (hi.symm.trans ha) (by decide)
  rw [findTableName?_append (hgap hg₁), findTableName?_verb hw₁ hnext,
    findTableName?_append (hgap hg₂), findTableName?_append hwithin,
    findTableName?_append (hgap hg₃)]

end Editor

/-! ## The start of a command on one line -/

namespace Script

/-- On one line, what stands before the first token is a run of gaps, and behind it the others are
    scanned. -/
theorem exists_of_tokens_cons {s : List Char} {position line : Nat} {t : Token} {ts : List Token}
    (hline : '\n' ∉ s) (h : (scanFrom position line s).tokens = t :: ts) :
    ∃ gap chars rest line', s = gap ++ (chars ++ rest) ∧ '\n' ∉ chars ∧ '\n' ∉ rest ∧
      (∀ c ∈ gap, isGap c = true) ∧ Spelling t.kind t.text.toList chars ∧
      t.position = position + gap.length ∧ (scanFrom t.stop line' rest).tokens = ts := by
  induction s using lexemes_induction generalizing position line with
  | nil =>
    rw [scanFrom_nil] at h
    cases h
  | illegal c rest hc =>
    rw [scanFrom_cons_of_none hc] at h
    cases h
  | lexeme c w token rest hlex ih =>
    rw [scanFrom_lexeme hlex] at h
    rw [← List.cons_append, List.mem_append, not_or] at hline
    cases token with
    | some token =>
      obtain ⟨kind, text⟩ := token
      obtain ⟨rfl, rfl⟩ := List.cons.inj h
      have hspelling : Spelling kind (String.ofList text).toList (c :: w) := by
        rw [String.toList_ofList]
        exact hlex.spelling
      have hstop : Token.stop ⟨kind, String.ofList text, position, line⟩ =
          position + (w.length + 1) := by
        rw [Token.stop, ← Spelling.length_eq hspelling, List.length_cons]
      exact ⟨[], c :: w, rest, line + (c :: w).count '\n', rfl, hline.1, hline.2,
        List.forall_mem_nil _, hspelling, rfl, by rw [hstop]⟩
    | none =>
      obtain ⟨gap, chars, r, line', hrest, hchars, hr, hgap, hspelling, hposition, htokens⟩ :=
        ih hline.2 h
      cases hlex with
      | gap hc =>
        refine ⟨c :: gap, chars, r, line', ?_, hchars, hr, List.forall_mem_cons.2 ⟨hc, hgap⟩,
          hspelling, ?_, htokens⟩
        · rw [hrest]
          rfl
        · rw [hposition, List.length_cons, List.length_nil]
          omega
      | comment hw hend =>
        -- a comment goes on to the end of the line, so that no token is left
        cases rest with
        | nil =>
          rw [scanFrom_nil] at h
          cases h
        | cons d rest => exact absurd (hend d rfl ▸ List.mem_cons_self ..) hline.2

theorem Spelling.lower_eq {k : Keyword} {text chars : List Char}
    (h : Spelling (.keyword k) text chars) : Text.lower chars = k.word.toList := by
  cases h with
  | keyword h => exact h
  | mark hm => cases hm

theorem Spelling.exists_quote {text chars : List Char} (h : Spelling .string text chars) :
    ∃ q, isQuote q = true ∧ q ∉ text ∧ chars = q :: (text ++ [q]) := by
  cases h with
  | literal hq hb => exact ⟨_, hq, hb, rfl⟩
  | mark hm => cases hm

/-- A command starts with its heading. -/
theorem Grammar.Derives.exists_heading {ts : List Token} {c : Command} (h : Grammar.Derives ts c) :
    ∃ v heading rest, ts = heading ++ rest ∧ Grammar.Heading v heading c.table := by
  cases h with
  | highlightRows hh _ _ => exact ⟨_, _, _, rfl, hh⟩
  | highlightColumn hh _ _ => exact ⟨_, _, _, rfl, hh⟩
  | highlightCell hh _ _ _ _ => exact ⟨_, _, _, rfl, hh⟩
  | addColumn hh _ _ => exact ⟨_, _, _, rfl, hh⟩
  | addColumnCells hh _ _ _ _ _ _ =>
    exact ⟨_, _, _, by rw [List.append_assoc, List.append_assoc], hh⟩
  | addRow hh _ => exact ⟨_, _, _, rfl, hh⟩
  | addRowValues hh _ _ _ _ =>
    exact ⟨_, _, _, by rw [List.append_assoc, List.append_assoc], hh⟩

/-- The tokens of a command are derived. -/
theorem derives_of_parse {text : List Char} {c : Command} (h : parse text = .ok c) :
    Grammar.Derives (scan text).tokens c := by
  obtain ⟨s, hrun, hfinish⟩ := bind_eq_ok h
  cases hi : (scan text).illegal with
  | some i =>
    rw [hi] at hfinish
    cases hfinish
  | none =>
    rw [hi] at hfinish
    exact (Place.start.run hrun).finish hfinish

/-- The name of the table does not stand right behind the word `table`. -/
def Spread (text : List Char) : Prop :=
  ∃ verb within table name rest, (scan text).tokens = verb :: within :: table :: name :: rest ∧
    table.stop < name.position

end Script

namespace Editor

open Script

/-- A command on one line whose table is named behind a gap mentions this table first. -/
theorem findTableName?_of_spread {text : List Char} (hline : '\n' ∉ text) {c : Command}
    (hc : parse text = .ok c) (hs : Spread text) (rest : List Char) :
    findTableName? (text ++ rest) = some c.table.toList := by
  obtain ⟨v, heading, more, htokens, hheading⟩ := (derives_of_parse hc).exists_heading
  obtain ⟨t₁, t₂, t₃, t₄, ts, hts, hgap⟩ := hs
  generalize c.table = name at hheading
  cases hheading with
  | @intro a b d e ha hb hd he =>
    rw [hts] at htokens
    simp only [List.cons_append, List.nil_append, List.cons.injEq] at htokens
    obtain ⟨rfl, rfl, rfl, rfl, -⟩ := htokens
    obtain ⟨g₁, w₁, r₁, _, rfl, -, hr₁, hg₁, hw₁, -, hts⟩ := exists_of_tokens_cons hline hts
    obtain ⟨g₂, w₂, r₂, _, rfl, -, hr₂, hg₂, hw₂, -, hts⟩ := exists_of_tokens_cons hr₁ hts
    obtain ⟨g₃, w₃, r₃, _, rfl, -, hr₃, hg₃, hw₃, -, hts⟩ := exists_of_tokens_cons hr₂ hts
    obtain ⟨g₄, w₄, r₄, _, rfl, hline₄, -, hg₄, hw₄, hposition, -⟩ := exists_of_tokens_cons hr₃ hts
    rw [ha] at hw₁
    rw [hb] at hw₂
    rw [hd] at hw₃
    rw [he] at hw₄
    obtain ⟨q, hq, hbody, rfl⟩ := hw₄.exists_quote
    have hne : g₄ ≠ [] := by
      rintro rfl
      rw [hposition] at hgap
      exact absurd hgap (Nat.lt_irrefl _)
    have hmention : Mention (w₃ ++ (g₄ ++ q :: (t₄.text.toList ++ q :: (r₄ ++ rest))))
        t₄.text.toList :=
      .intro hw₃.lower_eq hne (fun g hg => isBlank_of_isGap (hg₄ g hg)) hq hbody fun hm =>
        hline₄ (List.mem_cons_of_mem _ (List.mem_append_left _ hm))
    have hfound := findTableName?_heading hg₁ hw₁.lower_eq hg₂ hw₂.lower_eq hg₃
      (s := w₃ ++ (g₄ ++ q :: (t₄.text.toList ++ q :: (r₄ ++ rest))))
    rw [hmention.findTableName?] at hfound
    simpa using hfound

/-! ## What is offered -/

/-- A line up to the cursor: commands, each with a semicolon behind it, and one that is being typed,
    up to the word `column`. -/
def typed (earlier : List (List Char)) (verb : Verb) (name : List Char) : List Char :=
  earlier.flatMap (· ++ [';']) ++
    (verb.keyword.word.toList ++ " in table '".toList ++ name ++ "' column ".toList)

/-- The columns of the first table with a name, none if there is no such table. -/
def columnsNamed (tables : List Table) (name : List Char) : List Column :=
  match Tables.named? tables (.ofChars name) with
  | none => []
  | some t => t.columns

theorem lastWord_typed (earlier : List (List Char)) (verb : Verb) (name : List Char) :
    Text.lastWord (typed earlier verb name) = "column".toList := by
  have hsplit : typed earlier verb name =
      (earlier.flatMap (· ++ [';']) ++ (verb.keyword.word.toList ++ " in table '".toList ++ name ++
        ['\''])) ++ (' ' :: ("column".toList ++ [' '])) := by
    simp [typed]
  have hword : "column".toList.all (!Text.isBlank ·) = true := by decide
  rw [hsplit]
  exact Text.lastWord_append rfl (fun c hc => by simpa using List.all_eq_true.1 hword c hc)
    (by simp [Text.isBlank]) (by decide)

/-- A command that is being typed mentions its own table first. -/
theorem findTableName?_typed (verb : Verb) {name : List Char} (hquote : '\'' ∉ name)
    (hline : '\n' ∉ name) : findTableName? (typed [] verb name) = some name := by
  have hmention : Mention
      ("table".toList ++ ([' '] ++ '\'' :: (name ++ '\'' :: " column ".toList))) name :=
    .intro (by decide) (by decide) (by simp [Text.isBlank]) rfl hquote hline
  have hgap : ∀ c ∈ [' '], isGap c = true := by simp [isGap]
  have hverb : Text.lower verb.keyword.word.toList = verb.keyword.word.toList := by
    cases verb <;> decide
  have hwithin : Text.lower Keyword.within.word.toList = Keyword.within.word.toList := by decide
  have hfound := findTableName?_heading (List.forall_mem_nil _) hverb hgap hwithin hgap
    (s := "table".toList ++ ([' '] ++ '\'' :: (name ++ '\'' :: " column ".toList)))
  rw [hmention.findTableName?] at hfound
  rw [← hfound]
  congr 1
  simp [typed, Keyword.word]

/-- The labels behind the word `column` are those of the columns of the table that is mentioned
    first. -/
theorem labels_completions {tables : List Table} {before m : List Char}
    (hlast : Text.lower (Text.lastWord before) = "column".toList)
    (hm : findTableName? before = some m) :
    (completions tables before).map (·.label) =
      (columnsNamed tables m).map (nameLabel ·.name) := by
  have hne : "column".toList ≠ "table".toList := by decide
  cases ht : Tables.named? tables (.ofChars m) with
  | none => simp only [completions, columnsNamed, hlast, if_neg hne, if_true, hm, ht, List.map_nil]
  | some t =>
    simp only [completions, columnsNamed, hlast, if_neg hne, if_true, hm, ht, columnItems,
      List.map_map, Function.comp_def]

/-- Column completion follows the table that the line mentions first. Where the command that is being
    typed is about the first table of a name, just the columns of this table are offered, in
    order, if and only if those of the table that is mentioned first have the same names; so they
    are if it is this table. It is, if the line holds no other command; else it is the table of the
    first command, if this names its table behind a gap. -/
theorem labels_typed_iff {tables : List Table} {name : List Char} {t : Table}
    (hquote : '\'' ∉ name) (hline : '\n' ∉ name)
    (ht : Tables.named? tables (.ofChars name) = some t) (earlier : List (List Char))
    (verb : Verb) :
    ∃ m, FirstMention (typed earlier verb name) m ∧
      ((completions tables (typed earlier verb name)).map (·.label) =
          t.columns.map (nameLabel ·.name) ↔
        (columnsNamed tables m).map (nameLabel ·.name) = t.columns.map (nameLabel ·.name)) ∧
      (m = name → columnsNamed tables m = t.columns) ∧ (earlier = [] → m = name) ∧
      ∀ first rest command, earlier = first :: rest → '\n' ∉ first → parse first = .ok command →
        Spread first → m = command.table.toList := by
  have hown := findTableName?_typed verb hquote hline
  have hsome : (findTableName? (typed earlier verb name)).isSome = true :=
    isSome_findTableName?_append (s := typed [] verb name) (by rw [hown]; rfl)
      (earlier.flatMap (· ++ [';']))
  obtain ⟨m, hm⟩ := Option.isSome_iff_exists.1 hsome
  refine ⟨m, findTableName?_eq_some_iff.1 hm, ?_, ?_, ?_, ?_⟩
  · rw [labels_completions (by rw [lastWord_typed]; decide) hm]
  · rintro rfl
    rw [columnsNamed, ht]
  · rintro rfl
    exact Option.some.inj (hm.symm.trans hown)
  · rintro first rest command rfl hfirst hparse hspread
    have hsplit : typed (first :: rest) verb name = first ++ (';' :: typed rest verb name) := by
      simp [typed]
    rw [hsplit, findTableName?_of_spread hfirst hparse hspread] at hm
    exact (Option.some.inj hm).symm

/-- Two tables with different columns. -/
def ledgers : List Table :=
  [⟨"a", "A", [⟨"p", "x"⟩], []⟩, ⟨"b", "B", [⟨"q", "y"⟩, ⟨"r", "z"⟩], []⟩]

/-- A new row for table B, with a mention of table A in a value. -/
def quoting : List Char :=
  "add in TABLE\t\"B\" row [\x7b\"table 'A' column\"\x7d]".toList

theorem labels_typed_iff_quoting :
    '\'' ∉ "B".toList ∧ '\n' ∉ "B".toList ∧
      Tables.named? ledgers (.ofChars "B".toList) =
        some ⟨"b", "B", [⟨"q", "y"⟩, ⟨"r", "z"⟩], []⟩ ∧
      parse quoting = .ok ⟨"B", .addRow [{ value := "table 'A' column", column := none }]⟩ ∧
      FirstMention (typed [quoting] .highlight "B".toList) "B".toList ∧
      (completions ledgers (typed [quoting] .highlight "B".toList)).map (·.label) =
        ["'y'", "'z'"] := by
  have hquote : '\'' ∉ "B".toList := by decide
  have hline : '\n' ∉ "B".toList := by decide
  have ht : Tables.named? ledgers (.ofChars "B".toList) =
      some ⟨"b", "B", [⟨"q", "y"⟩, ⟨"r", "z"⟩], []⟩ := by decide
  have hparse : parse quoting =
      .ok ⟨"B", .addRow [{ value := "table 'A' column", column := none }]⟩ := by decide +kernel
  have hspread : Spread quoting := by
    refine ⟨⟨.keyword .add, "add", 0, 1⟩, ⟨.keyword .within, "in", 4, 1⟩,
      ⟨.keyword .table, "TABLE", 7, 1⟩, ⟨.string, "B", 13, 1⟩, (scan quoting).tokens.drop 4, ?_, ?_⟩
    · decide +kernel
    · decide
  obtain ⟨m, hfirst, hlabels, hcolumns, -, hspreads⟩ :=
    labels_typed_iff hquote hline ht [quoting] .highlight
  have hm := hspreads _ _ _ rfl (by decide) hparse hspread
  rw [hm] at hfirst hlabels hcolumns
  refine ⟨hquote, hline, ht, hparse, hfirst, ?_⟩
  rw [hlabels.2 (by rw [hcolumns rfl])]
  decide

/-- Behind a command for another table, the columns of that table are offered. -/
theorem labels_typed_misled :
    parse "highlight in table 'A' row 1".toList = .ok ⟨"A", .highlightRows [1]⟩ ∧
      Tables.named? ledgers (.ofChars "B".toList) =
        some ⟨"b", "B", [⟨"q", "y"⟩, ⟨"r", "z"⟩], []⟩ ∧
      typed ["highlight in table 'A' row 1".toList] .highlight "B".toList =
        "highlight in table 'A' row 1;highlight in table 'B' column ".toList ∧
      (completions ledgers
        (typed ["highlight in table 'A' row 1".toList] .highlight "B".toList)).map (·.label) =
          ["'x'"] ∧
      (completions ledgers
        (typed ["highlight in table 'A' row 1".toList] .highlight "B".toList)).map (·.label) ≠
          ["'y'", "'z'"] := by
  have hlabels : (completions ledgers
      (typed ["highlight in table 'A' row 1".toList] .highlight "B".toList)).map (·.label) =
        ["'x'"] := by decide +kernel
  refine ⟨by decide +kernel, by decide, by decide, hlabels, ?_⟩
  rw [hlabels]
  decide

end Editor

end Storyboard
