-- SUMMARY: What a session keeps of the actions accepted so far, over all its steps.
import Storyboard.Proofs.Replay
import Storyboard.Proofs.Script.Joining
import Storyboard.Proofs.Text.Print
import Storyboard.Session

/-!
# What sessions keep

A session compiles its whole script again for every text, and decides by the number of
actions alone whether the text is accepted. It may do so as long as the actions of the
script stay the first ones, which is what `Keeps` says. They do, but for one case
(`keeps_iff`): where the script ends within a comment, the next text is drawn into its
last command, whose action is then lost or comes out as another one.
-/

namespace Storyboard.Session

open Script (Compiled compile endsInComment)

/-! ## Reached sessions -/

/-- The sessions that come about from the start with tables, whatever happens at the prompts. -/
inductive Reached (tables : List Table) : Session → Prop where
  | start : Reached tables (initial tables)
  | step {s s' : Session} (ids : IdSupply) (e : Event) : Reached tables s →
      (s.step ids e).status = .running s' → Reached tables s'

/-- Whether an event is the word that makes a session forget its script. -/
def Event.resets (s : Session) : Event → Bool
  | .line text => s.buffer.isEmpty && Word.ofLine? text = some .reset
  | _ => false

/-- The actions of the accepted script, if it compiles. -/
def actions? (s : Session) : Option (List Action) :=
  (compile s.tables s.script).toOption.map (·.actions)

theorem actions?_of_compile {s : Session} {c : Compiled} (h : compile s.tables s.script = .ok c) :
    s.actions? = some c.actions := by
  rw [actions?, h]
  rfl

/-! ## Steps -/

/-- What a step can do to the script of a session, where `resets` says whether it may forget it:
    leave it, forget it, or accept a text with which there is another number of actions. -/
inductive Turn (ids : IdSupply) (s : Session) (resets : Prop) (output : String) (s' : Session) :
    Prop where
  | idle : s'.accepted = s.accepted → Turn ids s resets output s'
  | forget : resets → s'.accepted = [] → Turn ids s resets output s'
  | accept {text : List Char} {before after : Compiled} :
      s'.accepted = s.accepted ++ [text] →
      compile s.tables s.script = .ok before →
      compile s.tables s'.script = .ok after →
      after.actions.length ≠ before.actions.length →
      CodePoints.ofString output = (showFrames (Frame.sequence ids s.tables after.actions)
        (before.actions.length + 1)).flatten →
      Turn ids s resets output s'

variable {ids : IdSupply} {s s' : Session}

theorem Turn.imp {p q : Prop} {output : String} (hpq : p → q) (h : Turn ids s p output s') :
    Turn ids s q output s' := by
  cases h with
  | idle ha => exact .idle ha
  | forget hr ha => exact .forget (hpq hr) ha
  | accept ht hb ha hlen ho => exact .accept ht hb ha hlen ho

/-- A session that goes on has printed all that it was to print. -/
theorem say_running {log : List LogLine} {texts : List CodePoints}
    (h : (say log texts s).status = .running s') :
    s' = s ∧ CodePoints.ofString (say log texts s).output = texts.flatten := by
  simp only [say] at h ⊢
  cases hfault : (Print.texts texts).fault with
  | none =>
    rw [hfault] at h
    cases h
    exact ⟨rfl, Print.ofString_output hfault⟩
  | some f =>
    rw [hfault] at h
    cases h

theorem replyFrames_running {view : List Frame → List CodePoints}
    (h : (replyFrames ids s view).status = .running s') : s' = s := by
  unfold replyFrames at h
  split at h
  next => cases h
  next => exact (say_running h).1

theorem replyWord_turn {w : Word} (h : (replyWord ids s w).status = .running s') :
    s'.tables = s.tables ∧ Turn ids s (w = .reset) (replyWord ids s w).output s' := by
  cases w with
  | exit => cases h
  | help =>
    cases h
    exact ⟨rfl, .idle rfl⟩
  | reset =>
    cases h
    exact ⟨rfl, .forget rfl rfl⟩
  | script =>
    cases h
    exact ⟨rfl, .idle rfl⟩
  | frames =>
    obtain rfl := replyFrames_running h
    exact ⟨rfl, .idle rfl⟩
  | tables =>
    obtain rfl := replyFrames_running h
    exact ⟨rfl, .idle rfl⟩

theorem submit_turn (resets : Prop) {text : List Char}
    (h : (submit ids s text).status = .running s') :
    s'.tables = s.tables ∧ Turn ids s resets (submit ids s text).output s' := by
  unfold submit at h ⊢
  split at h
  next => cases h
  next before hb =>
    split at h
    next => cases h
    next after ha =>
      split at h
      next hlen =>
        cases h
        exact ⟨rfl, .idle rfl⟩
      next hlen =>
        obtain ⟨rfl, houtput⟩ := say_running h
        refine ⟨rfl, .accept rfl hb ha hlen ?_⟩
        rw [if_neg hlen, houtput]

/-- A line goes to the buffer, or it completes a text, which is submitted if it is not empty. -/
theorem replyText_cases (ids : IdSupply) (s : Session) (line : List Char) :
    (∃ buffer, replyText ids s line =
      { output := "", log := [], status := .running { s with buffer } }) ∨
    ∃ text, replyText ids s line = submit ids { s with buffer := [] } text := by
  simp only [replyText]
  generalize (if (Text.strip line).isEmpty then s.buffer else s.buffer ++ [line]) = buffer
  split
  next => exact .inl ⟨_, rfl⟩
  next =>
    split
    next => exact .inl ⟨_, rfl⟩
    next => exact .inr ⟨_, rfl⟩

theorem replyText_turn {line : List Char} {resets : Prop}
    (h : (replyText ids s line).status = .running s') :
    s'.tables = s.tables ∧ Turn ids s resets (replyText ids s line).output s' := by
  rcases replyText_cases ids s line with ⟨buffer, hr⟩ | ⟨text, hr⟩
  · rw [hr] at h
    cases h
    exact ⟨rfl, .idle rfl⟩
  · rw [hr] at h ⊢
    obtain ⟨htables, hturn⟩ := submit_turn resets h
    refine ⟨htables, ?_⟩
    -- the buffer, which is empty now, plays no part in what becomes of a submitted text
    cases hturn with
    | idle ha => exact .idle ha
    | forget hr ha => exact .forget hr ha
    | accept ht hb ha hlen ho => exact .accept ht hb ha hlen ho

/-- What an event can do. -/
theorem step_turn {e : Event} (h : (s.step ids e).status = .running s') :
    s'.tables = s.tables ∧ Turn ids s (e.resets s = true) (s.step ids e).output s' := by
  cases e with
  | endOfInput => cases h
  | interrupt =>
    cases h
    exact ⟨rfl, .idle rfl⟩
  | line text =>
    cases hw : Word.ofLine? text with
    | none =>
      have hstep : s.step ids (.line text) = replyText ids s text := by
        rw [step, hw]
        cases s.buffer <;> rfl
      rw [hstep] at h ⊢
      exact replyText_turn h
    | some w =>
      cases hb : s.buffer with
      | nil =>
        have hstep : s.step ids (.line text) = replyWord ids s w := by
          rw [step, hw, hb]
        rw [hstep] at h ⊢
        obtain ⟨htables, hturn⟩ := replyWord_turn h
        refine ⟨htables, hturn.imp ?_⟩
        rintro rfl
        simp [Event.resets, hb, hw]
      | cons line buffer =>
        have hstep : s.step ids (.line text) = replyText ids s text := by
          rw [step, hb]
        rw [hstep] at h ⊢
        exact replyText_turn h

/-! ## Scripts that compile -/

theorem script_congr (h : s'.accepted = s.accepted) : s'.script = s.script := by
  rw [script, script, h]

theorem compile_nil (tables : List Table) : compile tables [] = .ok ⟨[]⟩ := by
  have hsplit : Script.split [] = [] := by decide +kernel
  rw [compile, hsplit]
  rfl

/-- The tables of a reached session are those it started with, and its script compiles. -/
theorem Reached.compiles {tables : List Table} (h : Reached tables s) :
    s.tables = tables ∧ ∃ c, compile s.tables s.script = .ok c := by
  induction h with
  | start => exact ⟨rfl, _, compile_nil tables⟩
  | @step s s' ids e hs hstep ih =>
    obtain ⟨htables, c, hc⟩ := ih
    obtain ⟨hsame, hturn⟩ := step_turn hstep
    refine ⟨hsame.trans htables, ?_⟩
    rw [hsame]
    cases hturn with
    | idle ha =>
      rw [script_congr ha]
      exact ⟨c, hc⟩
    | forget hr ha =>
      rw [script, ha]
      exact ⟨_, compile_nil s.tables⟩
    | accept ht hb ha hlen ho => exact ⟨_, ha⟩

/-- A further text is joined to the script of those before it. -/
theorem joinTexts_concat {texts : List (List Char)} (h : texts ≠ []) (text : List Char) :
    joinTexts (texts ++ [text]) = Script.join (joinTexts texts) text := by
  induction texts with
  | nil => exact absurd rfl h
  | cons first more ih =>
    cases more with
    | nil => simp [joinTexts, Script.join]
    | cons next more =>
      have ih := ih (by simp)
      rw [joinTexts, joinTexts, List.cons_append, List.intercalate_cons_of_ne_nil (by simp),
        List.intercalate_cons_of_ne_nil (by simp), Script.join_append, ← joinTexts, ih]
      rfl

/-- Of the actions before a text is accepted, all but the last are certain to stay, and the last is
    too unless the script ends within a comment. -/
theorem actions_of_accept {text : List Char} {before after : Compiled}
    (h : s'.accepted = s.accepted ++ [text]) (hb : compile s.tables s.script = .ok before)
    (ha : compile s.tables s'.script = .ok after) :
    before.actions.dropLast <+: after.actions ∧
      (endsInComment s.script = false → before.actions <+: after.actions) := by
  by_cases hnil : s.accepted = []
  · have hscript : s.script = [] := by
      rw [script, hnil]
      rfl
    rw [hscript, compile_nil] at hb
    cases hb
    exact ⟨List.nil_prefix, fun _ => List.nil_prefix⟩
  · rw [script, h, joinTexts_concat hnil] at ha
    exact Script.compile_join hb ha

/-! ## What is kept -/

/-- The frames of actions that are added to others. -/
def addedFrames (ids : IdSupply) (tables : List Table) (before added : List Action) : List Frame :=
  let (next, tables) := Frame.after ids 0 tables before
  (Frame.steps ids next tables added).map (·.frame)

/-- The text of frames that are numbered from `first` on, out of `total`. -/
def showNumbered (frames : List Frame) (first total : Nat) : CodePoints :=
  (frames.zipIdx first).flatMap fun (frame, i) =>
    frame.grid (some (i : Int)) (some (total : Int)) ++ "\n\n"

/-- The actions of the script before a step are the first ones after it, and if the step accepts a
    text, it prints the frames of the actions that come with the text, at least one. -/
structure Keeps (ids : IdSupply) (s s' : Session) (before after : List Action) (output : String) :
    Prop where
  kept : before <+: after
  shown : s'.accepted ≠ s.accepted → ∃ added, added ≠ [] ∧ after = before ++ added ∧
    CodePoints.ofString output = showNumbered (addedFrames ids s.tables before added) (before.length + 1)
      (after.length + 1)

theorem showFrames_append (ids : IdSupply) (tables : List Table) (before added : List Action) :
    (showFrames (Frame.sequence ids tables (before ++ added)) (before.length + 1)).flatten =
      showNumbered (addedFrames ids tables before added) (before.length + 1)
        ((before ++ added).length + 1) := by
  have hframes : Frame.sequence ids tables (before ++ added) =
      Frame.sequence ids tables before ++ addedFrames ids tables before added := by
    rw [Frame.sequence, Frame.steps_append, List.map_append]
    rfl
  have hdrop : ((Frame.sequence ids tables before).zipIdx ++
      (addedFrames ids tables before added).zipIdx (before.length + 1)).drop (before.length + 1) =
        (addedFrames ids tables before added).zipIdx (before.length + 1) :=
    List.drop_left' (by simp)
  rw [showFrames, showNumbered, Frame.length_sequence, hframes, List.zipIdx_append,
    Frame.length_sequence, Nat.zero_add, hdrop, List.flatMap_def]

/-- A list of which all but the last are the first elements of another one is so with its last if
    that stands there as well. -/
theorem isPrefix_iff_getLast? {α : Type} {xs ys : List α} (h : xs.dropLast <+: ys) :
    xs <+: ys ↔ ∀ a, xs.getLast? = some a → ys[xs.length - 1]? = some a := by
  rcases List.eq_nil_or_concat xs with rfl | ⟨init, a, rfl⟩
  · simp
  · rw [List.concat_eq_append, List.dropLast_concat] at h
    obtain ⟨t, rfl⟩ := h
    simp only [List.concat_eq_append]
    rw [List.prefix_append_right_inj]
    cases t with
    | nil => simp
    | cons b t => simp [eq_comm]

/-- A step that accepts no text keeps the actions. -/
theorem Keeps.of_idle (ids : IdSupply) (h : s'.accepted = s.accepted) (actions : List Action)
    (output : String) : Keeps ids s s' actions actions output where
  kept := List.prefix_refl actions
  shown hne := absurd h hne

/-- With another number of actions, the first ones being those from before, there is at least one
    more, and the frames behind the old ones are those of what has been added. -/
theorem keeps_iff_isPrefix {before after : List Action} {output : String}
    (hlen : after.length ≠ before.length)
    (ho : CodePoints.ofString output =
      (showFrames (Frame.sequence ids s.tables after) (before.length + 1)).flatten) :
    Keeps ids s s' before after output ↔ before <+: after := by
  constructor
  · intro h
    exact h.kept
  · intro hpre
    refine ⟨hpre, fun _ => ?_⟩
    obtain ⟨added, rfl⟩ := hpre
    refine ⟨added, ?_, rfl, ?_⟩
    · rintro rfl
      exact hlen (by rw [List.append_nil])
    · rw [ho]
      exact showFrames_append ids s.tables before added

/-- A step that does not reset the session keeps its actions unless the script ends within a
    comment and the last action does not stay at its place. -/
theorem keeps_iff {tables : List Table} {e : Event} (hs : Reached tables s)
    (he : e.resets s = false) (hs' : (s.step ids e).status = .running s') :
    ∃ before after, s.actions? = some before ∧ s'.actions? = some after ∧
      before.dropLast <+: after ∧
      (Keeps ids s s' before after (s.step ids e).output ↔
        (endsInComment s.script = true →
          ∀ a, before.getLast? = some a → after[before.length - 1]? = some a)) := by
  obtain ⟨-, before, hb⟩ := hs.compiles
  obtain ⟨htables, hturn⟩ := step_turn hs'
  have hbefore : s.actions? = some before.actions := actions?_of_compile hb
  cases hturn with
  | idle ha =>
    have hafter : s'.actions? = some before.actions :=
      actions?_of_compile (by rw [htables, script_congr ha, hb])
    have hdrop := List.dropLast_prefix before.actions
    have hlast := (isPrefix_iff_getLast? hdrop).1 (List.prefix_refl before.actions)
    refine ⟨_, _, hbefore, hafter, hdrop, ?_⟩
    exact ⟨fun _ _ => hlast, fun _ => .of_idle ids ha _ _⟩
  | forget hr ha =>
    rw [he] at hr
    cases hr
  | @accept text before' after ht hb' ha hlen ho =>
    rw [hb] at hb'
    cases hb'
    obtain ⟨hdrop, hclosed⟩ := actions_of_accept ht hb ha
    have hafter : s'.actions? = some after.actions :=
      actions?_of_compile (by rw [htables, ha])
    refine ⟨_, _, hbefore, hafter, hdrop, ?_⟩
    rw [keeps_iff_isPrefix hlen ho]
    constructor
    · intro hpre _
      exact (isPrefix_iff_getLast? hdrop).1 hpre
    · intro h
      cases hopen : endsInComment s.script with
      | true => exact (isPrefix_iff_getLast? hdrop).2 (h hopen)
      | false => exact hclosed hopen

/-- A table with one column and two rows. -/
def shelf : Table :=
  ⟨"t", "T", [⟨"c", "C"⟩], [⟨"r", [("c", "x")]⟩, ⟨"s", [("c", "y")]⟩]⟩

/-- A session that has accepted a command with a comment behind it. -/
def remarked : Session where
  tables := [shelf]
  accepted := ["highlight in table 'T' row 1 -- first".toList]
  buffer := []

/-- A further command. -/
def further : Event :=
  .line "highlight in table 'T' row 2;".toList

/-- The session that has accepted the further command, which the comment draws into its script. -/
def drawnIn : Session where
  tables := [shelf]
  accepted :=
    ["highlight in table 'T' row 1 -- first".toList, "highlight in table 'T' row 2".toList]
  buffer := []

theorem reached_remarked : Reached [shelf] remarked := by
  refine .step (.counting "new") (.line "highlight in table 'T' row 1 -- first;".toList) .start ?_
  decide +kernel

theorem step_remarked : (remarked.step (.counting "new") further).status = .running drawnIn := by
  decide +kernel

theorem resets_remarked : further.resets remarked = false := by
  decide +kernel

theorem keeps_iff_remarked :
    Reached [shelf] remarked ∧ further.resets remarked = false ∧
      (remarked.step (.counting "new") further).status = .running drawnIn ∧
      ∃ before after, remarked.actions? = some before ∧ drawnIn.actions? = some after ∧
        before.dropLast <+: after ∧
        (Keeps (.counting "new") remarked drawnIn before after
            (remarked.step (.counting "new") further).output ↔
          (endsInComment remarked.script = true →
            ∀ a, before.getLast? = some a → after[before.length - 1]? = some a)) :=
  ⟨reached_remarked, resets_remarked, step_remarked,
    keeps_iff reached_remarked resets_remarked step_remarked⟩

/-- The action of the command with the comment is lost. -/
theorem not_keeps_remarked :
    Reached [shelf] remarked ∧ further.resets remarked = false ∧
      (remarked.step (.counting "new") further).status = .running drawnIn ∧
      ¬ ∃ before after, remarked.actions? = some before ∧ drawnIn.actions? = some after ∧
        Keeps (.counting "new") remarked drawnIn before after
          (remarked.step (.counting "new") further).output := by
  refine ⟨reached_remarked, resets_remarked, step_remarked, ?_⟩
  rintro ⟨before, after, hb, ha, hkeeps⟩
  have hbefore : remarked.actions? = some [.highlight ⟨"t", some ["r"], none⟩] := by decide +kernel
  have hafter : drawnIn.actions? = some [] := by decide +kernel
  rw [hbefore] at hb
  rw [hafter] at ha
  cases hb
  cases ha
  exact absurd (List.prefix_nil.1 hkeeps.kept) (by simp)

end Storyboard.Session
