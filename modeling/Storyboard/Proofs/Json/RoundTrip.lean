-- SUMMARY: Values without numbers are read back from what they are written as, on one line or indented.
import Storyboard.Proofs.Json.Strings
import Storyboard.Proofs.Replay

/-!
# Values that are read back

A value without numbers is read back from what it is written as, whatever the indent
(`read_write`), if its strings are joined and no key is twice in an object
(`Value.Plain`). The statement that goes through by induction is about a value in front
of any other text (`Plain.readValue_writeAt`): a string ends with its quote, an array
and an object with their brackets, so that what follows is not looked at. The other way
round, the strings of all that is read are joined and its keys distinct
(`tidy_of_read`).
-/

namespace Storyboard

/-- What is in a map has been inserted. -/
theorem OrderedMap.mem_of_mem_ofList {κ α : Type} [DecidableEq κ] {entries : List (κ × α)}
    {e : κ × α} (h : e ∈ ofList entries) : e ∈ entries := by
  have hinsert : ∀ {m : OrderedMap κ α} {key : κ} {value : α}, e ∈ m.insert key value →
      e ∈ m ∨ e = (key, value) := by
    intro m key value he
    induction m with
    | nil => exact .inr (List.mem_singleton.1 he)
    | cons entry rest ih =>
      rw [insert] at he
      split at he
      next hk =>
        rcases List.mem_cons.1 he with rfl | he
        · exact .inr (by rw [hk])
        · exact .inl (List.mem_cons_of_mem _ he)
      next =>
        rcases List.mem_cons.1 he with rfl | he
        · exact .inl (List.mem_cons_self ..)
        · exact (ih he).imp_left (List.mem_cons_of_mem _)
  induction entries using List.reverseRecOn with
  | nil => cases h
  | append_singleton entries entry ih =>
    rw [ofList_concat] at h
    rcases hinsert h with h | rfl
    · exact List.mem_append_left _ (ih h)
    · exact List.mem_append_right _ (List.mem_singleton_self _)

namespace Json

/-! ## Blanks and separators -/

theorem skipBlanks_append {gap : List Char} (h : ∀ c ∈ gap, isBlank c = true) (s : List Char) :
    skipBlanks (gap ++ s) = skipBlanks s :=
  List.dropWhile_append_of_pos h

theorem skipBlanks_cons {c : Char} (h : isBlank c = false) (s : List Char) :
    skipBlanks (c :: s) = c :: s :=
  List.dropWhile_cons_of_neg (by simp [h])

theorem isBlank_of_mem_lineBreak (indent : Option Nat) (level : Nat) :
    ∀ c ∈ lineBreak indent level, isBlank c = true := by
  intro c h
  cases indent with
  | none => cases h
  | some n =>
    rcases List.mem_cons.1 h with rfl | h
    · rfl
    · rw [List.eq_of_mem_replicate h]
      rfl

theorem skipBlanks_lineBreak (indent : Option Nat) (level : Nat) (s : List Char) :
    skipBlanks (lineBreak indent level ++ s) = skipBlanks s :=
  skipBlanks_append (isBlank_of_mem_lineBreak indent level) s

/-- A separator is a comma and blanks. -/
theorem exists_itemSeparator (indent : Option Nat) (level : Nat) :
    ∃ gap, itemSeparator indent level = ',' :: gap ∧ ∀ c ∈ gap, isBlank c = true := by
  cases indent with
  | none => exact ⟨[' '], rfl, by simp [isBlank]⟩
  | some n => exact ⟨_, rfl, isBlank_of_mem_lineBreak (some n) level⟩

/-! ## Tidy values -/

/-- The strings and keys of the value are joined, and the keys of each object distinct. There may be
    numbers in it or not. -/
inductive Value.Tidy (numbers : Prop) : Value → Prop where
  | null : Tidy numbers .null
  | bool (b : Bool) : Tidy numbers (.bool b)
  | integer (n : Int) : numbers → Tidy numbers (.integer n)
  | float (x : Binary64) : numbers → Tidy numbers (.float x)
  | string {s : CodePoints} : s.Joined → Tidy numbers (.string s)
  | array {items : List Value} : (∀ v ∈ items, Tidy numbers v) → Tidy numbers (.array items)
  | object {members : List (CodePoints × Value)} : (members.map (·.1)).Nodup →
      (∀ e ∈ members, e.1.Joined) → (∀ e ∈ members, Tidy numbers e.2) →
        Tidy numbers (.object members)

/-- A tidy value without numbers. -/
abbrev Value.Plain : Value → Prop :=
  Tidy False

/-- The characters that a plain value can start with. -/
def openings : List Char :=
  ['n', 't', 'f', '"', '[', '{']

theorem isBlank_of_mem_openings : ∀ c ∈ openings, isBlank c = false := by
  simp [openings, isBlank]

theorem Value.Plain.exists_head {v : Value} (h : v.Plain) (indent : Option Nat) (level : Nat) :
    ∃ c ∈ openings, ∃ s, writeAt indent level v = c :: s := by
  cases h with
  | null => exact ⟨'n', by decide, _, rfl⟩
  | bool b =>
    cases b with
    | false => exact ⟨'f', by decide, _, rfl⟩
    | true => exact ⟨'t', by decide, _, rfl⟩
  | integer n hn => exact hn.elim
  | float x hx => exact hx.elim
  | string => exact ⟨'"', by decide, _, rfl⟩
  | @array items => cases items <;> exact ⟨'[', by decide, _, rfl⟩
  | @object members => cases members <;> exact ⟨'{', by decide, _, rfl⟩

/-- A plain value is not blank at its start. -/
theorem Value.Plain.skipBlanks_writeAt {v : Value} (h : v.Plain) (indent : Option Nat) (level : Nat)
    {gap : List Char} (hgap : ∀ c ∈ gap, isBlank c = true) (rest : List Char) :
    skipBlanks (gap ++ (writeAt indent level v ++ rest)) = writeAt indent level v ++ rest := by
  obtain ⟨c, hmem, s, hc⟩ := h.exists_head indent level
  rw [skipBlanks_append hgap, hc, List.cons_append,
    skipBlanks_cons (isBlank_of_mem_openings c hmem)]

/-- The value is read back in front of any text, with as much fuel as it has characters. -/
def Value.ReadsBack (indent : Option Nat) (v : Value) : Prop :=
  ∀ (level fuel : Nat) (rest : List Char), (writeAt indent level v).length ≤ fuel →
    readValue fuel (writeAt indent level v ++ rest) = .ok (v, rest)

section Containers

variable {indent : Option Nat}

theorem readItems_last {fuel : Nat} {item : Value} {s gap rest : List Char}
    (h : readValue fuel s = .ok (item, gap ++ ']' :: rest)) (hgap : ∀ c ∈ gap, isBlank c = true) :
    readItems (fuel + 1) s = .ok ([item], rest) := by
  rw [readItems, h]
  simp only [bind, Except.bind, skipBlanks_append hgap, skipBlanks_cons (rfl : isBlank ']' = false)]

theorem readItems_more {fuel : Nat} {item : Value} {items : List Value} {s t rest : List Char}
    (h : readValue fuel s = .ok (item, ',' :: t))
    (hitems : readItems fuel (skipBlanks t) = .ok (items, rest)) :
    readItems (fuel + 1) s = .ok (item :: items, rest) := by
  rw [readItems, h]
  simp only [bind, Except.bind, skipBlanks_cons (rfl : isBlank ',' = false), hitems]

/-- Items are read back one after the other, up to the bracket. -/
theorem readItems_writeItems {item : Value} {items : List Value}
    (hplain : ∀ v ∈ item :: items, v.Plain) (h : ∀ v ∈ item :: items, v.ReadsBack indent)
    {level fuel : Nat}
    (hfuel : (writeAt indent level item).length + (writeItems indent level items).length < fuel)
    {gap : List Char} (hgap : ∀ c ∈ gap, isBlank c = true) (rest : List Char) :
    readItems fuel (writeAt indent level item ++ (writeItems indent level items ++
      (gap ++ ']' :: rest))) = .ok (item :: items, rest) := by
  induction items generalizing item fuel with
  | nil =>
    obtain ⟨fuel, rfl⟩ := Nat.exists_eq_add_one_of_ne_zero (Nat.ne_zero_of_lt hfuel)
    exact readItems_last (h item (List.mem_cons_self ..) level fuel _ (by omega)) hgap
  | cons next items ih =>
    obtain ⟨fuel, rfl⟩ := Nat.exists_eq_add_one_of_ne_zero (Nat.ne_zero_of_lt hfuel)
    obtain ⟨between, hseparator, hbetween⟩ := exists_itemSeparator indent level
    rw [writeItems, hseparator] at hfuel ⊢
    simp only [List.length_append, List.length_cons] at hfuel
    simp only [List.append_assoc, List.cons_append]
    refine readItems_more (h item (List.mem_cons_self ..) level fuel _ (by omega)) ?_
    have hnext := (hplain next (by simp)).skipBlanks_writeAt indent level hbetween
    rw [hnext]
    refine ih (fun v hv => hplain v (List.mem_cons_of_mem _ hv))
      (fun v hv => h v (List.mem_cons_of_mem _ hv)) ?_
    omega

/-- A member as it is written. -/
def writeMember (indent : Option Nat) (level : Nat) (e : CodePoints × Value) : List Char :=
  '"' :: (e.1.flatMap escape ++ '"' :: ':' :: ' ' :: writeAt indent level e.2)

theorem writeMembers_cons (level : Nat) (e : CodePoints × Value)
    (members : List (CodePoints × Value)) :
    writeMembers indent level (e :: members) =
      itemSeparator indent level ++
        (writeMember indent level e ++ writeMembers indent level members) := by
  obtain ⟨key, value⟩ := e
  simp [writeMembers, writeMember, writeString]

theorem readMembers_last {fuel : Nat} {e : CodePoints × Value} {s t gap rest : List Char}
    (hkey : readString s = .ok (e.1, ':' :: t))
    (hvalue : readValue fuel (skipBlanks t) = .ok (e.2, gap ++ '}' :: rest))
    (hgap : ∀ c ∈ gap, isBlank c = true) :
    readMembers (fuel + 1) ('"' :: s) = .ok ([e], rest) := by
  rw [readMembers, hkey]
  simp only [bind, Except.bind, skipBlanks_cons (rfl : isBlank ':' = false), hvalue,
    skipBlanks_append hgap, skipBlanks_cons (rfl : isBlank '}' = false)]

theorem readMembers_more {fuel : Nat} {e : CodePoints × Value} {s t u : List Char}
    (hkey : readString s = .ok (e.1, ':' :: t))
    (hvalue : readValue fuel (skipBlanks t) = .ok (e.2, ',' :: u))
    {members : List (CodePoints × Value)} {rest : List Char}
    (hmembers : readMembers fuel (skipBlanks u) = .ok (members, rest)) :
    readMembers (fuel + 1) ('"' :: s) = .ok (e :: members, rest) := by
  rw [readMembers, hkey]
  simp only [bind, Except.bind, skipBlanks_cons (rfl : isBlank ':' = false), hvalue,
    skipBlanks_cons (rfl : isBlank ',' = false), hmembers]

/-- The key and the value of a member that is written are read back. -/
theorem exists_writeMember {e : CodePoints × Value} (hkey : e.1.Joined) (hplain : e.2.Plain)
    (h : e.2.ReadsBack indent) {level fuel : Nat}
    (hfuel : (writeMember indent level e).length ≤ fuel + 1) (rest : List Char) :
    ∃ s t, writeMember indent level e ++ rest = '"' :: s ∧ readString s = .ok (e.1, ':' :: t) ∧
      readValue fuel (skipBlanks t) = .ok (e.2, rest) := by
  have hspace : ∀ c ∈ [' '], isBlank c = true := by simp [isBlank]
  have hskip := hplain.skipBlanks_writeAt indent level hspace rest
  refine ⟨_, ' ' :: (writeAt indent level e.2 ++ rest), ?_, readString_writeString hkey _, ?_⟩
  · simp only [writeMember, List.cons_append, List.append_assoc]
  · rw [← List.singleton_append, hskip]
    refine h level fuel rest ?_
    simp only [writeMember, List.length_cons, List.length_append] at hfuel
    omega

/-- Members are read back one after the other, up to the brace. -/
theorem readMembers_writeMembers {e : CodePoints × Value} {members : List (CodePoints × Value)}
    (hkeys : ∀ m ∈ e :: members, m.1.Joined) (hplain : ∀ m ∈ e :: members, m.2.Plain)
    (h : ∀ m ∈ e :: members, m.2.ReadsBack indent) {level fuel : Nat}
    (hfuel : (writeMember indent level e).length + (writeMembers indent level members).length <
      fuel)
    {gap : List Char} (hgap : ∀ c ∈ gap, isBlank c = true) (rest : List Char) :
    readMembers fuel (writeMember indent level e ++ (writeMembers indent level members ++
      (gap ++ '}' :: rest))) = .ok (e :: members, rest) := by
  induction members generalizing e fuel with
  | nil =>
    obtain ⟨fuel, rfl⟩ := Nat.exists_eq_add_one_of_ne_zero (Nat.ne_zero_of_lt hfuel)
    obtain ⟨s, t, hs, hkey, hvalue⟩ := exists_writeMember (hkeys e (List.mem_cons_self ..))
      (hplain e (List.mem_cons_self ..)) (h e (List.mem_cons_self ..)) (Nat.le_of_lt hfuel)
      (gap ++ '}' :: rest)
    rw [writeMembers, List.nil_append, hs]
    exact readMembers_last hkey hvalue hgap
  | cons next members ih =>
    obtain ⟨fuel, rfl⟩ := Nat.exists_eq_add_one_of_ne_zero (Nat.ne_zero_of_lt hfuel)
    obtain ⟨between, hseparator, hbetween⟩ := exists_itemSeparator indent level
    rw [writeMembers_cons, hseparator] at hfuel ⊢
    simp only [List.length_append, List.length_cons] at hfuel
    simp only [List.append_assoc, List.cons_append]
    have hle : (writeMember indent level e).length ≤ fuel + 1 := by omega
    obtain ⟨s, t, hs, hkey, hvalue⟩ := exists_writeMember (hkeys e (List.mem_cons_self ..))
      (hplain e (List.mem_cons_self ..)) (h e (List.mem_cons_self ..)) hle
      (',' :: (between ++ (writeMember indent level next ++
        (writeMembers indent level members ++ (gap ++ '}' :: rest)))))
    rw [hs]
    refine readMembers_more hkey hvalue ?_
    have hquote : ∀ s, skipBlanks (between ++ (writeMember indent level next ++ s)) =
        writeMember indent level next ++ s :=
      fun s => (skipBlanks_append hbetween _).trans (skipBlanks_cons rfl _)
    rw [hquote]
    refine ih (fun m hm => hkeys m (List.mem_cons_of_mem _ hm))
      (fun m hm => hplain m (List.mem_cons_of_mem _ hm))
      (fun m hm => h m (List.mem_cons_of_mem _ hm)) ?_
    omega

end Containers

/-! ## Values -/

namespace Value

theorem readValue_items {fuel : Nat} {items : List Value} {s rest : List Char}
    (h : readItems fuel (skipBlanks s) = .ok (items, rest))
    (hne : (skipBlanks s).head? ≠ some ']') :
    readValue (fuel + 1) ('[' :: s) = .ok (array items, rest) := by
  rw [readValue]
  split
  next heq =>
    rw [heq] at hne
    exact absurd rfl hne
  next =>
    rw [h]
    rfl

theorem readValue_members {fuel : Nat} {members : List (CodePoints × Value)} {s rest : List Char}
    (h : readMembers fuel (skipBlanks s) = .ok (members, rest))
    (hne : (skipBlanks s).head? ≠ some '}') :
    readValue (fuel + 1) ('{' :: s) = .ok (object (OrderedMap.ofList members), rest) := by
  rw [readValue]
  split
  next heq =>
    rw [heq] at hne
    exact absurd rfl hne
  next =>
    rw [h]
    rfl

/-- Reading a plain value takes at least one unit of fuel. -/
theorem Plain.readsBack_of_succ {v : Value} (h : v.Plain) {indent : Option Nat}
    (hread : ∀ (level fuel : Nat) (rest : List Char), (writeAt indent level v).length ≤ fuel + 1 →
      readValue (fuel + 1) (writeAt indent level v ++ rest) = .ok (v, rest)) :
    v.ReadsBack indent := by
  intro level fuel rest hfuel
  obtain ⟨c, -, s, hc⟩ := h.exists_head indent level
  have hpos : fuel ≠ 0 := by
    rw [hc, List.length_cons] at hfuel
    omega
  obtain ⟨fuel, rfl⟩ := Nat.exists_eq_add_one_of_ne_zero hpos
  exact hread level fuel rest hfuel

theorem readsBack_array {items : List Value} {indent : Option Nat}
    (hplain : ∀ v ∈ items, v.Plain) (h : ∀ v ∈ items, v.ReadsBack indent) :
    (array items).ReadsBack indent := by
  refine Plain.readsBack_of_succ (.array hplain) fun level fuel rest hfuel => ?_
  cases items with
  | nil => rfl
  | cons item items =>
    have hitem := hplain item (List.mem_cons_self ..)
    rw [writeAt] at hfuel ⊢
    simp only [List.length_append, List.length_cons] at hfuel
    simp only [List.cons_append, List.append_assoc, List.nil_append]
    have hstart := hitem.skipBlanks_writeAt indent (level + 1)
      (isBlank_of_mem_lineBreak indent (level + 1))
    refine readValue_items ?_ ?_
    · rw [hstart]
      exact readItems_writeItems hplain h (by omega) (isBlank_of_mem_lineBreak indent level) rest
    · obtain ⟨c, hmem, s, hc⟩ := hitem.exists_head indent (level + 1)
      rw [hstart, hc]
      rintro heq
      cases heq
      exact absurd hmem (by decide)

theorem readsBack_object {members : List (CodePoints × Value)} {indent : Option Nat}
    (hkeys : (members.map (·.1)).Nodup) (hjoined : ∀ e ∈ members, e.1.Joined)
    (hplain : ∀ e ∈ members, e.2.Plain) (h : ∀ e ∈ members, e.2.ReadsBack indent) :
    (object members).ReadsBack indent := by
  refine Plain.readsBack_of_succ (.object hkeys hjoined hplain) fun level fuel rest hfuel => ?_
  cases members with
  | nil => rfl
  | cons e members =>
    have hwritten : writeAt indent level (.object (e :: members)) =
        '{' :: (lineBreak indent (level + 1) ++ (writeMember indent (level + 1) e ++
          (writeMembers indent (level + 1) members ++ (lineBreak indent level ++ ['}'])))) := by
      obtain ⟨key, value⟩ := e
      simp [writeAt, writeMember, writeString]
    rw [hwritten] at hfuel ⊢
    simp only [List.length_append, List.length_cons] at hfuel
    simp only [List.cons_append, List.append_assoc, List.nil_append]
    have hstart : ∀ s, skipBlanks (lineBreak indent (level + 1) ++
        (writeMember indent (level + 1) e ++ s)) = writeMember indent (level + 1) e ++ s :=
      fun s => (skipBlanks_lineBreak indent (level + 1) _).trans (skipBlanks_cons rfl _)
    have hlt : (writeMember indent (level + 1) e).length +
        (writeMembers indent (level + 1) members).length < fuel := by
      omega
    have hmembers := readMembers_writeMembers hjoined hplain h hlt
      (isBlank_of_mem_lineBreak indent level) rest
    rw [← hstart] at hmembers
    have hread := readValue_members hmembers (by rw [hstart]; exact nofun)
    rw [OrderedMap.ofList_of_nodup hkeys] at hread
    exact hread

/-- A plain value is read back in front of any text. -/
theorem Plain.readsBack {v : Value} (h : v.Plain) (indent : Option Nat) : v.ReadsBack indent := by
  induction h with
  | null => exact Plain.readsBack_of_succ .null fun level fuel rest _ => rfl
  | bool b =>
    refine Plain.readsBack_of_succ (.bool b) fun level fuel rest _ => ?_
    cases b <;> rfl
  | integer n hn => exact hn.elim
  | float x hx => exact hx.elim
  | string hs =>
    refine Plain.readsBack_of_succ (.string hs) fun level fuel rest _ => ?_
    rw [writeAt, writeString, List.cons_append, List.cons_append, List.append_assoc, readValue,
      List.singleton_append, readString_writeString hs]
    rfl
  | @array items hplain ih => exact readsBack_array hplain ih
  | @object members hkeys hjoined hplain ih => exact readsBack_object hkeys hjoined hplain ih

/-- A plain value is read back from its text. -/
theorem Plain.read_write {v : Value} (h : v.Plain) (indent : Option Nat) :
    Value.read (v.write indent).toList = .ok v := by
  obtain ⟨c, hmem, s, hc⟩ := h.exists_head indent 0
  have hmark : (writeAt indent 0 v).head? ≠ some '\uFEFF' := by
    rw [hc]
    rintro heq
    cases heq
    exact absurd hmem (by decide)
  have hstart := h.skipBlanks_writeAt indent 0 (List.forall_mem_nil _) []
  have hvalue := h.readsBack indent 0 (fuelFor (writeAt indent 0 v)) []
    (by unfold fuelFor; omega)
  rw [List.nil_append, List.append_nil] at hstart
  rw [List.append_nil] at hvalue
  unfold Value.read readAll Value.write
  rw [String.toList_ofList, if_neg hmark, hstart, hvalue]
  rfl

end Value

/-! ## Values that have been read -/

theorem readUnsigned_tidy {negative : Bool} {start body rest : List Char} {v : Value}
    (h : readUnsigned negative start body = .ok (v, rest)) : v.Tidy True := by
  unfold readUnsigned at h
  split at h
  next => cases h
  next =>
    simp only at h
    split at h
    next =>
      split at h
      next =>
        cases h
        exact .integer _ trivial
      next => cases h
    next =>
      cases h
      exact .float _ trivial

theorem readNumber_tidy {s rest : List Char} {v : Value} (h : readNumber s = .ok (v, rest)) :
    v.Tidy True := by
  unfold readNumber at h
  split at h
  next => exact readUnsigned_tidy h
  next => exact readUnsigned_tidy h

theorem readName?_tidy {s rest : List Char} {v : Value} (h : readName? s = some (v, rest)) :
    v.Tidy True := by
  obtain ⟨⟨name, value⟩, hmem, h⟩ := List.exists_of_findSome?_eq_some h
  obtain ⟨_, -, h⟩ := Option.map_eq_some_iff.1 h
  cases h
  simp only [names, List.mem_cons, Prod.mk.injEq, List.not_mem_nil, or_false] at hmem
  obtain ⟨-, rfl⟩ | ⟨-, rfl⟩ | ⟨-, rfl⟩ | ⟨-, rfl⟩ | ⟨-, rfl⟩ | ⟨-, rfl⟩ := hmem
  · exact .null
  · exact .bool _
  · exact .bool _
  · exact .float _ trivial
  · exact .float _ trivial
  · exact .float _ trivial

/-- What is read with some fuel is tidy; of members this leaves out that their keys are distinct. -/
structure TidyAt (fuel : Nat) : Prop where
  value : ∀ {s v rest}, readValue fuel s = .ok (v, rest) → v.Tidy True
  items : ∀ {s vs rest}, readItems fuel s = .ok (vs, rest) → ∀ v ∈ vs, v.Tidy True
  members : ∀ {s es rest}, readMembers fuel s = .ok (es, rest) →
    ∀ e ∈ es, e.1.Joined ∧ e.2.Tidy True

namespace TidyAt

variable {fuel : Nat} {s rest : List Char}

theorem value_succ (h : TidyAt fuel) {v : Value} (hv : readValue (fuel + 1) s = .ok (v, rest)) :
    v.Tidy True := by
  unfold readValue at hv
  split at hv
  next => contradiction
  next =>
    obtain ⟨⟨t, _⟩, ht, hv⟩ := bind_eq_ok hv
    cases hv
    exact .string (joined_of_readString ht)
  next heq =>
    cases heq
    split at hv
    next =>
      cases hv
      exact .object List.nodup_nil nofun nofun
    next =>
      obtain ⟨⟨es, _⟩, hes, hv⟩ := bind_eq_ok hv
      cases hv
      have htidy := h.members hes
      refine .object (OrderedMap.nodup_keys_ofList es) (fun e he => ?_) fun e he => ?_
      · exact (htidy e (OrderedMap.mem_of_mem_ofList he)).1
      · exact (htidy e (OrderedMap.mem_of_mem_ofList he)).2
  next heq =>
    cases heq
    split at hv
    next =>
      cases hv
      exact .array nofun
    next =>
      obtain ⟨⟨vs, _⟩, hvs, hv⟩ := bind_eq_ok hv
      cases hv
      exact .array (h.items hvs)
  next =>
    split at hv
    next hname =>
      cases hv
      exact readName?_tidy hname
    next => exact readNumber_tidy hv

theorem items_succ (h : TidyAt fuel) {vs : List Value}
    (hvs : readItems (fuel + 1) s = .ok (vs, rest)) : ∀ v ∈ vs, v.Tidy True := by
  rw [readItems] at hvs
  obtain ⟨⟨item, _⟩, hitem, hvs⟩ := bind_eq_ok hvs
  have htidy := h.value hitem
  simp only at hvs
  split at hvs
  next =>
    cases hvs
    exact List.forall_mem_singleton.2 htidy
  next =>
    obtain ⟨⟨items, _⟩, hitems, hvs⟩ := bind_eq_ok hvs
    cases hvs
    exact List.forall_mem_cons.2 ⟨htidy, h.items hitems⟩
  next => cases hvs

theorem members_succ (h : TidyAt fuel) {es : List (CodePoints × Value)}
    (hes : readMembers (fuel + 1) s = .ok (es, rest)) : ∀ e ∈ es, e.1.Joined ∧ e.2.Tidy True := by
  unfold readMembers at hes
  split at hes
  next => cases hes
  next heq =>
    cases heq
    obtain ⟨⟨key, _⟩, hkey, hes⟩ := bind_eq_ok hes
    have hjoined := joined_of_readString hkey
    simp only at hes
    split at hes
    next =>
      obtain ⟨⟨value, _⟩, hvalue, hes⟩ := bind_eq_ok hes
      have htidy := h.value hvalue
      simp only at hes
      split at hes
      next =>
        cases hes
        exact List.forall_mem_singleton.2 ⟨hjoined, htidy⟩
      next =>
        obtain ⟨⟨members, _⟩, hmembers, hes⟩ := bind_eq_ok hes
        cases hes
        exact List.forall_mem_cons.2 ⟨⟨hjoined, htidy⟩, h.members hmembers⟩
      next => cases hes
    next => cases hes
  next => cases hes

end TidyAt

theorem tidyAt (fuel : Nat) : TidyAt fuel := by
  induction fuel with
  | zero => exact ⟨nofun, nofun, nofun⟩
  | succ fuel ih => exact ⟨ih.value_succ, ih.items_succ, ih.members_succ⟩

/-- What is read from a text is tidy. -/
theorem tidy_of_read {text : List Char} {v : Value} (h : Value.read text = .ok v) :
    v.Tidy True := by
  unfold Value.read readAll at h
  split at h
  next => cases h
  next =>
    cases hread : readValue (fuelFor text) (skipBlanks text) with
    | error e =>
      rw [hread] at h
      cases h
    | ok result =>
      obtain ⟨value, rest⟩ := result
      rw [hread] at h
      simp only [bind, Except.bind] at h
      split at h
      next =>
        cases h
        exact (tidyAt _).value hread
      next => cases h

end Json

end Storyboard
