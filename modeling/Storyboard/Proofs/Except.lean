-- SUMMARY: What is certain of the parts of a computation that has succeeded, or has failed.
import Mathlib.Data.List.Forall2

/-!
# Computations that succeed or fail

If a computation has succeeded, so have its parts (`bind_eq_ok`, `exists_of_map_eq_ok`). It goes
through a list if and only if each item gives its result (`mapM_eq_ok_iff`), so that each result
comes from an item (`exists_of_mapM`), and what has been written is read back for a list if it is
for each item (`mapM_map_eq_ok`). A computation that only works something out from a result fails
where the result does (`eq_error_of_bind_ok`).
-/

namespace Storyboard

variable {ε α β : Type}

/-- A computation that succeeds has succeeded in its first part. -/
theorem bind_eq_ok {x : Except ε α} {f : α → Except ε β} {b : β} (h : x >>= f = .ok b) :
    ∃ a, x = .ok a ∧ f a = .ok b := by
  cases x with
  | error e => cases h
  | ok a => exact ⟨a, rfl, h⟩

/-- What is worked out from a result is there only with the result. -/
theorem exists_of_map_eq_ok {x : Except ε α} {g : α → β} {b : β} (h : x.map g = .ok b) :
    ∃ a, x = .ok a ∧ g a = b := by
  cases x with
  | error e => cases h
  | ok a => exact ⟨a, rfl, Except.ok.inj h⟩

/-- What is worked out from a result fails as the result does. -/
theorem eq_error_of_bind_ok {x : Except ε α} {g : α → β} {e : ε}
    (h : (x >>= fun a => .ok (g a)) = .error e) : x = .error e := by
  cases x with
  | error e' =>
    cases h
    rfl
  | ok a => cases h

/-- A list is worked through with the results of its items, in order. -/
theorem mapM_eq_ok_iff {f : α → Except ε β} {xs : List α} {ys : List β} :
    xs.mapM f = .ok ys ↔ List.Forall₂ (fun x y => f x = .ok y) xs ys := by
  induction xs generalizing ys with
  | nil =>
    rw [List.mapM_nil, List.forall₂_nil_left_iff]
    exact ⟨fun h => (Except.ok.inj h).symm, fun h => congrArg Except.ok h.symm⟩
  | cons x xs ih =>
    rw [List.mapM_cons, List.forall₂_cons_left_iff]
    constructor
    · intro h
      obtain ⟨y, hy, h⟩ := bind_eq_ok h
      obtain ⟨zs, hzs, h⟩ := bind_eq_ok h
      exact ⟨y, zs, hy, ih.1 hzs, (Except.ok.inj h).symm⟩
    · rintro ⟨y, zs, hy, hzs, rfl⟩
      rw [hy, ih.2 hzs]
      rfl

/-- Where two lists are related item by item, each item of the second has one in the first. -/
theorem exists_of_forall₂ {R : α → β → Prop} {xs : List α} {ys : List β} (h : List.Forall₂ R xs ys)
    {y : β} (hy : y ∈ ys) : ∃ x ∈ xs, R x y := by
  induction h with
  | nil => cases hy
  | cons hxy _ ih =>
    rcases List.mem_cons.1 hy with rfl | hy
    · exact ⟨_, List.mem_cons_self .., hxy⟩
    · obtain ⟨w, hw, hwy⟩ := ih hy
      exact ⟨w, List.mem_cons_of_mem _ hw, hwy⟩

/-- Each of the results for a list is the result for an item. -/
theorem exists_of_mapM {f : α → Except ε β} {xs : List α} {ys : List β} (h : xs.mapM f = .ok ys)
    {y : β} (hy : y ∈ ys) : ∃ x ∈ xs, f x = .ok y :=
  exists_of_forall₂ (mapM_eq_ok_iff.1 h) hy

/-- If each item is read back from what it is written as, so is a list of them. -/
theorem mapM_map_eq_ok {read : α → Except ε β} {write : β → α} {ys : List β}
    (h : ∀ y ∈ ys, read (write y) = .ok y) : (ys.map write).mapM read = .ok ys :=
  mapM_eq_ok_iff.2 (List.forall₂_map_left_iff.2 (List.forall₂_same.2 h))

end Storyboard
