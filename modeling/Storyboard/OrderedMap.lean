-- SUMMARY: Maps that keep the order in which their keys first came up.

/-!
# Ordered maps

A map is the list of its entries in the order in which their keys first came up.
Inserting a value under a key that is there already replaces the value and keeps the
place (`keys_insert_of_mem`); a new key goes to the end (`keys_insert_of_not_mem`).
So no key is ever there twice (`nodup_keys_insert`, `nodup_keys_ofList`).
-/

namespace Storyboard

/-- The entries of a map, in insertion order. -/
abbrev OrderedMap (κ α : Type) := List (κ × α)

namespace OrderedMap

variable {κ α : Type} [DecidableEq κ]

/-- The keys, in order. -/
abbrev keys (m : OrderedMap κ α) : List κ :=
  m.map (·.1)

/-- The value under a key. -/
def get? (key : κ) : OrderedMap κ α → Option α
  | [] => none
  | (k, v) :: rest => if k = key then some v else get? key rest

/-- The map with a value under a key. -/
def insert (key : κ) (value : α) : OrderedMap κ α → OrderedMap κ α
  | [] => [(key, value)]
  | (k, v) :: rest => if k = key then (k, value) :: rest else (k, v) :: insert key value rest

/-- The map into which the entries have been inserted one after the other. -/
def ofList (entries : List (κ × α)) : OrderedMap κ α :=
  entries.foldl (fun m entry => m.insert entry.1 entry.2) []

/-! ## Looking up -/

@[simp]
theorem get?_nil (key : κ) : get? key ([] : OrderedMap κ α) = none := rfl

theorem get?_insert_self (key : κ) (value : α) (m : OrderedMap κ α) :
    (m.insert key value).get? key = some value := by
  induction m with
  | nil => simp [insert, get?]
  | cons entry rest ih =>
    obtain ⟨k, v⟩ := entry
    simp only [insert]
    split
    next h => simp [get?, h]
    next h => simp [get?, h, ih]

theorem get?_insert_of_ne {key other : κ} (h : other ≠ key) (value : α) (m : OrderedMap κ α) :
    (m.insert key value).get? other = m.get? other := by
  induction m with
  | nil => simp [insert, get?, Ne.symm h]
  | cons entry rest ih =>
    obtain ⟨k, v⟩ := entry
    simp only [insert]
    split
    next hk => subst hk; simp [get?, Ne.symm h]
    next hk => simp [get?, ih]

theorem get?_eq_none {key : κ} {m : OrderedMap κ α} : m.get? key = none ↔ key ∉ m.keys := by
  induction m with
  | nil => simp
  | cons entry rest ih =>
    obtain ⟨k, v⟩ := entry
    simp only [get?]
    split
    next h => simp [h]
    next h => simp [ih, Ne.symm h]

/-! ## Keys -/

theorem insert_of_not_mem {key : κ} {m : OrderedMap κ α} (h : key ∉ m.keys) (value : α) :
    m.insert key value = m ++ [(key, value)] := by
  induction m with
  | nil => rfl
  | cons entry rest ih =>
    obtain ⟨k, v⟩ := entry
    simp only [List.map_cons, List.mem_cons, not_or] at h
    simp only [insert, if_neg (Ne.symm h.1), ih h.2, List.cons_append]

theorem keys_insert_of_mem {key : κ} {m : OrderedMap κ α} (h : key ∈ m.keys) (value : α) :
    (m.insert key value).keys = m.keys := by
  induction m with
  | nil => simp at h
  | cons entry rest ih =>
    obtain ⟨k, v⟩ := entry
    simp only [insert]
    split
    next hk => rfl
    next hk =>
      have hmem : key ∈ keys rest := by
        simp only [List.map_cons, List.mem_cons] at h
        exact h.resolve_left (Ne.symm hk)
      simp only [List.map_cons, List.cons.injEq, true_and]
      exact ih hmem

theorem keys_insert_of_not_mem {key : κ} {m : OrderedMap κ α} (h : key ∉ m.keys) (value : α) :
    (m.insert key value).keys = m.keys ++ [key] := by
  simp [insert_of_not_mem h]

theorem nodup_keys_insert {m : OrderedMap κ α} (h : m.keys.Nodup) (key : κ) (value : α) :
    (m.insert key value).keys.Nodup := by
  by_cases hk : key ∈ m.keys
  · rw [keys_insert_of_mem hk]; exact h
  · rw [keys_insert_of_not_mem hk, List.nodup_append]
    refine ⟨h, by simp, fun a ha b hb hab => hk ?_⟩
    rw [List.mem_singleton] at hb
    exact hb ▸ hab ▸ ha

theorem nodup_keys_ofList (entries : List (κ × α)) : (ofList entries).keys.Nodup := by
  suffices h : ∀ m : OrderedMap κ α, m.keys.Nodup →
      (entries.foldl (fun m entry => m.insert entry.1 entry.2) m).keys.Nodup from
    h [] List.nodup_nil
  induction entries with
  | nil => exact fun _ hd => hd
  | cons entry rest ih => exact fun m hd => ih _ (nodup_keys_insert hd _ _)

end OrderedMap

end Storyboard
