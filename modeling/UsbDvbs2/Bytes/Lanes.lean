import Mathlib.Data.List.Nodup

/-! # Loops over lanes

The turns of a loop that keep to a lane of a table each, and so do not meet.
-/

namespace Lanes

variable {ι κ α : Type} {lane : ι → κ} {step : (ι → α) → κ → ι → α}

/-- A turn changes its own lane only, and that as the lane's own cells say. -/
structure Keeps (lane : ι → κ) (turn : (ι → α) → ι → α) (k : κ) : Prop where
  frame : ∀ table i, lane i ≠ k → turn table i = table i
  reads : ∀ table other, (∀ i, lane i = k → table i = other i) →
    ∀ i, lane i = k → turn table i = turn other i

theorem foldl_elsewhere {turns : List κ} (keeps : ∀ k ∈ turns, Keeps lane (step · k) k) {i : ι}
    (absent : lane i ∉ turns) (table : ι → α) : turns.foldl step table i = table i := by
  induction turns generalizing table with
  | nil => rfl
  | cons k later ih =>
      obtain ⟨differs, absent⟩ := not_or.mp (mt List.mem_cons.mpr absent)
      rw [List.foldl_cons, ih (fun j listed => keeps j (List.mem_cons_of_mem k listed)) absent]
      exact (keeps k List.mem_cons_self).frame _ _ differs

theorem foldl_here {turns : List κ} (keeps : ∀ k ∈ turns, Keeps lane (step · k) k)
    (distinct : turns.Nodup) {i : ι} (listed : lane i ∈ turns) (table : ι → α) :
    turns.foldl step table i = step table (lane i) i := by
  induction turns generalizing table with
  | nil => exact absurd listed List.not_mem_nil
  | cons k later ih =>
      obtain ⟨fresh, distinct⟩ := List.nodup_cons.mp distinct
      have rest := fun j listed => keeps j (List.mem_cons_of_mem k listed)
      rw [List.foldl_cons]
      rcases List.mem_cons.mp listed with here | there
      · subst here
        exact foldl_elsewhere rest fresh _
      · rw [ih rest distinct there]
        refine (rest _ there).reads _ _ (fun j same => ?_) i rfl
        refine (keeps k List.mem_cons_self).frame _ _ ?_
        rintro rfl
        exact fresh (same ▸ there)

end Lanes
