import Mathlib.Logic.Function.Iterate
import UsbDvbs2.Bytes.Memory

/-! # Cell after cell

A loop that goes over the cells from an address on, with a state that takes its own course,
and changes each of them in place.
-/

namespace Memory

variable {α σ : Type} (next : σ → σ) (work : σ → α → α)

def pass (start count : Nat) (state : σ × Space α) : σ × Space α :=
  (List.range count).foldl
    (fun state i =>
      (next state.1, Function.update state.2 (start + i) (work state.1 (state.2 (start + i)))))
    state

theorem pass_succ (start count : Nat) (state : σ × Space α) :
    pass next work start (count + 1) state =
      (next (pass next work start count state).1,
        Function.update (pass next work start count state).2 (start + count)
          (work (pass next work start count state).1
            ((pass next work start count state).2 (start + count)))) := by
  rw [pass, List.range_succ, List.foldl_append]
  rfl

theorem pass_state (start count : Nat) (state : σ × Space α) :
    (pass next work start count state).1 = next^[count] state.1 := by
  induction count with
  | zero => rfl
  | succ count ih => rw [pass_succ, Function.iterate_succ_apply', ← ih]

theorem pass_outside {start count address : Nat} (state : σ × Space α)
    (outside : address < start ∨ start + count ≤ address) :
    (pass next work start count state).2 address = state.2 address := by
  induction count with
  | zero => rfl
  | succ count ih =>
      rw [pass_succ]
      exact (Function.update_of_ne (by omega) _ _).trans (ih (by omega))

theorem pass_inside {start count i : Nat} (state : σ × Space α) (inside : i < count) :
    (pass next work start count state).2 (start + i) =
      work (next^[i] state.1) (state.2 (start + i)) := by
  induction count with
  | zero => exact absurd inside (Nat.not_lt_zero i)
  | succ count ih =>
      rw [pass_succ]
      rcases Nat.lt_succ_iff_lt_or_eq.mp inside with before | rfl
      · exact (Function.update_of_ne (by omega) _ _).trans (ih before)
      · refine (Function.update_self _ _ _).trans ?_
        rw [pass_state, pass_outside next work state (by omega)]

end Memory
