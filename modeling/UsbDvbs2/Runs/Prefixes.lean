import Mathlib.Data.List.Induction

/-! # Every point of a run

A run is a fold over what happens, and its points are the prefixes of that. What is said of a
point may know all that has happened so far.
-/

namespace Runs

variable {State Item : Type} {step : State → Item → State} {allowed : State → Item → Prop}
  {invariant : List Item → State → Prop} {state : State} {items : List Item}

/-- Every step of the run is taken where it is allowed. -/
def Throughout (step : State → Item → State) (allowed : State → Item → Prop) (state : State)
    (items : List Item) : Prop :=
  ∀ front item, front ++ [item] <+: items → allowed (front.foldl step state) item

/-- What every step keeps holds at every point. -/
theorem holds_at_points (start : invariant [] state)
    (keeps : ∀ front item, front ++ [item] <+: items → invariant front (front.foldl step state) →
      invariant (front ++ [item]) (step (front.foldl step state) item)) :
    ∀ front, front <+: items → invariant front (front.foldl step state) := by
  intro front
  induction front using List.reverseRecOn with
  | nil => exact fun _ => start
  | append_singleton front item ih =>
      intro reached
      rw [List.foldl_append, List.foldl_cons, List.foldl_nil]
      exact keeps front item reached (ih ((List.prefix_append _ _).trans reached))

/-- What a step keeps exactly where it is allowed holds at every point exactly of the runs that
take every step where it is allowed. -/
theorem holds_at_points_iff (start : invariant [] state)
    (keeps : ∀ front item, front ++ [item] <+: items → invariant front (front.foldl step state) →
      (invariant (front ++ [item]) (step (front.foldl step state) item) ↔
        allowed (front.foldl step state) item)) :
    (∀ front, front <+: items → invariant front (front.foldl step state)) ↔
      Throughout step allowed state items := by
  constructor
  · intro all front item reached
    have before := all front ((List.prefix_append _ _).trans reached)
    have after := all (front ++ [item]) reached
    rw [List.foldl_append, List.foldl_cons, List.foldl_nil] at after
    exact (keeps front item reached before).mp after
  · intro throughout
    apply holds_at_points start
    intro front item reached before
    exact (keeps front item reached before).mpr (throughout front item reached)

end Runs
