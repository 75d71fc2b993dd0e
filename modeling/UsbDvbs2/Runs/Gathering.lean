import Mathlib.Data.List.Basic

/-! # Steps that only add

A step that leaves every fact that holds and adds facts of its own tells all it
does by what it adds. What a run of such steps leaves behind is then what any of
them adds, and their order is of no account.
-/

namespace Runs

variable {State Fact Item : Type} (valid : State → Prop) (holds : State → Fact → Prop)

/-- From a valid state the step adds exactly what it tells, and the state stays valid. -/
def Adds (step : State → State) (tells : Fact → Prop) : Prop :=
  ∀ state, valid state →
    valid (step state) ∧ ∀ fact, holds (step state) fact ↔ holds state fact ∨ tells fact

variable {valid holds}

theorem Adds.nothing : Adds valid holds id fun _ => False :=
  fun _ fine => ⟨fine, fun _ => (or_iff_left id).symm⟩

theorem Adds.iff {step : State → State} {tells other : Fact → Prop}
    (adds : Adds valid holds step tells) (same : ∀ fact, tells fact ↔ other fact) :
    Adds valid holds step other := fun state fine =>
  ⟨(adds state fine).1, fun fact => by rw [(adds state fine).2 fact, same fact]⟩

/-- A step that a condition chooses. -/
theorem Adds.ite {condition : Prop} [Decidable condition] {first second : State → State}
    {tells other : Fact → Prop} (met : condition → Adds valid holds first tells)
    (unmet : ¬ condition → Adds valid holds second other) :
    Adds valid holds (fun state => if condition then first state else second state)
      fun fact => if condition then tells fact else other fact := by
  by_cases chosen : condition
  · simp only [if_pos chosen]
    exact met chosen
  · simp only [if_neg chosen]
    exact unmet chosen

/-- A run adds what any of its steps adds. -/
theorem Adds.foldl {step : State → Item → State} {tells : Item → Fact → Prop} {items : List Item}
    (each : ∀ item ∈ items, Adds valid holds (step · item) (tells item)) :
    Adds valid holds (items.foldl step) fun fact => ∃ item ∈ items, tells item fact := by
  induction items with
  | nil => exact Adds.nothing.iff fun fact => by simp
  | cons item items ih =>
      intro state fine
      obtain ⟨next, first⟩ := each item (List.mem_cons_self ..) state fine
      obtain ⟨final, rest⟩ :=
        ih (fun other mem => each other (List.mem_cons_of_mem _ mem)) (step state item) next
      refine ⟨final, fun fact => (rest fact).trans ?_⟩
      simp only [first fact, List.mem_cons, exists_eq_or_imp, or_assoc]

/-- Runs of the same steps in another order leave the same behind. -/
theorem Adds.perm {step : State → Item → State} {tells : Item → Fact → Prop}
    {items others : List Item} (perm : items.Perm others)
    (each : ∀ item ∈ items, Adds valid holds (step · item) (tells item)) {state : State}
    (fine : valid state) (fact : Fact) :
    holds (items.foldl step state) fact ↔ holds (others.foldl step state) fact := by
  have also : ∀ item ∈ others, Adds valid holds (step · item) (tells item) :=
    fun item mem => each item (perm.mem_iff.2 mem)
  refine ((Adds.foldl each state fine).2 fact).trans (Iff.trans ?_
    ((Adds.foldl also state fine).2 fact).symm)
  simp only [perm.mem_iff]

end Runs
