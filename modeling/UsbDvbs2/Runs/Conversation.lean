import Mathlib.Data.List.Forall2

/-! # Conversations

A party with a state makes one request after the other, each answered before the next is
made. What holds of every answer is shown by a condition on the state and the requests that
are still to be made.
-/

namespace Runs

section Conversation

variable {State Request Reply : Type}

/-- The replies to some requests, in order, and the state behind them. -/
def converse (exchange : State → Request → Reply × State) : State → List Request →
    List Reply × State
  | state, [] => ([], state)
  | state, request :: later =>
      let first := exchange state request
      let rest := converse exchange first.2 later
      (first.1 :: rest.1, rest.2)

variable {exchange : State → Request → Reply × State} {answers : Request → Reply → Prop}
  {ready : State → List Request → Prop}

/-- Every request has its own reply when an exchange gives it and leaves the party ready for the
requests behind it. -/
theorem converse_rule
    (step : ∀ state request later, ready state (request :: later) →
      answers request (exchange state request).1 ∧ ready (exchange state request).2 later)
    {state : State} {requests : List Request} (start : ready state requests) :
    List.Forall₂ answers requests (converse exchange state requests).1 ∧
      ready (converse exchange state requests).2 [] := by
  induction requests generalizing state with
  | nil => exact ⟨.nil, start⟩
  | cons request later ih =>
      obtain ⟨answered, next⟩ := step state request later start
      obtain ⟨rest, done⟩ := ih next
      exact ⟨.cons answered rest, done⟩

/-- Marks on the requests are of no account. -/
theorem converse_map {Marked : Type} (bare : Marked → Request) (state : State)
    (requests : List Marked) :
    converse (fun state request => exchange state (bare request)) state requests =
      converse exchange state (requests.map bare) := by
  induction requests generalizing state with
  | nil => rfl
  | cons request later ih => rw [converse, ih, List.map_cons, converse]

end Conversation

end Runs
