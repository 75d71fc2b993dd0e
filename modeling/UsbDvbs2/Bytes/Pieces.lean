import Mathlib.Data.List.Basic

/-! # Input that comes in pieces

A reader that keeps a state between pieces of its input, and when what it puts out
does not depend on how the input was cut up.
-/

namespace Bytes

variable {State Item Output : Type}

/-- The state after the pieces, and everything put out on the way. -/
def inPieces (read : State → List Item → State × List Output) :
    State → List (List Item) → State × List Output
  | state, [] => (state, [])
  | state, piece :: pieces =>
      let rest := inPieces read (read state piece).1 pieces
      (rest.1, (read state piece).2 ++ rest.2)

/-- The reader may be interrupted anywhere: it takes up again where it was. -/
structure Resumes (read : State → List Item → State × List Output) (Settled : State → Prop) :
    Prop where
  settles : ∀ state piece, Settled state → Settled (read state piece).1
  nothing : ∀ state, Settled state → read state [] = (state, [])
  append : ∀ state front back, Settled state → read state (front ++ back) =
    ((read (read state front).1 back).1, (read state front).2 ++ (read (read state front).1 back).2)

variable {read : State → List Item → State × List Output} {Settled : State → Prop} {state : State}

/-- Reading piece by piece is reading the whole at once. -/
theorem Resumes.inPieces_eq (resumes : Resumes read Settled) (settled : Settled state)
    (pieces : List (List Item)) : inPieces read state pieces = read state pieces.flatten := by
  induction pieces generalizing state with
  | nil => exact (resumes.nothing state settled).symm
  | cons piece pieces ih =>
      have later := ih (resumes.settles state piece settled)
      rw [inPieces, List.flatten_cons, resumes.append state piece pieces.flatten settled, later]

theorem Resumes.inPieces_congr (resumes : Resumes read Settled) (settled : Settled state)
    {pieces others : List (List Item)} (same : pieces.flatten = others.flatten) :
    inPieces read state pieces = inPieces read state others := by
  rw [resumes.inPieces_eq settled, resumes.inPieces_eq settled, same]

end Bytes
