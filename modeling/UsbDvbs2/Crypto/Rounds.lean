/-! # Rounds

A cipher that runs its rounds over a list of keys is undone by running what undoes a round
over the keys in the other order.
-/

namespace Cipher

variable {β κ : Type} {step undo : β → κ → β}

theorem foldl_reverse_undoes (undoes : ∀ block key, undo (step block key) key = block)
    (keys : List κ) (block : β) : keys.reverse.foldl undo (keys.foldl step block) = block := by
  induction keys generalizing block with
  | nil => rfl
  | cons key keys ih =>
      rw [List.reverse_cons, List.foldl_append]
      change undo (keys.reverse.foldl undo (keys.foldl step (step block key))) key = block
      rw [ih]
      exact undoes block key

end Cipher
