import Mathlib.Algebra.GroupWithZero.Nat
import Mathlib.Data.Fin.Basic
import Mathlib.Data.Fintype.Card
import Mathlib.Logic.Function.Basic

/-! # A set kept by linear probing

Keys lie in a ring of slots, each at the first place behind its hash that was free
when it came. A key that was stored is found again as long as nothing is taken out.
-/

namespace Probing

variable {κ : Type} [DecidableEq κ] {size : Nat} [NeZero size]

/-- What a walk around the ring ends at. -/
inductive Probe (size : Nat) where
  | found
  | free (slot : Fin size)
  | full
  deriving DecidableEq

section Walk

variable (empty : κ) (slots : Fin size → κ) (key : κ)

/-- At most `tries` slots from one on. -/
def probe : Nat → Fin size → Probe size
  | 0, _ => .full
  | tries + 1, slot =>
      if slots slot = key then .found
      else if slots slot = empty then .free slot
      else probe tries (slot + 1)

end Walk

variable {empty : κ} {slots : Fin size → κ} {key : κ}

/-- What is found is there. -/
theorem stored_of_found {tries : Nat} {slot : Fin size}
    (found : probe empty slots key tries slot = .found) : ∃ slot, slots slot = key := by
  induction tries generalizing slot with
  | zero => exact nomatch found
  | succ tries ih =>
      rw [probe] at found
      split at found
      · exact ⟨slot, ‹_›⟩
      · split at found
        · exact nomatch found
        · exact ih found

theorem empty_of_free {tries : Nat} {slot free : Fin size}
    (room : probe empty slots key tries slot = .free free) : slots free = empty := by
  induction tries generalizing slot with
  | zero => exact nomatch room
  | succ tries ih =>
      rw [probe] at room
      split at room
      · exact nomatch room
      · split at room
        · obtain rfl := Probe.free.inj room
          assumption
        · exact ih room

/-- A walk that ends at a key passes no free slot, so filling one leaves it as it was. -/
theorem found_update {tries : Nat} {slot free : Fin size} (other : κ) (room : slots free = empty)
    (nonempty : key ≠ empty) (found : probe empty slots key tries slot = .found) :
    probe empty (Function.update slots free other) key tries slot = .found := by
  induction tries generalizing slot with
  | zero => exact nomatch found
  | succ tries ih =>
      rw [probe] at found ⊢
      by_cases here : slot = free
      · subst here
        rw [if_neg fun same => nonempty (same.symm.trans room), if_pos room] at found
        exact nomatch found
      · rw [Function.update_of_ne here]
        split
        · rfl
        · rename_i differs
          rw [if_neg differs] at found
          split at found
          · exact nomatch found
          · rename_i taken
            rw [if_neg taken]
            exact ih found

/-- The key that fills the free slot is found there. -/
theorem found_self {tries : Nat} {slot free : Fin size}
    (room : probe empty slots key tries slot = .free free) :
    probe empty (Function.update slots free key) key tries slot = .found := by
  induction tries generalizing slot with
  | zero => exact nomatch room
  | succ tries ih =>
      rw [probe] at room ⊢
      by_cases here : slot = free
      · subst here
        rw [if_pos (Function.update_self ..)]
      · rw [Function.update_of_ne here]
        split
        · rfl
        · rename_i differs
          rw [if_neg differs] at room
          split at room
          · exact absurd (Probe.free.inj room) here
          · rename_i taken
            rw [if_neg taken]
            exact ih room

section Set

variable (empty) (hash : κ → Fin size)

/-- Every key in the slots is found from its hash on. -/
def Chained (slots : Fin size → κ) : Prop :=
  ∀ slot, slots slot ≠ empty →
    probe empty slots (slots slot) size (hash (slots slot)) = .found

variable {empty hash}

theorem Chained.cleared : Chained empty hash fun _ => empty :=
  fun _ taken => absurd rfl taken

theorem Chained.found_iff (chained : Chained empty hash slots) (nonempty : key ≠ empty) :
    probe empty slots key size (hash key) = .found ↔ ∃ slot, slots slot = key := by
  refine ⟨stored_of_found, ?_⟩
  rintro ⟨slot, rfl⟩
  exact chained slot nonempty

/-- Storing a key where its walk ended. -/
theorem Chained.store {free : Fin size} (chained : Chained empty hash slots)
    (room : probe empty slots key size (hash key) = .free free) :
    Chained empty hash (Function.update slots free key) := by
  intro slot taken
  by_cases here : slot = free
  · subst here
    rw [Function.update_self]
    exact found_self room
  · rw [Function.update_of_ne here] at taken ⊢
    exact found_update key (empty_of_free room) taken (chained slot taken)

omit [DecidableEq κ] [NeZero size] in
/-- A key is there after the walk, and the others are those that were. -/
theorem stored_update {free : Fin size} (room : slots free = empty) (nonempty : key ≠ empty)
    (other : κ) :
    (∃ slot, Function.update slots free other slot = key) ↔
      key = other ∨ ∃ slot, slots slot = key := by
  constructor
  · rintro ⟨slot, rfl⟩
    by_cases here : slot = free
    · subst here
      exact .inl (Function.update_self ..)
    · exact .inr ⟨slot, (Function.update_of_ne here ..).symm⟩
  · rintro (rfl | ⟨slot, rfl⟩)
    · exact ⟨free, Function.update_self ..⟩
    · have elsewhere : slot ≠ free := fun here => nonempty ((congrArg slots here).trans room)
      exact ⟨slot, Function.update_of_ne elsewhere ..⟩

end Set

/-! ## Room -/

section Room

variable (empty) (slots)

/-- The slots that hold a key. -/
def taken : Finset (Fin size) := Finset.univ.filter fun slot => slots slot ≠ empty

variable {empty} {slots}

omit [NeZero size] in
theorem mem_taken {slot : Fin size} : slot ∈ taken empty slots ↔ slots slot ≠ empty := by
  rw [taken, Finset.mem_filter, and_iff_right (Finset.mem_univ slot)]

omit [NeZero size] in
theorem card_taken_cleared : (taken empty fun _ : Fin size => empty).card = 0 :=
  Finset.card_eq_zero.mpr (Finset.filter_eq_empty_iff.mpr fun _ _ differs => differs rfl)

omit [NeZero size] in
theorem card_taken_update {free : Fin size} (room : slots free = empty) (nonempty : key ≠ empty) :
    (taken empty (Function.update slots free key)).card = (taken empty slots).card + 1 := by
  have before : free ∉ taken empty slots := fun listed => mem_taken.mp listed room
  have after : taken empty (Function.update slots free key) = insert free (taken empty slots) := by
    ext slot
    rw [Finset.mem_insert, mem_taken, mem_taken]
    by_cases here : slot = free
    · subst here
      rw [Function.update_self]
      exact iff_of_true nonempty (.inl rfl)
    · rw [Function.update_of_ne here, or_iff_right here]
  rw [after, Finset.card_insert_of_notMem before]

/-- A walk that ends for want of tries passed taken slots only. -/
theorem taken_of_full {tries start : Nat}
    (ended : probe empty slots key tries (Fin.ofNat size start) = .full) {i : Nat}
    (passed : i < tries) : slots (Fin.ofNat size (start + i)) ≠ empty := by
  induction tries generalizing start i with
  | zero => exact absurd passed (Nat.not_lt_zero i)
  | succ tries ih =>
      have next : Fin.ofNat size start + 1 = Fin.ofNat size (start + 1) := by
        apply Fin.ext
        rw [Fin.val_add, Fin.val_ofNat, Fin.val_ofNat, Fin.val_one', ← Nat.add_mod]
      rw [probe, next] at ended
      split at ended
      · exact nomatch ended
      · split at ended
        · exact nomatch ended
        · rename_i nonempty
          cases i with
          | zero => exact nonempty
          | succ i =>
              have later := ih ended (Nat.lt_of_succ_lt_succ passed)
              rwa [Nat.add_assoc, Nat.add_comm 1] at later

/-- While a slot is free, a walk around the ring ends at the key or at a free slot. -/
theorem probe_ne_full (room : (taken empty slots).card < size) (slot : Fin size) :
    probe empty slots key size slot ≠ .full := by
  intro ended
  have all : taken empty slots = Finset.univ := by
    ext other
    rw [mem_taken, iff_true_right (Finset.mem_univ other)]
    rw [← Fin.ofNat_val_eq_self slot] at ended
    by_cases behind : slot.val ≤ other.val
    · have there := taken_of_full ended (i := other.val - slot.val) (by omega)
      rwa [Nat.add_sub_cancel' behind, Fin.ofNat_val_eq_self] at there
    · have there := taken_of_full ended (i := other.val + size - slot.val) (by omega)
      have around : Fin.ofNat size (slot.val + (other.val + size - slot.val)) = other := by
        apply Fin.ext
        rw [Fin.val_ofNat, Nat.add_sub_cancel' (by omega), Nat.add_mod_right,
          Nat.mod_eq_of_lt other.isLt]
      rwa [around] at there
  rw [all, Finset.card_univ, Fintype.card_fin] at room
  exact absurd room (Nat.lt_irrefl size)

end Room
end Probing
