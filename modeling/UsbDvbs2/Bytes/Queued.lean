import Mathlib.Logic.Function.Basic
import UsbDvbs2.Bytes.Memory

/-! # Work that waits in queues

Places of memory wait in some queues for work that replaces what they hold. Memory settles to
a target when the target is what the waiting work will leave.
-/

namespace Memory

variable {α κ : Type}

structure Segment where
  data : Nat
  len : Nat
  deriving DecidableEq

def Segment.Covers (slot : Segment) (address : Nat) : Prop :=
  slot.data ≤ address ∧ address < slot.data + slot.len

def Segment.Apart (first second : Segment) : Prop :=
  first.data + first.len ≤ second.data ∨ second.data + second.len ≤ first.data

theorem Segment.Apart.symm {first second : Segment} (apart : first.Apart second) :
    second.Apart first := Or.symm apart

theorem Segment.Apart.uncovered {first second : Segment} (apart : first.Apart second)
    {address : Nat} (covers : first.Covers address) : ¬ second.Covers address := by
  unfold Segment.Apart Segment.Covers at *
  omega

/-- Loads agree where memories do. -/
theorem load_slot_congr {memory other : Space α} {slot : Segment}
    (same : ∀ address, slot.Covers address → memory address = other address) :
    load slot.len memory slot.data = load slot.len other slot.data :=
  load_congr fun _ inside => same _ ⟨Nat.le_add_right .., Nat.add_lt_add_left inside _⟩

theorem eq_of_load_slot {memory other : Space α} {slot : Segment}
    (same : load slot.len memory slot.data = load slot.len other slot.data) {address : Nat}
    (covers : slot.Covers address) : memory address = other address := by
  obtain ⟨i, rfl⟩ := Nat.exists_eq_add_of_le covers.1
  have inside : i < slot.len := Nat.lt_of_add_lt_add_left covers.2
  rw [← getElem_load memory slot.data inside, same, getElem_load]

/-- No place waits twice, in one queue or in two. -/
structure Separate (queues : κ → List Segment) : Prop where
  own : ∀ name, (queues name).Pairwise Segment.Apart
  other : ∀ first second, first ≠ second → ∀ slot ∈ queues first, ∀ next ∈ queues second,
    slot.Apart next

/-- A place is apart from all that wait. -/
def Free (queues : κ → List Segment) (slot : Segment) : Prop :=
  ∀ name, ∀ waiting ∈ queues name, waiting.Apart slot

section Settles

variable (work : κ → (n : Nat) → Vector α n → Vector α n)

structure Settles (queues : κ → List Segment) (memory target : Space α) : Prop where
  waiting : ∀ name, ∀ slot ∈ queues name,
    load slot.len target slot.data = work name slot.len (load slot.len memory slot.data)
  rest : ∀ address, (∀ name, ∀ slot ∈ queues name, ¬ slot.Covers address) →
    target address = memory address

variable {work} {queues : κ → List Segment} {memory target : Space α}

theorem Settles.start : Settles work (fun _ => []) memory memory := ⟨nofun, fun _ _ => rfl⟩

/-- With nothing waiting, memory is at its target. -/
theorem Settles.eq (settles : Settles work queues memory target)
    (idle : ∀ name, queues name = []) : memory = target := by
  funext address
  refine (settles.rest address fun name slot listed => ?_).symm
  rw [idle name] at listed
  exact nomatch listed

/-- At a place that is free, memory is at its target already. -/
theorem Settles.at_free (settles : Settles work queues memory target) {slot : Segment}
    (free : Free queues slot) {address : Nat} (covers : slot.Covers address) :
    target address = memory address :=
  settles.rest address fun name waiting listed =>
    (free name waiting listed).symm.uncovered covers

/-- A block that is stored at a free place. -/
theorem Settles.both (settles : Settles work queues memory target) {n start : Nat}
    (block : Vector α n) (free : Free queues ⟨start, n⟩) :
    Settles work queues (store memory start block) (store target start block) where
  waiting name slot listed := by
    have apart := (free name slot listed).symm
    rw [load_store_apart _ _ apart, load_store_apart _ _ apart]
    exact settles.waiting name slot listed
  rest address clear := by
    by_cases outside : address < start ∨ start + n ≤ address
    · rw [store_outside _ _ outside, store_outside _ _ outside]
      exact settles.rest address clear
    · obtain ⟨i, rfl⟩ := Nat.exists_eq_add_of_le (show start ≤ address by omega)
      rw [store_inside _ _ _ (by omega), store_inside _ _ _ (by omega)]

variable [DecidableEq κ]

theorem mem_update {name other : κ} {slot : Segment} {places : List Segment}
    (listed : slot ∈ Function.update queues name places other) :
    (other = name ∧ slot ∈ places) ∨ (other ≠ name ∧ slot ∈ queues other) := by
  by_cases own : other = name
  · subst own
    rw [Function.update_self] at listed
    exact .inl ⟨rfl, listed⟩
  · rw [Function.update_of_ne own] at listed
    exact .inr ⟨own, listed⟩

/-- A free place joins a queue; the target has the work done there. -/
theorem Settles.enqueue (settles : Settles work queues memory target) (name : κ) {slot : Segment}
    (free : Free queues slot) :
    Settles work (Function.update queues name (queues name ++ [slot])) memory
      (store target slot.data (work name slot.len (load slot.len memory slot.data))) where
  waiting other place listed := by
    rcases mem_update listed with ⟨rfl, there⟩ | ⟨-, there⟩
    · rcases List.mem_append.mp there with old | new
      · rw [load_store_apart _ _ (free _ place old).symm]
        exact settles.waiting _ place old
      · obtain rfl := List.mem_singleton.mp new
        exact load_store ..
    · rw [load_store_apart _ _ (free _ place there).symm]
      exact settles.waiting _ place there
  rest address clear := by
    have own : ¬ slot.Covers address := by
      refine clear name slot ?_
      rw [Function.update_self]
      exact List.mem_append_right _ (List.mem_singleton_self slot)
    rw [store_outside _ _ (by unfold Segment.Covers at own; omega)]
    refine settles.rest address fun other place listed => clear other place ?_
    by_cases same : other = name
    · subst same
      rw [Function.update_self]
      exact List.mem_append_left _ listed
    · rwa [Function.update_of_ne same]

/-- The work of a queue is done, and nothing else is touched. -/
theorem Settles.flush (settles : Settles work queues memory target) (separate : Separate queues)
    (name : κ) {after : Space α}
    (done : ∀ slot ∈ queues name,
      load slot.len after slot.data = work name slot.len (load slot.len memory slot.data))
    (elsewhere : ∀ address, (∀ slot ∈ queues name, ¬ slot.Covers address) →
      after address = memory address) :
    Settles work (Function.update queues name []) after target where
  waiting other place listed := by
    rcases mem_update listed with ⟨-, there⟩ | ⟨differs, there⟩
    · exact nomatch there
    · have untouched : load place.len after place.data = load place.len memory place.data :=
        load_slot_congr fun address covers => elsewhere address fun slot waiting =>
          (separate.other other name differs place there slot waiting).uncovered covers
      rw [untouched]
      exact settles.waiting other place there
  rest address clear := by
    by_cases inside : ∃ slot ∈ queues name, slot.Covers address
    · obtain ⟨slot, listed, covers⟩ := inside
      refine eq_of_load_slot ?_ covers
      rw [settles.waiting name slot listed, done slot listed]
    · have outside : ∀ slot ∈ queues name, ¬ slot.Covers address :=
        fun slot listed covers => inside ⟨slot, listed, covers⟩
      rw [elsewhere address outside]
      refine settles.rest address fun other place listed => ?_
      by_cases same : other = name
      · subst same
        exact outside place listed
      · exact clear other place (by rwa [Function.update_of_ne same])

end Settles

section Separate

variable {queues : κ → List Segment} [DecidableEq κ]

omit [DecidableEq κ] in
theorem Separate.start : Separate fun _ : κ => [] := ⟨fun _ => .nil, nofun⟩

theorem Separate.flush (separate : Separate queues) (name : κ) :
    Separate (Function.update queues name []) where
  own other := by
    by_cases same : other = name
    · subst same
      rw [Function.update_self]
      exact .nil
    · rw [Function.update_of_ne same]
      exact separate.own other
  other first second differ slot listed next listed' := by
    rcases mem_update listed with ⟨-, there⟩ | ⟨-, there⟩
    · exact nomatch there
    · rcases mem_update listed' with ⟨-, there'⟩ | ⟨-, there'⟩
      · exact nomatch there'
      · exact separate.other first second differ slot there next there'

theorem Separate.enqueue (separate : Separate queues) (name : κ) {slot : Segment}
    (free : Free queues slot) :
    Separate (Function.update queues name (queues name ++ [slot])) where
  own other := by
    by_cases same : other = name
    · subst same
      rw [Function.update_self, List.pairwise_append]
      refine ⟨separate.own other, List.pairwise_singleton .., fun waiting listed new there => ?_⟩
      rw [List.mem_singleton.mp there]
      exact free other waiting listed
    · rw [Function.update_of_ne same]
      exact separate.own other
  other first second differ place listed next listed' := by
    rcases mem_update listed with ⟨rfl, there⟩ | ⟨-, there⟩
    · rcases mem_update listed' with ⟨same, -⟩ | ⟨-, there'⟩
      · exact absurd same.symm differ
      · rcases List.mem_append.mp there with old | new
        · exact separate.other _ second differ place old next there'
        · rw [List.mem_singleton.mp new]
          exact (free second next there').symm
    · rcases mem_update listed' with ⟨rfl, there'⟩ | ⟨-, there'⟩
      · rcases List.mem_append.mp there' with old | new
        · exact separate.other first _ differ place there next old
        · rw [List.mem_singleton.mp new]
          exact free first place there
      · exact separate.other first second differ place there next there'

end Separate

end Memory
