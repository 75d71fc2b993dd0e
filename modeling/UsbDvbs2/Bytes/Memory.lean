import Mathlib.Data.List.Basic

/-! # Working through memory

Memory of any kind of cell, blocks read from it and written to it, and a loop that takes a
block at a source, leaves one at a target and carries something along. When no block is
written over one that is still to be read, the loop does what it would do to a list.
-/

namespace Memory

variable {α σ : Type} {n : Nat}

/-- The cells at all addresses. -/
abbrev Space (α : Type) : Type := Nat → α

def load (n : Nat) (memory : Space α) (start : Nat) : Vector α n :=
  .ofFn fun i => memory (start + i)

def store (memory : Space α) (start : Nat) (block : Vector α n) : Space α := fun address =>
  if there : start ≤ address ∧ address - start < n then block[address - start] else memory address

theorem store_outside (memory : Space α) {start address : Nat} (block : Vector α n)
    (outside : address < start ∨ start + n ≤ address) :
    store memory start block address = memory address :=
  dif_neg (by omega)

theorem store_inside (memory : Space α) (start : Nat) (block : Vector α n) {i : Nat}
    (inside : i < n) : store memory start block (start + i) = block[i] := by
  have there : start ≤ start + i ∧ start + i - start < n := by omega
  rw [store, dif_pos there]
  simp only [Nat.add_sub_cancel_left]

theorem getElem_load (memory : Space α) (start : Nat) {i : Nat} (inside : i < n) :
    (load n memory start)[i] = memory (start + i) := by
  simp only [load, Vector.getElem_ofFn]

theorem load_congr {memory other : Space α} {start start' : Nat}
    (same : ∀ i < n, memory (start + i) = other (start' + i)) :
    load n memory start = load n other start' := by
  apply Vector.ext
  intro i inside
  rw [getElem_load, getElem_load, same i inside]

theorem load_store (memory : Space α) (start : Nat) (block : Vector α n) :
    load n (store memory start block) start = block := by
  apply Vector.ext
  intro i inside
  rw [getElem_load, store_inside]

/-- What is stored apart from a block is not seen in it. -/
theorem load_store_apart {m : Nat} (memory : Space α) {start other : Nat} (block : Vector α n)
    (apart : start + n ≤ other ∨ other + m ≤ start) :
    load m (store memory start block) other = load m memory other := by
  apply load_congr
  intro i inside
  exact store_outside memory block (by omega)

theorem store_load (memory : Space α) (start : Nat) :
    store memory start (load n memory start) = memory := by
  funext address
  by_cases outside : address < start ∨ start + n ≤ address
  · exact store_outside memory _ outside
  · obtain ⟨i, rfl⟩ := Nat.exists_eq_add_of_le (show start ≤ address by omega)
    rw [store_inside _ _ _ (by omega), getElem_load]

theorem store_store (memory : Space α) (start : Nat) (first second : Vector α n) :
    store (store memory start first) start second = store memory start second := by
  funext address
  by_cases outside : address < start ∨ start + n ≤ address
  · rw [store_outside _ _ outside, store_outside _ _ outside, store_outside _ _ outside]
  · obtain ⟨i, rfl⟩ := Nat.exists_eq_add_of_le (show start ≤ address by omega)
    rw [store_inside _ _ _ (by omega), store_inside _ _ _ (by omega)]

/-! ## Pieces of any length -/

/-- A list, put down from an address on. -/
def put (memory : Space α) (start : Nat) (data : List α) : Space α := fun address =>
  if start ≤ address then data.getD (address - start) (memory address) else memory address

/-- The cells from an address on. -/
def read (memory : Space α) (start count : Nat) : List α :=
  (List.range count).map fun i => memory (start + i)

theorem put_outside (memory : Space α) {start address : Nat} {data : List α}
    (outside : address < start ∨ start + data.length ≤ address) :
    put memory start data address = memory address := by
  unfold put
  split
  · rw [List.getD_eq_getElem?_getD, List.getElem?_eq_none (by omega), Option.getD_none]
  · rfl

theorem put_inside (memory : Space α) (start : Nat) (data : List α) {i : Nat}
    (inside : i < data.length) : put memory start data (start + i) = data[i] := by
  rw [put, if_pos (Nat.le_add_right start i), Nat.add_sub_cancel_left,
    List.getD_eq_getElem?_getD, List.getElem?_eq_getElem inside, Option.getD_some]

/-! ## Block after block -/

/-- The blocks that lie one behind the other. -/
def blocksAt (n : Nat) (memory : Space α) (start : Nat) : Nat → List (Vector α n)
  | 0 => []
  | count + 1 => load n memory start :: blocksAt n memory (start + n) count

/-- What a loop that carries something along makes of a list. -/
def carry {β : Type} (step : σ → β → β × σ) : σ → List β → List β × σ
  | carried, [] => ([], carried)
  | carried, block :: later =>
      let done := step carried block
      let rest := carry step done.2 later
      (done.1 :: rest.1, rest.2)

/-- The loop in memory, `count` blocks of it. -/
def sweep (step : σ → Vector α n → Vector α n × σ) (source target : Nat) :
    Nat → Space α × σ → Space α × σ
  | 0, state => state
  | count + 1, state =>
      let done := step state.2 (load n state.1 source)
      sweep step (source + n) (target + n) count (store state.1 target done.1, done.2)

theorem blocksAt_congr {memory other : Space α} {start start' : Nat} {count : Nat}
    (same : ∀ i < n * count, memory (start + i) = other (start' + i)) :
    blocksAt n memory start count = blocksAt n other start' count := by
  induction count generalizing start start' with
  | zero => rfl
  | succ count ih =>
      rw [Nat.mul_succ] at same
      have first : load n memory start = load n other start' :=
        load_congr fun i inside => same i (by omega)
      have later := @ih (start + n) (start' + n) fun i inside => by
        simpa only [Nat.add_assoc] using same (n + i) (by omega)
      rw [blocksAt, blocksAt, first, later]

/-- Memories with the same blocks have the same cells there. -/
theorem eq_of_blocksAt {memory other : Space α} {start start' : Nat} {count : Nat}
    (same : blocksAt n memory start count = blocksAt n other start' count) {i : Nat}
    (inside : i < n * count) : memory (start + i) = other (start' + i) := by
  induction count generalizing start start' i with
  | zero => exact absurd inside (Nat.not_lt_zero _)
  | succ count ih =>
      rw [Nat.mul_succ] at inside
      obtain ⟨first, later⟩ := List.cons.inj same
      by_cases here : i < n
      · rw [← getElem_load memory start here, first, getElem_load]
      · have behind := ih later (show i - n < n * count by omega)
        rwa [show start + n + (i - n) = start + i by omega,
          show start' + n + (i - n) = start' + i by omega] at behind

section Sweep

variable (step : σ → Vector α n → Vector α n × σ)

/-- A loop that stops and goes on is one loop. -/
theorem sweep_add (source target first second : Nat) (state : Space α × σ) :
    sweep step source target (first + second) state =
      sweep step (source + n * first) (target + n * first) second
        (sweep step source target first state) := by
  induction first generalizing source target state with
  | zero => rw [Nat.zero_add]; rfl
  | succ first ih =>
      rw [Nat.add_right_comm, sweep, ih, sweep, Nat.mul_succ, Nat.add_comm (n * first) n,
        ← Nat.add_assoc, ← Nat.add_assoc]

/-- The loop touches no cell but those of its blocks. -/
theorem sweep_outside (source target count : Nat) (state : Space α × σ) {address : Nat}
    (outside : address < target ∨ target + n * count ≤ address) :
    (sweep step source target count state).1 address = state.1 address := by
  induction count generalizing source target state with
  | zero => rfl
  | succ count ih =>
      rw [Nat.mul_succ] at outside
      rw [sweep, ih _ _ _ (by omega)]
      exact store_outside state.1 _ (by omega)

/-- A target at its source, below it, or behind it all: then the loop in memory does to the
blocks what it would do to a list of them. -/
theorem sweep_blocks {source target count : Nat} (state : Space α × σ)
    (safe : target ≤ source ∨ source + n * count ≤ target) :
    blocksAt n (sweep step source target count state).1 target count =
        (carry step state.2 (blocksAt n state.1 source count)).1 ∧
      (sweep step source target count state).2 =
        (carry step state.2 (blocksAt n state.1 source count)).2 := by
  induction count generalizing source target state with
  | zero => exact ⟨rfl, rfl⟩
  | succ count ih =>
      rw [Nat.mul_succ] at safe
      have later := @ih (source + n) (target + n)
        (store state.1 target (step state.2 (load n state.1 source)).1,
          (step state.2 (load n state.1 source)).2) (by omega)
      -- the block that was written is none of those still to be read
      have unread : blocksAt n (store state.1 target (step state.2 (load n state.1 source)).1)
          (source + n) count = blocksAt n state.1 (source + n) count :=
        blocksAt_congr fun i inside => store_outside _ _ (by omega)
      have first : load n (sweep step (source + n) (target + n) count
          (store state.1 target (step state.2 (load n state.1 source)).1,
            (step state.2 (load n state.1 source)).2)).1 target =
          (step state.2 (load n state.1 source)).1 := by
        rw [load_congr (fun i _ => sweep_outside step _ _ _ _ (by omega)), load_store]
      simp only [unread] at later
      simp only [blocksAt, sweep, carry]
      exact ⟨by rw [first, later.1], later.2⟩

end Sweep

end Memory
