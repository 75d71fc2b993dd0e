import UsbDvbs2.Bytes.Queued

/-! # Work on slots that lie apart

A loop that visits slots of a memory one after the other. Where the work on each stays within
it, the loop does to every slot what the work does to it alone.
-/

namespace Memory

variable {α : Type}

/-- Work that writes nothing but the slot, and reads nothing else for it. -/
structure Local (work : Space α → Space α) (slot : Segment) : Prop where
  frame : ∀ memory address, ¬ slot.Covers address → work memory address = memory address
  reads : ∀ memory other, (∀ address, slot.Covers address → memory address = other address) →
    ∀ address, slot.Covers address → work memory address = work other address

theorem Local.comp {first second : Space α → Space α} {slot : Segment}
    (before : Local first slot) (after : Local second slot) :
    Local (fun memory => second (first memory)) slot where
  frame memory address outside := by
    rw [after.frame _ _ outside, before.frame _ _ outside]
  reads memory other same := after.reads _ _ (before.reads memory other same)

/-- What undoes work on a slot is work on it too. -/
theorem Local.inverse {work undo : Space α → Space α} {slot : Segment} (stays : Local undo slot)
    (undoes : ∀ memory, undo (work memory) = memory)
    (redoes : ∀ memory, work (undo memory) = memory) : Local work slot where
  frame memory address outside := by
    have kept := stays.frame (work memory) address outside
    rw [undoes] at kept
    exact kept.symm
  reads memory other same address covers := by
    classical
    -- the image of the one, continued as the other
    let image : Space α := fun cell => if slot.Covers cell then work memory cell else other cell
    have back : undo image = other := by
      funext cell
      by_cases covered : slot.Covers cell
      · have agrees : ∀ cell, slot.Covers cell → image cell = work memory cell :=
          fun _ there => if_pos there
        rw [stays.reads image (work memory) agrees cell covered, undoes, same cell covered]
      · rw [stays.frame image cell covered]
        exact if_neg covered
    rw [← back, redoes]
    exact (if_pos covers).symm

/-- Work on a part of a slot is work on the slot. -/
theorem Local.mono {work : Space α → Space α} {slot wide : Segment} (stays : Local work slot)
    (within : ∀ address, slot.Covers address → wide.Covers address) : Local work wide where
  frame memory address outside :=
    stays.frame memory address fun covers => outside (within address covers)
  reads memory other same address covers := by
    by_cases there : slot.Covers address
    · exact stays.reads memory other (fun cell covered => same cell (within cell covered)) address
        there
    · rw [stays.frame memory address there, stays.frame other address there, same address covers]

/-- Work on two slots that lie apart may be done in either order. -/
theorem Local.commute {work other : Space α → Space α} {slot place : Segment}
    (first : Local work slot) (second : Local other place) (apart : slot.Apart place)
    (memory : Space α) : work (other memory) = other (work memory) := by
  funext address
  by_cases here : slot.Covers address
  · have elsewhere : ¬ place.Covers address := apart.uncovered here
    rw [second.frame _ address elsewhere]
    exact first.reads _ _ (fun cell covered => second.frame memory cell (apart.uncovered covered))
      address here
  · rw [first.frame _ address here]
    by_cases there : place.Covers address
    · exact second.reads _ _
        (fun cell covered => (first.frame memory cell (apart.symm.uncovered covered)).symm)
        address there
    · rw [second.frame _ address there, second.frame _ address there, first.frame _ address here]

/-- Every slot, in order, with its index. -/
def eachSlot (work : Nat → Segment → Space α → Space α) (slots : List Segment)
    (memory : Space α) : Space α :=
  slots.zipIdx.foldl (fun memory entry => work entry.2 entry.1 memory) memory

theorem eachSlot_same (work : Segment → Space α → Space α) (slots : List Segment)
    (memory : Space α) :
    eachSlot (fun _ => work) slots memory =
      slots.foldl (fun memory slot => work slot memory) memory := by
  conv_rhs => rw [← List.zipIdx_map_fst 0 slots]
  rw [List.foldl_map]
  rfl

/-- Every slot has the work done on it, and nothing else has changed. -/
structure Slotwise (work : Nat → Segment → Space α → Space α) (slots : List Segment)
    (before after : Space α) : Prop where
  inside : ∀ k slot, slots[k]? = some slot → ∀ address, slot.Covers address →
    after address = work k slot before address
  outside : ∀ address, (∀ slot ∈ slots, ¬ slot.Covers address) → after address = before address

variable {work : Nat → Segment → Space α → Space α} {slots : List Segment}
  {before between after : Space α}

theorem Slotwise.congr {other : Nat → Segment → Space α → Space α}
    (done : Slotwise work slots before after)
    (same : ∀ k slot, slots[k]? = some slot → ∀ address, slot.Covers address →
      work k slot before address = other k slot before address) :
    Slotwise other slots before after where
  inside k slot listed address covers :=
    (done.inside k slot listed address covers).trans (same k slot listed address covers)
  outside := done.outside

theorem Slotwise.comp {next : Nat → Segment → Space α → Space α}
    (first : Slotwise work slots before between) (second : Slotwise next slots between after)
    (stays : ∀ k slot, slots[k]? = some slot → Local (next k slot) slot) :
    Slotwise (fun k slot memory => next k slot (work k slot memory)) slots before after where
  inside k slot listed address covers := by
    rw [second.inside k slot listed address covers]
    exact (stays k slot listed).reads _ _ (first.inside k slot listed) address covers
  outside address clear := by
    rw [second.outside address clear, first.outside address clear]

/-- The loop, begun at some index. -/
theorem foldl_zipIdx_slotwise (apart : slots.Pairwise Segment.Apart) (start : Nat)
    (stays : ∀ k slot, slots[k]? = some slot → Local (work (start + k) slot) slot)
    (memory : Space α) :
    Slotwise (fun k => work (start + k)) slots memory
      ((slots.zipIdx start).foldl (fun memory entry => work entry.2 entry.1 memory) memory) := by
  induction slots generalizing start memory with
  | nil => exact ⟨fun _ _ listed => by simp at listed, fun _ _ => rfl⟩
  | cons slot later ih =>
      obtain ⟨away, rest⟩ := List.pairwise_cons.mp apart
      have own : Local (work start slot) slot := stays 0 slot rfl
      have done := ih rest (start + 1)
        (fun k slot listed => by
          have stay := stays (k + 1) slot listed
          rwa [Nat.add_assoc, Nat.add_comm 1 k])
        (work start slot memory)
      rw [List.zipIdx_cons, List.foldl_cons]
      constructor
      · intro k place listed address covers
        cases k with
        | zero =>
            obtain rfl := Option.some.inj listed
            exact done.outside address fun other there => (away other there).uncovered covers
        | succ k =>
            have there : place ∈ later := List.mem_of_getElem? listed
            have stay := stays (k + 1) place listed
            rw [done.inside k place listed address covers, Nat.add_assoc, Nat.add_comm 1 k]
            refine stay.reads _ _ (fun cell covered => ?_) address covers
            exact own.frame memory cell ((away place there).symm.uncovered covered)
      · intro address clear
        rw [done.outside address fun other there => clear other (List.mem_cons_of_mem slot there)]
        exact own.frame memory address (clear slot List.mem_cons_self)

theorem eachSlot_slotwise (apart : slots.Pairwise Segment.Apart)
    (stays : ∀ k slot, slots[k]? = some slot → Local (work k slot) slot) (memory : Space α) :
    Slotwise work slots memory (eachSlot work slots memory) := by
  have done := @foldl_zipIdx_slotwise _ work _ apart 0
    (fun k slot listed => by rw [Nat.zero_add]; exact stays k slot listed) memory
  simp only [Nat.zero_add] at done
  exact done

/-- The memory is settled by what is done on the slots. -/
theorem Slotwise.unique {other : Space α} (first : Slotwise work slots before after)
    (second : Slotwise work slots before other) : after = other := by
  funext address
  by_cases covered : ∃ slot ∈ slots, slot.Covers address
  · obtain ⟨slot, listed, covers⟩ := covered
    obtain ⟨k, place⟩ := List.mem_iff_getElem?.mp listed
    rw [first.inside k slot place address covers, second.inside k slot place address covers]
  · have clear : ∀ slot ∈ slots, ¬ slot.Covers address :=
      fun slot listed covers => covered ⟨slot, listed, covers⟩
    rw [first.outside address clear, second.outside address clear]

/-- Nothing is done where the work is none. -/
theorem Slotwise.refl (memory : Space α) :
    Slotwise (fun _ _ memory => memory) slots memory memory :=
  ⟨fun _ _ _ _ _ => rfl, fun _ _ => rfl⟩

/-! ## Stores -/

/-- A block within the slot, made from what the slot holds. -/
theorem local_store {n : Nat} {slot : Segment} {start : Nat} {block : Space α → Vector α n}
    (low : slot.data ≤ start) (high : start + n ≤ slot.data + slot.len)
    (depends : ∀ memory other, (∀ address, slot.Covers address → memory address = other address) →
      block memory = block other) :
    Local (fun memory => store memory start (block memory)) slot where
  frame memory address outside := by
    unfold Segment.Covers at outside
    exact store_outside _ _ (by omega)
  reads memory other same address covers := by
    rw [depends memory other same]
    by_cases apart : address < start ∨ start + n ≤ address
    · rw [store_outside _ _ apart, store_outside _ _ apart, same address covers]
    · obtain ⟨i, rfl⟩ := Nat.exists_eq_add_of_le (show start ≤ address by omega)
      rw [store_inside _ _ _ (by omega), store_inside _ _ _ (by omega)]

/-- What lies within the slot is the same where the slot is. -/
theorem load_within {n : Nat} {slot : Segment} {place : Nat} (low : slot.data ≤ place)
    (high : place + n ≤ slot.data + slot.len) {memory other : Space α}
    (same : ∀ address, slot.Covers address → memory address = other address) :
    load n memory place = load n other place :=
  load_congr fun i inside => same _ ⟨by omega, by omega⟩

end Memory
