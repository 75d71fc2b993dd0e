import UsbDvbs2.Bytes.Memory

/-! # A queue in a circle of cells

Some of the cells of a circle hold a queue that begins at its tail. What is written behind
it and what is read from its tail are copied in two pieces where the circle closes.
-/

namespace Circular

open Memory

variable {α : Type}

/-- The queue of `used` cells from `tail` on, in a circle of `size` cells. -/
def contents (size : Nat) (cells : Space α) (tail used : Nat) : List α :=
  (List.range used).map fun i => cells ((tail + i) % size)

/-- Write at `head`, and at the start what does not fit before the end. -/
def write (size : Nat) (cells : Space α) (head : Nat) (data : List α) : Space α :=
  let first := min (size - head) data.length
  put (put cells head (data.take first)) 0 (data.drop first)

/-- Read from `tail`, and from the start what lies behind the end. -/
def readOut (size : Nat) (cells : Space α) (tail count : Nat) : List α :=
  let first := min (size - tail) count
  read cells tail first ++ read cells 0 (count - first)

variable {size : Nat} {cells : Space α}

theorem wrap {position : Nat} (once : position < 2 * size) :
    position % size = if position < size then position else position - size := by
  split
  · exact Nat.mod_eq_of_lt ‹_›
  · rw [Nat.mod_eq_sub_mod (Nat.le_of_not_lt ‹_›)]
    exact Nat.mod_eq_of_lt (by omega)

theorem length_contents (tail used : Nat) : (contents size cells tail used).length = used := by
  rw [contents, List.length_map, List.length_range]

theorem contents_congr {other : Space α} {tail used : Nat}
    (same : ∀ i < used, cells ((tail + i) % size) = other ((tail + i) % size)) :
    contents size cells tail used = contents size other tail used :=
  List.map_congr_left fun i listed => same i (List.mem_range.mp listed)

theorem contents_add (tail first second : Nat) :
    contents size cells tail (first + second) =
      contents size cells tail first ++ contents size cells ((tail + first) % size) second := by
  rw [contents, List.range_add, List.map_append, List.map_map]
  refine congrArg _ (List.map_congr_left fun i _ => ?_)
  rw [Nat.mod_add_mod, Nat.add_assoc]
  rfl

section Write

variable {head : Nat} {data : List α}

/-- What was written is found cell by cell behind the head. -/
theorem write_behind (inside : head < size) (fits : data.length ≤ size) {i : Nat}
    (part : i < data.length) : write size cells head data ((head + i) % size) = data[i] := by
  have position := wrap (show head + i < 2 * size by omega)
  unfold write
  by_cases before : i < min (size - head) data.length
  · rw [if_pos (by omega)] at position
    rw [position, put_outside _ (.inr (by rw [List.length_drop]; omega)),
      put_inside _ _ _ (by rw [List.length_take]; omega), List.getElem_take]
  · rw [if_neg (by omega)] at position
    have closing : head + i - size = 0 + (i - min (size - head) data.length) := by omega
    rw [position, closing, put_inside _ _ _ (by rw [List.length_drop]; omega),
      List.getElem_drop]
    congr 1
    omega

/-- The cells farther behind the head stay as they are. -/
theorem write_beyond (inside : head < size) {i : Nat} (beyond : data.length ≤ i)
    (round : i < size) :
    write size cells head data ((head + i) % size) = cells ((head + i) % size) := by
  have position := wrap (show head + i < 2 * size by omega)
  unfold write
  rw [position]
  split
  · rw [put_outside _ (.inr (by rw [List.length_drop]; omega)),
      put_outside _ (.inr (by rw [List.length_take]; omega))]
  · rw [put_outside _ (.inr (by rw [List.length_drop]; omega)), put_outside _ (.inl (by omega))]

end Write

/-- Writing behind the queue adds to its end. -/
theorem contents_write {tail used : Nat} {data : List α} (inside : tail < size)
    (fits : used + data.length ≤ size) :
    contents size (write size cells ((tail + used) % size) data) tail (used + data.length) =
      contents size cells tail used ++ data := by
  have positive : 0 < size := Nat.lt_of_le_of_lt (Nat.zero_le tail) inside
  have head : (tail + used) % size < size := Nat.mod_lt _ positive
  rw [contents_add]
  congr 1
  · apply contents_congr
    intro i queued
    -- seen from the head, the queue lies at the far end of the circle
    have far : ((tail + used) % size + (size - used + i)) % size = (tail + i) % size := by
      rw [Nat.mod_add_mod, show tail + used + (size - used + i) = tail + i + size by omega,
        Nat.add_mod_right]
    rw [← far]
    exact write_beyond head (by omega) (by omega)
  · apply List.ext_getElem
    · exact length_contents _ _
    · intro i _ part
      simp only [contents, List.getElem_map, List.getElem_range]
      exact write_behind head (by omega) part

/-- Reading from the tail reads the front of the queue. -/
theorem readOut_eq {tail count : Nat} (inside : tail < size) (fits : count ≤ size) :
    readOut size cells tail count = contents size cells tail count := by
  change read cells tail (min (size - tail) count) ++
    read cells 0 (count - min (size - tail) count) = _
  have whole : count = min (size - tail) count + (count - min (size - tail) count) := by omega
  conv_rhs => rw [whole, contents_add]
  refine congrArg₂ _ ?_ ?_
  · refine List.map_congr_left fun i listed => ?_
    have before := List.mem_range.mp listed
    rw [Nat.mod_eq_of_lt (by omega)]
  · refine List.map_congr_left fun i listed => ?_
    have behind := List.mem_range.mp listed
    have closing : tail + min (size - tail) count = size := by omega
    rw [closing, Nat.mod_self, Nat.zero_add, Nat.mod_eq_of_lt (by omega)]

end Circular
