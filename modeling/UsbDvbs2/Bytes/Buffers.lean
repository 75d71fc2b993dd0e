import Mathlib.Data.List.Range

/-! # Buffers

A list as a buffer: data copied to an offset, and cells set one after another.
-/

namespace Bytes

variable {α : Type}

/-- A buffer with some data put into it. -/
def copied (buffer : List α) (offset : Nat) (data : List α) : List α :=
  buffer.take offset ++ data ++ buffer.drop (offset + data.length)

variable {buffer data : List α} {offset : Nat}

theorem length_copied (inside : offset + data.length ≤ buffer.length) :
    (copied buffer offset data).length = buffer.length := by
  rw [copied, List.length_append, List.length_append, List.length_take, List.length_drop]
  omega

/-- What lies in a buffer up to the end of what was put into it. -/
theorem take_copied {count : Nat} (inside : offset + data.length ≤ buffer.length)
    (upTo : count = offset + data.length) :
    (copied buffer offset data).take count = buffer.take offset ++ data := by
  apply List.take_left'
  rw [List.length_append, List.length_take, upTo]
  omega

/-- Cells set one after another, upwards. -/
theorem foldl_set (cells : Nat → α) {count : Nat} (inside : offset + count ≤ buffer.length) :
    (List.range count).foldl (fun buffer i => buffer.set (offset + i) (cells i)) buffer =
      copied buffer offset ((List.range count).map cells) := by
  induction count with
  | zero => simp only [copied, List.range_zero, List.foldl_nil, List.map_nil, List.append_nil,
      List.length_nil, Nat.add_zero, List.take_append_drop]
  | succ count ih =>
      have front : (buffer.take offset ++ (List.range count).map cells).length =
          offset + count := by
        rw [List.length_append, List.length_take, List.length_map, List.length_range]
        omega
      rw [List.range_succ, List.foldl_append, ih (by omega), List.foldl_cons, List.foldl_nil,
        copied, copied, List.length_map, List.length_range,
        List.drop_eq_getElem_cons (show offset + count < buffer.length by omega),
        List.set_append_right _ _ (Nat.le_of_eq front), front, Nat.sub_self, List.set_cons_zero,
        List.map_append, List.map_singleton, List.length_append, List.length_map,
        List.length_range, List.length_singleton, List.append_assoc, List.append_assoc,
        List.append_assoc]
      rfl

/-- Cells set one after another, downwards. -/
theorem foldl_set_down (cells : Nat → α) {last count : Nat} (inside : last < buffer.length)
    (room : count ≤ last + 1) :
    (List.range count).foldl (fun buffer i => buffer.set (last - i) (cells i)) buffer =
      copied buffer (last + 1 - count) ((List.range count).map cells).reverse := by
  induction count with
  | zero => simp only [copied, List.range_zero, List.foldl_nil, List.map_nil, List.reverse_nil,
      List.append_nil, List.length_nil, Nat.add_zero, List.take_append_drop]
  | succ count ih =>
      have before : last + 1 - count = last - count + 1 := by omega
      have here : last - count < buffer.length := by omega
      have front : (buffer.take (last - count)).length = last - count :=
        List.length_take_of_le (Nat.le_of_lt here)
      have room : last + 1 - (count + 1) = last - count := by omega
      have behind : last - count + (count + 1) = last - count + 1 + count := by omega
      rw [List.range_succ, List.foldl_append, ih (by omega), List.foldl_cons, List.foldl_nil,
        copied, copied, before, room, List.take_succ_eq_append_getElem here, List.append_assoc,
        List.append_assoc, List.set_append_right _ _ (Nat.le_of_eq front), front, Nat.sub_self,
        List.map_append, List.reverse_append]
      simp only [List.set_cons_zero, List.length_map, List.length_range, List.length_reverse,
        List.map_singleton, List.reverse_singleton, List.length_cons, List.append_assoc, behind,
        List.cons_append, List.nil_append]

end Bytes
