import Mathlib.Data.List.Range

/-! # Hashing block by block

Data cut into blocks of one size, the padding that makes whole blocks of any bytes, and the
bytes of a number in either order. A hash folds its compression over the blocks, so it may
be given the data in parts that end where a block does.
-/

namespace BlockHash

/-! ## Blocks -/

section Blocks

variable {α σ : Type}

/-- The whole blocks of some data; what is left over belongs to none. -/
def blocks (size : Nat) (data : List α) : List (List α) :=
  (List.range (data.length / size)).map fun index => (data.drop (size * index)).take size

/-- What is left over. -/
def remainder (size : Nat) (data : List α) : List α := data.drop (size * (data.length / size))

variable {size : Nat}

theorem blocks_short {data : List α} (short : data.length < size) : blocks size data = [] := by
  rw [blocks, Nat.div_eq_of_lt short]
  rfl

theorem remainder_short {data : List α} (short : data.length < size) :
    remainder size data = data := by
  rw [remainder, Nat.div_eq_of_lt short, Nat.mul_zero, List.drop_zero]

theorem length_remainder (data : List α) : (remainder size data).length = data.length % size := by
  rw [remainder, List.length_drop, Nat.mod_def]

variable (positive : 0 < size)

include positive

theorem remainder_lt (data : List α) : (remainder size data).length < size := by
  rw [length_remainder]
  exact Nat.mod_lt _ positive

theorem blocks_block {block : List α} (whole : block.length = size) (data : List α) :
    blocks size (block ++ data) = block :: blocks size data := by
  have count : (block ++ data).length / size = data.length / size + 1 := by
    rw [List.length_append, whole, Nat.add_div_left _ positive]
  rw [blocks, count, List.range_succ_eq_map, List.map_cons, List.map_map, Nat.mul_zero,
    List.drop_zero, List.take_left' whole]
  refine congrArg (block :: ·) (List.map_congr_left fun index _ => ?_)
  rw [Function.comp_apply, Nat.mul_succ, Nat.add_comm, ← List.drop_drop, List.drop_left' whole]

theorem blocks_single {block : List α} (whole : block.length = size) :
    blocks size block = [block] := by
  have empty : blocks size ([] : List α) = [] := blocks_short positive
  have alone := blocks_block positive whole []
  rwa [List.append_nil, empty] at alone

/-- Data that ends where a block does is cut for itself. -/
theorem blocks_append {front : List α} (whole : size ∣ front.length) (back : List α) :
    blocks size (front ++ back) = blocks size front ++ blocks size back := by
  obtain ⟨count, length⟩ := whole
  induction count generalizing front with
  | zero =>
      have empty : blocks size ([] : List α) = [] := blocks_short positive
      rw [List.eq_nil_of_length_eq_zero length, empty, List.nil_append, List.nil_append]
  | succ count ih =>
      rw [Nat.mul_succ] at length
      have first : (front.take size).length = size := by rw [List.length_take]; omega
      have rest : (front.drop size).length = size * count := by rw [List.length_drop]; omega
      have cut := List.take_append_drop size front
      rw [← cut, List.append_assoc, blocks_block positive first, ih rest,
        blocks_block positive first, List.cons_append]

/-- The whole blocks, and behind them what is left over. -/
theorem blocks_remainder (front back : List α) : blocks size (front ++ back) =
    blocks size front ++ blocks size (remainder size front ++ back) := by
  have inside : size * (front.length / size) ≤ front.length := Nat.mul_div_le ..
  have length : (front.take (size * (front.length / size))).length =
      size * (front.length / size) := List.length_take_of_le inside
  have whole : size ∣ (front.take (size * (front.length / size))).length := by
    rw [length]
    exact Nat.dvd_mul_right ..
  have cut := List.take_append_drop (size * (front.length / size)) front
  have left : blocks size (remainder size front) = [] := blocks_short (remainder_lt positive front)
  have alone := blocks_append positive whole (remainder size front)
  rw [left, List.append_nil, remainder, cut] at alone
  rw [alone, ← blocks_append positive whole, remainder, ← List.append_assoc, cut]

theorem remainder_append (front back : List α) :
    remainder size (front ++ back) = remainder size (remainder size front ++ back) := by
  have inside : size * (front.length / size) ≤ front.length := Nat.mul_div_le ..
  have total : front.length + back.length =
      size * (front.length / size) + (front.length % size + back.length) := by
    have parts := Nat.div_add_mod front.length size
    omega
  have count : (front ++ back).length / size =
      front.length / size + (remainder size front ++ back).length / size := by
    rw [List.length_append, List.length_append, length_remainder, total,
      Nat.mul_add_div positive]
  rw [remainder, count, Nat.mul_add, ← List.drop_drop, List.drop_append_of_le_length inside]
  rfl

theorem remainder_block {block : List α} (whole : block.length = size) (data : List α) :
    remainder size (block ++ data) = remainder size data := by
  have none : remainder size block = [] := by
    apply List.eq_nil_of_length_eq_zero
    rw [length_remainder, whole, Nat.mod_self]
  rw [remainder_append positive, none, List.nil_append]

end Blocks

/-! ## Padding -/

/-- The zeros behind the mark, up to eight bytes in front of the end of a block of 64. -/
def zeros (length : Nat) : Nat := (119 - length % 64) % 64

/-- The bytes with a mark, zeros and their length in bits behind them. -/
def padded (encode : Nat → List UInt8) (message : List UInt8) : List UInt8 :=
  message ++ ([0x80] ++ List.replicate (zeros message.length) 0 ++ encode (8 * message.length))

/-- There are as many zeros as it takes, and no more. -/
theorem zeros_least (length : Nat) : (length + 1 + zeros length) % 64 = 56 ∧
    ∀ fewer < zeros length, (length + 1 + fewer) % 64 ≠ 56 := by
  unfold zeros
  constructor
  · omega
  · intro fewer less
    omega

/-- Eight bytes of a number, from the lowest or from the highest on. -/
def le64 (value : Nat) : List UInt8 :=
  (List.range 8).map fun index => UInt8.ofNat (value >>> (8 * index))

def be64 (value : Nat) : List UInt8 := (le64 value).reverse

theorem length_le64 (value : Nat) : (le64 value).length = 8 := rfl

theorem length_be64 (value : Nat) : (be64 value).length = 8 := rfl

/-- The bytes of a count of bits that is kept modulo 2^64. -/
theorem le64_eq (value : Nat) : (List.range 8).map (fun index =>
    (UInt64.ofNat value >>> (8 * UInt64.ofNat index)).toUInt8) = le64 value := by
  refine List.map_congr_left fun index mem => ?_
  have small := List.mem_range.1 mem
  have shift : (8 * UInt64.ofNat index).toNat % 64 = 8 * index := by
    have eight : (8 : UInt64).toNat = 8 := rfl
    rw [UInt64.toNat_mul, UInt64.toNat_ofNat', eight]
    omega
  apply UInt8.toNat_inj.1
  rw [UInt64.toNat_toUInt8, UInt64.toNat_shiftRight, shift, UInt64.toNat_ofNat',
    UInt8.toNat_ofNat']
  apply Nat.eq_of_testBit_eq
  intro bit
  rw [Nat.testBit_mod_two_pow, Nat.testBit_mod_two_pow, Nat.testBit_shiftRight,
    Nat.testBit_shiftRight, Nat.testBit_mod_two_pow]
  by_cases low : bit < 8
  · have inside : 8 * index + bit < 64 := by omega
    rw [decide_eq_true inside, Bool.true_and]
  · rw [decide_eq_false low, Bool.false_and, Bool.false_and]

end BlockHash
