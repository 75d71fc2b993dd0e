/-! # Words of bytes, lowest first

A word put together from bytes and taken apart again, bit by bit.
-/

namespace LittleEndian

variable {w : Nat}

/-- The word whose lowest byte is the first one. -/
def leWord (w : Nat) (bytes : Nat → UInt8) : Nat → BitVec w
  | 0 => 0
  | count + 1 =>
      leWord w bytes count ||| ((bytes count).toBitVec.setWidth w <<< (8 * count))

/-- A byte of a word. -/
def leByte (word : BitVec w) (index : Nat) : UInt8 := ⟨word.extractLsb' (8 * index) 8⟩

theorem eq_of_bits {first second : UInt8}
    (same : ∀ j < 8, first.toBitVec.getLsbD j = second.toBitVec.getLsbD j) : first = second :=
  UInt8.toBitVec_inj.mp (BitVec.eq_of_getLsbD_eq same)

theorem getLsbD_byte_of_ge (byte : UInt8) {j : Nat} (beyond : 8 ≤ j) :
    byte.toBitVec.getLsbD j = false :=
  BitVec.getLsbD_of_ge _ _ beyond

theorem getLsbD_leWord (bytes : Nat → UInt8) {count i j : Nat} (inside : j < 8)
    (fits : 8 * i + j < w) :
    (leWord w bytes count).getLsbD (8 * i + j) =
      (decide (i < count) && (bytes i).toBitVec.getLsbD j) := by
  induction count with
  | zero => simp [leWord]
  | succ count ih =>
      rw [leWord, BitVec.getLsbD_or, ih, BitVec.getLsbD_shiftLeft, BitVec.getLsbD_setWidth]
      rcases Nat.lt_trichotomy i count with before | same | after
      · simp [before, Nat.lt_succ_of_lt before, show 8 * i + j < 8 * count by omega]
      · subst same
        simp [fits, show ¬ 8 * i + j < 8 * i by omega, show j < w by omega]
      · have beyond : 8 ≤ 8 * i + j - 8 * count := by omega
        simp [getLsbD_byte_of_ge _ beyond, show ¬ i < count by omega,
          show ¬ i < count + 1 by omega]

theorem getLsbD_leWord_at (bytes : Nat → UInt8) {count n : Nat} (inside : n < 8 * count)
    (fits : n < w) :
    (leWord w bytes count).getLsbD n = (bytes (n / 8)).toBitVec.getLsbD (n % 8) := by
  have bit := @getLsbD_leWord w bytes count (n / 8) (n % 8) (Nat.mod_lt n (by decide))
    (by omega)
  rwa [Nat.div_add_mod, decide_eq_true (by omega), Bool.true_and] at bit

theorem getLsbD_leByte (word : BitVec w) (i : Nat) {j : Nat} (inside : j < 8) :
    (leByte word i).toBitVec.getLsbD j = word.getLsbD (8 * i + j) := by
  change (word.extractLsb' (8 * i) 8).getLsbD j = _
  rw [BitVec.getLsbD_extractLsb', decide_eq_true inside, Bool.true_and]

theorem leByte_leWord (bytes : Nat → UInt8) {count i : Nat} (inside : i < count)
    (fits : 8 * count ≤ w) : leByte (leWord w bytes count) i = bytes i := by
  apply eq_of_bits
  intro j low
  rw [getLsbD_leByte _ i low, getLsbD_leWord bytes low (by omega), decide_eq_true inside,
    Bool.true_and]

end LittleEndian
