import UsbDvbs2.Camd.DesKey
import UsbDvbs2.Crypto.Des
import Mathlib.Tactic.IntervalCases

/-! # The configured key as a pair of DES keys

`des_key_spread` hands the 112 bits of a key out seven to a byte and leaves the
lowest bit of every byte to the parity, which the key schedule does not read.
-/

namespace Camd

open Bytes (forall_byte)
open Crypt

/-- The parity that `dtv_des_set_odd_parity` gives one byte. -/
def oddParity (byte : UInt8) : UInt8 :=
  let value := byte &&& 0xfe
  let ones := ((List.range' 1 7).map fun bit => (value.toNat >>> bit) &&& 1).sum
  value ||| if ones &&& 1 ≠ 0 then 0 else 1

def dtvDesSetOddParity {n : Nat} (key : Vector UInt8 n) : Vector UInt8 n := key.map oddParity

/-- The end of one byte in front of the beginning of the next, without the lowest bit. -/
def joined (upper : UInt8) (left : Nat) (lower : UInt8) (right : Nat) : UInt8 :=
  UInt8.ofNat ((upper.toNat <<< left ||| lower.toNat >>> right) &&& 0xfe)

def desKeySpread (key : DesKey) : Vector UInt8 16 :=
  dtvDesSetOddParity #v[
    key[0] &&& 0xfe,
    joined key[0] 7 key[1] 1,
    joined key[1] 6 key[2] 2,
    joined key[2] 5 key[3] 3,
    joined key[3] 4 key[4] 4,
    joined key[4] 3 key[5] 5,
    joined key[5] 2 key[6] 6,
    key[6] <<< 1,
    key[7] &&& 0xfe,
    joined key[7] 7 key[8] 1,
    joined key[8] 6 key[9] 2,
    joined key[9] 5 key[10] 3,
    joined key[10] 4 key[11] 4,
    joined key[11] 3 key[12] 5,
    joined key[12] 2 key[13] 6,
    key[13] <<< 1]

/-- How many bits of a byte are set. -/
def ones (byte : UInt8) : Nat := (List.range 8).countP fun bit => byte.toNat.testBit bit

/-! ## The parity -/

theorem ones_oddParity (byte : UInt8) : ones (oddParity byte) % 2 = 1 := by
  revert byte
  apply forall_byte
  decide +kernel

/-- The parity takes the lowest bit and leaves the others. -/
theorem testBit_oddParity (byte : UInt8) {bit : Nat} (upper : bit ≠ 0) :
    (oddParity byte).toNat.testBit bit = byte.toNat.testBit bit := by
  have low : ∀ byte : UInt8, ∀ bit : Fin 8, bit.val ≠ 0 →
      (oddParity byte).toNat.testBit bit.val = byte.toNat.testBit bit.val := by
    apply forall_byte
    decide +kernel
  by_cases within : bit < 8
  · exact low byte ⟨bit, within⟩ upper
  · have high : ∀ byte : UInt8, byte.toNat.testBit bit = false := fun byte =>
      Nat.testBit_lt_two_pow (Nat.lt_of_lt_of_le byte.toNat_lt
        (Nat.pow_le_pow_right (by decide) (Nat.le_of_not_lt within)))
    rw [high, high]

/-! ## The bits of the spread key -/

variable {key other : DesKey}

theorem testBit_mask (bit : Nat) : (0xfe : Nat).testBit bit = decide (bit ≠ 0 ∧ bit < 8) := by
  by_cases within : bit < 8
  · interval_cases bit <;> rfl
  · rw [Nat.testBit_lt_two_pow (Nat.lt_of_lt_of_le (by decide : 0xfe < 2 ^ 8)
      (Nat.pow_le_pow_right (by decide) (Nat.le_of_not_lt within)))]
    exact (decide_eq_false fun both => within both.2).symm

theorem testBit_joined (upper lower : UInt8) {left right bit : Nat} (byte : left + right = 8)
    (within : bit < 8) (high : bit ≠ 0) : (joined upper left lower right).toNat.testBit bit =
      if left ≤ bit then upper.toNat.testBit (bit - left)
      else lower.toNat.testBit (bit + right) := by
  rw [joined, UInt8.toNat_ofNat', Nat.testBit_mod_two_pow, Nat.testBit_and, testBit_mask,
    decide_eq_true within, decide_eq_true ⟨high, within⟩, Bool.true_and, Bool.and_true,
    Nat.testBit_or, Nat.testBit_shiftLeft, Nat.testBit_shiftRight]
  split
  · rename_i reached
    have past : lower.toNat.testBit (right + bit) = false :=
      Nat.testBit_lt_two_pow (Nat.lt_of_lt_of_le lower.toNat_lt
        (Nat.pow_le_pow_right (by decide) (by omega)))
    rw [decide_eq_true reached, past, Bool.true_and, Bool.or_false]
  · rename_i short
    rw [decide_eq_false short, Bool.false_and, Bool.false_or, Nat.add_comm]

theorem testBit_masked (byte : UInt8) {bit : Nat} (within : bit < 8) (high : bit ≠ 0) :
    (byte &&& 0xfe).toNat.testBit bit = byte.toNat.testBit bit := by
  rw [UInt8.toNat_and, Nat.testBit_and]
  change (byte.toNat.testBit bit && (0xfe : Nat).testBit bit) = _
  rw [testBit_mask, decide_eq_true ⟨high, within⟩, Bool.and_true]

theorem testBit_doubled (byte : UInt8) {bit : Nat} (within : bit < 8) (high : bit ≠ 0) :
    (byte <<< 1).toNat.testBit bit = byte.toNat.testBit (bit - 1) := by
  rw [UInt8.toNat_shiftLeft, Nat.testBit_mod_two_pow, Nat.testBit_shiftLeft,
    decide_eq_true within, Bool.true_and]
  change (decide (1 ≤ bit) && byte.toNat.testBit (bit - 1)) = _
  rw [decide_eq_true (Nat.one_le_iff_ne_zero.2 high), Bool.true_and]

/-- A byte of the key, at a place that may be past its end. -/
def DesKey.octet (key : DesKey) (place : Nat) : UInt8 := key.toList.getD place 0

theorem DesKey.getElem_eq_octet (key : DesKey) (place : Nat) (inside : place < 14) :
    key[place] = DesKey.octet key place := by
  rw [octet, List.getD_eq_getElem?_getD,
    List.getElem?_eq_getElem (by rwa [Vector.length_toList]), Option.getD_some,
    Vector.getElem_toList]

/-- What the sixteen expressions have in common: a byte of the spread key takes as many bits
from the end of one byte as it is away from the start of its half, the others from the next. -/
theorem testBit_spread {place bit : Nat} (inside : place < 16) (within : bit < 8)
    (high : bit ≠ 0) : (desKeySpread key)[place].toNat.testBit bit =
      if 8 - place % 8 ≤ bit then
        (DesKey.octet key (7 * (place / 8) + place % 8 - 1)).toNat.testBit (bit - (8 - place % 8))
      else
        (DesKey.octet key (7 * (place / 8) + place % 8)).toNat.testBit (bit + place % 8) := by
  simp only [desKeySpread, dtvDesSetOddParity, Vector.getElem_map, testBit_oddParity _ high,
    DesKey.getElem_eq_octet]
  have first : ¬ 8 ≤ bit := Nat.not_le_of_lt within
  have last : 1 ≤ bit := Nat.one_le_iff_ne_zero.2 high
  interval_cases place
  case «0» | «8» => exact (testBit_masked _ within high).trans (if_neg first).symm
  case «7» | «15» => exact (testBit_doubled _ within high).trans (if_pos last).symm
  all_goals exact testBit_joined _ _ rfl within high

/-- The upper seven bits of the bytes are the bits of the key, in order. -/
theorem bitAt_spread {place bit : Nat} (inside : place < 16) (within : bit < 7) :
    bitAt (desKeySpread key) (8 * place + bit) = bitAt key (7 * place + bit) := by
  have byte : (8 * place + bit) / 8 = place := by omega
  rw [bitAt_of_lt _ (by rwa [byte])]
  simp only [byte]
  rw [testBit_spread inside (by omega) (by omega)]
  change _ = (DesKey.octet key ((7 * place + bit) / 8)).toNat.testBit (7 - (7 * place + bit) % 8)
  split
  · rename_i reached
    have source : (7 * place + bit) / 8 = 7 * (place / 8) + place % 8 - 1 := by omega
    have at_bit : 7 - (7 * place + bit) % 8 =
        7 - (8 * place + bit) % 8 - (8 - place % 8) := by omega
    rw [source, at_bit]
  · rename_i short
    have source : (7 * place + bit) / 8 = 7 * (place / 8) + place % 8 := by omega
    have at_bit : 7 - (7 * place + bit) % 8 = 7 - (8 * place + bit) % 8 + place % 8 := by omega
    rw [source, at_bit]

theorem ones_spread {place : Nat} (inside : place < 16) :
    ones (desKeySpread key)[place] % 2 = 1 := by
  rw [desKeySpread, dtvDesSetOddParity, Vector.getElem_map]
  exact ones_oddParity _

/-- Nothing of the key is lost. -/
theorem desKeySpread_inj (same : desKeySpread key = desKeySpread other) : key = other := by
  apply eq_of_bitAt
  intro index inside
  have place : index / 7 < 16 := by omega
  have bit : index % 7 < 7 := Nat.mod_lt _ (by decide)
  have first := @bitAt_spread key _ _ place bit
  have second := @bitAt_spread other _ _ place bit
  rw [Nat.div_add_mod] at first second
  rw [← first, ← second, same]

/-! ## The schedule -/

/-- A permutation reads no more than the bits of its table. -/
theorem permute_congr {n size : Nat} {first second : Vector UInt8 n} {table : List Nat}
    (same : ∀ index < table.length,
      bitAt first (table.getD index 0 - 1) = bitAt second (table.getD index 0 - 1)) :
    (permute size first table : Vector UInt8 size) = permute size second table := by
  apply eq_of_bitAt
  intro index inside
  rw [permute, permute, bitAt_bitsFrom _ _ _ inside, bitAt_bitsFrom _ _ _ inside]
  split
  · rename_i listed
    exact same index listed
  · rfl

/-- The first permuted choice takes none of the lowest bits. -/
theorem desPc1_upper : ∀ index < desPc1.length,
    desPc1.getD index 0 - 1 < 64 ∧ (desPc1.getD index 0 - 1) % 8 ≠ 7 := by
  decide

theorem dtvDesSetKey_congr {first second : Block}
    (same : ∀ index < 64, index % 8 ≠ 7 → bitAt first index = bitAt second index) :
    dtvDesSetKey first = dtvDesSetKey second := by
  have chosen : (permute 7 first desPc1 : Vector UInt8 7) = permute 7 second desPc1 := by
    apply permute_congr
    intro index listed
    obtain ⟨inside, upper⟩ := desPc1_upper index listed
    exact same _ inside upper
  rw [dtvDesSetKey, dtvDesSetKey, chosen]

/-- **The spread keeps every bit of the key.** The upper seven bits of its sixteen bytes
are the 112 bits of the key in order, every byte has odd parity, no two keys have the same
spread, and the schedule of a block is a function of the upper seven bits of its bytes. -/
theorem desKeySpread_faithful (key : DesKey) :
    (∀ place < 16, ∀ bit < 7,
        bitAt (desKeySpread key) (8 * place + bit) = bitAt key (7 * place + bit)) ∧
      (∀ byte ∈ desKeySpread key, ones byte % 2 = 1) ∧
      (∀ other : DesKey, desKeySpread other = desKeySpread key → other = key) ∧
      ∀ first second : Block, (∀ place < 8, ∀ bit < 7,
        bitAt first (8 * place + bit) = bitAt second (8 * place + bit)) →
          dtvDesSetKey first = dtvDesSetKey second := by
  refine ⟨fun place inside bit within => bitAt_spread inside within, fun byte mem => ?_,
    fun other same => desKeySpread_inj same, fun first second same => ?_⟩
  · obtain ⟨place, inside, rfl⟩ := Vector.mem_iff_getElem.1 mem
    exact ones_spread inside
  · apply dtvDesSetKey_congr
    intro index inside upper
    have here := same (index / 8) (by omega) (index % 8) (by omega)
    rwa [Nat.div_add_mod] at here

end Camd
