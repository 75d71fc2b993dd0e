import UsbDvbs2.Bytes.LittleEndian

/-! # The word of the batches

`dvbcsa_bs_portable128.h`: 128 bits in two halves, the low one first. Every operation is
described by the bits of its result; lane `c` of a batch is bit `c` of its words.
-/

namespace Dvbcsa

open LittleEndian

/-- `dvbcsa_bs_word_t` -/
structure Word where
  lo : BitVec 64
  hi : BitVec 64
  deriving DecidableEq

namespace Word

instance : AndOp Word := ⟨fun a b => ⟨a.lo &&& b.lo, a.hi &&& b.hi⟩⟩

instance : OrOp Word := ⟨fun a b => ⟨a.lo ||| b.lo, a.hi ||| b.hi⟩⟩

instance : XorOp Word := ⟨fun a b => ⟨a.lo ^^^ b.lo, a.hi ^^^ b.hi⟩⟩

instance : Complement Word := ⟨fun a => ⟨~~~a.lo, ~~~a.hi⟩⟩

/-- Each half on its own. -/
def shl (a : Word) (n : Nat) : Word := if n ≥ 64 then ⟨0, 0⟩ else ⟨a.lo <<< n, a.hi <<< n⟩

def shr (a : Word) (n : Nat) : Word := if n ≥ 64 then ⟨0, 0⟩ else ⟨a.lo >>> n, a.hi >>> n⟩

/-- The whole 128 bits, by `n` bytes. -/
def shl8 (a : Word) (n : Nat) : Word :=
  let bits := n * 8
  if bits = 0 then a
  else if bits ≥ 128 then ⟨0, 0⟩
  else if bits ≥ 64 then ⟨0, a.lo <<< (bits - 64)⟩
  else ⟨a.lo <<< bits, (a.hi <<< bits) ||| (a.lo >>> (64 - bits))⟩

def shr8 (a : Word) (n : Nat) : Word :=
  let bits := n * 8
  if bits = 0 then a
  else if bits ≥ 128 then ⟨0, 0⟩
  else if bits ≥ 64 then ⟨a.hi >>> (bits - 64), 0⟩
  else ⟨(a.lo >>> bits) ||| (a.hi <<< (64 - bits)), a.hi >>> bits⟩

def val64 (n : BitVec 64) : Word := ⟨n, n⟩

def val32 (n : BitVec 32) : Word := val64 (n ++ n)

def val16 (n : BitVec 16) : Word := val32 (n ++ n)

def val8 (n : BitVec 8) : Word := val16 (n ++ n)

/-- The bytes of a word in memory. -/
def byte (a : Word) (p : Nat) : UInt8 := if p < 8 then leByte a.lo p else leByte a.hi (p - 8)

/-- A quarter of a word, seen as an entry of an array of `uint32_t`. -/
def getU32 (a : Word) (q : Nat) : BitVec 32 :=
  if q < 2 then (a.lo >>> (32 * q)).setWidth 32 else (a.hi >>> (32 * (q - 2))).setWidth 32

/-- A word from its quarters. -/
def ofU32 (quarter : Nat → BitVec 32) : Word := ⟨quarter 1 ++ quarter 0, quarter 3 ++ quarter 2⟩

/-! ## Bits -/

def bit (a : Word) (c : Nat) : Bool := if c < 64 then a.lo.getLsbD c else a.hi.getLsbD (c - 64)

variable (a b : Word) {c n : Nat}

theorem bit_and (c : Nat) : (a &&& b).bit c = (a.bit c && b.bit c) := by
  change (if c < 64 then (a.lo &&& b.lo).getLsbD c else (a.hi &&& b.hi).getLsbD (c - 64)) = _
  unfold bit
  split <;> exact BitVec.getLsbD_and

theorem bit_or (c : Nat) : (a ||| b).bit c = (a.bit c || b.bit c) := by
  change (if c < 64 then (a.lo ||| b.lo).getLsbD c else (a.hi ||| b.hi).getLsbD (c - 64)) = _
  unfold bit
  split <;> exact BitVec.getLsbD_or

theorem bit_xor (c : Nat) : (a ^^^ b).bit c = (a.bit c ^^ b.bit c) := by
  change (if c < 64 then (a.lo ^^^ b.lo).getLsbD c else (a.hi ^^^ b.hi).getLsbD (c - 64)) = _
  unfold bit
  split <;> exact BitVec.getLsbD_xor

theorem bit_not (inside : c < 128) : (~~~a).bit c = !a.bit c := by
  change (if c < 64 then (~~~a.lo).getLsbD c else (~~~a.hi).getLsbD (c - 64)) = _
  unfold bit
  split <;> rw [BitVec.getLsbD_not, decide_eq_true (by omega), Bool.true_and]

theorem bit_of_ge (beyond : 128 ≤ c) : a.bit c = false := by
  rw [bit, if_neg (by omega)]
  exact BitVec.getLsbD_of_ge _ _ (by omega)

theorem bit_lo (low : c < 64) : a.bit c = a.lo.getLsbD c := if_pos low

theorem bit_hi (high : 64 ≤ c) : a.bit c = a.hi.getLsbD (c - 64) := if_neg (Nat.not_lt.mpr high)

/-- A shift to the left, where it has brought a bit and where it has not. -/
theorem getLsbD_shl {v : BitVec 64} {i m : Nat} (inside : i < 64) :
    (v <<< m).getLsbD i = (decide (m ≤ i) && v.getLsbD (i - m)) := by
  rw [BitVec.getLsbD_shiftLeft, decide_eq_true inside, Bool.true_and, ← decide_not]
  simp only [Nat.not_lt]

theorem bit_shl (inside : c < 128) (few : n < 64) :
    (a.shl n).bit c = (decide (n ≤ c % 64) && a.bit (c - n)) := by
  rw [shl, if_neg (Nat.not_le.mpr few)]
  rcases Nat.lt_or_ge c 64 with low | high
  · rw [bit_lo _ low, bit_lo _ (by omega), getLsbD_shl low, Nat.mod_eq_of_lt low]
  · rw [bit_hi _ high, getLsbD_shl (by omega), show c % 64 = c - 64 by omega]
    by_cases fits : n ≤ c - 64
    · rw [bit_hi _ (by omega), show c - n - 64 = c - 64 - n by omega]
    · rw [decide_eq_false fits, Bool.false_and, Bool.false_and]

theorem bit_shr (few : n < 64) :
    (a.shr n).bit c = (decide (c % 64 + n < 64) && a.bit (c + n)) := by
  rw [shr, if_neg (Nat.not_le.mpr few)]
  rcases Nat.lt_or_ge c 64 with low | high
  · rw [bit_lo _ low, BitVec.getLsbD_ushiftRight, Nat.mod_eq_of_lt low, Nat.add_comm n c]
    by_cases fits : c + n < 64
    · rw [bit_lo _ fits, decide_eq_true fits, Bool.true_and]
    · rw [decide_eq_false fits, Bool.false_and, BitVec.getLsbD_of_ge _ _ (Nat.le_of_not_lt fits)]
  · rw [bit_hi _ high, bit_hi _ (by omega), BitVec.getLsbD_ushiftRight,
      show n + (c - 64) = c + n - 64 by omega]
    by_cases fits : c % 64 + n < 64
    · rw [decide_eq_true fits, Bool.true_and]
    · rw [decide_eq_false fits, Bool.false_and, BitVec.getLsbD_of_ge _ _ (by omega)]

theorem bit_zero (c : Nat) : bit ⟨0, 0⟩ c = false := by
  unfold bit
  split <;> exact BitVec.getLsbD_zero

theorem bit_shl8 (inside : c < 128) :
    (a.shl8 n).bit c = (decide (8 * n ≤ c) && a.bit (c - 8 * n)) := by
  rw [shl8, Nat.mul_comm n 8]
  generalize 8 * n = bits
  by_cases none : bits = 0
  · simp [none]
  by_cases all : bits ≥ 128
  · rw [if_neg none, if_pos all, bit_zero, decide_eq_false (by omega), Bool.false_and]
  by_cases half : bits ≥ 64
  · rw [if_neg none, if_neg all, if_pos half]
    rcases Nat.lt_or_ge c 64 with low | high
    · rw [decide_eq_false (by omega), Bool.false_and, bit_lo _ low]
      exact BitVec.getLsbD_zero
    · rw [bit_hi _ high, bit_lo _ (by omega), getLsbD_shl (by omega),
        show c - 64 - (bits - 64) = c - bits by omega]
      simp only [show bits - 64 ≤ c - 64 ↔ bits ≤ c by omega]
  · rw [if_neg none, if_neg all, if_neg half]
    rcases Nat.lt_or_ge c 64 with low | high
    · rw [bit_lo _ low, bit_lo _ (by omega), getLsbD_shl low]
    · rw [bit_hi _ high, BitVec.getLsbD_or, getLsbD_shl (by omega), BitVec.getLsbD_ushiftRight,
        decide_eq_true (show bits ≤ c by omega), Bool.true_and]
      by_cases fits : bits ≤ c - 64
      · rw [decide_eq_true fits, Bool.true_and, BitVec.getLsbD_of_ge a.lo _ (by omega),
          Bool.or_false, bit_hi _ (by omega), show c - bits - 64 = c - 64 - bits by omega]
      · rw [decide_eq_false fits, Bool.false_and, Bool.false_or, bit_lo _ (by omega),
          show 64 - bits + (c - 64) = c - bits by omega]

theorem bit_shr8 (c : Nat) : (a.shr8 n).bit c = a.bit (c + 8 * n) := by
  rw [shr8, Nat.mul_comm n 8]
  generalize 8 * n = bits
  by_cases none : bits = 0
  · simp [none]
  by_cases all : bits ≥ 128
  · rw [if_neg none, if_pos all, bit_zero, bit_of_ge _ (by omega)]
  by_cases half : bits ≥ 64
  · rw [if_neg none, if_neg all, if_pos half, bit_hi a (by omega)]
    rcases Nat.lt_or_ge c 64 with low | high
    · rw [bit_lo _ low, BitVec.getLsbD_ushiftRight, show bits - 64 + c = c + bits - 64 by omega]
    · rw [bit_hi _ high, BitVec.getLsbD_of_ge a.hi _ (by omega)]
      exact BitVec.getLsbD_zero
  · rw [if_neg none, if_neg all, if_neg half]
    rcases Nat.lt_or_ge c 64 with low | high
    · rw [bit_lo _ low, BitVec.getLsbD_or, BitVec.getLsbD_ushiftRight, getLsbD_shl low]
      by_cases fits : 64 - bits ≤ c
      · rw [decide_eq_true fits, Bool.true_and, BitVec.getLsbD_of_ge a.lo _ (by omega),
          Bool.false_or, bit_hi _ (by omega), show c + bits - 64 = c - (64 - bits) by omega]
      · rw [decide_eq_false fits, Bool.false_and, Bool.or_false, bit_lo _ (by omega),
          Nat.add_comm bits c]
    · rw [bit_hi _ high, bit_hi _ (by omega), BitVec.getLsbD_ushiftRight,
        show bits + (c - 64) = c + bits - 64 by omega]

theorem getLsbD_getU32 (q : Nat) {j : Nat} (inside : j < 32) :
    (a.getU32 q).getLsbD j = a.bit (32 * q + j) := by
  unfold getU32
  split
  · rw [BitVec.getLsbD_setWidth, decide_eq_true inside, Bool.true_and,
      BitVec.getLsbD_ushiftRight, bit_lo _ (by omega)]
  · rw [BitVec.getLsbD_setWidth, decide_eq_true inside, Bool.true_and,
      BitVec.getLsbD_ushiftRight, bit_hi _ (by omega)]
    congr 1
    omega

theorem bit_ofU32 (quarter : Nat → BitVec 32) {q j : Nat} (few : q < 4) (inside : j < 32) :
    (ofU32 quarter).bit (32 * q + j) = (quarter q).getLsbD j := by
  rcases q with _ | _ | _ | _ | q
  · rw [bit_lo _ (by omega), ofU32, BitVec.getLsbD_append, if_pos (by omega)]
    congr 1
    omega
  · rw [bit_lo _ (by omega), ofU32, BitVec.getLsbD_append, if_neg (by omega)]
    congr 1
    omega
  · rw [bit_hi _ (by omega), ofU32, BitVec.getLsbD_append, if_pos (by omega)]
    congr 1
    omega
  · rw [bit_hi _ (by omega), ofU32, BitVec.getLsbD_append, if_neg (by omega)]
    congr 1
    omega
  · omega

theorem getLsbD_byte (p : Nat) {j : Nat} (inside : j < 8) :
    (a.byte p).toBitVec.getLsbD j = a.bit (8 * p + j) := by
  unfold byte bit
  split
  · rw [if_pos (by omega), getLsbD_leByte _ _ inside]
  · rw [if_neg (by omega), getLsbD_leByte _ _ inside]
    congr 1
    omega

theorem byte_eq_of_bits {first second : Word} {p q : Nat}
    (same : ∀ j < 8, first.bit (8 * p + j) = second.bit (8 * q + j)) :
    first.byte p = second.byte q := by
  apply eq_of_bits
  intro j inside
  rw [getLsbD_byte _ _ inside, getLsbD_byte _ _ inside, same j inside]

theorem byte_ofU32 (quarter : Nat → BitVec 32) {q j : Nat} (few : q < 4) (inside : j < 4) :
    (ofU32 quarter).byte (4 * q + j) = leByte (quarter q) j := by
  apply eq_of_bits
  intro i low
  rw [getLsbD_byte _ _ low, getLsbD_leByte _ _ low,
    show 8 * (4 * q + j) + i = 32 * q + (8 * j + i) by omega, bit_ofU32 _ few (by omega)]

theorem leByte_getU32 (q : Nat) {j : Nat} (inside : j < 4) :
    leByte (a.getU32 q) j = a.byte (4 * q + j) := by
  apply eq_of_bits
  intro i low
  rw [getLsbD_byte _ _ low, getLsbD_leByte _ _ low, getLsbD_getU32 _ _ (by omega),
    show 32 * q + (8 * j + i) = 8 * (4 * q + j) + i by omega]

end Word

end Dvbcsa
