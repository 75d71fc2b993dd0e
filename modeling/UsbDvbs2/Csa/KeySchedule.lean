import Mathlib.Algebra.GroupWithZero.Nat
import Mathlib.Data.Fintype.Pi
import UsbDvbs2.Bytes.LittleEndian
import UsbDvbs2.Csa.BlockCipher
import UsbDvbs2.Csa.KeyTables

/-! # The key schedule of CSA

`dvbcsa_key_schedule_block`: the control word is sent seven times through a table of
permutations, and the bytes of every stage are key bytes. The tables move each bit of the word
to a place of its own.
-/

namespace Dvbcsa

open LittleEndian

def loadLe64 (bytes : Block) : BitVec 64 := leWord 64 (fun i => bytes.toList.getD i 0) 8

def kpermEntry (i y : Nat) : BitVec 64 := .ofNat 64 ((kperm.getD i []).getD y 0)

/-- A turn of the loop of `dvbcsa_key_permute_block`: what was gathered, and what is left. -/
def permuteTurn (state : BitVec 64 × BitVec 64) (i : Nat) : BitVec 64 × BitVec 64 :=
  (state.1 ||| kpermEntry i (state.2 &&& 0xff).toNat, state.2 >>> 8)

def keyPermuteBlock (k : BitVec 64) : BitVec 64 := ((List.range 8).foldl permuteTurn (0, k)).1

/-- The words `k[6]` down to `k[0]`. -/
def stageWord (cw : Block) (i : Nat) : BitVec 64 := keyPermuteBlock^[6 - i] (loadLe64 cw)

def keyScheduleBlock (cw : Block) : Schedule :=
  .ofFn fun n => leByte (stageWord cw (n.val / 8)) (n.val % 8) ^^^ (n.val / 8).toUInt8

/-! ## Where the bits go -/

def bitTarget : List Nat := [
  19, 27, 55, 46, 1, 15, 36, 22, 56, 61, 39, 21, 54, 58, 50, 28, 7, 29, 51, 6, 33, 35, 20, 16,
  47, 30, 32, 63, 10, 11, 4, 38, 62, 26, 40, 18, 12, 52, 37, 53, 23, 59, 41, 17, 31, 0, 25, 43,
  44, 14, 2, 13, 45, 48, 3, 60, 49, 8, 34, 5, 9, 42, 57, 24]

def target (p : Nat) : Nat := bitTarget.getD p 0

/-- The bits of a byte, each at its target. -/
def spread (i y : Nat) : Nat :=
  (List.range 8).foldl (fun n b => n ||| if y.testBit b then 1 <<< target (8 * i + b) else 0) 0

theorem kperm_eq :
    kperm = (List.range 8).map fun i => (List.range 256).map fun y => spread i y := by
  decide +kernel

theorem target_lt : ∀ p < 64, target p < 64 := by decide

theorem target_injective : ∀ p < 64, ∀ q < 64, target p = target q → p = q := by
  have found : ∀ p < 64, bitTarget.idxOf (target p) = p := by decide
  intro p first q second same
  rw [← found p first, same, found q second]

theorem kpermEntry_eq {i y : Nat} (few : i < 8) (byte : y < 256) :
    kpermEntry i y = .ofNat 64 (spread i y) := by
  rw [kpermEntry, kperm_eq]
  simp [List.getD_eq_getElem?_getD, few, byte]

theorem testBit_foldl_or {ι : Type} (bits : ι → Nat) (items : List ι) (start q : Nat) :
    (items.foldl (fun n x => n ||| bits x) start).testBit q =
      (start.testBit q || items.any fun x => (bits x).testBit q) := by
  induction items generalizing start with
  | nil => simp
  | cons item items ih => rw [List.foldl_cons, ih, Nat.testBit_or, List.any_cons, Bool.or_assoc]

theorem testBit_spread (i y p : Nat) (few : i < 8) (inside : p < 64) :
    (spread i y).testBit (target p) = (decide (p / 8 = i) && y.testBit (p % 8)) := by
  rw [spread, testBit_foldl_or, Nat.zero_testBit, Bool.false_or, Bool.eq_iff_iff, List.any_eq_true,
    Bool.and_eq_true, decide_eq_true_eq]
  constructor
  · rintro ⟨b, listed, set⟩
    have low := List.mem_range.mp listed
    by_cases one : y.testBit b = true
    · rw [if_pos one, Nat.one_shiftLeft, Nat.testBit_two_pow, decide_eq_true_eq] at set
      have same := target_injective (8 * i + b) (by omega) p inside set
      rw [show p % 8 = b by omega]
      exact ⟨by omega, one⟩
    · rw [if_neg one, Nat.zero_testBit] at set
      exact absurd set Bool.false_ne_true
  · rintro ⟨rfl, one⟩
    refine ⟨p % 8, List.mem_range.mpr (Nat.mod_lt _ (by decide)), ?_⟩
    rw [if_pos one, Nat.div_add_mod, Nat.one_shiftLeft, Nat.testBit_two_pow_self]

/-- What the loop has gathered and what it has left after some turns. -/
theorem permuteTurns (k : BitVec 64) {count : Nat} (few : count ≤ 8) :
    ((List.range count).foldl permuteTurn (0, k)).2 = k >>> (8 * count) ∧
      ∀ p < 64, ((List.range count).foldl permuteTurn (0, k)).1.getLsbD (target p) =
        (decide (p / 8 < count) && k.getLsbD p) := by
  induction count with
  | zero => exact ⟨by simp, fun p _ => by simp⟩
  | succ count ih =>
      obtain ⟨left, gathered⟩ := ih (Nat.le_of_succ_le few)
      rw [List.range_succ, List.foldl_append]
      refine ⟨?_, fun p inside => ?_⟩
      · change ((List.range count).foldl permuteTurn (0, k)).2 >>> 8 = _
        rw [left, ← BitVec.shiftRight_add, Nat.mul_succ]
      · change (((List.range count).foldl permuteTurn (0, k)).1 |||
          kpermEntry count (((List.range count).foldl permuteTurn (0, k)).2 &&& 0xff).toNat).getLsbD
            (target p) = _
        have byte : (k >>> (8 * count) &&& 0xff).toNat < 256 := by
          rw [BitVec.toNat_and]
          exact Nat.lt_of_le_of_lt Nat.and_le_right (by decide)
        have low : (0xff : BitVec 64).getLsbD (p % 8) = true :=
          (by decide : ∀ j < 8, (0xff : BitVec 64).getLsbD j = true) _ (Nat.mod_lt p (by decide))
        rw [BitVec.getLsbD_or, gathered p inside, left, kpermEntry_eq few byte,
          BitVec.getLsbD_ofNat, testBit_spread count _ p few inside,
          decide_eq_true (target_lt p inside), Bool.true_and, BitVec.testBit_toNat,
          BitVec.getLsbD_and, BitVec.getLsbD_ushiftRight, low, Bool.and_true]
        rcases Nat.lt_trichotomy (p / 8) count with before | rfl | after
        · simp [before, Nat.lt_succ_of_lt before, Nat.ne_of_lt before]
        · simp [Nat.div_add_mod]
        · simp [Nat.ne_of_gt after, show ¬ p / 8 < count by omega,
            show ¬ p / 8 < count + 1 by omega]

theorem getLsbD_keyPermuteBlock (k : BitVec 64) {p : Nat} (inside : p < 64) :
    (keyPermuteBlock k).getLsbD (target p) = k.getLsbD p := by
  rw [keyPermuteBlock, (permuteTurns k (Nat.le_refl 8)).2 p inside,
    decide_eq_true (Nat.div_lt_of_lt_mul inside), Bool.true_and]

theorem keyPermuteBlock_injective : Function.Injective keyPermuteBlock := by
  intro first second same
  apply BitVec.eq_of_getLsbD_eq
  intro p inside
  rw [← getLsbD_keyPermuteBlock first inside, same, getLsbD_keyPermuteBlock second inside]

theorem loadLe64_injective : Function.Injective loadLe64 := by
  intro first second same
  apply Vector.ext
  intro i inside
  have byte := congrArg (fun word => leByte word i) same
  simp only [loadLe64] at byte
  rw [leByte_leWord _ inside (by decide), leByte_leWord _ inside (by decide)] at byte
  simpa [List.getD_eq_getElem?_getD, inside] using byte

/-- The eight key bytes of a stage. -/
def stageBytes (i : Fin 7) (cw : Block) : Block :=
  .ofFn fun j => (keyScheduleBlock cw).get ⟨8 * i + j, by omega⟩

theorem getElem_stageBytes (i : Fin 7) (cw : Block) {j : Nat} (inside : j < 8) :
    (stageBytes i cw)[j] = leByte (stageWord cw i) j ^^^ i.val.toUInt8 := by
  have stage : (8 * i.val + j) / 8 = i := by omega
  have place : (8 * i.val + j) % 8 = j := by omega
  change (Vector.ofFn _)[j] = _
  rw [Vector.getElem_ofFn]
  change (Vector.ofFn _)[8 * i.val + j] = _
  rw [Vector.getElem_ofFn, stage, place]

instance : Finite Block := by
  apply Finite.of_injective fun (block : Block) (i : Fin 8) => (block[i]).toFin
  intro first second same
  apply Vector.ext
  intro i inside
  exact UInt8.toFin_inj.mp (congrFun same ⟨i, inside⟩)

/-- Every stage of the schedule carries the whole control word: its eight bytes are those of
exactly one. -/
theorem stageBytes_bijective (i : Fin 7) : Function.Bijective (stageBytes i) := by
  apply Function.Injective.bijective_of_finite
  intro first second same
  have words : stageWord first i = stageWord second i := by
    apply BitVec.eq_of_getLsbD_eq
    intro p inside
    have few : p / 8 < 8 := by omega
    have byte : (stageBytes i first)[p / 8] = (stageBytes i second)[p / 8] := by rw [same]
    rw [getElem_stageBytes i _ few, getElem_stageBytes i _ few] at byte
    have plain : leByte (stageWord first i) (p / 8) = leByte (stageWord second i) (p / 8) := by
      rw [← xor_twice (leByte (stageWord first i) (p / 8)), byte, xor_twice]
    have bit := congrArg (fun byte : UInt8 => byte.toBitVec.getLsbD (p % 8)) plain
    simp only [getLsbD_leByte _ _ (Nat.mod_lt p (by decide)), Nat.div_add_mod] at bit
    exact bit
  exact loadLe64_injective (keyPermuteBlock_injective.iterate _ words)

end Dvbcsa
