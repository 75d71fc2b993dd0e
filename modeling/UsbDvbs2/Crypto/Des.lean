import UsbDvbs2.Bytes.Entries
import UsbDvbs2.Crypto.Modes

/-! # DES and its chaining

The cipher of newcamd in `dtv_camd_crypt.c`: DES bit by bit, and two-key triple DES with
chaining. Decrypting undoes encrypting whatever the keys are, since DES is a Feistel
network between two permutations that undo each other.
-/

namespace Crypt

open Cipher
open Bytes (forall_byte)

/-! ## Tables -/

/-- The tables count bits from one, as the standard prints them. -/
def desIp : List Nat := [
  58, 50, 42, 34, 26, 18, 10, 2, 60, 52, 44, 36, 28, 20, 12, 4,
  62, 54, 46, 38, 30, 22, 14, 6, 64, 56, 48, 40, 32, 24, 16, 8,
  57, 49, 41, 33, 25, 17, 9, 1, 59, 51, 43, 35, 27, 19, 11, 3,
  61, 53, 45, 37, 29, 21, 13, 5, 63, 55, 47, 39, 31, 23, 15, 7]

def desFp : List Nat := [
  40, 8, 48, 16, 56, 24, 64, 32, 39, 7, 47, 15, 55, 23, 63, 31,
  38, 6, 46, 14, 54, 22, 62, 30, 37, 5, 45, 13, 53, 21, 61, 29,
  36, 4, 44, 12, 52, 20, 60, 28, 35, 3, 43, 11, 51, 19, 59, 27,
  34, 2, 42, 10, 50, 18, 58, 26, 33, 1, 41, 9, 49, 17, 57, 25]

def desE : List Nat := [
  32, 1, 2, 3, 4, 5, 4, 5, 6, 7, 8, 9,
  8, 9, 10, 11, 12, 13, 12, 13, 14, 15, 16, 17,
  16, 17, 18, 19, 20, 21, 20, 21, 22, 23, 24, 25,
  24, 25, 26, 27, 28, 29, 28, 29, 30, 31, 32, 1]

def desP : List Nat := [
  16, 7, 20, 21, 29, 12, 28, 17, 1, 15, 23, 26, 5, 18, 31, 10,
  2, 8, 24, 14, 32, 27, 3, 9, 19, 13, 30, 6, 22, 11, 4, 25]

def desPc1 : List Nat := [
  57, 49, 41, 33, 25, 17, 9, 1, 58, 50, 42, 34, 26, 18,
  10, 2, 59, 51, 43, 35, 27, 19, 11, 3, 60, 52, 44, 36,
  63, 55, 47, 39, 31, 23, 15, 7, 62, 54, 46, 38, 30, 22,
  14, 6, 61, 53, 45, 37, 29, 21, 13, 5, 28, 20, 12, 4]

def desPc2 : List Nat := [
  14, 17, 11, 24, 1, 5, 3, 28, 15, 6, 21, 10,
  23, 19, 12, 4, 26, 8, 16, 7, 27, 20, 13, 2,
  41, 52, 31, 37, 47, 55, 30, 40, 51, 45, 33, 48,
  44, 49, 39, 56, 34, 53, 46, 42, 50, 36, 29, 32]

def desShifts : List Nat := [
  1, 1, 2, 2, 2, 2, 2, 2, 1, 2, 2, 2, 2, 2, 2, 1]

def desSbox : List (List Nat) := [
  [14, 4, 13, 1, 2, 15, 11, 8, 3, 10, 6, 12, 5, 9, 0, 7,
   0, 15, 7, 4, 14, 2, 13, 1, 10, 6, 12, 11, 9, 5, 3, 8,
   4, 1, 14, 8, 13, 6, 2, 11, 15, 12, 9, 7, 3, 10, 5, 0,
   15, 12, 8, 2, 4, 9, 1, 7, 5, 11, 3, 14, 10, 0, 6, 13],
  [15, 1, 8, 14, 6, 11, 3, 4, 9, 7, 2, 13, 12, 0, 5, 10,
   3, 13, 4, 7, 15, 2, 8, 14, 12, 0, 1, 10, 6, 9, 11, 5,
   0, 14, 7, 11, 10, 4, 13, 1, 5, 8, 12, 6, 9, 3, 2, 15,
   13, 8, 10, 1, 3, 15, 4, 2, 11, 6, 7, 12, 0, 5, 14, 9],
  [10, 0, 9, 14, 6, 3, 15, 5, 1, 13, 12, 7, 11, 4, 2, 8,
   13, 7, 0, 9, 3, 4, 6, 10, 2, 8, 5, 14, 12, 11, 15, 1,
   13, 6, 4, 9, 8, 15, 3, 0, 11, 1, 2, 12, 5, 10, 14, 7,
   1, 10, 13, 0, 6, 9, 8, 7, 4, 15, 14, 3, 11, 5, 2, 12],
  [7, 13, 14, 3, 0, 6, 9, 10, 1, 2, 8, 5, 11, 12, 4, 15,
   13, 8, 11, 5, 6, 15, 0, 3, 4, 7, 2, 12, 1, 10, 14, 9,
   10, 6, 9, 0, 12, 11, 7, 13, 15, 1, 3, 14, 5, 2, 8, 4,
   3, 15, 0, 6, 10, 1, 13, 8, 9, 4, 5, 11, 12, 7, 2, 14],
  [2, 12, 4, 1, 7, 10, 11, 6, 8, 5, 3, 15, 13, 0, 14, 9,
   14, 11, 2, 12, 4, 7, 13, 1, 5, 0, 15, 10, 3, 9, 8, 6,
   4, 2, 1, 11, 10, 13, 7, 8, 15, 9, 12, 5, 6, 3, 0, 14,
   11, 8, 12, 7, 1, 14, 2, 13, 6, 15, 0, 9, 10, 4, 5, 3],
  [12, 1, 10, 15, 9, 2, 6, 8, 0, 13, 3, 4, 14, 7, 5, 11,
   10, 15, 4, 2, 7, 12, 9, 5, 6, 1, 13, 14, 0, 11, 3, 8,
   9, 14, 15, 5, 2, 8, 12, 3, 7, 0, 4, 10, 1, 13, 11, 6,
   4, 3, 2, 12, 9, 5, 15, 10, 11, 14, 1, 7, 6, 0, 8, 13],
  [4, 11, 2, 14, 15, 0, 8, 13, 3, 12, 9, 7, 5, 10, 6, 1,
   13, 0, 11, 7, 4, 9, 1, 10, 14, 3, 5, 12, 2, 15, 8, 6,
   1, 4, 11, 13, 12, 3, 7, 14, 10, 15, 6, 8, 0, 5, 9, 2,
   6, 11, 13, 8, 1, 4, 10, 7, 9, 5, 0, 15, 14, 2, 3, 12],
  [13, 2, 8, 4, 6, 15, 11, 1, 10, 9, 3, 14, 5, 0, 12, 7,
   1, 15, 13, 8, 10, 3, 7, 4, 12, 5, 6, 11, 0, 14, 9, 2,
   7, 11, 4, 1, 9, 12, 14, 2, 0, 6, 10, 13, 15, 3, 5, 8,
   2, 1, 14, 7, 4, 10, 8, 13, 15, 12, 9, 0, 3, 5, 6, 11]]

/-! ## Bits -/

variable {n : Nat}

def bitAt (data : Vector UInt8 n) (index : Nat) : Bool :=
  (data.toList.getD (index / 8) 0).toNat.testBit (7 - index % 8)

/-- The bit of a byte that an index stands for. -/
def bitMask (index : Nat) : UInt8 := 0x80 >>> (index % 8).toUInt8

def bitSet (data : Vector UInt8 n) (index : Nat) (value : Bool) : Vector UInt8 n :=
  data.mapIdx fun pos byte =>
    if pos ≠ index / 8 then byte
    else if value then byte ||| bitMask index
    else byte &&& ~~~ bitMask index

/-- Put bits that are read elsewhere one after the other. -/
def bitsFrom (data : Vector UInt8 n) (count : Nat) (value : Nat → Bool) : Vector UInt8 n :=
  (List.range count).foldl (fun out index => bitSet out index (value index)) data

/-- `permute`, with as many bits as the table has entries. -/
def permute (size : Nat) (data : Vector UInt8 n) (table : List Nat) : Vector UInt8 size :=
  bitsFrom (.replicate size 0) table.length fun index => bitAt data (table.getD index 0 - 1)

/-- Rotate a half of 28 bits left, `count` times by one. -/
def rotate28 (half : Vector UInt8 4) : Nat → Vector UInt8 4
  | 0 => half
  | count + 1 =>
      let first := bitAt half 0
      let shifted := (List.range 27).foldl (fun half i => bitSet half i (bitAt half (i + 1))) half
      rotate28 (bitSet shifted 27 first) count

/-! ## DES -/

abbrev Block : Type := Vector UInt8 8
abbrev Half : Type := Vector UInt8 4
abbrev Subkey : Type := Vector UInt8 6

def xorBytes (first second : Vector UInt8 n) : Vector UInt8 n := first.zipWith (· ^^^ ·) second

/-- The subkeys from a round on, the halves being `c` and `d`. -/
def desSubkeys (c d : Half) : List Nat → List Subkey
  | [] => []
  | shift :: later =>
      let c := rotate28 c shift
      let d := rotate28 d shift
      let cd : Vector UInt8 7 := bitsFrom (.replicate 7 0) 56 fun i =>
        if i < 28 then bitAt c i else bitAt d (i - 28)
      permute 6 cd desPc2 :: desSubkeys c d later

def dtvDesSetKey (key : Block) : List Subkey :=
  let permuted : Vector UInt8 7 := permute 7 key desPc1
  desSubkeys (bitsFrom (.replicate 4 0) 28 fun i => bitAt permuted i)
    (bitsFrom (.replicate 4 0) 28 fun i => bitAt permuted (i + 28)) desShifts

/-- What the S-boxes make of 48 bits. -/
def desSubstitute (expanded : Subkey) : Half :=
  bitsFrom (.replicate 4 0) 32 fun index =>
    let base := index / 4 * 6
    let row := (bitAt expanded base).toNat * 2 + (bitAt expanded (base + 5)).toNat
    let column := (bitAt expanded (base + 1)).toNat * 8 + (bitAt expanded (base + 2)).toNat * 4 +
      (bitAt expanded (base + 3)).toNat * 2 + (bitAt expanded (base + 4)).toNat
    let value := (desSbox.getD (index / 4) []).getD (row * 16 + column) 0
    value.testBit (3 - index % 4)

def desF (subkey : Subkey) (right : Half) : Half :=
  permute 4 (desSubstitute (xorBytes (permute 6 right desE) subkey)) desP

def leftHalf (block : Block) : Half := .ofFn fun i => block[i.val]

def rightHalf (block : Block) : Half := .ofFn fun i => block[i.val + 4]

/-- The halves are swapped once more before the final permutation. -/
def desCryptBlock (schedule : List Subkey) (block : Block) (encrypt : Bool) : Block :=
  let permuted : Block := permute 8 block desIp
  let keys := if encrypt then schedule else schedule.reverse
  let halves := feistel xorBytes desF keys (leftHalf permuted, rightHalf permuted)
  let preoutput : Block := halves.2 ++ halves.1
  permute 8 preoutput desFp

def dtvDesEncryptBlock (schedule : List Subkey) (block : Block) : Block :=
  desCryptBlock schedule block true

def dtvDesDecryptBlock (schedule : List Subkey) (block : Block) : Block :=
  desCryptBlock schedule block false

/-! ## Triple DES -/

def ede2Encrypt (key1 key2 : Block) (block : Block) : Block :=
  dtvDesEncryptBlock (dtvDesSetKey key1)
    (dtvDesDecryptBlock (dtvDesSetKey key2) (dtvDesEncryptBlock (dtvDesSetKey key1) block))

def ede2Decrypt (key1 key2 : Block) (block : Block) : Block :=
  dtvDesDecryptBlock (dtvDesSetKey key1)
    (dtvDesEncryptBlock (dtvDesSetKey key2) (dtvDesDecryptBlock (dtvDesSetKey key1) block))

/-- The data in place, with what is left of the chain; bytes behind the last whole block
stay as they are. -/
def dtvDesEde2Cbc (key1 key2 iv : Block) (data : List UInt8) (encrypt : Bool) :
    List UInt8 × Block :=
  let count := data.length / 8
  let done :=
    if encrypt then chainEncrypt xorBytes (ede2Encrypt key1 key2) iv (blocks 8 count data)
    else chainDecrypt xorBytes (ede2Decrypt key1 key2) iv (blocks 8 count data)
  (unblocks done.1 ++ data.drop (8 * count), done.2)

/-! ## Bits that were put are read back -/

theorem testBit_bitMask (index : Nat) (bit : Nat) (inside : bit < 8) :
    (bitMask index).toNat.testBit bit = decide (bit = 7 - index % 8) := by
  have all : ∀ k : Fin 8, ∀ j : Fin 8,
      ((0x80 : UInt8) >>> k.val.toUInt8).toNat.testBit j.val = decide (j.val = 7 - k.val) := by
    decide
  exact all ⟨index % 8, Nat.mod_lt _ (by decide)⟩ ⟨bit, inside⟩

theorem bitAt_of_lt (data : Vector UInt8 n) {index : Nat} (inside : index / 8 < n) :
    bitAt data index = data[index / 8].toNat.testBit (7 - index % 8) := by
  rw [bitAt, List.getD_eq_getElem?_getD, List.getElem?_eq_getElem (by rwa [Vector.length_toList]),
    Option.getD_some, Vector.getElem_toList]

theorem testBit_or_mask (byte : UInt8) (index bit : Nat) (inside : bit < 8) :
    (byte ||| bitMask index).toNat.testBit bit =
      (byte.toNat.testBit bit || decide (bit = 7 - index % 8)) := by
  rw [UInt8.toNat_or, Nat.testBit_or, testBit_bitMask index bit inside]

theorem testBit_and_not_mask (byte : UInt8) (index bit : Nat) (inside : bit < 8) :
    (byte &&& ~~~ bitMask index).toNat.testBit bit =
      (byte.toNat.testBit bit && !decide (bit = 7 - index % 8)) := by
  rw [← testBit_bitMask index bit inside]
  change (byte &&& ~~~ bitMask index).toBitVec.getLsbD bit = _
  rw [UInt8.toBitVec_and, BitVec.getLsbD_and, UInt8.toBitVec_not, BitVec.getLsbD_not,
    decide_eq_true inside, Bool.true_and]
  rfl

/-- A bit that is set is read back, and the others stay. -/
theorem bitAt_bitSet (data : Vector UInt8 n) {index other : Nat} (value : Bool)
    (inside : other < 8 * n) :
    bitAt (bitSet data index value) other = if other = index then value else bitAt data other := by
  have there : other / 8 < n := Nat.div_lt_of_lt_mul inside
  rw [bitAt_of_lt _ there, bitAt_of_lt _ there]
  simp only [bitSet, Vector.getElem_mapIdx]
  by_cases byte : other / 8 = index / 8
  · have bit : (7 - other % 8 = 7 - index % 8) ↔ other = index := by omega
    rw [if_neg (not_not_intro byte)]
    cases value with
    | true =>
        rw [if_pos rfl, testBit_or_mask _ _ _ (by omega)]
        by_cases same : other = index
        · rw [if_pos same, decide_eq_true (bit.2 same), Bool.or_true]
        · rw [if_neg same, decide_eq_false (mt bit.1 same), Bool.or_false]
    | false =>
        rw [if_neg Bool.false_ne_true, testBit_and_not_mask _ _ _ (by omega)]
        by_cases same : other = index
        · rw [if_pos same, decide_eq_true (bit.2 same), Bool.not_true, Bool.and_false]
        · rw [if_neg same, decide_eq_false (mt bit.1 same), Bool.not_false, Bool.and_true]
  · have different : other ≠ index := fun same => byte (congrArg (· / 8) same)
    rw [if_pos byte, if_neg different]

theorem bitAt_bitsFrom (data : Vector UInt8 n) (count : Nat) (value : Nat → Bool) {index : Nat}
    (inside : index < 8 * n) :
    bitAt (bitsFrom data count value) index =
      if index < count then value index else bitAt data index := by
  induction count with
  | zero => rfl
  | succ count ih =>
      have one : bitsFrom data (count + 1) value =
          bitSet (bitsFrom data count value) count (value count) := by
        rw [bitsFrom, List.range_succ, List.foldl_append]
        rfl
      rw [one, bitAt_bitSet _ _ inside, ih]
      by_cases last : index = count
      · rw [if_pos last, last, if_pos (Nat.lt_succ_self _)]
      · have before : index < count + 1 ↔ index < count := by omega
        rw [if_neg last]
        simp only [before]

/-- Data are known by their bits. -/
theorem eq_of_bitAt {first second : Vector UInt8 n}
    (same : ∀ index < 8 * n, bitAt first index = bitAt second index) : first = second := by
  apply Vector.ext
  intro pos inside
  apply UInt8.toNat_inj.mp
  apply Nat.eq_of_testBit_eq
  intro bit
  by_cases within : bit < 8
  · have here := same (8 * pos + (7 - bit)) (by omega)
    have byte : (8 * pos + (7 - bit)) / 8 = pos := by omega
    have place : 7 - (8 * pos + (7 - bit)) % 8 = bit := by omega
    rw [bitAt_of_lt _ (by rwa [byte]), bitAt_of_lt _ (by rwa [byte])] at here
    simpa only [byte, place] using here
  · have high : ∀ byte : UInt8, byte.toNat.testBit bit = false := fun byte =>
      Nat.testBit_lt_two_pow (Nat.lt_of_lt_of_le byte.toNat_lt
        (Nat.pow_le_pow_right (by decide) (Nat.le_of_not_lt within)))
    rw [high, high]

/-! ## The permutations undo each other -/

/-- A permutation after another one reads where the two tables lead. -/
theorem permute_permute {size : Nat} (data : Vector UInt8 n) (first second : List Nat)
    (fits : second.length = 8 * n) (leads : ∀ index < 8 * n,
      second.getD index 0 - 1 < first.length ∧ second.getD index 0 - 1 < 8 * size ∧
        first.getD (second.getD index 0 - 1) 0 - 1 = index) :
    permute n (permute size data first : Vector UInt8 size) second = data := by
  apply eq_of_bitAt
  intro index inside
  obtain ⟨listed, room, back⟩ := leads index inside
  rw [permute, bitAt_bitsFrom _ _ _ inside, if_pos (fits ▸ inside), permute,
    bitAt_bitsFrom _ _ _ room, if_pos listed, back]

theorem permute_fp_ip (block : Block) : permute 8 (permute 8 block desFp : Block) desIp = block :=
  permute_permute block desFp desIp rfl (by decide +kernel)

theorem permute_ip_fp (block : Block) : permute 8 (permute 8 block desIp : Block) desFp = block :=
  permute_permute block desIp desFp rfl (by decide +kernel)

/-! ## Decrypting undoes encrypting -/

theorem xorBytes_cancel (first second : Vector UInt8 n) :
    xorBytes (xorBytes first second) second = first := by
  apply Vector.ext
  intro pos inside
  simp only [xorBytes, Vector.getElem_zipWith, UInt8.xor_assoc, UInt8.xor_self, UInt8.xor_zero]

theorem leftHalf_append (left right : Half) : leftHalf (left ++ right : Vector UInt8 8) = left := by
  apply Vector.ext
  intro pos inside
  simp only [leftHalf, Vector.getElem_ofFn]
  exact Vector.getElem_append_left inside

theorem rightHalf_append (left right : Half) :
    rightHalf (left ++ right : Vector UInt8 8) = right := by
  apply Vector.ext
  intro pos inside
  simp only [rightHalf, Vector.getElem_ofFn]
  exact (Vector.getElem_append_right' left inside).symm

theorem append_halves (block : Block) :
    (leftHalf block ++ rightHalf block : Vector UInt8 8) = block := by
  apply Vector.ext
  intro pos inside
  by_cases first : pos < 4
  · rw [Vector.getElem_append_left first]
    simp only [leftHalf, Vector.getElem_ofFn]
  · rw [Vector.getElem_append_right inside (Nat.le_of_not_lt first)]
    simp only [rightHalf, Vector.getElem_ofFn, Nat.sub_add_cancel (Nat.le_of_not_lt first)]

/-- DES is undone by DES with the subkeys in the other order. -/
theorem desCryptBlock_inverse (schedule : List Subkey) (block : Block) (encrypt : Bool) :
    desCryptBlock schedule (desCryptBlock schedule block encrypt) (!encrypt) = block := by
  have undone := feistel_reverse desF xorBytes_cancel
    (if encrypt then schedule else schedule.reverse)
    (leftHalf (permute 8 block desIp : Block), rightHalf (permute 8 block desIp : Block))
  have reversed : (if (!encrypt) = true then schedule else schedule.reverse) =
      (if encrypt = true then schedule else schedule.reverse).reverse := by
    cases encrypt with
    | true => rfl
    | false => exact schedule.reverse_reverse.symm
  unfold desCryptBlock
  simp only [permute_fp_ip, leftHalf_append, rightHalf_append, reversed]
  change feistel _ desF _ (_, _) = (_, _) at undone
  rw [undone]
  simp only [append_halves, permute_ip_fp]

theorem desDecrypt_desEncrypt (schedule : List Subkey) (block : Block) :
    dtvDesDecryptBlock schedule (dtvDesEncryptBlock schedule block) = block :=
  desCryptBlock_inverse schedule block true

theorem desEncrypt_desDecrypt (schedule : List Subkey) (block : Block) :
    dtvDesEncryptBlock schedule (dtvDesDecryptBlock schedule block) = block :=
  desCryptBlock_inverse schedule block false

theorem ede2Decrypt_ede2Encrypt (key1 key2 block : Block) :
    ede2Decrypt key1 key2 (ede2Encrypt key1 key2 block) = block := by
  rw [ede2Decrypt, ede2Encrypt, desDecrypt_desEncrypt, desEncrypt_desDecrypt,
    desDecrypt_desEncrypt]

theorem length_dtvDesEde2Cbc (key1 key2 iv : Block) (data : List UInt8) :
    (dtvDesEde2Cbc key1 key2 iv data true).1.length = data.length := by
  have whole := Nat.mul_div_le data.length 8
  simp only [dtvDesEde2Cbc, if_true, List.length_append, length_unblocks, length_chainEncrypt,
    length_blocks, List.length_drop]
  omega

/-- Decrypting whole blocks gives back what was encrypted. -/
theorem dtvDesEde2Cbc_inverse (key1 key2 iv : Block) {data : List UInt8}
    (whole : data.length % 8 = 0) :
    (dtvDesEde2Cbc key1 key2 iv (dtvDesEde2Cbc key1 key2 iv data true).1 false).1 = data := by
  have all : 8 * (data.length / 8) = data.length :=
    Nat.mul_div_cancel' (Nat.dvd_of_mod_eq_zero whole)
  have same := length_dtvDesEde2Cbc key1 key2 iv data
  have cut := blocks_unblocks (chainEncrypt xorBytes (ede2Encrypt key1 key2) iv
    (blocks 8 (data.length / 8) data)).1 (data.drop (8 * (data.length / 8)))
  rw [length_chainEncrypt, length_blocks] at cut
  have decrypts : ∀ cipher : List UInt8, (dtvDesEde2Cbc key1 key2 iv cipher false).1 =
      unblocks (chainDecrypt xorBytes (ede2Decrypt key1 key2) iv
        (blocks 8 (cipher.length / 8) cipher)).1 ++ cipher.drop (8 * (cipher.length / 8)) :=
    fun _ => rfl
  rw [decrypts, same, all, List.drop_eq_nil_of_le (Nat.le_of_eq same), List.append_nil]
  rw [dtvDesEde2Cbc, if_pos rfl, cut,
    chainDecrypt_chainEncrypt xorBytes_cancel (ede2Decrypt_ede2Encrypt key1 key2),
    unblocks_blocks (Nat.le_of_eq all), all, List.take_length]

end Crypt
