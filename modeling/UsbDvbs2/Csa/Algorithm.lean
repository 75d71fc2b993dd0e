import UsbDvbs2.Crypto.BackChain
import UsbDvbs2.Crypto.Modes
import UsbDvbs2.Csa.KeySchedule
import UsbDvbs2.Csa.StreamCipher

/-! # CSA on one packet

`dvbcsa_encrypt` and `dvbcsa_decrypt` of `dvbcsa_algo.c`. The whole blocks of the data are
chained towards the front, and everything behind the first block is covered by a key stream
that the first block, enciphered, starts.
-/

namespace Dvbcsa

open Cipher LittleEndian Memory

structure DvbcsaKey where
  cw : Block
  /-- the control word with the nibbles of its bytes exchanged -/
  cws : Block
  sch : Schedule
  deriving DecidableEq

def storeLe64 (word : BitVec 64) : Block := .ofFn fun i => leByte word i

/-- `dvbcsa_key_set` -/
def keySet (cw : Block) : DvbcsaKey where
  cw := storeLe64 (loadLe64 cw)
  cws := storeLe64 (((loadLe64 cw &&& 0xf0f0f0f0f0f0f0f0) >>> 4) |||
    ((loadLe64 cw &&& 0x0f0f0f0f0f0f0f0f) <<< 4))
  sch := keyScheduleBlock cw

def xorBlock (first second : Block) : Block := first.zipWith (· ^^^ ·) second

def decrypt (key : DvbcsaKey) (memory : Space UInt8) (data len : Nat) : Space UInt8 :=
  if len < 8 then memory
  else
    let memory := streamXor key.cws (load 8 memory data) memory (data + 8) (len - 8)
    backDecrypt xorBlock (blockDecrypt key.sch) data memory (len / 8 - 1)

def encrypt (key : DvbcsaKey) (memory : Space UInt8) (data len : Nat) : Space UInt8 :=
  if len < 8 then memory
  else
    let memory := backEncrypt xorBlock (blockEncrypt key.sch) data memory (len / 8 - 1)
    streamXor key.cws (load 8 memory data) memory (data + 8) (len - 8)

/-! ## Back and forth -/

theorem xorBlock_twice (first second : Block) :
    xorBlock (xorBlock first second) second = first := by
  apply Vector.ext
  intro i inside
  rw [xorBlock, Vector.getElem_zipWith, xorBlock, Vector.getElem_zipWith, xor_twice]

theorem blockEncrypt_blockDecrypt (sch : Schedule) (block : Block) :
    blockEncrypt sch (blockDecrypt sch block) = block :=
  encrypt_decrypt (blockDecrypt_blockEncrypt sch) block

theorem streamXor_twice (cw iv : Block) (memory : Space UInt8) (data len : Nat) :
    streamXor cw iv (streamXor cw iv memory data len) data len = memory := by
  funext address
  by_cases outside : address < data ∨ data + len ≤ address
  · rw [streamXor_outside _ _ _ outside, streamXor_outside _ _ _ outside]
  · obtain ⟨i, rfl⟩ := Nat.exists_eq_add_of_le (show data ≤ address by omega)
    rw [streamXor_inside _ _ _ _ (by omega), streamXor_inside _ _ _ _ (by omega), xor_twice]

/-- The key stream leaves the block before it alone. -/
theorem load_streamXor (cw iv : Block) (memory : Space UInt8) (data len : Nat) :
    load 8 (streamXor cw iv memory (data + 8) len) data = load 8 memory data :=
  load_congr fun _ inside => streamXor_outside cw iv memory (by omega)

theorem decrypt_outside (key : DvbcsaKey) (memory : Space UInt8) {data len address : Nat}
    (outside : address < data ∨ data + len ≤ address) :
    decrypt key memory data len address = memory address := by
  unfold decrypt
  split
  · rfl
  · rw [backDecrypt_ahead _ _ (by omega), streamXor_outside _ _ _ (by omega)]

/-- What is made of the data does not depend on where it lies. -/
theorem decrypt_shift (key : DvbcsaKey) {memory other : Space UInt8} {data data' len : Nat}
    (same : ∀ i < len, memory (data + i) = other (data' + i)) {i : Nat} (inside : i < len) :
    decrypt key memory data len (data + i) = decrypt key other data' len (data' + i) := by
  unfold decrypt
  by_cases short : len < 8
  · rw [if_pos short, if_pos short, same i inside]
  · rw [if_neg short, if_neg short]
    have first : load 8 memory data = load 8 other data' := load_congr fun j low =>
      same j (by omega)
    have covered : ∀ j < len,
        streamXor key.cws (load 8 memory data) memory (data + 8) (len - 8) (data + j) =
          streamXor key.cws (load 8 other data') other (data' + 8) (len - 8) (data' + j) := by
      intro j low
      rcases Nat.lt_or_ge j 8 with front | behind
      · rw [streamXor_outside _ _ _ (by omega), streamXor_outside _ _ _ (by omega), same j low]
      · rw [show data + j = data + 8 + (j - 8) by omega,
          show data' + j = data' + 8 + (j - 8) by omega, streamXor_inside _ _ _ _ (by omega),
          streamXor_inside _ _ _ _ (by omega), first, show data + 8 + (j - 8) = data + j by omega,
          show data' + 8 + (j - 8) = data' + j by omega, same j low]
    by_cases blocks : i < 8 * (len / 8 - 1 + 1)
    · exact backDecrypt_shift xorBlock _ (fun j low => covered j (by omega)) blocks
    · rw [backDecrypt_ahead _ _ (by omega), backDecrypt_ahead _ _ (by omega), covered i inside]

theorem encrypt_outside (key : DvbcsaKey) (memory : Space UInt8) {data len address : Nat}
    (outside : address < data ∨ data + len ≤ address) :
    encrypt key memory data len address = memory address := by
  unfold encrypt
  split
  · rfl
  · rw [streamXor_outside _ _ _ (by omega), backEncrypt_outside _ _ (by omega)]

theorem decrypt_encrypt (key : DvbcsaKey) (memory : Space UInt8) (data len : Nat) :
    decrypt key (encrypt key memory data len) data len = memory := by
  unfold decrypt encrypt
  split
  · rfl
  · dsimp only
    rw [load_streamXor, streamXor_twice]
    exact backDecrypt_backEncrypt xorBlock_twice (blockDecrypt_blockEncrypt key.sch) memory _

theorem encrypt_decrypt_data (key : DvbcsaKey) (memory : Space UInt8) (data len : Nat) :
    encrypt key (decrypt key memory data len) data len = memory := by
  unfold decrypt encrypt
  split
  · rfl
  · dsimp only
    rw [backEncrypt_backDecrypt xorBlock_twice (blockEncrypt_blockDecrypt key.sch),
      load_streamXor, streamXor_twice]

/-- Each of the two undoes the other, whatever the length, and neither touches a byte outside the
data. -/
theorem encrypt_decrypt_undone (cw : Block) (memory : Space UInt8) (data len : Nat) :
    decrypt (keySet cw) (encrypt (keySet cw) memory data len) data len = memory ∧
      encrypt (keySet cw) (decrypt (keySet cw) memory data len) data len = memory ∧
      ∀ address, address < data ∨ data + len ≤ address →
        decrypt (keySet cw) memory data len address = memory address ∧
          encrypt (keySet cw) memory data len address = memory address :=
  ⟨decrypt_encrypt _ memory data len, encrypt_decrypt_data _ memory data len,
    fun _ outside => ⟨decrypt_outside _ memory outside, encrypt_outside _ memory outside⟩⟩

end Dvbcsa
