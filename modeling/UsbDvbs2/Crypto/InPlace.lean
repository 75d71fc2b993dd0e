import Mathlib.Algebra.GroupWithZero.Nat
import Mathlib.Data.Fintype.Pi
import UsbDvbs2.Crypto.Aes

/-! # The ciphers in memory

The functions of `dtv_camd_crypt.c` are given where a block is read and where the result is
put, and a caller may name one place for both.
-/

namespace Crypt

open Cipher Memory

/-! ## AES-128 -/

/-- `dtv_aes128_encrypt_block`, with the addresses of `in` and `out`: the state is copied
from the one before the first round and to the other behind the last. -/
def dtvAes128EncryptAt (schedule : List UInt32) (memory : Space UInt8) (source target : Nat) :
    Space UInt8 :=
  store memory target (dtvAes128EncryptBlock schedule (load 16 memory source))

def dtvAes128DecryptAt (schedule : List UInt32) (memory : Space UInt8) (source target : Nat) :
    Space UInt8 :=
  store memory target (dtvAes128DecryptBlock schedule (load 16 memory source))

instance : Finite AesBlock := by
  apply Finite.of_injective fun (block : AesBlock) (i : Fin 16) => (block[i]).toFin
  intro first second same
  apply Vector.ext
  intro i inside
  exact UInt8.toFin_inj.mp (congrFun same ⟨i, inside⟩)

theorem aesEncrypt_aesDecrypt (schedule : List UInt32) (block : AesBlock) :
    dtvAes128EncryptBlock schedule (dtvAes128DecryptBlock schedule block) = block :=
  encrypt_decrypt (dtvAes128_inverse schedule) block

/-- The two directions of AES undo each other wherever the block is read and put: the block
comes back, and used in place they leave memory as it was. -/
theorem aes_undone (key : AesBlock) (memory : Space UInt8) (source middle target : Nat) :
    load 16 (dtvAes128DecryptAt (dtvAes128SetKey key)
        (dtvAes128EncryptAt (dtvAes128SetKey key) memory source middle) middle target) target =
        load 16 memory source ∧
      load 16 (dtvAes128EncryptAt (dtvAes128SetKey key)
        (dtvAes128DecryptAt (dtvAes128SetKey key) memory source middle) middle target) target =
        load 16 memory source ∧
      dtvAes128DecryptAt (dtvAes128SetKey key)
        (dtvAes128EncryptAt (dtvAes128SetKey key) memory source source) source source = memory ∧
      dtvAes128EncryptAt (dtvAes128SetKey key)
        (dtvAes128DecryptAt (dtvAes128SetKey key) memory source source) source source = memory := by
  simp only [dtvAes128EncryptAt, dtvAes128DecryptAt, load_store, store_store, dtvAes128_inverse,
    aesEncrypt_aesDecrypt, store_load, and_self]

/-! ## Triple DES with chaining -/

/-- A turn of the loop of `dtv_des_ede2_cbc`: what is put out, and the next chaining value. -/
def ede2Turn (key1 key2 : Block) (encrypt : Bool) : Block → Block → Block × Block :=
  if encrypt then encryptTurn xorBytes (ede2Encrypt key1 key2)
  else decryptTurn xorBytes (ede2Decrypt key1 key2)

/-- `dtv_des_ede2_cbc`, with the addresses of `in` and `out`: memory and the vector it
leaves. A block is read as a whole before it is written. -/
def dtvDesEde2CbcAt (key1 key2 iv : Block) (memory : Space UInt8) (source target size : Nat)
    (encrypt : Bool) : Space UInt8 × Block :=
  sweep (ede2Turn key1 key2 encrypt) source target (size / 8) (memory, iv)

/-- The calls that process pieces of the given sizes one after the other, each with the
vector the one before it left. -/
def dtvDesEde2CbcCalls (key1 key2 : Block) (encrypt : Bool) :
    List Nat → Nat → Nat → Space UInt8 × Block → Space UInt8 × Block
  | [], _, _, state => state
  | size :: later, source, target, state =>
      dtvDesEde2CbcCalls key1 key2 encrypt later (source + size) (target + size)
        (dtvDesEde2CbcAt key1 key2 state.2 state.1 source target size encrypt)

/-- Nothing is written over what is still to be read: `out` is `in`, lies apart from it, or
overlaps it from below. -/
def Clear (source target size : Nat) : Prop := target ≤ source ∨ source + size ≤ target

instance (source target size : Nat) : Decidable (Clear source target size) :=
  inferInstanceAs (Decidable (_ ∨ _))

theorem clear_blocks {source target size : Nat} (clear : Clear source target size) :
    target ≤ source ∨ source + 8 * (size / 8) ≤ target := by
  unfold Clear at clear
  have whole := Nat.mul_div_le size 8
  omega

theorem unblocks_blocksAt {n : Nat} (memory : Space UInt8) (start count : Nat) :
    unblocks (blocksAt n memory start count) =
      (List.range (n * count)).map fun i => memory (start + i) := by
  induction count generalizing start with
  | zero => rw [Nat.mul_zero]; rfl
  | succ count ih =>
      have first : (load n memory start).toList =
          (List.range n).map fun i => memory (start + i) := by
        apply List.ext_getElem
        · rw [Vector.length_toList, List.length_map, List.length_range]
        · intro i inside _
          rw [Vector.getElem_toList, getElem_load, List.getElem_map, List.getElem_range]
      rw [blocksAt, unblocks_cons, ih, first, Nat.mul_succ, Nat.add_comm (n * count) n,
        List.range_add,
        List.map_append, List.map_map]
      simp only [Function.comp_def, Nat.add_assoc]

theorem blocks_eq_blocksAt (n count : Nat) (data : List UInt8) :
    blocks n count data = blocksAt n (fun i => data.getD i 0) 0 count := by
  induction count generalizing data with
  | zero => rfl
  | succ count ih =>
      have first : headBlock n data = load n (fun i => data.getD i 0) 0 := by
        apply Vector.ext
        intro i inside
        rw [getElem_load, headBlock, Vector.getElem_ofFn, Nat.zero_add]
        rfl
      have later : blocksAt n (fun i => (data.drop n).getD i 0) 0 count =
          blocksAt n (fun i => data.getD i 0) (0 + n) count :=
        blocksAt_congr fun i _ => by
          simp only [List.getD_eq_getElem?_getD, List.getElem?_drop, Nat.zero_add]
      rw [blocks, blocksAt, first, ih, later]

section Cbc

variable (key1 key2 iv : Block) (memory : Space UInt8)

/-- The blocks of an encrypted message. -/
theorem encryptedAt {source target size : Nat} (clear : Clear source target size) :
    blocksAt 8 (dtvDesEde2CbcAt key1 key2 iv memory source target size true).1 target (size / 8) =
        (chainEncrypt xorBytes (ede2Encrypt key1 key2) iv
          (blocksAt 8 memory source (size / 8))).1 ∧
      (dtvDesEde2CbcAt key1 key2 iv memory source target size true).2 =
        (chainEncrypt xorBytes (ede2Encrypt key1 key2) iv
          (blocksAt 8 memory source (size / 8))).2 := by
  rw [← carry_encryptTurn]
  exact sweep_blocks _ (memory, iv) (clear_blocks clear)

theorem decryptedAt {source target size : Nat} (clear : Clear source target size) :
    blocksAt 8 (dtvDesEde2CbcAt key1 key2 iv memory source target size false).1 target (size / 8) =
        (chainDecrypt xorBytes (ede2Decrypt key1 key2) iv
          (blocksAt 8 memory source (size / 8))).1 ∧
      (dtvDesEde2CbcAt key1 key2 iv memory source target size false).2 =
        (chainDecrypt xorBytes (ede2Decrypt key1 key2) iv
          (blocksAt 8 memory source (size / 8))).2 := by
  rw [← carry_decryptTurn]
  exact sweep_blocks _ (memory, iv) (clear_blocks clear)

/-- Decrypting behind an encryption gives the blocks and the chaining value. -/
theorem decryptedAt_encryptedAt {source middle target size : Nat}
    (first : Clear source middle size) (second : Clear middle target size) :
    let encrypted := dtvDesEde2CbcAt key1 key2 iv memory source middle size true
    let decrypted := dtvDesEde2CbcAt key1 key2 iv encrypted.1 middle target size false
    blocksAt 8 decrypted.1 target (size / 8) = blocksAt 8 memory source (size / 8) ∧
      decrypted.2 = encrypted.2 := by
  obtain ⟨cipher, chain⟩ := encryptedAt key1 key2 iv memory first
  obtain ⟨plain, left⟩ := decryptedAt key1 key2 iv
    (dtvDesEde2CbcAt key1 key2 iv memory source middle size true).1 second
  constructor
  · rw [plain, cipher]
    exact chainDecrypt_chainEncrypt xorBytes_cancel (ede2Decrypt_ede2Encrypt key1 key2) _ _
  · rw [left, cipher, chain]
    exact chainDecrypt_chain _ _

/-- Bytes before the target and past its last whole block stay as they are. -/
theorem ede2Cbc_outside (source target size : Nat) (encrypt : Bool) {address : Nat}
    (outside : address < target ∨ target + 8 * (size / 8) ≤ address) :
    (dtvDesEde2CbcAt key1 key2 iv memory source target size encrypt).1 address =
      memory address :=
  sweep_outside _ source target (size / 8) (memory, iv) outside

/-- Calls on whole blocks, and a last one on anything, are one call. -/
theorem dtvDesEde2CbcCalls_one (encrypt : Bool) {sizes : List Nat}
    (whole : ∀ size ∈ sizes, size % 8 = 0) (last source target : Nat) :
    dtvDesEde2CbcCalls key1 key2 encrypt (sizes ++ [last]) source target (memory, iv) =
      dtvDesEde2CbcAt key1 key2 iv memory source target (sizes.sum + last) encrypt := by
  induction sizes generalizing source target memory iv with
  | nil =>
      rw [List.sum_nil, Nat.zero_add]
      rfl
  | cons size sizes ih =>
      have blocks : 8 * (size / 8) = size :=
        Nat.mul_div_cancel' (Nat.dvd_of_mod_eq_zero (whole size List.mem_cons_self))
      have count : (size + (sizes.sum + last)) / 8 = size / 8 + (sizes.sum + last) / 8 := by omega
      have joined := sweep_add (ede2Turn key1 key2 encrypt) source target (size / 8)
        ((sizes.sum + last) / 8) (memory, iv)
      rw [blocks] at joined
      rw [List.cons_append, dtvDesEde2CbcCalls,
        ih _ _ fun size there => whole size (List.mem_cons_of_mem _ there), List.sum_cons,
        Nat.add_assoc]
      unfold dtvDesEde2CbcAt
      rw [count]
      exact joined.symm

/-- The message as a list, in place: what the camd clients do to their buffers. -/
theorem dtvDesEde2Cbc_inPlace (data : List UInt8) (encrypt : Bool) :
    let result := dtvDesEde2CbcAt key1 key2 iv (fun i => data.getD i 0) 0 0 data.length encrypt
    dtvDesEde2Cbc key1 key2 iv data encrypt =
      ((List.range data.length).map result.1, result.2) := by
  intro result
  have clear : Clear 0 0 data.length := .inl (Nat.le_refl 0)
  have read := blocks_eq_blocksAt 8 (data.length / 8) data
  have whole := Nat.mul_div_le data.length 8
  have behind : data.drop (8 * (data.length / 8)) =
      ((List.range data.length).map result.1).drop (8 * (data.length / 8)) := by
    apply List.ext_getElem
    · rw [List.length_drop, List.length_drop, List.length_map, List.length_range]
    · intro i inside _
      rw [List.length_drop] at inside
      have there : 8 * (data.length / 8) + i < data.length := by omega
      simp only [List.getElem_drop, List.getElem_map, List.getElem_range, result]
      rw [ede2Cbc_outside _ _ _ _ _ _ _ _ (.inr (by omega)), List.getD_eq_getElem?_getD,
        List.getElem?_eq_getElem there, Option.getD_some]
  have done : unblocks (blocksAt 8 result.1 0 (data.length / 8)) =
      ((List.range data.length).map result.1).take (8 * (data.length / 8)) := by
    rw [unblocks_blocksAt, ← List.map_take, List.take_range, Nat.min_eq_left whole]
    simp only [Nat.zero_add]
  cases encrypt with
  | true =>
      obtain ⟨cipher, chain⟩ := encryptedAt key1 key2 iv (fun i => data.getD i 0) clear
      rw [dtvDesEde2Cbc, if_pos rfl, read, ← cipher, ← chain, behind]
      exact Prod.ext (by rw [done, List.take_append_drop]) rfl
  | false =>
      obtain ⟨plain, chain⟩ := decryptedAt key1 key2 iv (fun i => data.getD i 0) clear
      rw [dtvDesEde2Cbc, if_neg Bool.false_ne_true, read, ← plain, ← chain, behind]
      exact Prod.ext (by rw [done, List.take_append_drop]) rfl

/-- Two-key triple DES inverts itself and chains. -/
theorem ede2Cbc_inverts_and_chains :
    (∀ source middle target size, size % 8 = 0 → Clear source middle size →
      Clear middle target size →
      let encrypted := dtvDesEde2CbcAt key1 key2 iv memory source middle size true
      let decrypted := dtvDesEde2CbcAt key1 key2 iv encrypted.1 middle target size false
      (∀ i < size, decrypted.1 (target + i) = memory (source + i)) ∧
        decrypted.2 = encrypted.2) ∧
    (∀ encrypt sizes last source target, (∀ size ∈ sizes, size % 8 = 0) →
      dtvDesEde2CbcCalls key1 key2 encrypt (sizes ++ [last]) source target (memory, iv) =
        dtvDesEde2CbcAt key1 key2 iv memory source target (sizes.sum + last) encrypt) ∧
    (∀ encrypt source target size address,
      (address < target ∨ target + 8 * (size / 8) ≤ address) →
      (dtvDesEde2CbcAt key1 key2 iv memory source target size encrypt).1 address =
        memory address) ∧
    ∀ key block, dtvDesDecryptBlock (dtvDesSetKey key)
      (dtvDesEncryptBlock (dtvDesSetKey key) block) = block := by
  refine ⟨?_, ?_, ?_, fun key block => desDecrypt_desEncrypt (dtvDesSetKey key) block⟩
  · intro source middle target size whole first second
    obtain ⟨plain, chain⟩ := decryptedAt_encryptedAt key1 key2 iv memory first second
    refine ⟨fun i inside => eq_of_blocksAt plain ?_, chain⟩
    rwa [Nat.mul_div_cancel' (Nat.dvd_of_mod_eq_zero whole)]
  · intro encrypt sizes last source target whole
    exact dtvDesEde2CbcCalls_one key1 key2 iv memory encrypt whole last source target
  · intro encrypt source target size address outside
    exact ede2Cbc_outside key1 key2 iv memory source target size encrypt outside

end Cbc

/-- Sixteen bytes at address 3, decrypted in place and again put behind themselves. -/
theorem ede2Cbc_inverts_and_chains_sixteen :
    (let key : Block := .replicate 8 1
     let memory : Space UInt8 := fun address => address.toUInt8
     let encrypted := dtvDesEde2CbcAt key key key memory 3 3 16 true
     let decrypted := dtvDesEde2CbcAt key key key encrypted.1 3 19 16 false
     (∀ i < 16, decrypted.1 (19 + i) = memory (3 + i)) ∧ decrypted.2 = encrypted.2 ∧
       dtvDesEde2CbcCalls key key true ([8] ++ [9]) 3 3 (memory, key) =
         dtvDesEde2CbcAt key key key memory 3 3 17 true ∧
       (dtvDesEde2CbcAt key key key memory 3 3 17 true).1 19 = 19) := by
  intro key memory
  obtain ⟨undone, calls, outside, -⟩ := ede2Cbc_inverts_and_chains key key key memory
  obtain ⟨message, chain⟩ := undone 3 3 19 16 (by decide) (by decide) (by decide)
  exact ⟨message, chain, calls true [8] 9 3 3 (by decide), outside true 3 3 17 19 (by decide)⟩

end Crypt
