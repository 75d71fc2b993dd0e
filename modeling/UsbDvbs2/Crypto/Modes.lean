import Mathlib.Data.Fintype.Card
import Mathlib.Data.List.Basic
import UsbDvbs2.Bytes.Memory

/-! # Building ciphers

Two constructions over an arbitrary type with an operation that cancels: a Feistel network
is undone by running it again with the keys reversed and the halves exchanged, and chaining
blocks by their predecessors is undone with the inverse of the block cipher. The last part
cuts data into blocks.
-/

namespace Cipher

/-- On finitely many blocks, what undoes a cipher is undone by it. -/
theorem encrypt_decrypt {β : Type} [Finite β] {encrypt decrypt : β → β}
    (inverse : ∀ block, decrypt (encrypt block) = block) (block : β) :
    encrypt (decrypt block) = block := by
  have injective : Function.Injective encrypt := Function.LeftInverse.injective inverse
  apply Function.LeftInverse.rightInverse_of_surjective inverse
  exact Finite.surjective_of_injective injective

/-! ## Feistel networks -/

section Feistel

variable {α κ : Type} (mix : α → α → α) (f : κ → α → α)

/-- The halves change places, and the one that was mixed is the next to be used. -/
def round (halves : α × α) (key : κ) : α × α := (halves.2, mix halves.1 (f key halves.2))

def feistel (keys : List κ) (halves : α × α) : α × α := keys.foldl (round mix f) halves

variable {mix} (cancels : ∀ a b, mix (mix a b) b = a)

include cancels

theorem round_swap (halves : α × α) (key : κ) :
    round mix f (round mix f halves key).swap key = halves.swap := by
  obtain ⟨left, right⟩ := halves
  simp only [round, Prod.swap_prod_mk, cancels]

/-- A network is undone by the same network with its keys reversed. -/
theorem feistel_reverse (keys : List κ) (halves : α × α) :
    feistel mix f keys.reverse (feistel mix f keys halves).swap = halves.swap := by
  induction keys generalizing halves with
  | nil => rfl
  | cons key keys ih =>
      simp only [feistel, List.reverse_cons, List.foldl_append, List.foldl_cons,
        List.foldl_nil] at ih ⊢
      rw [ih]
      exact round_swap f cancels halves key

end Feistel

/-! ## Chaining -/

section Chaining

variable {β : Type} (mix : β → β → β) (encrypt decrypt : β → β)

/-- Every block is mixed with the cipher block before it; the last one is handed on. -/
def chainEncrypt : β → List β → List β × β
  | chain, [] => ([], chain)
  | chain, block :: later =>
      let cipher := encrypt (mix block chain)
      let rest := chainEncrypt cipher later
      (cipher :: rest.1, rest.2)

def chainDecrypt : β → List β → List β × β
  | chain, [] => ([], chain)
  | chain, cipher :: later =>
      let rest := chainDecrypt cipher later
      (mix (decrypt cipher) chain :: rest.1, rest.2)

variable {mix encrypt decrypt}

theorem length_chainEncrypt (chain : β) (blocks : List β) :
    (chainEncrypt mix encrypt chain blocks).1.length = blocks.length := by
  induction blocks generalizing chain with
  | nil => rfl
  | cons block later ih => exact congrArg (· + 1) (ih _)

/-- A turn of the loop that encrypts, and one of the loop that decrypts. -/
def encryptTurn (mix : β → β → β) (encrypt : β → β) (chain block : β) : β × β :=
  (encrypt (mix block chain), encrypt (mix block chain))

def decryptTurn (mix : β → β → β) (decrypt : β → β) (chain cipher : β) : β × β :=
  (mix (decrypt cipher) chain, cipher)

theorem carry_encryptTurn (chain : β) (blocks : List β) :
    Memory.carry (encryptTurn mix encrypt) chain blocks =
      chainEncrypt mix encrypt chain blocks := by
  induction blocks generalizing chain with
  | nil => rfl
  | cons block later ih => rw [Memory.carry, ih]; rfl

theorem carry_decryptTurn (chain : β) (blocks : List β) :
    Memory.carry (decryptTurn mix decrypt) chain blocks =
      chainDecrypt mix decrypt chain blocks := by
  induction blocks generalizing chain with
  | nil => rfl
  | cons cipher later ih => rw [Memory.carry, ih]; rfl

/-- Decrypting hands on the same block as encrypting did. -/
theorem chainDecrypt_chain (chain : β) (blocks : List β) :
    (chainDecrypt mix decrypt chain (chainEncrypt mix encrypt chain blocks).1).2 =
      (chainEncrypt mix encrypt chain blocks).2 := by
  induction blocks generalizing chain with
  | nil => rfl
  | cons block later ih => exact ih _

theorem chainDecrypt_chainEncrypt (cancels : ∀ a b, mix (mix a b) b = a)
    (inverse : ∀ block, decrypt (encrypt block) = block) (chain : β) (blocks : List β) :
    (chainDecrypt mix decrypt chain (chainEncrypt mix encrypt chain blocks).1).1 = blocks := by
  induction blocks generalizing chain with
  | nil => rfl
  | cons block later ih =>
      simp only [chainEncrypt, chainDecrypt, inverse, cancels]
      rw [ih]

end Chaining

/-! ## Blocks -/

section Blocks

variable {α : Type} [Inhabited α] {n : Nat}

/-- The block at the head of the data. -/
def headBlock (n : Nat) (data : List α) : Vector α n := .ofFn fun i => data.getD i default

/-- The first blocks of the data. -/
def blocks (n : Nat) : Nat → List α → List (Vector α n)
  | 0, _ => []
  | count + 1, data => headBlock n data :: blocks n count (data.drop n)

def unblocks (all : List (Vector α n)) : List α := all.flatMap Vector.toList

omit [Inhabited α] in
@[simp] theorem unblocks_cons (block : Vector α n) (all : List (Vector α n)) :
    unblocks (block :: all) = block.toList ++ unblocks all := rfl

omit [Inhabited α] in
theorem length_unblocks (all : List (Vector α n)) : (unblocks all).length = n * all.length := by
  induction all with
  | nil => rfl
  | cons block all ih =>
      rw [unblocks_cons, List.length_append, ih, Vector.length_toList, List.length_cons,
        Nat.mul_succ, Nat.add_comm]

theorem length_blocks (count : Nat) (data : List α) : (blocks n count data).length = count := by
  induction count generalizing data with
  | zero => rfl
  | succ count ih => exact congrArg (· + 1) (ih _)

theorem toList_headBlock {data : List α} (enough : n ≤ data.length) :
    (headBlock n data).toList = data.take n := by
  apply List.ext_getElem
  · rw [Vector.length_toList, List.length_take, Nat.min_eq_left enough]
  · intro i inside _
    rw [Vector.length_toList] at inside
    have there : i < data.length := Nat.lt_of_lt_of_le inside enough
    simp only [headBlock, Vector.getElem_toList, Vector.getElem_ofFn, List.getElem_take,
      List.getD_eq_getElem?_getD, List.getElem?_eq_getElem there, Option.getD_some]

theorem headBlock_append (block : Vector α n) (rest : List α) :
    headBlock n (block.toList ++ rest) = block := by
  apply Vector.toList_inj.mp
  have enough : n ≤ (block.toList ++ rest).length := by
    rw [List.length_append, Vector.length_toList]
    exact Nat.le_add_right _ _
  rw [toList_headBlock enough]
  exact List.take_left' block.length_toList

/-- Cutting what was joined gives the blocks back. -/
theorem blocks_unblocks (all : List (Vector α n)) (rest : List α) :
    blocks n all.length (unblocks all ++ rest) = all := by
  induction all with
  | nil => rfl
  | cons block all ih =>
      rw [unblocks_cons, List.length_cons, blocks, List.append_assoc, headBlock_append,
        List.drop_left' block.length_toList, ih]

/-- Joining what was cut gives the data back, up to the last whole block. -/
theorem unblocks_blocks {count : Nat} {data : List α} (enough : n * count ≤ data.length) :
    unblocks (blocks n count data) = data.take (n * count) := by
  induction count generalizing data with
  | zero => rw [Nat.mul_zero, List.take_zero]; rfl
  | succ count ih =>
      rw [Nat.mul_succ] at enough
      have first : n ≤ data.length := Nat.le_trans (Nat.le_add_left _ _) enough
      rw [blocks, unblocks_cons, toList_headBlock first, ih, Nat.mul_succ, Nat.add_comm,
        List.take_add]
      rw [List.length_drop]
      exact Nat.le_sub_of_add_le enough

end Blocks

end Cipher
