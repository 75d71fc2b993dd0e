import UsbDvbs2.Bytes.Memory

/-! # Chaining towards the front, in place

Blocks that lie one behind the other, each mixed with the cipher block behind it before it is
enciphered. Both loops work on the memory the blocks are in; what one does the other undoes.
-/

namespace Cipher

open Memory

section Loops

variable {α : Type} {n : Nat}

/-- A block is replaced by its image. -/
def inPlace (f : Vector α n → Vector α n) (memory : Space α) (place : Nat) : Space α :=
  store memory place (f (load n memory place))

/-- A block is mixed with the one behind it. -/
def mixNext (mix : Vector α n → Vector α n → Vector α n) (memory : Space α) (place : Nat) :
    Space α :=
  store memory place (mix (load n memory place) (load n memory (place + n)))

variable (mix : Vector α n → Vector α n → Vector α n) (encrypt decrypt : Vector α n → Vector α n)
  (start : Nat)

/-- The first block and `later` more, from the first on. -/
def backDecrypt (memory : Space α) : Nat → Space α
  | 0 => inPlace decrypt memory start
  | later + 1 =>
      inPlace decrypt (mixNext mix (backDecrypt memory later) (start + n * later))
        (start + n * (later + 1))

/-- The blocks in front of a cipher block, down to the first. -/
def encryptDown : Nat → Space α → Space α
  | 0, memory => memory
  | before + 1, memory =>
      encryptDown before
        (inPlace encrypt (mixNext mix memory (start + n * before)) (start + n * before))

/-- The first block and `later` more, from the last on. -/
def backEncrypt (memory : Space α) (later : Nat) : Space α :=
  encryptDown mix encrypt start later (inPlace encrypt memory (start + n * later))

end Loops

variable {α : Type} {n : Nat} {mix : Vector α n → Vector α n → Vector α n}
  {encrypt decrypt : Vector α n → Vector α n} {start : Nat} {memory : Space α}

/-! ## What a step touches -/

theorem load_inPlace (f : Vector α n → Vector α n) (memory : Space α) (place : Nat) :
    load n (inPlace f memory place) place = f (load n memory place) := load_store ..

theorem load_inPlace_apart (f : Vector α n → Vector α n) (memory : Space α) {place other : Nat}
    (apart : place + n ≤ other ∨ other + n ≤ place) :
    load n (inPlace f memory place) other = load n memory other :=
  load_store_apart memory _ apart

theorem load_mixNext (mix : Vector α n → Vector α n → Vector α n) (memory : Space α)
    (place : Nat) :
    load n (mixNext mix memory place) place =
      mix (load n memory place) (load n memory (place + n)) := load_store ..

theorem load_mixNext_apart (mix : Vector α n → Vector α n → Vector α n) (memory : Space α)
    {place other : Nat} (apart : place + n ≤ other ∨ other + n ≤ place) :
    load n (mixNext mix memory place) other = load n memory other :=
  load_store_apart memory _ apart

/-- Blocks of the same number of cells do not overlap. -/
theorem blocks_apart {i j : Nat} (differs : i ≠ j) :
    start + n * i + n ≤ start + n * j ∨ start + n * j + n ≤ start + n * i := by
  rcases Nat.lt_or_gt_of_ne differs with before | after
  · have := Nat.mul_le_mul_left n before
    rw [Nat.succ_eq_add_one, Nat.mul_add, Nat.mul_one] at this
    omega
  · have := Nat.mul_le_mul_left n after
    rw [Nat.succ_eq_add_one, Nat.mul_add, Nat.mul_one] at this
    omega

theorem next_block (i : Nat) : start + n * i + n = start + n * (i + 1) := by
  rw [Nat.mul_succ, Nat.add_assoc]

/-! ## Decrypting -/

theorem backDecrypt_ahead (mix : Vector α n → Vector α n → Vector α n)
    (decrypt : Vector α n → Vector α n) {later address : Nat}
    (outside : address < start ∨ start + n * (later + 1) ≤ address) :
    backDecrypt mix decrypt start memory later address = memory address := by
  induction later with
  | zero => exact store_outside _ _ (by omega)
  | succ later ih =>
      rw [Nat.mul_succ n (later + 1)] at outside
      rw [backDecrypt, inPlace, store_outside _ _ (by omega), mixNext,
        store_outside _ _ (by rw [next_block]; omega), ih (by omega)]

theorem load_backDecrypt_last (mix : Vector α n → Vector α n → Vector α n)
    (decrypt : Vector α n → Vector α n) (later : Nat) :
    load n (backDecrypt mix decrypt start memory later) (start + n * later) =
      decrypt (load n memory (start + n * later)) := by
  cases later with
  | zero => exact load_inPlace ..
  | succ later =>
      rw [backDecrypt, load_inPlace,
        load_mixNext_apart _ _ (blocks_apart (Nat.ne_of_lt (Nat.lt_succ_self later)))]
      congr 1
      apply load_congr
      intro i inside
      exact backDecrypt_ahead mix decrypt (Or.inr (Nat.le_add_right _ i))

theorem load_backDecrypt (mix : Vector α n → Vector α n → Vector α n)
    (decrypt : Vector α n → Vector α n) {later j : Nat} (inside : j < later) :
    load n (backDecrypt mix decrypt start memory later) (start + n * j) =
      mix (decrypt (load n memory (start + n * j))) (load n memory (start + n * (j + 1))) := by
  induction later with
  | zero => exact absurd inside (Nat.not_lt_zero j)
  | succ later ih =>
      rw [backDecrypt, load_inPlace_apart _ _ (blocks_apart (Nat.ne_of_gt (by omega)))]
      rcases Nat.lt_succ_iff_lt_or_eq.mp inside with before | rfl
      · rw [load_mixNext_apart _ _ (blocks_apart (Nat.ne_of_gt before)), ih before]
      · rw [load_mixNext, load_backDecrypt_last, next_block]
        congr 1
        apply load_congr
        intro i here
        exact backDecrypt_ahead mix decrypt (Or.inr (Nat.le_add_right _ i))

/-- What is made of the blocks does not depend on where they lie. -/
theorem backDecrypt_shift (mix : Vector α n → Vector α n → Vector α n)
    (decrypt : Vector α n → Vector α n) {other : Space α} {start' later : Nat}
    (same : ∀ i < n * (later + 1), memory (start + i) = other (start' + i)) {i : Nat}
    (inside : i < n * (later + 1)) :
    backDecrypt mix decrypt start memory later (start + i) =
      backDecrypt mix decrypt start' other later (start' + i) := by
  have positive : 0 < n := Nat.pos_of_ne_zero fun zero => by
    subst zero
    omega
  have whole {j : Nat} (within : j ≤ later) :
      load n memory (start + n * j) = load n other (start' + n * j) := by
    apply load_congr
    intro b low
    have room : n * (j + 1) ≤ n * (later + 1) := Nat.mul_le_mul_left n (Nat.succ_le_succ within)
    rw [Nat.mul_succ] at room
    rw [Nat.add_assoc, Nat.add_assoc]
    exact same _ (by omega)
  have within : i / n ≤ later := Nat.le_of_lt_succ (Nat.div_lt_of_lt_mul inside)
  have block : load n (backDecrypt mix decrypt start memory later) (start + n * (i / n)) =
      load n (backDecrypt mix decrypt start' other later) (start' + n * (i / n)) := by
    rcases Nat.lt_or_eq_of_le within with before | last
    · rw [load_backDecrypt _ _ before, load_backDecrypt _ _ before, whole within, whole before]
    · rw [last, load_backDecrypt_last, load_backDecrypt_last, whole (Nat.le_refl later)]
  have low := Nat.mod_lt i positive
  have cell := congrArg (fun block => block.get ⟨i % n, low⟩) block
  change (load n _ _)[i % n] = (load n _ _)[i % n] at cell
  rw [getElem_load _ _ low, getElem_load _ _ low, Nat.add_assoc, Nat.add_assoc,
    Nat.div_add_mod] at cell
  exact cell

/-! ## Encrypting -/

theorem encryptDown_outside (mix : Vector α n → Vector α n → Vector α n)
    (encrypt : Vector α n → Vector α n) {before address : Nat}
    (outside : address < start ∨ start + n * before ≤ address) (memory : Space α) :
    encryptDown mix encrypt start before memory address = memory address := by
  induction before generalizing memory with
  | zero => rfl
  | succ before ih =>
      rw [Nat.mul_succ] at outside
      rw [encryptDown, ih (by omega), inPlace, store_outside _ _ (by omega), mixNext,
        store_outside _ _ (by omega)]

/-- Blocks behind those that are worked on stay as they are. -/
theorem load_encryptDown_behind (mix : Vector α n → Vector α n → Vector α n)
    (encrypt : Vector α n → Vector α n) {before j : Nat} (behind : before ≤ j)
    (memory : Space α) :
    load n (encryptDown mix encrypt start before memory) (start + n * j) =
      load n memory (start + n * j) := by
  apply load_congr
  intro i _
  have := Nat.mul_le_mul_left n behind
  exact encryptDown_outside mix encrypt (Or.inr (by omega)) memory

theorem load_encryptDown (mix : Vector α n → Vector α n → Vector α n)
    (encrypt : Vector α n → Vector α n) {before j : Nat} (inside : j < before)
    (memory : Space α) :
    load n (encryptDown mix encrypt start before memory) (start + n * j) =
      encrypt (mix (load n memory (start + n * j))
        (load n (encryptDown mix encrypt start before memory) (start + n * (j + 1)))) := by
  induction before generalizing memory with
  | zero => exact absurd inside (Nat.not_lt_zero j)
  | succ before ih =>
      rw [encryptDown]
      rcases Nat.lt_succ_iff_lt_or_eq.mp inside with earlier | rfl
      · rw [ih earlier]
        congr 2
        have apart := @blocks_apart n start _ _ (Nat.ne_of_gt earlier)
        rw [load_inPlace_apart _ _ apart, load_mixNext_apart _ _ apart]
      · have apart := @blocks_apart n start _ _ (Nat.ne_of_lt (Nat.lt_succ_self j))
        rw [load_encryptDown_behind _ _ (Nat.le_refl j), load_inPlace, load_mixNext,
          load_encryptDown_behind _ _ (Nat.le_succ j), load_inPlace_apart _ _ apart,
          load_mixNext_apart _ _ apart, next_block]

theorem backEncrypt_outside (mix : Vector α n → Vector α n → Vector α n)
    (encrypt : Vector α n → Vector α n) {later address : Nat}
    (outside : address < start ∨ start + n * (later + 1) ≤ address) (memory : Space α) :
    backEncrypt mix encrypt start memory later address = memory address := by
  rw [Nat.mul_succ] at outside
  rw [backEncrypt, encryptDown_outside _ _ (by omega), inPlace, store_outside _ _ (by omega)]

theorem load_backEncrypt_last (mix : Vector α n → Vector α n → Vector α n)
    (encrypt : Vector α n → Vector α n) (later : Nat) (memory : Space α) :
    load n (backEncrypt mix encrypt start memory later) (start + n * later) =
      encrypt (load n memory (start + n * later)) := by
  rw [backEncrypt, load_encryptDown_behind _ _ (Nat.le_refl later), load_inPlace]

theorem load_backEncrypt (mix : Vector α n → Vector α n → Vector α n)
    (encrypt : Vector α n → Vector α n) {later j : Nat} (inside : j < later)
    (memory : Space α) :
    load n (backEncrypt mix encrypt start memory later) (start + n * j) =
      encrypt (mix (load n memory (start + n * j))
        (load n (backEncrypt mix encrypt start memory later) (start + n * (j + 1)))) := by
  rw [backEncrypt, load_encryptDown _ _ inside,
    load_inPlace_apart _ _ (blocks_apart (Nat.ne_of_gt inside))]

/-! ## Back and forth -/

/-- Memories are the same that have the same blocks and the same cells around them. -/
theorem eq_of_blocks {other : Space α} {later : Nat}
    (blocks : ∀ j ≤ later, load n memory (start + n * j) = load n other (start + n * j))
    (around : ∀ address, address < start ∨ start + n * (later + 1) ≤ address →
      memory address = other address) : memory = other := by
  funext address
  by_cases outside : address < start ∨ start + n * (later + 1) ≤ address
  · exact around address outside
  · have positive : 0 < n := Nat.pos_of_ne_zero fun zero => by
      subst zero
      omega
    have within : (address - start) / n < later + 1 :=
      Nat.div_lt_of_lt_mul (by omega)
    have inside := Nat.mod_lt (address - start) positive
    have place : start + n * ((address - start) / n) + (address - start) % n = address := by
      have := Nat.div_add_mod (address - start) n
      omega
    have cell := congrArg (fun block => block[(address - start) % n])
      (blocks _ (Nat.le_of_lt_succ within))
    simp only [getElem_load, place] at cell
    exact cell

theorem backDecrypt_backEncrypt (cancels : ∀ a b, mix (mix a b) b = a)
    (inverse : ∀ block, decrypt (encrypt block) = block) (memory : Space α) (later : Nat) :
    backDecrypt mix decrypt start (backEncrypt mix encrypt start memory later) later =
      memory := by
  apply @eq_of_blocks _ n start _ _ later
  · intro j inside
    rcases Nat.lt_or_eq_of_le inside with before | rfl
    · rw [load_backDecrypt _ _ before, load_backEncrypt _ _ before, inverse, cancels]
    · rw [load_backDecrypt_last, load_backEncrypt_last, inverse]
  · intro address outside
    rw [backDecrypt_ahead _ _ outside, backEncrypt_outside _ _ outside]

theorem backEncrypt_backDecrypt (cancels : ∀ a b, mix (mix a b) b = a)
    (inverse : ∀ block, encrypt (decrypt block) = block) (memory : Space α) (later : Nat) :
    backEncrypt mix encrypt start (backDecrypt mix decrypt start memory later) later =
      memory := by
  have blocks : ∀ before ≤ later, load n (backEncrypt mix encrypt start
      (backDecrypt mix decrypt start memory later) later) (start + n * (later - before)) =
        load n memory (start + n * (later - before)) := by
    intro before
    -- from the last block to the first
    induction before with
    | zero => exact fun _ => by rw [Nat.sub_zero, load_backEncrypt_last, load_backDecrypt_last,
        inverse]
    | succ before ih =>
        intro fits
        have earlier : later - (before + 1) < later := by omega
        rw [load_backEncrypt _ _ earlier, show later - (before + 1) + 1 = later - before by omega,
          ih (by omega), load_backDecrypt _ _ earlier,
          show later - (before + 1) + 1 = later - before by omega, cancels, inverse]
  apply @eq_of_blocks _ n start _ _ later
  · intro j inside
    have block := blocks (later - j) (Nat.sub_le later j)
    rwa [Nat.sub_sub_self inside] at block
  · intro address outside
    rw [backEncrypt_outside _ _ outside, backDecrypt_ahead _ _ outside]

end Cipher
