import UsbDvbs2.Bytes.Lanes
import UsbDvbs2.Csa.BlockCipher
import UsbDvbs2.Csa.Transpose

/-! # The block cipher, for a batch

`dvbcsa_bs_block.c` keeps the registers of a batch in an array of words with a byte for each
block, and moves a window over it. A column of bytes goes through what `dvbcsa_block_decrypt`
does with one block.
-/

namespace Dvbcsa

open LittleEndian

/-! ## Bytes of words -/

def Word.ofBytes (bytes : Nat → UInt8) : Word :=
  ⟨leWord 64 bytes 8, leWord 64 (fun p => bytes (8 + p)) 8⟩

theorem Word.byte_ofBytes (bytes : Nat → UInt8) {p : Nat} (inside : p < 16) :
    (Word.ofBytes bytes).byte p = bytes p := by
  unfold Word.byte
  split
  · exact leByte_leWord bytes (by omega) (by decide)
  · change leByte (leWord 64 (fun p => bytes (8 + p)) 8) (p - 8) = _
    rw [leByte_leWord _ (by omega) (by decide), show 8 + (p - 8) = p by omega]

theorem Word.byte_xor (first second : Word) (p : Nat) :
    (first ^^^ second).byte p = first.byte p ^^^ second.byte p := by
  apply eq_of_bits
  intro j inside
  rw [Word.getLsbD_byte _ _ inside, Word.bit_xor, UInt8.toBitVec_xor, BitVec.getLsbD_xor,
    Word.getLsbD_byte _ _ inside, Word.getLsbD_byte _ _ inside]

/-- The substitution, byte by byte. -/
def sboxWord (word : Word) : Word := .ofBytes fun p => sboxByte (word.byte p)

/-- The bit permutation, in all bytes at once. -/
def permWord (word : Word) : Word :=
  (((word &&& .val8 0x29).shl 1 ||| (word &&& .val8 0x02).shl 6) |||
      ((word &&& .val8 0x04).shl 3 ||| (word &&& .val8 0x10).shr 2)) |||
    ((word &&& .val8 0x40).shr 6 ||| (word &&& .val8 0x80).shr 4)

/-- Where a bit of a permuted byte comes from. -/
def permSource : List Nat := [6, 0, 4, 7, 3, 2, 5, 1]

theorem getLsbD_permByte (byte : UInt8) : ∀ j < 8,
    (permByte byte).toBitVec.getLsbD j = byte.toBitVec.getLsbD (permSource.getD j 0) := by
  have table : ∀ n < 256, ∀ j < 8, (csaBlockPerm.getD n 0).toBitVec.getLsbD j =
      (UInt8.ofNat n).toBitVec.getLsbD (permSource.getD j 0) := by
    decide +kernel
  have known := table byte.toNat byte.toNat_lt
  rwa [UInt8.ofNat_toNat] at known

theorem bit_permWord (word : Word) {c : Nat} (inside : c < 128) :
    (permWord word).bit c = word.bit (8 * (c / 8) + permSource.getD (c % 8) 0) := by
  have masks : ∀ c < 128,
      (decide (1 ≤ c % 64) && (Word.val8 0x29).bit (c - 1)) =
          decide (c % 8 = 1 ∨ c % 8 = 4 ∨ c % 8 = 6) ∧
        (decide (6 ≤ c % 64) && (Word.val8 0x02).bit (c - 6)) = decide (c % 8 = 7) ∧
        (decide (3 ≤ c % 64) && (Word.val8 0x04).bit (c - 3)) = decide (c % 8 = 5) ∧
        (decide (c % 64 + 2 < 64) && (Word.val8 0x10).bit (c + 2)) = decide (c % 8 = 2) ∧
        (decide (c % 64 + 6 < 64) && (Word.val8 0x40).bit (c + 6)) = decide (c % 8 = 0) ∧
        (decide (c % 64 + 4 < 64) && (Word.val8 0x80).bit (c + 4)) = decide (c % 8 = 3) := by
    decide
  obtain ⟨one, two, three, four, five, six⟩ := masks c inside
  have selected : (permWord word).bit c =
      (((word.bit (c - 1) && decide (c % 8 = 1 ∨ c % 8 = 4 ∨ c % 8 = 6) ||
            word.bit (c - 6) && decide (c % 8 = 7)) ||
          (word.bit (c - 3) && decide (c % 8 = 5) || word.bit (c + 2) && decide (c % 8 = 2))) ||
        (word.bit (c + 6) && decide (c % 8 = 0) || word.bit (c + 4) && decide (c % 8 = 3))) := by
    rw [← one, ← two, ← three, ← four, ← five, ← six]
    simp (disch := omega) only [permWord, Word.bit_or, Word.bit_shl, Word.bit_shr,
      Word.bit_and, Bool.and_left_comm]
  rw [selected]
  have below := Nat.mod_lt c (by decide : 0 < 8)
  generalize split : c % 8 = j at *
  rcases j with _ | _ | _ | _ | _ | _ | _ | _ | j
  all_goals first
    | omega
    | simp [permSource]
      congr 1
      omega

theorem byte_permWord (word : Word) {p : Nat} (inside : p < 16) :
    (permWord word).byte p = permByte (word.byte p) := by
  apply eq_of_bits
  intro j low
  have source : permSource.getD j 0 < 8 :=
    (by decide : ∀ j < 8, permSource.getD j 0 < 8) j low
  rw [Word.getLsbD_byte _ _ low, bit_permWord _ (by omega), getLsbD_permByte _ j low,
    Word.getLsbD_byte _ _ source, show (8 * p + j) / 8 = p by omega,
    show (8 * p + j) % 8 = j by omega]

/-! ## The window of registers -/

/-- `BS_XOREQ` -/
def xorEq (rows : Nat → Word) (p : Nat) (word : Word) : Nat → Word :=
  Function.update rows p (rows p ^^^ word)

/-- A turn of the inner loop of `dvbcsa_bs_block_decrypt_register`, for the word `g` of every
register; the window begins at register `i`. -/
def decryptWord (key : Word) (i : Nat) (rows : Nat → Word) (g : Nat) : Nat → Word :=
  let sboxOut := sboxWord (key ^^^ rows (8 * (i + 7) + g))
  let w := rows (8 * (i + 8) + g) ^^^ sboxOut
  let rows := Function.update rows (8 * i + g) w
  let rows := xorEq rows (8 * (i + 2) + g) w
  let rows := xorEq rows (8 * (i + 3) + g) w
  let rows := xorEq rows (8 * (i + 4) + g) w
  xorEq rows (8 * (i + 6) + g) (permWord sboxOut)

def decryptWindow (block : Nat → Word) (rows : Nat → Word) (i : Nat) : Nat → Word :=
  (List.range 8).foldl (decryptWord (block i) i) rows

def bsBlockDecryptRegister (block : Nat → Word) (rows : Nat → Word) : Nat → Word :=
  (List.range 56).reverse.foldl (decryptWindow block) rows

/-- The bytes `p` of the words `g` in the eight registers from `base` on. -/
def column (rows : Nat → Word) (base g p : Nat) : Block :=
  #v[(rows (8 * base + g)).byte p, (rows (8 * (base + 1) + g)).byte p,
    (rows (8 * (base + 2) + g)).byte p, (rows (8 * (base + 3) + g)).byte p,
    (rows (8 * (base + 4) + g)).byte p, (rows (8 * (base + 5) + g)).byte p,
    (rows (8 * (base + 6) + g)).byte p, (rows (8 * (base + 7) + g)).byte p]

theorem getElem_column (rows : Nat → Word) (base g p : Nat) {b : Nat} (inside : b < 8) :
    (column rows base g p)[b] = (rows (8 * (base + b) + g)).byte p := by
  rcases b with _ | _ | _ | _ | _ | _ | _ | _ | b
  iterate 8 rfl
  omega

/-- What a turn leaves in a word. -/
theorem decryptWord_apply (key : Word) (i : Nat) (rows : Nat → Word) (g q : Nat) :
    decryptWord key i rows g q =
      let sboxOut := sboxWord (key ^^^ rows (8 * (i + 7) + g))
      let w := rows (8 * (i + 8) + g) ^^^ sboxOut
      if q = 8 * i + g then w
      else if q = 8 * (i + 2) + g ∨ q = 8 * (i + 3) + g ∨ q = 8 * (i + 4) + g then rows q ^^^ w
      else if q = 8 * (i + 6) + g then rows q ^^^ permWord sboxOut
      else rows q := by
  simp only [decryptWord, xorEq, Function.update_apply]
  grind

theorem decryptWord_keeps (key : Word) (i : Nat) {g : Nat} (inside : g < 8) :
    Lanes.Keeps (· % 8) (decryptWord key i · g) g where
  frame rows q other := by
    rw [decryptWord_apply]
    dsimp only
    rw [if_neg (by omega), if_neg (by omega), if_neg (by omega)]
  reads rows other same q own := by
    rw [decryptWord_apply, decryptWord_apply, same _ own, same (8 * (i + 7) + g) (by omega),
      same (8 * (i + 8) + g) (by omega)]

/-- A column goes through a turn of the plain cipher. -/
theorem column_decryptWindow (block rows : Nat → Word) (i : Nat) {g p : Nat} (word : g < 8)
    (byte : p < 16) :
    column (decryptWindow block rows i) i g p =
      decryptTurn (column rows (i + 1) g p) ((block i).byte p) := by
  have lane (m : Nat) : decryptWindow block rows i (8 * m + g) =
      decryptWord (block i) i rows g (8 * m + g) := by
    have turn : (8 * m + g) % 8 = g := by omega
    have keeps : ∀ k ∈ List.range 8, Lanes.Keeps (· % 8) (decryptWord (block i) i · k) k :=
      fun k listed => decryptWord_keeps (block i) i (List.mem_range.mp listed)
    have done := Lanes.foldl_here keeps List.nodup_range (i := 8 * m + g)
      (by rw [turn]; exact List.mem_range.mpr word) rows
    rwa [turn] at done
  have kept (m : Nat) (outside : m ≠ i ∧ m ≠ i + 2 ∧ m ≠ i + 3 ∧ m ≠ i + 4 ∧ m ≠ i + 6) :
      decryptWindow block rows i (8 * m + g) = rows (8 * m + g) := by
    rw [lane, decryptWord_apply]
    dsimp only
    rw [if_neg (by omega), if_neg (by omega), if_neg (by omega)]
  have mixed (m : Nat) (inside : m = i + 2 ∨ m = i + 3 ∨ m = i + 4) :
      decryptWindow block rows i (8 * m + g) = rows (8 * m + g) ^^^
        (rows (8 * (i + 8) + g) ^^^ sboxWord (block i ^^^ rows (8 * (i + 7) + g))) := by
    rw [lane, decryptWord_apply]
    dsimp only
    rw [if_neg (by omega), if_pos (by omega)]
  have first : decryptWindow block rows i (8 * i + g) =
      rows (8 * (i + 8) + g) ^^^ sboxWord (block i ^^^ rows (8 * (i + 7) + g)) := by
    rw [lane, decryptWord_apply]
    exact if_pos rfl
  have sixth : decryptWindow block rows i (8 * (i + 6) + g) = rows (8 * (i + 6) + g) ^^^
      permWord (sboxWord (block i ^^^ rows (8 * (i + 7) + g))) := by
    rw [lane, decryptWord_apply]
    dsimp only
    rw [if_neg (by omega), if_neg (by omega), if_pos rfl]
  have substituted : (sboxWord (block i ^^^ rows (8 * (i + 7) + g))).byte p =
      sboxByte ((block i).byte p ^^^ (rows (8 * (i + 7) + g)).byte p) := by
    rw [sboxWord, Word.byte_ofBytes _ byte, Word.byte_xor]
  rw [column, first, kept (i + 1) (by omega), mixed (i + 2) (by omega), mixed (i + 3) (by omega),
    mixed (i + 4) (by omega), kept (i + 5) (by omega), sixth, kept (i + 7) (by omega)]
  simp only [Word.byte_xor, byte_permWord _ byte, substituted]
  rfl

/-- A column goes through the plain cipher. -/
theorem column_bsBlockDecryptRegister {block : Nat → Word} {key : Schedule} {p : Nat}
    (byte : p < 16) (same : ∀ i (inside : i < 56), (block i).byte p = key[i])
    (rows : Nat → Word) {g : Nat} (word : g < 8) :
    column (bsBlockDecryptRegister block rows) 0 g p = blockDecrypt key (column rows 56 g p) := by
  have listed : key.toList = (List.range 56).map fun i => (block i).byte p := by
    apply List.ext_getElem
    · simp
    · intro i inside _
      rw [List.getElem_map, List.getElem_range, same i (by simpa using inside)]
      rfl
  have turns (n : Nat) (rows : Nat → Word) :
      column ((List.range n).reverse.foldl (decryptWindow block) rows) 0 g p =
        ((List.range n).map fun i => (block i).byte p).reverse.foldl decryptTurn
          (column rows n g p) := by
    induction n generalizing rows with
    | zero => rfl
    | succ n ih =>
        rw [List.range_succ, List.reverse_concat, List.foldl_cons, ih, List.map_append,
          List.reverse_append, List.foldl_append, column_decryptWindow block rows n word byte]
        rfl
  rw [bsBlockDecryptRegister, turns, blockDecrypt, listed]

end Dvbcsa
