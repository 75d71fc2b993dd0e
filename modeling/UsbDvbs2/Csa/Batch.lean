import UsbDvbs2.Bytes.Slots
import UsbDvbs2.Csa.Algorithm
import UsbDvbs2.Csa.SlicedBlock
import UsbDvbs2.Csa.StreamLanes

/-! # A batch of packets

`dvbcsa_bs_decrypt` for up to 128 packets at once. Arrays on the stack are not cleared, and a
batch need not be full: what the lanes without a packet hold is taken as given, and must not
matter.
-/

namespace Dvbcsa

open Cipher LittleEndian Memory

attribute [local instance] neZero_eight

/-- `struct dvbcsa_bs_key_s` -/
structure BsKey where
  block : Nat → Word
  stream : Nat → Word

/-- `dvbcsa_bs_key_set` -/
def bsKeySet (cw : Block) : BsKey where
  block i :=
    let v := ((keyScheduleBlock cw).toList.getD i 0).toBitVec.setWidth 64 * 0x0101010101010101#64
    ⟨v, v⟩
  stream i := if (loadLe64 cw >>> (i ^^^ 4)) &&& 1 ≠ 0 then .val8 0xff else .val8 0x00

/-- What the arrays of the calls hold before anything is written to them: the rows of the stream
cipher, and the registers of the block cipher at an offset. -/
structure Stack where
  sb : Nat → Word
  r : Nat → Nat → Word

section Stream

/-- The rows that `dvbcsa_bs_stream_transpose_in` loads, two packets to a row. -/
def streamRows (stack : Stack) (slots : List Segment) (memory : Space UInt8) (i : Nat) : Word :=
  let half := fun (k : Nat) (held : BitVec 64) =>
    match slots[k]? with
    | some slot =>
        if slot.len ≥ 8 then leWord 64 (fun j => memory (slot.data + j)) 8 else held
    | none => held
  ⟨half (2 * i) (stack.sb i).lo, half (2 * i + 1) (stack.sb i).hi⟩

/-- The order of the packets of a row. -/
def bytePlaces : List Nat := [0, 8, 1, 9, 2, 10, 3, 11, 4, 12, 5, 13, 6, 14, 7, 15]

/-- A byte of every packet is mixed with a byte of its key stream, from `cb`. -/
def streamTurn (cb : Vector Word 8) (index : Nat) (slots : List Segment) (memory : Space UInt8) :
    Space UInt8 :=
  let row := streamTransposeOut fun n => cb.get (Fin.ofNat 8 n)
  eachSlot
    (fun k slot memory =>
      if index < slot.len then
        store memory (slot.data + index)
          #v[memory (slot.data + index) ^^^ (row (k / 16)).byte (bytePlaces.getD (k % 16) 0)]
      else memory)
    slots memory

def bsStreamCipherBatch (stack : Stack) (key : BsKey) (slots : List Segment) (maxlen : Nat)
    (memory : Space UInt8) : Space UInt8 :=
  let sb := streamTransposeIn (streamRows stack slots memory)
  ((List.range (maxlen - 8)).foldl
    (fun (state : Sliced Word × Space UInt8) h =>
      (bsNext state.1, streamTurn (bsStreamByte state.1) (8 + h) slots state.2))
    (bsStreamInit key.stream sb, memory)).2

end Stream

section Blocks

/-- The entries that `dvbcsa_bs_block_transpose_in` loads, in place of what they hold. -/
def loadBlocks (slots : List Segment) (memory : Space UInt8) (offset : Nat)
    (held : Nat → BitVec 32) : Nat → BitVec 32 :=
  (List.range slots.length).foldl
    (fun ri i =>
      match slots[i]? with
      | some slot =>
          if offset < slot.len / 8 * 8 then
            Function.update
              (Function.update ri i (leWord 32 (fun j => memory (slot.data + offset + j)) 4))
              (i + 128) (leWord 32 (fun j => memory (slot.data + offset + 4 + j)) 4)
          else ri
      | none => ri)
    held

/-- The bytes of `dvbcsa_store_le32`. -/
def storeLe32 (word : BitVec 32) : Vector UInt8 4 := .ofFn fun i => leByte word i

/-- The end of `dvbcsa_bs_block_transpose_out`. -/
def storeBlocks (rows : Nat → Word) (offset : Nat) (slots : List Segment) (memory : Space UInt8) :
    Space UInt8 :=
  let ri := fun i => (rows (i / 4)).getU32 (i % 4)
  eachSlot
    (fun i slot memory =>
      if offset < slot.len / 8 * 8 then
        store (store memory (slot.data + offset) (storeLe32 (ri i))) (slot.data + offset + 4)
          (storeLe32 (ri (i + 128)))
      else memory)
    slots memory

def bsBlockDecryptBlock (stack : Stack) (key : BsKey) (slots : List Segment) (offset : Nat)
    (memory : Space UInt8) : Space UInt8 :=
  let held := fun i => (stack.r offset (8 * 56 + i / 4)).getU32 (i % 4)
  let ri := loadBlocks slots memory offset held
  let loaded := blockTransposeIn fun w => .ofU32 fun q => ri (4 * w + q)
  let r := bsBlockDecryptRegister key.block
    fun p => if p < 8 * 56 then stack.r offset p else loaded (p - 8 * 56)
  storeBlocks (blockTransposeOut r) offset slots memory

/-- The blocks in front of the one at `offset` are mixed with it. -/
def chainTurn (slots : List Segment) (offset : Nat) (memory : Space UInt8) : Space UInt8 :=
  eachSlot
    (fun _ slot memory =>
      if offset < slot.len / 8 * 8 then mixNext xorBlock memory (slot.data + (offset - 8))
      else memory)
    slots memory

def bsBlockDecryptBatch (stack : Stack) (key : BsKey) (slots : List Segment) (maxlen : Nat)
    (memory : Space UInt8) : Space UInt8 :=
  (List.range ((maxlen - 1) / 8)).foldl
    (fun memory i =>
      bsBlockDecryptBlock stack key slots (8 * (i + 1)) (chainTurn slots (8 * (i + 1)) memory))
    (bsBlockDecryptBlock stack key slots 0 memory)

end Blocks

/-- `dvbcsa_bs_decrypt` -/
def bsDecrypt (stack : Stack) (key : BsKey) (slots : List Segment) (maxlen : Nat)
    (memory : Space UInt8) : Space UInt8 :=
  bsBlockDecryptBatch stack key slots maxlen (bsStreamCipherBatch stack key slots maxlen memory)

/-! ## The key -/

theorem getD_toList {n : Nat} (bytes : Vector UInt8 n) {i : Nat} (inside : i < n) :
    bytes.toList.getD i 0 = bytes[i] := by
  rw [List.getD_eq_getElem?_getD, List.getElem?_eq_getElem (by simpa using inside)]
  rfl

theorem shifted_low_bit (word : BitVec 64) (m : Nat) :
    (word >>> m) &&& 1 ≠ 0 ↔ word.getLsbD m = true := by
  have bit : (word >>> m).getLsbD 0 = word.getLsbD m := by
    rw [BitVec.getLsbD_ushiftRight, Nat.add_zero]
  change (word >>> m) &&& BitVec.twoPow 64 0 ≠ 0 ↔ _
  rw [BitVec.and_twoPow, bit]
  cases word.getLsbD m <;> decide

/-- Exchanging the nibbles of all bytes. -/
theorem swapped_bit (word : BitVec 64) {n : Nat} (inside : n < 64) :
    (((word &&& 0xf0f0f0f0f0f0f0f0) >>> 4) |||
      ((word &&& 0x0f0f0f0f0f0f0f0f) <<< 4)).getLsbD n = word.getLsbD (n ^^^ 4) := by
  have masks : ∀ n < 64, (0xf0f0f0f0f0f0f0f0#64).getLsbD (4 + n) = decide (n % 8 < 4) ∧
      (decide (4 ≤ n) && (0x0f0f0f0f0f0f0f0f#64).getLsbD (n - 4)) = decide (4 ≤ n % 8) ∧
      n ^^^ 4 = if n % 8 < 4 then 4 + n else n - 4 := by
    decide
  obtain ⟨high, low, place⟩ := masks n inside
  rw [BitVec.getLsbD_or, BitVec.getLsbD_ushiftRight, BitVec.getLsbD_and, Word.getLsbD_shl inside,
    BitVec.getLsbD_and, Bool.and_left_comm, place]
  change (_ && (0xf0f0f0f0f0f0f0f0#64).getLsbD (4 + n) ||
    _ && (_ && (0x0f0f0f0f0f0f0f0f#64).getLsbD (n - 4))) = _
  rw [high, low]
  by_cases front : n % 8 < 4
  · rw [if_pos front, decide_eq_true front, decide_eq_false (by omega), Bool.and_true,
      Bool.and_false, Bool.or_false]
  · rw [if_neg front, decide_eq_false front, decide_eq_true (by omega), Bool.and_true,
      Bool.and_false, Bool.false_or]
/-- A bit of the control word whose nibbles are exchanged. -/
theorem blockBit_cws (cw : Block) (n : Nat) :
    blockBit (keySet cw).cws n = (loadLe64 cw).getLsbD (n ^^^ 4) := by
  rw [blockBit, List.getD_eq_getElem?_getD]
  rcases Nat.lt_or_ge n 64 with inside | beyond
  · have small : n / 8 < 8 := by omega
    rw [List.getElem?_eq_getElem (by simpa using small), Option.getD_some, ← swapped_bit _ inside]
    simp only [keySet, storeLe64, Vector.getElem_toList, Vector.getElem_ofFn]
    rw [getLsbD_leByte _ _ (Nat.mod_lt n (by decide)), Nat.div_add_mod]
  · have past : 64 ≤ n ^^^ 4 := by
      have cancel : (n ^^^ 4) ^^^ 4 = n := by rw [Nat.xor_assoc, Nat.xor_self, Nat.xor_zero]
      refine Nat.le_of_not_lt fun low => ?_
      have := Nat.xor_lt_two_pow (n := 6) low (by decide : 4 < 2 ^ 6)
      omega
    rw [List.getElem?_eq_none (by simpa using (by omega : 8 ≤ n / 8)),
      BitVec.getLsbD_of_ge _ _ past]
    exact BitVec.getLsbD_zero

/-- Every lane of the words for the stream cipher has the same bit. -/
theorem bit_stream (cw : Block) (n : Nat) {c : Nat} (inside : c < 128) :
    ((bsKeySet cw).stream n).bit c = blockBit (keySet cw).cws n := by
  have respects := respects_bit inside
  change Word.bit (if (loadLe64 cw >>> (n ^^^ 4)) &&& 1 ≠ 0 then .val8 0xff else .val8 0x00) c = _
  rw [blockBit_cws, if_congr (shifted_low_bit ..) rfl rfl]
  cases (loadLe64 cw).getLsbD (n ^^^ 4) with
  | true => exact respects.ones
  | false => exact respects.zeros

/-- A byte, eight times. -/
theorem leByte_spread (value : UInt8) {q : Nat} (inside : q < 8) :
    leByte (value.toBitVec.setWidth 64 * 0x0101010101010101#64) q = value := by
  have table : ∀ n < 256, (UInt8.ofNat n).toBitVec.setWidth 64 * 0x0101010101010101#64 =
      leWord 64 (fun _ => UInt8.ofNat n) 8 := by
    decide +kernel
  have known := table value.toNat value.toNat_lt
  rw [UInt8.ofNat_toNat] at known
  rw [known, leByte_leWord _ inside (by decide)]

/-- Every byte of the words for the block cipher is the byte of the schedule. -/
theorem byte_block (cw : Block) {p : Nat} (byte : p < 16) (i : Nat) (inside : i < 56) :
    ((bsKeySet cw).block i).byte p = (keyScheduleBlock cw)[i] := by
  unfold bsKeySet
  have cell := getD_toList (keyScheduleBlock cw) inside
  generalize keyScheduleBlock cw = sch at *
  change Word.byte ⟨(sch.toList.getD i 0).toBitVec.setWidth 64 * _,
    (sch.toList.getD i 0).toBitVec.setWidth 64 * _⟩ p = _
  rw [cell, Word.byte]
  split <;> exact leByte_spread _ (by omega)

/-! ## A block of every packet -/

section OneBlock

variable {slots : List Segment} {offset k : Nat} {slot : Segment}

/-- The entries of a packet are its block, in two halves. -/
theorem loadBlocks_slot (few : slots.length ≤ 128) (listed : slots[k]? = some slot)
    (whole : offset < slot.len / 8 * 8) (memory : Space UInt8) (held : Nat → BitVec 32) :
    loadBlocks slots memory offset held k =
        leWord 32 (fun j => memory (slot.data + offset + j)) 4 ∧
      loadBlocks slots memory offset held (k + 128) =
        leWord 32 (fun j => memory (slot.data + offset + 4 + j)) 4 := by
  have inside : k < slots.length := (List.getElem?_eq_some_iff.mp listed).1
  have keeps : ∀ i ∈ List.range slots.length, Lanes.Keeps (· % 128)
      (fun ri => match slots[i]? with
        | some slot =>
            if offset < slot.len / 8 * 8 then
              Function.update
                (Function.update ri i (leWord 32 (fun j => memory (slot.data + offset + j)) 4))
                (i + 128) (leWord 32 (fun j => memory (slot.data + offset + 4 + j)) 4)
            else ri
        | none => ri) i := by
    intro i turn
    have small : i < slots.length := List.mem_range.mp turn
    rw [List.getElem?_eq_getElem small]
    dsimp only
    by_cases taken : offset < (slots[i]).len / 8 * 8
    · simp only [if_pos taken]
      constructor
      · intro ri q other
        rw [Function.update_of_ne (by omega), Function.update_of_ne (by omega)]
      · intro ri other same q own
        simp only [Function.update_apply]
        split
        · rfl
        · split
          · rfl
          · exact same q own
    · simp only [if_neg taken]
      exact ⟨fun _ _ _ => rfl, fun _ _ same q own => same q own⟩
  have value (q : Nat) (own : q % 128 = k) : loadBlocks slots memory offset held q =
      Function.update (Function.update held k
        (leWord 32 (fun j => memory (slot.data + offset + j)) 4)) (k + 128)
        (leWord 32 (fun j => memory (slot.data + offset + 4 + j)) 4) q := by
    have here := Lanes.foldl_here keeps List.nodup_range (i := q)
      (by rw [own]; exact List.mem_range.mpr inside) held
    rw [own] at here
    refine here.trans ?_
    rw [listed]
    dsimp only
    rw [if_pos whole]
  constructor
  · rw [value k (by omega), Function.update_of_ne (by omega), Function.update_self]
  · rw [value (k + 128) (by omega), Function.update_self]

/-- The column of a packet, before the registers are run, is its block. -/
theorem column_loaded (few : slots.length ≤ 128) (listed : slots[k]? = some slot)
    (whole : offset < slot.len / 8 * 8) (memory : Space UInt8) (held : Nat → BitVec 32)
    (behind : Nat → Word) :
    let ri := loadBlocks slots memory offset held
    column (fun p => if p < 8 * 56 then behind p
        else blockTransposeIn (fun w => .ofU32 fun q => ri (4 * w + q)) (p - 8 * 56))
      56 (k / 4 % 8) (4 * (k % 4) + k / 32) = load 8 memory (slot.data + offset) := by
  intro ri
  have lane : k < 128 := Nat.lt_of_lt_of_le (List.getElem?_eq_some_iff.mp listed).1 few
  obtain ⟨front, back⟩ := loadBlocks_slot few listed whole memory held
  have byte : ∀ b < 8, (blockTransposeIn (fun w => .ofU32 fun q => ri (4 * w + q))
      (8 * b + k / 4 % 8)).byte (4 * (k % 4) + k / 32) = memory (slot.data + offset + b) := by
    intro b register
    have quarter : (4 * (k % 4) + k / 32) / 4 = k % 4 := by omega
    have turn : (4 * (k % 4) + k / 32) % 4 = k / 32 := by omega
    have whole : 8 * (k / 32) + k / 4 % 8 = k / 4 := by omega
    rw [(byte_blockTranspose _ register (Nat.mod_lt _ (by decide)) (by omega)).1, quarter, turn,
      Word.byte_ofU32 _ (Nat.mod_lt _ (by decide)) (Nat.mod_lt _ (by decide)),
      show 4 * (8 * (4 * (b / 4) + k / 32) + k / 4 % 8) + k % 4 = k + 128 * (b / 4) by omega]
    rcases Nat.lt_or_ge b 4 with first | second
    · rw [Nat.div_eq_of_lt first, Nat.mod_eq_of_lt first]
      change leByte (loadBlocks slots memory offset held k) b = _
      rw [front, leByte_leWord _ first (by decide)]
    · rw [show b / 4 = 1 by omega]
      change leByte (loadBlocks slots memory offset held (k + 128)) (b % 4) = _
      rw [back, leByte_leWord _ (Nat.mod_lt _ (by decide)) (by decide),
        show slot.data + offset + 4 + b % 4 = slot.data + offset + b by omega]
  apply Vector.ext
  intro b register
  rw [getElem_column _ _ _ _ register, if_neg (by omega), getElem_load,
    show 8 * (56 + b) + k / 4 % 8 - 8 * 56 = 8 * b + k / 4 % 8 by omega, byte b register]

/-- The two halves that are stored are the column of the packet. -/
theorem storeLe32_column (rows : Nat → Word) (lane : k < 128) (memory : Space UInt8)
    (place : Nat) :
    store (store memory place (storeLe32 ((blockTransposeOut rows (k / 4)).getU32 (k % 4))))
        (place + 4)
        (storeLe32 ((blockTransposeOut rows ((k + 128) / 4)).getU32 ((k + 128) % 4))) =
      store memory place (column rows 0 (k / 4 % 8) (4 * (k % 4) + k / 32)) := by
  have byte : ∀ b < 8, (blockTransposeOut rows (32 * (b / 4) + k / 4)).byte (4 * (k % 4) + b % 4) =
      (rows (8 * b + k / 4 % 8)).byte (4 * (k % 4) + k / 32) := by
    intro b register
    have whole : 32 * (b / 4) + k / 4 = 8 * (4 * (b / 4) + k / 32) + k / 4 % 8 := by omega
    have half : 4 * ((4 * (b / 4) + k / 32) / 4) + (4 * (k % 4) + b % 4) % 4 = b := by omega
    have place : 4 * ((4 * (k % 4) + b % 4) / 4) + (4 * (b / 4) + k / 32) % 4 =
        4 * (k % 4) + k / 32 := by omega
    rw [whole, (byte_blockTranspose rows (by omega) (Nat.mod_lt _ (by decide)) (by omega)).2, half,
      place]
  funext address
  by_cases outside : address < place ∨ place + 8 ≤ address
  · rw [store_outside _ _ (by omega), store_outside _ _ (by omega), store_outside _ _ outside]
  · obtain ⟨b, rfl⟩ := Nat.exists_eq_add_of_le (show place ≤ address by omega)
    have inside : b < 8 := by omega
    have value := byte b inside
    rw [store_inside _ place _ inside, getElem_column _ _ _ _ inside, Nat.zero_add, ← value]
    rcases Nat.lt_or_ge b 4 with first | second
    · rw [store_outside _ _ (by omega), store_inside _ _ _ first, storeLe32, Vector.getElem_ofFn,
        Word.leByte_getU32 _ _ first, Nat.div_eq_of_lt first, Nat.mod_eq_of_lt first,
        Nat.mul_zero, Nat.zero_add]
    · rw [show place + b = place + 4 + (b - 4) by omega, store_inside _ _ _ (by omega), storeLe32,
        Vector.getElem_ofFn, Word.leByte_getU32 _ _ (by omega),
        show (k + 128) / 4 = 32 * (b / 4) + k / 4 by omega,
        show (k + 128) % 4 = k % 4 by omega]
      have last : b - 4 = b % 4 := by omega
      exact congrArg (fun j => (blockTransposeOut rows (32 * (b / 4) + k / 4)).byte
        (4 * (k % 4) + j)) last

/-- The work on a packet: its block at `offset` is decrypted, if it is whole. -/
def blockWork (cw : Block) (offset : Nat) (_ : Nat) (slot : Segment) (memory : Space UInt8) :
    Space UInt8 :=
  if offset < slot.len / 8 * 8 then
    inPlace (blockDecrypt (keyScheduleBlock cw)) memory (slot.data + offset)
  else memory

theorem slotwise_bsBlockDecryptBlock (stack : Stack) (cw : Block) (aligned : offset % 8 = 0)
    (few : slots.length ≤ 128) (apart : slots.Pairwise Segment.Apart) (memory : Space UInt8) :
    Slotwise (blockWork cw offset) slots memory
      (bsBlockDecryptBlock stack (bsKeySet cw) slots offset memory) := by
  let r := bsBlockDecryptRegister (bsKeySet cw).block fun p =>
    if p < 8 * 56 then stack.r offset p
    else blockTransposeIn (fun w => .ofU32 fun q => loadBlocks slots memory offset
      (fun i => (stack.r offset (8 * 56 + i / 4)).getU32 (i % 4)) (4 * w + q)) (p - 8 * 56)
  -- every packet's column has been through the plain cipher
  have written : ∀ k slot, slots[k]? = some slot → offset < slot.len / 8 * 8 →
      column r 0 (k / 4 % 8) (4 * (k % 4) + k / 32) =
        blockDecrypt (keyScheduleBlock cw) (load 8 memory (slot.data + offset)) := by
    intro k slot listed whole
    have lane : k < 128 := Nat.lt_of_lt_of_le (List.getElem?_eq_some_iff.mp listed).1 few
    rw [← column_loaded few listed whole memory _ (stack.r offset)]
    exact column_bsBlockDecryptRegister (by omega) (fun i => byte_block cw (by omega) i) _
      (Nat.mod_lt _ (by decide))
  have unpacked : ∀ k slot, slots[k]? = some slot → offset < slot.len / 8 * 8 → ∀ memory,
      store (store memory (slot.data + offset)
          (storeLe32 ((blockTransposeOut r (k / 4)).getU32 (k % 4)))) (slot.data + offset + 4)
        (storeLe32 ((blockTransposeOut r ((k + 128) / 4)).getU32 ((k + 128) % 4))) =
      store memory (slot.data + offset) (column r 0 (k / 4 % 8) (4 * (k % 4) + k / 32)) :=
    fun k slot listed _ memory => storeLe32_column r
      (Nat.lt_of_lt_of_le (List.getElem?_eq_some_iff.mp listed).1 few) memory _
  let raw := fun (k : Nat) (slot : Segment) (memory : Space UInt8) =>
    if offset < slot.len / 8 * 8 then
      store (store memory (slot.data + offset)
          (storeLe32 ((blockTransposeOut r (k / 4)).getU32 (k % 4)))) (slot.data + offset + 4)
        (storeLe32 ((blockTransposeOut r ((k + 128) / 4)).getU32 ((k + 128) % 4)))
    else memory
  have done : Slotwise raw slots memory (eachSlot raw slots memory) := by
    refine eachSlot_slotwise apart (fun k slot listed => ?_) memory
    dsimp only [raw]
    by_cases whole : offset < slot.len / 8 * 8
    · simp only [if_pos whole]
      rw [funext (unpacked k slot listed whole)]
      exact local_store (by omega) (by omega) fun _ _ _ => rfl
    · simp only [if_neg whole]
      exact ⟨fun _ _ _ => rfl, fun _ _ same => same⟩
  refine done.congr fun k slot listed address covers => ?_
  dsimp only [raw, blockWork]
  by_cases whole : offset < slot.len / 8 * 8
  · rw [if_pos whole, if_pos whole, unpacked k slot listed whole memory,
      written k slot listed whole, inPlace]
  · rw [if_neg whole, if_neg whole]

theorem blockWork_local (cw : Block) (aligned : offset % 8 = 0) (k : Nat) (slot : Segment) :
    Local (blockWork cw offset k slot) slot := by
  unfold blockWork
  by_cases whole : offset < slot.len / 8 * 8
  · simp only [if_pos whole]
    exact local_store (by omega) (by omega) fun memory other same => by
      rw [load_within (by omega) (by omega) same]
  · simp only [if_neg whole]
    exact ⟨fun _ _ _ => rfl, fun _ _ same => same⟩

end OneBlock

/-! ## All blocks -/

/-- The work on a packet: its first block and at most `later` more. -/
def blocksWork (cw : Block) (later : Nat) (_ : Nat) (slot : Segment) (memory : Space UInt8) :
    Space UInt8 :=
  if 8 ≤ slot.len then
    backDecrypt xorBlock (blockDecrypt (keyScheduleBlock cw)) slot.data memory
      (min later (slot.len / 8 - 1))
  else memory

def chainWork (offset : Nat) (_ : Nat) (slot : Segment) (memory : Space UInt8) : Space UInt8 :=
  if offset < slot.len / 8 * 8 then mixNext xorBlock memory (slot.data + (offset - 8)) else memory

theorem chainWork_local {offset : Nat} (aligned : offset % 8 = 0) (later : 8 ≤ offset) (k : Nat)
    (slot : Segment) : Local (chainWork offset k slot) slot := by
  unfold chainWork
  by_cases whole : offset < slot.len / 8 * 8
  · simp only [if_pos whole]
    exact local_store (by omega) (by omega) fun memory other same => by
      rw [load_within (by omega) (by omega) same, load_within (by omega) (by omega) same]
  · simp only [if_neg whole]
    exact ⟨fun _ _ _ => rfl, fun _ _ same => same⟩

theorem blocksWork_zero (cw : Block) (k : Nat) (slot : Segment) (memory : Space UInt8) :
    blockWork cw 0 k slot memory = blocksWork cw 0 k slot memory := by
  unfold blockWork blocksWork
  by_cases short : 8 ≤ slot.len
  · rw [if_pos (by omega), if_pos short, Nat.zero_min]
    rfl
  · rw [if_neg (by omega), if_neg short]

theorem blocksWork_succ (cw : Block) (later k : Nat) (slot : Segment) (memory : Space UInt8) :
    blockWork cw (8 * (later + 1)) k slot
        (chainWork (8 * (later + 1)) k slot (blocksWork cw later k slot memory)) =
      blocksWork cw (later + 1) k slot memory := by
  unfold blockWork chainWork blocksWork
  by_cases short : 8 ≤ slot.len
  · simp only [if_pos short]
    by_cases whole : 8 * (later + 1) < slot.len / 8 * 8
    · rw [if_pos whole, if_pos whole, Nat.min_eq_left (by omega), Nat.min_eq_left (by omega)]
      rfl
    · rw [if_neg whole, if_neg whole, Nat.min_eq_right (by omega), Nat.min_eq_right (by omega)]
  · simp only [if_neg short]
    rw [if_neg (by omega), if_neg (by omega)]

variable {slots : List Segment}

theorem slotwise_blocks (stack : Stack) (cw : Block) (few : slots.length ≤ 128)
    (apart : slots.Pairwise Segment.Apart) (memory : Space UInt8) (later : Nat) :
    Slotwise (blocksWork cw later) slots memory
      ((List.range later).foldl
        (fun memory i => bsBlockDecryptBlock stack (bsKeySet cw) slots (8 * (i + 1))
          (chainTurn slots (8 * (i + 1)) memory))
        (bsBlockDecryptBlock stack (bsKeySet cw) slots 0 memory)) := by
  induction later with
  | zero =>
      refine (slotwise_bsBlockDecryptBlock stack cw (Nat.zero_mod 8) few apart memory).congr ?_
      intro k slot _ address _
      rw [blocksWork_zero]
  | succ later ih =>
      have aligned : 8 * (later + 1) % 8 = 0 := Nat.mul_mod_right 8 _
      have chain := fun memory => eachSlot_slotwise apart
        (fun k slot _ => chainWork_local aligned (by omega) k slot) memory
      have block := fun memory => slotwise_bsBlockDecryptBlock stack cw aligned few apart memory
      rw [List.range_succ, List.foldl_append]
      have mixed := ih.comp (chain _) fun k slot _ => chainWork_local aligned (by omega) k slot
      have done := mixed.comp (block _) fun k slot _ => blockWork_local cw aligned k slot
      refine done.congr fun k slot _ address _ => ?_
      rw [blocksWork_succ]

/-! ## The key streams -/

/-- The lane of a packet. -/
def laneOf (k : Nat) : Nat := 64 * (k % 2) + k / 2

/-- The rows hold the first block of every packet that has one, in its lane. -/
theorem bit_streamRows (stack : Stack) (memory : Space UInt8) {k : Nat} {slot : Segment}
    (lane : k < 128) (listed : slots[k]? = some slot) (whole : 8 ≤ slot.len) {n : Nat}
    (row : n < 64) :
    (streamTransposeIn (streamRows stack slots memory) n).bit (laneOf k) =
      blockBit (load 8 memory slot.data) n := by
  have cell : blockBit (load 8 memory slot.data) n =
      (leWord 64 (fun j => memory (slot.data + j)) 8).getLsbD n := by
    rw [blockBit, getD_toList _ (by omega), getElem_load, getLsbD_leWord_at _ row row]
  have half : laneOf k / 64 = k % 2 ∧ laneOf k % 64 = k / 2 := by
    unfold laneOf
    omega
  rw [bit_streamTransposeIn _ row (by unfold laneOf; omega), half.1, half.2, cell]
  rcases Nat.mod_two_eq_zero_or_one k with even | odd
  · rw [even, Nat.mul_zero, Nat.zero_add, Word.bit_lo _ row, streamRows]
    simp only [show 2 * (k / 2) = k by omega, listed, if_pos whole]
  · rw [odd, Nat.mul_one, Word.bit_hi _ (by omega), Nat.add_sub_cancel_left, streamRows]
    simp only [show 2 * (k / 2) + 1 = k by omega, listed, if_pos whole]

/-- The byte that a packet is given. -/
def laneByte (cb : Vector Word 8) (k : Nat) : UInt8 :=
  (streamTransposeOut (fun n => cb.get (Fin.ofNat 8 n)) (k / 16)).byte (bytePlaces.getD (k % 16) 0)

theorem getLsbD_laneByte (cb : Vector Word 8) {k : Nat} (lane : k < 128) (j : Fin 8) :
    (laneByte cb k).toBitVec.getLsbD j = (cb.get j).bit (laneOf k) := by
  have place : ∀ i < 16, bytePlaces.getD i 0 = 8 * (i % 2) + i / 2 := by decide
  have parity : k % 16 % 2 = k % 2 := by omega
  rw [laneByte, place _ (Nat.mod_lt k (by decide)), parity, Word.getLsbD_byte _ _ j.isLt,
    bit_streamTransposeOut _ (by omega) (by omega)]
  have turn : (8 * (8 * (k % 2) + k % 16 / 2) + j.val) % 8 = j.val := by omega
  have half : (8 * (8 * (k % 2) + k % 16 / 2) + j.val) / 64 = k % 2 := by omega
  have byte : (8 * (8 * (k % 2) + k % 16 / 2) + j.val) / 8 % 8 = k % 16 / 2 := by omega
  rw [turn, half, byte, laneOf, show 64 * (k % 2) + 8 * (k / 16) + k % 16 / 2 =
    64 * (k % 2) + k / 2 by omega]
  congr 2
  exact Fin.ext (Nat.mod_eq_of_lt j.isLt)

/-- A packet is given the bytes of its own key stream. -/
theorem laneByte_eq (stack : Stack) (cw : Block) (memory : Space UInt8) {k : Nat}
    {slot : Segment} (few : slots.length ≤ 128) (listed : slots[k]? = some slot)
    (whole : 8 ≤ slot.len) (n : Nat) :
    laneByte (bsStreamByte (bsNext^[n] (bsStreamInit (bsKeySet cw).stream
        (streamTransposeIn (streamRows stack slots memory))))) k =
      keyByte (keySet cw).cws (load 8 memory slot.data) n := by
  have lane : k < 128 := Nat.lt_of_lt_of_le (List.getElem?_eq_some_iff.mp listed).1 few
  have inside : laneOf k < 128 := by
    unfold laneOf
    omega
  apply eq_of_bits
  intro j low
  rw [show (laneByte _ k).toBitVec.getLsbD j = _ from getLsbD_laneByte _ lane ⟨j, low⟩]
  exact bit_bsStreamByte inside (fun m => bit_stream cw m inside)
    (fun m row => bit_streamRows stack memory lane listed whole row) n ⟨j, low⟩

/-- The work on a packet: `n` bytes behind its first block are mixed with its key stream. -/
def streamWork (cw : Block) (n : Nat) (_ : Nat) (slot : Segment) (memory : Space UInt8) :
    Space UInt8 :=
  streamXor (keySet cw).cws (load 8 memory slot.data) memory (slot.data + 8)
    (min n (slot.len - 8))

theorem store_single (memory : Space UInt8) (place : Nat) (byte : UInt8) :
    store memory place #v[byte] = Function.update memory place byte := by
  funext address
  by_cases here : address = place
  · subst here
    rw [Function.update_self]
    exact store_inside memory address #v[byte] (i := 0) (by decide)
  · rw [Function.update_of_ne here, store_outside _ _ (by omega)]

theorem slotwise_stream (stack : Stack) (cw : Block) (few : slots.length ≤ 128)
    (apart : slots.Pairwise Segment.Apart) (memory : Space UInt8) (n : Nat) :
    let init := bsStreamInit (bsKeySet cw).stream
      (streamTransposeIn (streamRows stack slots memory))
    let state := (List.range n).foldl
      (fun (state : Sliced Word × Space UInt8) h =>
        (bsNext state.1, streamTurn (bsStreamByte state.1) (8 + h) slots state.2))
      (init, memory)
    state.1 = bsNext^[n] init ∧ Slotwise (streamWork cw n) slots memory state.2 := by
  intro init
  induction n with
  | zero =>
      refine ⟨rfl, (Slotwise.refl memory).congr fun k slot _ address _ => ?_⟩
      rw [streamWork, Nat.zero_min]
      rfl
  | succ n ih =>
      obtain ⟨same, soFar⟩ := ih
      rw [List.range_succ, List.foldl_append]
      dsimp only [List.foldl_cons, List.foldl_nil]
      generalize (List.range n).foldl _ (init, memory) = state at *
      refine ⟨by rw [same, Function.iterate_succ_apply'], ?_⟩
      let work := fun (k : Nat) (slot : Segment) (memory : Space UInt8) =>
        if 8 + n < slot.len then
          store memory (slot.data + (8 + n))
            #v[memory (slot.data + (8 + n)) ^^^ laneByte (bsStreamByte state.1) k]
        else memory
      have stays : ∀ k slot, slots[k]? = some slot → Local (work k slot) slot := by
        intro k slot _
        dsimp only [work]
        by_cases inside : 8 + n < slot.len
        · simp only [if_pos inside]
          exact local_store (by omega) (by omega) fun memory other same => by
            rw [same (slot.data + (8 + n)) ⟨by omega, by omega⟩]
        · simp only [if_neg inside]
          exact ⟨fun _ _ _ => rfl, fun _ _ same => same⟩
      have turn : Slotwise work slots state.2 (eachSlot work slots state.2) :=
        eachSlot_slotwise apart stays state.2
      refine (soFar.comp turn stays).congr fun k slot listed address _ => ?_
      dsimp only [work, streamWork]
      by_cases inside : 8 + n < slot.len
      · rw [if_pos inside, Nat.min_eq_left (by omega), Nat.min_eq_left (by omega), store_single,
          same, laneByte_eq stack cw memory few listed (by omega), streamXor_succ,
          Nat.add_assoc slot.data 8 n]
      · rw [if_neg inside, Nat.min_eq_right (by omega), Nat.min_eq_right (by omega)]

/-! ## The whole of it -/

theorem blocksWork_local (cw : Block) (later k : Nat) (slot : Segment) :
    Local (blocksWork cw later k slot) slot := by
  induction later with
  | zero =>
      rw [← funext (blocksWork_zero cw k slot)]
      exact blockWork_local cw (Nat.zero_mod 8) k slot
  | succ later ih =>
      have aligned : 8 * (later + 1) % 8 = 0 := Nat.mul_mod_right 8 _
      rw [← funext (blocksWork_succ cw later k slot)]
      exact (ih.comp (chainWork_local aligned (by omega) k slot)).comp
        (blockWork_local cw aligned k slot)

/-- A batch is decrypted packet by packet, as `dvbcsa_decrypt` decrypts each. -/
theorem slotwise_bsDecrypt (stack : Stack) (cw : Block) (few : slots.length ≤ 128)
    (apart : slots.Pairwise Segment.Apart) {maxlen : Nat}
    (short : ∀ slot ∈ slots, slot.len ≤ maxlen) (memory : Space UInt8) :
    Slotwise (fun _ slot memory => decrypt (keySet cw) memory slot.data slot.len) slots memory
      (bsDecrypt stack (bsKeySet cw) slots maxlen memory) := by
  have stream := (slotwise_stream stack cw few apart memory (maxlen - 8)).2
  have blocks := slotwise_blocks stack cw few apart
    (bsStreamCipherBatch stack (bsKeySet cw) slots maxlen memory) ((maxlen - 1) / 8)
  refine (stream.comp blocks fun k slot _ => blocksWork_local cw _ k slot).congr ?_
  intro k slot listed address _
  have bounded := short slot (List.mem_of_getElem? listed)
  dsimp only [blocksWork, streamWork, decrypt]
  rw [Nat.min_eq_right (show slot.len - 8 ≤ maxlen - 8 by omega),
    Nat.min_eq_right (show slot.len / 8 - 1 ≤ (maxlen - 1) / 8 by omega)]
  by_cases whole : 8 ≤ slot.len
  · rw [if_pos whole, if_neg (Nat.not_lt.mpr whole)]
    rfl
  · rw [if_neg whole, if_pos (Nat.lt_of_not_le whole), show slot.len - 8 = 0 by omega]
    rfl

theorem decrypt_local (key : DvbcsaKey) (slot : Segment) :
    Local (fun memory => decrypt key memory slot.data slot.len) slot where
  frame memory address outside := by
    unfold Segment.Covers at outside
    exact decrypt_outside key memory (by omega)
  reads memory other same address covers := by
    obtain ⟨i, rfl⟩ := Nat.exists_eq_add_of_le covers.1
    have inside : i < slot.len := by
      have := covers.2
      omega
    exact decrypt_shift key (fun j low => same _ ⟨by omega, by omega⟩) inside

/-- The sliced cipher does to a batch what the plain one does to its packets, one after the
other, whatever the words hold that are not written. -/
theorem bsDecrypt_eq_each (stack : Stack) (cw : Block) (few : slots.length ≤ 128)
    (apart : slots.Pairwise Segment.Apart) {maxlen : Nat}
    (short : ∀ slot ∈ slots, slot.len ≤ maxlen) (memory : Space UInt8) :
    bsDecrypt stack (bsKeySet cw) slots maxlen memory =
      slots.foldl (fun memory slot => decrypt (keySet cw) memory slot.data slot.len) memory := by
  have batch := slotwise_bsDecrypt stack cw few apart short memory
  have each : Slotwise (fun _ slot memory => decrypt (keySet cw) memory slot.data slot.len) slots
      memory (eachSlot (fun _ slot memory => decrypt (keySet cw) memory slot.data slot.len) slots
        memory) :=
    eachSlot_slotwise apart (fun _ slot _ => decrypt_local (keySet cw) slot) memory
  rw [batch.unique each, eachSlot_same]

theorem bsDecrypt_eq_each_pair :
    bsDecrypt ⟨fun _ => ⟨7, 9⟩, fun _ _ => ⟨3, 5⟩⟩ (bsKeySet (.replicate 8 0x11))
        [⟨4, 183⟩, ⟨192, 7⟩] 184 (fun address => UInt8.ofNat address) =
      [⟨4, 183⟩, ⟨192, 7⟩].foldl
        (fun memory (slot : Segment) =>
          decrypt (keySet (.replicate 8 0x11)) memory slot.data slot.len)
        fun address => UInt8.ofNat address := by
  have apart : [(⟨4, 183⟩ : Segment), ⟨192, 7⟩].Pairwise Segment.Apart := by
    simp [Segment.Apart]
  exact bsDecrypt_eq_each _ _ (by decide) apart (by decide) _

end Dvbcsa
