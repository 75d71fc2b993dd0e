import UsbDvbs2.Bytes.Buffers
import UsbDvbs2.Crypto.Fips180

/-! # The checksum of a firmware

`dtv_sha256`: whole blocks straight from the data, then a tail of one or two blocks with
what is left over and the padding. It is the digest of the standard.
-/

namespace Sha256

open BlockHash Bytes
open Fips180 (Working schedule)

def k : List UInt32 := [
  0x428a2f98, 0x71374491, 0xb5c0fbcf, 0xe9b5dba5, 0x3956c25b, 0x59f111f1,
  0x923f82a4, 0xab1c5ed5, 0xd807aa98, 0x12835b01, 0x243185be, 0x550c7dc3,
  0x72be5d74, 0x80deb1fe, 0x9bdc06a7, 0xc19bf174, 0xe49b69c1, 0xefbe4786,
  0x0fc19dc6, 0x240ca1cc, 0x2de92c6f, 0x4a7484aa, 0x5cb0a9dc, 0x76f988da,
  0x983e5152, 0xa831c66d, 0xb00327c8, 0xbf597fc7, 0xc6e00bf3, 0xd5a79147,
  0x06ca6351, 0x14292967, 0x27b70a85, 0x2e1b2138, 0x4d2c6dfc, 0x53380d13,
  0x650a7354, 0x766a0abb, 0x81c2c92e, 0x92722c85, 0xa2bfe8a1, 0xa81a664b,
  0xc24b8b70, 0xc76c51a3, 0xd192e819, 0xd6990624, 0xf40e3585, 0x106aa070,
  0x19a4c116, 0x1e376c08, 0x2748774c, 0x34b0bcb5, 0x391c0cb3, 0x4ed8aa4a,
  0x5b9cca4f, 0x682e6ff3, 0x748f82ee, 0x78a5636f, 0x84c87814, 0x8cc70208,
  0x90befffa, 0xa4506ceb, 0xbef9a3f7, 0xc67178f2]

def initialState : Vector UInt32 8 := #v[0x6a09e667, 0xbb67ae85, 0x3c6ef372, 0xa54ff53a,
  0x510e527f, 0x9b05688c, 0x1f83d9ab, 0x5be0cd19]

def rotr (x n : UInt32) : UInt32 := x >>> n ||| x <<< (32 - n)

/-- `w[i]` of the first loop. -/
def loaded (block : List UInt8) (i : Nat) : UInt32 :=
  (block.getD (i * 4) 0).toUInt32 <<< 24 ||| (block.getD (i * 4 + 1) 0).toUInt32 <<< 16 |||
    (block.getD (i * 4 + 2) 0).toUInt32 <<< 8 ||| (block.getD (i * 4 + 3) 0).toUInt32

/-- A turn of the second loop, behind the words so far. -/
def extended (w : List UInt32) (i : Nat) : List UInt32 :=
  let w15 := w.getD (i - 15) 0
  let w2 := w.getD (i - 2) 0
  let s0 := rotr w15 7 ^^^ rotr w15 18 ^^^ w15 >>> 3
  let s1 := rotr w2 17 ^^^ rotr w2 19 ^^^ w2 >>> 10
  w ++ [w.getD (i - 16) 0 + s0 + w.getD (i - 7) 0 + s1]

/-- `w`. -/
def words (block : List UInt8) : List UInt32 :=
  (List.range' 16 48).foldl extended ((List.range 16).map (loaded block))

/-- A turn of the third loop. -/
def turn (w : List UInt32) (vars : Working) (i : Nat) : Working :=
  let t1 := vars.h + (rotr vars.e 6 ^^^ rotr vars.e 11 ^^^ rotr vars.e 25) +
    ((vars.e &&& vars.f) ^^^ (~~~vars.e &&& vars.g)) + k.getD i 0 + w.getD i 0
  let t2 := (rotr vars.a 2 ^^^ rotr vars.a 13 ^^^ rotr vars.a 22) +
    ((vars.a &&& vars.b) ^^^ (vars.a &&& vars.c) ^^^ (vars.b &&& vars.c))
  { h := vars.g, g := vars.f, f := vars.e, e := vars.d + t1
    d := vars.c, c := vars.b, b := vars.a, a := t1 + t2 }

/-- `state[0] += a` and so on. -/
def added (state : Vector UInt32 8) (vars : Working) : Vector UInt32 8 :=
  .zipWith (· + ·) state vars.words

def compress (state : Vector UInt32 8) (block : List UInt8) : Vector UInt32 8 :=
  added state ((List.range 64).foldl (turn (words block)) (.ofHash state))

/-- `size - size % 64`. -/
def wholeSize (data : List UInt8) : Nat := data.length - data.length % 64

/-- `tail_size`. -/
def tailSize (data : List UInt8) : Nat :=
  if data.length - wholeSize data + 1 + 8 ≤ 64 then 64 else 128

/-- `tail`. -/
def tail (data : List UInt8) : List UInt8 :=
  let bits := UInt64.ofNat data.length * 8
  let rest := data.length - wholeSize data
  let marked := (copied (List.replicate 128 0) 0 (data.drop (wholeSize data))).set rest 0x80
  (List.range 8).foldl (fun tail i =>
    tail.set (tailSize data - 1 - i) (bits >>> (8 * UInt64.ofNat i)).toUInt8) marked

/-- `for (i = 0; i < whole; i += 64) compress(state, data + i)`. -/
def wholeBlocks (data : List UInt8) (i : Nat) (state : Vector UInt32 8) : Vector UInt32 8 :=
  if i < wholeSize data then wholeBlocks data (i + 64) (compress state ((data.drop i).take 64))
  else state
termination_by wholeSize data - i

/-- The four bytes of `digest` for one word. -/
def stored (word : UInt32) : List UInt8 :=
  [(word >>> 24).toUInt8, (word >>> 16).toUInt8, (word >>> 8).toUInt8, word.toUInt8]

def dtvSha256 (data : List UInt8) : List UInt8 :=
  let state := wholeBlocks data 0 initialState
  let state := compress state ((tail data).take 64)
  let state := if tailSize data = 128 then compress state (((tail data).drop 64).take 64) else state
  state.toList.flatMap stored

/-! ## The compression -/

theorem k_eq : k = Fips180.roundConstants := by
  decide +kernel

theorem initialState_eq : initialState = Fips180.initialHash := by
  decide +kernel

theorem loaded_eq (block : List UInt8) (i : Nat) : loaded block i = Fips180.word block i := by
  rw [loaded, Fips180.word, Nat.mul_comm]

theorem getD_map_range (f : Nat → UInt32) {count i : Nat} (inside : i < count) :
    ((List.range count).map f).getD i 0 = f i := by
  rw [List.getD_eq_getElem?_getD, List.getElem?_map, List.getElem?_range inside]
  rfl

/-- The loop computes the recurrence. -/
theorem extended_schedule (block : List UInt8) (count : Nat) :
    (List.range' 16 count).foldl extended ((List.range 16).map (loaded block)) =
      (List.range (16 + count)).map (schedule block) := by
  induction count with
  | zero =>
      refine List.map_congr_left fun i mem => ?_
      rw [loaded_eq, schedule, if_pos (List.mem_range.1 mem)]
  | succ count ih =>
      have next : schedule block (16 + count) =
          schedule block (16 + count - 16) +
            Fips180.smallSigma0 (schedule block (16 + count - 15)) +
            schedule block (16 + count - 7) +
              Fips180.smallSigma1 (schedule block (16 + count - 2)) := by
        rw [schedule, if_neg (by omega)]
        ac_rfl
      rw [List.range'_concat, List.foldl_append, ih, Nat.one_mul, List.foldl_cons, List.foldl_nil,
        ← Nat.add_assoc, List.range_succ, List.map_append, List.map_singleton, next, extended,
        getD_map_range _ (by omega), getD_map_range _ (by omega), getD_map_range _ (by omega),
        getD_map_range _ (by omega)]
      rfl

theorem words_eq (block : List UInt8) : words block = (List.range 64).map (schedule block) :=
  extended_schedule block 48

theorem turn_eq (block : List UInt8) (vars : Working) {i : Nat} (inside : i < 64) :
    turn (words block) vars i = Fips180.round block vars i := by
  rw [turn, words_eq, getD_map_range _ inside, k_eq]
  rfl

theorem added_eq (state : Vector UInt32 8) (vars : Working) :
    added state vars = Fips180.next state vars := by
  apply Vector.ext
  intro pos inside
  rw [added, Fips180.next, Vector.getElem_zipWith, Vector.getElem_zipWith, UInt32.add_comm]

/-- The compression is the one of the standard. -/
theorem compress_eq : compress = Fips180.compress := by
  funext state block
  have turns (vars : Working) : (List.range 64).foldl (turn (words block)) vars =
      (List.range 64).foldl (Fips180.round block) vars := by
    apply List.foldl_ext
    intro vars i mem
    exact turn_eq block vars (List.mem_range.1 mem)
  rw [compress, Fips180.compress]
  exact (congrArg (added state) (turns _)).trans (added_eq state _)

/-! ## The blocks -/

theorem wholeSize_eq (data : List UInt8) : wholeSize data = 64 * (data.length / 64) := by
  unfold wholeSize
  omega

/-- The blocks from one on. -/
theorem wholeBlocks_from (data : List UInt8) (index : Nat) (state : Vector UInt32 8) :
    wholeBlocks data (64 * index) state =
      ((List.range' index (data.length / 64 - index)).map fun index =>
        (data.drop (64 * index)).take 64).foldl compress state := by
  induction left : data.length / 64 - index generalizing index state with
  | zero =>
      rw [wholeBlocks, wholeSize_eq, if_neg (by omega)]
      rfl
  | succ left ih =>
      rw [wholeBlocks, wholeSize_eq, if_pos (by omega), ← Nat.mul_succ, ih _ _ (by omega),
        List.range'_succ]
      rfl

theorem wholeBlocks_eq (data : List UInt8) (state : Vector UInt32 8) :
    wholeBlocks data 0 state = (blocks 64 data).foldl compress state := by
  have all := wholeBlocks_from data 0 state
  rwa [Nat.sub_zero, ← List.range_eq_range'] at all

/-! ## The tail -/

theorem length_rest (data : List UInt8) :
    data.length - wholeSize data = data.length % 64 := by
  unfold wholeSize
  omega

theorem tailSize_eq (data : List UInt8) :
    tailSize data = if data.length % 64 ≤ 55 then 64 else 128 := by
  rw [tailSize, length_rest]
  split <;> split <;> omega

theorem tailSize_cases (data : List UInt8) : tailSize data = 64 ∨ tailSize data = 128 := by
  unfold tailSize
  split
  · exact .inl rfl
  · exact .inr rfl

/-- The tail in front of the length. -/
theorem tailSize_zeros (data : List UInt8) :
    tailSize data - 8 = data.length % 64 + (zeros data.length + 1) := by
  rw [tailSize_eq]
  unfold zeros
  split <;> omega

theorem remainder_eq (data : List UInt8) : remainder 64 data = data.drop (wholeSize data) := by
  rw [remainder, wholeSize_eq]

/-- The mark and zeros behind what is left over. -/
theorem marked_eq (data : List UInt8) :
    (copied (List.replicate 128 0) 0 (data.drop (wholeSize data))).set
        (data.length - wholeSize data) 0x80 =
      remainder 64 data ++ 0x80 :: List.replicate (127 - data.length % 64) 0 := by
  have length := @length_remainder _ 64 data
  have below : data.length % 64 < 64 := Nat.mod_lt _ (by decide)
  have cells : (128 : Nat) - (0 + data.length % 64) = 127 - data.length % 64 + 1 := by omega
  rw [← remainder_eq, length_rest, copied, List.take_zero, List.nil_append, List.drop_replicate,
    length, cells, List.replicate_succ, List.set_append_right _ _ (Nat.le_of_eq length), length,
    Nat.sub_self, List.set_cons_zero]

/-- The tail is what is left over with the padding of the standard. -/
theorem tail_eq (data : List UInt8) : (tail data).take (tailSize data) =
    remainder 64 data ++
      ([0x80] ++ List.replicate (zeros data.length) 0 ++ be64 (8 * data.length)) := by
  have length := @length_remainder _ 64 data
  have below : data.length % 64 < 64 := Nat.mod_lt _ (by decide)
  have bits : UInt64.ofNat data.length * 8 = UInt64.ofNat (8 * data.length) := by
    rw [Nat.mul_comm, UInt64.ofNat_mul]
    rfl
  have front := tailSize_zeros data
  have cases := tailSize_cases data
  have size : (remainder 64 data ++ 0x80 :: List.replicate (127 - data.length % 64) 0).length =
      128 := by
    rw [List.length_append, List.length_cons, List.length_replicate, length]
    omega
  have last : tailSize data - 1 <
      (remainder 64 data ++ 0x80 :: List.replicate (127 - data.length % 64) 0).length := by
    omega
  have count : tailSize data - 1 + 1 - 8 = tailSize data - 8 := by omega
  have inside : tailSize data - 8 + (be64 (8 * data.length)).length ≤
      (remainder 64 data ++ 0x80 :: List.replicate (127 - data.length % 64) 0).length := by
    rw [length_be64]
    omega
  have upTo : tailSize data = tailSize data - 8 + (be64 (8 * data.length)).length := by
    rw [length_be64]
    omega
  unfold tail
  dsimp only
  rw [marked_eq, bits, foldl_set_down _ last (by omega), le64_eq, ← be64, count]
  refine (take_copied inside upTo).trans ?_
  rw [front, ← length, List.take_length_add_append, List.take_succ_cons, List.take_replicate,
    Nat.min_eq_left (by omega), List.append_assoc]
  rfl

theorem length_tail (data : List UInt8) :
    ((tail data).take (tailSize data)).length = tailSize data := by
  have front := tailSize_zeros data
  have cases := tailSize_cases data
  rw [tail_eq, List.length_append, List.length_append, List.length_append, List.length_replicate,
    length_be64, length_remainder, List.length_singleton]
  omega

/-- The tail is one block or two. -/
theorem blocks_tail (data : List UInt8) : blocks 64 ((tail data).take (tailSize data)) =
    if tailSize data = 128 then [(tail data).take 64, ((tail data).drop 64).take 64]
    else [(tail data).take 64] := by
  have length := length_tail data
  rcases tailSize_cases data with one | two
  · rw [one] at length ⊢
    exact blocks_single (by decide) length
  · rw [two] at length ⊢
    have first : ((tail data).take 64).length = 64 := by
      rw [List.length_take] at length ⊢
      omega
    have second : (((tail data).drop 64).take 64).length = 64 := by
      rw [List.length_take] at length
      rw [List.length_take, List.length_drop]
      omega
    have cut : (tail data).take 128 = (tail data).take 64 ++ ((tail data).drop 64).take 64 :=
      @List.take_add _ (tail data) 64 64
    rw [cut, blocks_block (by decide) first, blocks_single (by decide) second,
      if_pos rfl]

/-- The checksum is the digest of the standard, and the padding goes into one tail block where
at most 55 bytes are left over and into two where there are more. -/
theorem dtvSha256_eq (data : List UInt8) : dtvSha256 data = Fips180.digest data ∧
    padded be64 data = data.take (wholeSize data) ++ (tail data).take (tailSize data) ∧
    tailSize data = if data.length % 64 ≤ 55 then 64 else 128 := by
  have padding : padded be64 data = data ++
    ([0x80] ++ List.replicate (zeros data.length) 0 ++ be64 (8 * data.length)) := rfl
  have parts := blocks_remainder (by decide : 0 < 64) data
    ([0x80] ++ List.replicate (zeros data.length) 0 ++ be64 (8 * data.length))
  rw [← tail_eq, blocks_tail, ← padding] at parts
  refine ⟨?_, ?_, tailSize_eq data⟩
  · unfold dtvSha256
    dsimp only
    rw [wholeBlocks_eq, compress_eq, initialState_eq, Fips180.digest, parts, List.foldl_append]
    split
    · rfl
    · rfl
  · rw [tail_eq, remainder_eq, ← List.append_assoc, List.take_append_drop, padding]

end Sha256
