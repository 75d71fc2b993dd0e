import UsbDvbs2.Bytes.Buffers
import UsbDvbs2.Crypto.BlockHash

/-! # MD5 in parts

The hash of newcamd's passwords in `dtv_camd_crypt.c`. A context keeps the bytes of the
block that is not full yet, so a message may be handed to it in any parts.
-/

namespace Crypt

open BlockHash Bytes

/-! ## The compression -/

def md5K : List UInt32 := [
  0xd76aa478, 0xe8c7b756, 0x242070db, 0xc1bdceee,
  0xf57c0faf, 0x4787c62a, 0xa8304613, 0xfd469501,
  0x698098d8, 0x8b44f7af, 0xffff5bb1, 0x895cd7be,
  0x6b901122, 0xfd987193, 0xa679438e, 0x49b40821,
  0xf61e2562, 0xc040b340, 0x265e5a51, 0xe9b6c7aa,
  0xd62f105d, 0x02441453, 0xd8a1e681, 0xe7d3fbc8,
  0x21e1cde6, 0xc33707d6, 0xf4d50d87, 0x455a14ed,
  0xa9e3e905, 0xfcefa3f8, 0x676f02d9, 0x8d2a4c8a,
  0xfffa3942, 0x8771f681, 0x6d9d6122, 0xfde5380c,
  0xa4beea44, 0x4bdecfa9, 0xf6bb4b60, 0xbebfbc70,
  0x289b7ec6, 0xeaa127fa, 0xd4ef3085, 0x04881d05,
  0xd9d4d039, 0xe6db99e5, 0x1fa27cf8, 0xc4ac5665,
  0xf4292244, 0x432aff97, 0xab9423a7, 0xfc93a039,
  0x655b59c3, 0x8f0ccc92, 0xffeff47d, 0x85845dd1,
  0x6fa87e4f, 0xfe2ce6e0, 0xa3014314, 0x4e0811a1,
  0xf7537e82, 0xbd3af235, 0x2ad7d2bb, 0xeb86d391]

def md5Shift : List UInt32 := [
  7, 12, 17, 22, 7, 12, 17, 22, 7, 12, 17, 22, 7, 12, 17, 22,
  5, 9, 14, 20, 5, 9, 14, 20, 5, 9, 14, 20, 5, 9, 14, 20,
  4, 11, 16, 23, 4, 11, 16, 23, 4, 11, 16, 23, 4, 11, 16, 23,
  6, 10, 15, 21, 6, 10, 15, 21, 6, 10, 15, 21, 6, 10, 15, 21]

def md5Rotate (value count : UInt32) : UInt32 := value <<< count ||| value >>> (32 - count)

/-- `m[i]` of a block. -/
def md5Word (block : List UInt8) (i : Nat) : UInt32 :=
  (block.getD (i * 4) 0).toUInt32 ||| (block.getD (i * 4 + 1) 0).toUInt32 <<< 8 |||
    (block.getD (i * 4 + 2) 0).toUInt32 <<< 16 ||| (block.getD (i * 4 + 3) 0).toUInt32 <<< 24

/-- The working variables. -/
structure Md5Vars where
  a : UInt32
  b : UInt32
  c : UInt32
  d : UInt32
deriving DecidableEq

/-- `f` and `g` of a turn. -/
def md5Mix (vars : Md5Vars) (i : Nat) : UInt32 × Nat :=
  if i < 16 then ((vars.b &&& vars.c) ||| (~~~vars.b &&& vars.d), i)
  else if i < 32 then ((vars.d &&& vars.b) ||| (~~~vars.d &&& vars.c), (5 * i + 1) &&& 15)
  else if i < 48 then (vars.b ^^^ vars.c ^^^ vars.d, (3 * i + 5) &&& 15)
  else (vars.c ^^^ (vars.b ||| ~~~vars.d), (7 * i) &&& 15)

def md5Turn (block : List UInt8) (vars : Md5Vars) (i : Nat) : Md5Vars :=
  let mixed := md5Mix vars i
  let f := mixed.1 + (vars.a + md5K.getD i 0 + md5Word block mixed.2)
  { a := vars.d
    b := vars.b + md5Rotate f (md5Shift.getD i 0)
    c := vars.b
    d := vars.c }

def md5Transform (state : Vector UInt32 4) (block : List UInt8) : Vector UInt32 4 :=
  let vars := (List.range 64).foldl (md5Turn block)
    { a := state[0], b := state[1], c := state[2], d := state[3] }
  #v[state[0] + vars.a, state[1] + vars.b, state[2] + vars.c, state[3] + vars.d]

/-! ## The context -/

structure Md5Ctx where
  state : Vector UInt32 4
  /-- The length of the message in bytes. -/
  count : UInt64
  buffer : List UInt8

def md5InitialState : Vector UInt32 4 := #v[0x67452301, 0xefcdab89, 0x98badcfe, 0x10325476]

/-- `dtv_md5_init`. -/
def md5Init : Md5Ctx where
  state := md5InitialState
  count := 0
  buffer := List.replicate 64 0

/-- The loop over whole blocks, and what is copied behind it. -/
def md5Whole (ctx : Md5Ctx) (bytes : List UInt8) : Md5Ctx :=
  if 64 ≤ bytes.length then
    md5Whole { ctx with state := md5Transform ctx.state (bytes.take 64) } (bytes.drop 64)
  else { ctx with buffer := copied ctx.buffer 0 bytes }
termination_by bytes.length

/-- `dtv_md5_update`. -/
def md5Update (ctx : Md5Ctx) (bytes : List UInt8) : Md5Ctx :=
  let used := (ctx.count &&& 63).toNat
  let counted := { ctx with count := ctx.count + UInt64.ofNat bytes.length }
  if used ≠ 0 then
    let space := 64 - used
    if bytes.length < space then { counted with buffer := copied ctx.buffer used bytes }
    else
      let buffer := copied ctx.buffer used (bytes.take space)
      md5Whole { counted with buffer := buffer, state := md5Transform ctx.state buffer }
        (bytes.drop space)
  else md5Whole counted bytes

/-- `tail` as far as it is hashed. -/
def md5Tail (count : UInt64) : List UInt8 :=
  let bits := count * 8
  let used := (count &&& 63).toNat
  let pad := if used < 56 then 56 - used else 120 - used
  let tail := (List.replicate 72 0).set 0 0x80
  let counted := (List.range 8).foldl
    (fun tail i => tail.set (pad + i) (bits >>> (8 * UInt64.ofNat i)).toUInt8) tail
  counted.take (pad + 8)

/-- The bytes of a word, from the lowest on. -/
def md5Bytes (word : UInt32) : List UInt8 :=
  [word.toUInt8, (word >>> 8).toUInt8, (word >>> 16).toUInt8, (word >>> 24).toUInt8]

/-- `dtv_md5_final`. -/
def md5Final (ctx : Md5Ctx) : List UInt8 :=
  (md5Update ctx (md5Tail ctx.count)).state.toList.flatMap md5Bytes

/-- `dtv_md5`. -/
def md5 (data : List UInt8) : List UInt8 := md5Final (md5Update md5Init data)

/-! ## What a context has taken in -/

/-- The state over the whole blocks of a message, and in the buffer what is left over. -/
structure Absorbed (message : List UInt8) (ctx : Md5Ctx) : Prop where
  state : ctx.state = (blocks 64 message).foldl md5Transform md5InitialState
  count : ctx.count = UInt64.ofNat message.length
  size : ctx.buffer.length = 64
  buffer : ctx.buffer.take (message.length % 64) = remainder 64 message

theorem absorbed_init : Absorbed [] md5Init where
  state := rfl
  count := rfl
  size := rfl
  buffer := rfl

theorem used_eq (length : Nat) : (UInt64.ofNat length &&& 63).toNat = length % 64 := by
  have low : length % 2 ^ 64 &&& 63 = length % 2 ^ 64 % 64 := Nat.and_two_pow_sub_one_eq_mod _ 6
  rw [UInt64.toNat_and, UInt64.toNat_ofNat']
  exact low.trans (Nat.mod_mod_of_dvd length (Nat.pow_dvd_pow 2 (by decide : 6 ≤ 64)))

/-- The loop takes in every whole block and copies the rest. -/
theorem md5Whole_eq (ctx : Md5Ctx) (bytes : List UInt8) : md5Whole ctx bytes =
    { ctx with
      state := (blocks 64 bytes).foldl md5Transform ctx.state
      buffer := copied ctx.buffer 0 (remainder 64 bytes) } := by
  induction length : bytes.length using Nat.strongRecOn generalizing ctx bytes with
  | ind length ih =>
      subst length
      rw [md5Whole]
      split
      · rename_i more
        have block : (bytes.take 64).length = 64 := List.length_take_of_le more
        have shorter : (bytes.drop 64).length < bytes.length := by
          rw [List.length_drop]
          omega
        have cut := List.take_append_drop 64 bytes
        have parts := blocks_block (by decide) block (bytes.drop 64)
        have left := remainder_block (by decide) block (bytes.drop 64)
        rw [cut] at parts left
        rw [ih _ shorter _ _ rfl, parts, left]
        rfl
      · rename_i short
        rw [blocks_short (Nat.lt_of_not_le short), remainder_short (Nat.lt_of_not_le short)]
        rfl

/-- Whole blocks `ahead`, those of what is still `behind`, and the rest of it in the buffer. -/
theorem absorbed_whole {message bytes behind : List UInt8} (ahead : List (List UInt8))
    {ctx : Md5Ctx} (count : ctx.count = UInt64.ofNat (message ++ bytes).length)
    (state : ctx.state = (blocks 64 message ++ ahead).foldl md5Transform md5InitialState)
    (size : ctx.buffer.length = 64)
    (same : blocks 64 (remainder 64 message ++ bytes) = ahead ++ blocks 64 behind)
    (left : remainder 64 (remainder 64 message ++ bytes) = remainder 64 behind) :
    Absorbed (message ++ bytes) (md5Whole ctx behind) := by
  have positive : 0 < 64 := by decide
  have rest := (remainder_append positive message bytes).trans left
  have length := congrArg List.length rest
  rw [length_remainder] at length
  have inside : 0 + (remainder 64 behind).length ≤ ctx.buffer.length := by
    rw [Nat.zero_add, size]
    exact Nat.le_of_lt (remainder_lt positive behind)
  rw [md5Whole_eq]
  refine ⟨?_, count, (length_copied inside).trans size, ?_⟩
  · rw [blocks_remainder positive, same, ← List.append_assoc, List.foldl_append, ← state]
  · rw [rest]
    exact take_copied inside (length.trans (Nat.zero_add _).symm)

section Update

variable {message : List UInt8} {ctx : Md5Ctx} (absorbed : Absorbed message ctx)

include absorbed

theorem Absorbed.used : (ctx.count &&& 63).toNat = (remainder 64 message).length := by
  rw [absorbed.count, used_eq, length_remainder]

theorem Absorbed.held :
    ctx.buffer.take (remainder 64 message).length = remainder 64 message := by
  rw [length_remainder]
  exact absorbed.buffer

theorem Absorbed.counted (bytes : List UInt8) :
    ctx.count + UInt64.ofNat bytes.length = UInt64.ofNat (message ++ bytes).length := by
  rw [absorbed.count, List.length_append, UInt64.ofNat_add]

/-- Bytes that do not fill the buffer are only kept. -/
theorem Absorbed.keep {bytes : List UInt8}
    (short : (remainder 64 message).length + bytes.length < 64) :
    Absorbed (message ++ bytes)
      { ctx with
        count := ctx.count + UInt64.ofNat bytes.length
        buffer := copied ctx.buffer (remainder 64 message).length bytes } := by
  have fits : (remainder 64 message ++ bytes).length < 64 := by rwa [List.length_append]
  have inside : (remainder 64 message).length + bytes.length ≤ ctx.buffer.length := by
    rw [absorbed.size]
    exact Nat.le_of_lt short
  have rest := remainder_append (by decide : 0 < 64) message bytes
  rw [remainder_short fits] at rest
  have length : (message ++ bytes).length % 64 =
      (remainder 64 message).length + bytes.length := by
    rw [← length_remainder, rest, List.length_append]
  refine ⟨?_, absorbed.counted bytes, (length_copied inside).trans absorbed.size, ?_⟩
  · rw [blocks_remainder (by decide), blocks_short fits, List.append_nil]
    exact absorbed.state
  · rw [rest]
    exact (take_copied inside length).trans (congrArg (· ++ bytes) absorbed.held)

/-- Bytes that fill the buffer make a block with what it holds. -/
theorem Absorbed.fill {bytes : List UInt8}
    (full : (remainder 64 message).length + bytes.length = 64) :
    copied ctx.buffer (remainder 64 message).length bytes = remainder 64 message ++ bytes := by
  have inside : (remainder 64 message).length + bytes.length = ctx.buffer.length :=
    full.trans absorbed.size.symm
  have filled := take_copied (Nat.le_of_eq inside) inside.symm
  rwa [List.take_of_length_le (Nat.le_of_eq (length_copied (Nat.le_of_eq inside))),
    absorbed.held] at filled

/-- An update takes in some more of the message. -/
theorem Absorbed.update (bytes : List UInt8) :
    Absorbed (message ++ bytes) (md5Update ctx bytes) := by
  have counted := absorbed.counted bytes
  have below := remainder_lt (by decide : 0 < 64) message
  unfold md5Update
  rw [absorbed.used]
  dsimp only
  split
  · split
    · rename_i short
      exact absorbed.keep (by omega)
    · rename_i long
      have front : (bytes.take (64 - (remainder 64 message).length)).length =
          64 - (remainder 64 message).length := List.length_take_of_le (Nat.le_of_not_lt long)
      have full : (remainder 64 message).length +
          (bytes.take (64 - (remainder 64 message).length)).length = 64 := by
        rw [front]
        exact Nat.add_sub_of_le (Nat.le_of_lt below)
      have whole : (remainder 64 message ++
          bytes.take (64 - (remainder 64 message).length)).length = 64 :=
        List.length_append.trans full
      have first := blocks_block (by decide) whole
        (bytes.drop (64 - (remainder 64 message).length))
      have later := remainder_block (by decide) whole
        (bytes.drop (64 - (remainder 64 message).length))
      rw [List.append_assoc, List.take_append_drop] at first later
      rw [absorbed.fill full]
      refine absorbed_whole [_] counted ?_ whole first later
      rw [List.foldl_append, ← absorbed.state]
      rfl
  · rename_i none
    have empty : remainder 64 message = [] :=
      List.eq_nil_of_length_eq_zero (Decidable.not_not.1 none)
    refine absorbed_whole [] counted ?_ absorbed.size ?_ ?_
    · rw [List.append_nil]
      exact absorbed.state
    · rw [empty]
      rfl
    · rw [empty]
      rfl

end Update

theorem absorbed_updates {message : List UInt8} {ctx : Md5Ctx} (absorbed : Absorbed message ctx)
    (pieces : List (List UInt8)) :
    Absorbed (message ++ pieces.flatten) (pieces.foldl md5Update ctx) := by
  induction pieces generalizing message ctx with
  | nil => rwa [List.flatten_nil, List.append_nil]
  | cons piece pieces ih =>
      rw [List.flatten_cons, ← List.append_assoc]
      exact ih (absorbed.update piece)

/-! ## The digest -/

/-- The tail is the padding of the standard. -/
theorem md5Tail_eq (length : Nat) : md5Tail (UInt64.ofNat length) =
    [0x80] ++ List.replicate (zeros length) 0 ++ le64 (8 * length) := by
  have bits : UInt64.ofNat length * 8 = UInt64.ofNat (8 * length) := by
    rw [Nat.mul_comm, UInt64.ofNat_mul]
    rfl
  have pad : (if length % 64 < 56 then 56 - length % 64 else 120 - length % 64) =
      zeros length + 1 := by
    unfold zeros
    split <;> omega
  have few : zeros length < 64 := Nat.mod_lt _ (by decide)
  have marked : (List.replicate 72 (0 : UInt8)).set 0 0x80 = 0x80 :: List.replicate 71 0 := rfl
  have room : zeros length + 1 + (le64 (8 * length)).length ≤
      (0x80 :: List.replicate 71 (0 : UInt8)).length := by
    rw [length_le64, List.length_cons, List.length_replicate]
    omega
  unfold md5Tail
  dsimp only
  rw [used_eq, bits, pad, marked, @foldl_set _ _ _ _ 8 room, le64_eq]
  refine (take_copied room rfl).trans ?_
  rw [List.take_succ_cons, List.take_replicate, Nat.min_eq_left (by omega), List.singleton_append]

/-- The digest of the padded blocks of a message. -/
def md5Digest (message : List UInt8) : List UInt8 :=
  ((blocks 64 (padded le64 message)).foldl md5Transform md5InitialState).toList.flatMap md5Bytes

theorem md5Final_updates (pieces : List (List UInt8)) :
    md5Final (pieces.foldl md5Update md5Init) = md5Digest pieces.flatten := by
  have absorbed := absorbed_updates absorbed_init pieces
  rw [List.nil_append] at absorbed
  have last := absorbed.update (md5Tail (UInt64.ofNat pieces.flatten.length))
  rw [md5Final, absorbed.count, last.state, md5Tail_eq]
  rfl

/-- However a message is cut, its digest is that of its padded blocks. -/
theorem md5_pieces (pieces : List (List UInt8)) : md5Final (pieces.foldl md5Update md5Init) =
    ((blocks 64 (padded le64 pieces.flatten)).foldl md5Transform
      md5InitialState).toList.flatMap md5Bytes :=
  md5Final_updates pieces

example : md5 [0x61, 0x62, 0x63] = [0x90, 0x01, 0x50, 0x98, 0x3c, 0xd2, 0x4f, 0xb0, 0xd6, 0x96,
    0x3f, 0x7d, 0x28, 0xe1, 0x7f, 0x72] := by
  decide +kernel

/-! ## `crypt` with a salt -/

/-- One context over its updates. -/
def md5Updates (pieces : List (List UInt8)) : List UInt8 :=
  md5Final (pieces.foldl md5Update md5Init)

def md5Magic : List UInt8 := [0x24, 0x31, 0x24]

/-- The salt without `$1$`, up to a `$` or eight bytes. -/
def cleanSalt (salt : List UInt8) : List UInt8 :=
  let bare := if salt.take 3 = md5Magic then salt.drop 3 else salt
  (bare.take 8).takeWhile (· ≠ 0x24)

/-- One digest at a time for as many bytes as the password is long. -/
def foldedIn (digest : List UInt8) (length : Nat) : List (List UInt8) :=
  if 16 < length then digest :: foldedIn digest (length - 16) else [digest.take length]
termination_by length

/-- The bits of the length, from the lowest on. -/
def lengthBits (password : List UInt8) (length : Nat) : List (List UInt8) :=
  if length ≠ 0 then
    (if length &&& 1 ≠ 0 then [0] else password.take 1) :: lengthBits password (length >>> 1)
  else []
termination_by length
decreasing_by
  rw [Nat.shiftRight_eq_div_pow]
  omega

/-- The updates of one of the thousand rounds. -/
def md5Round (password salt digest : List UInt8) (i : Nat) : List (List UInt8) :=
  [if i &&& 1 ≠ 0 then password else digest] ++ (if i % 3 ≠ 0 then [salt] else []) ++
    (if i % 7 ≠ 0 then [password] else []) ++ [if i &&& 1 ≠ 0 then digest else password]

def md5CryptAlphabet : List UInt8 :=
  [0x2e, 0x2f] ++ List.map UInt8.ofNat (List.range' 0x30 10 ++ List.range' 0x41 26 ++
    List.range' 0x61 26)

/-- Some groups of six bits, the lowest first. -/
def sixBits (value : Nat) : Nat → List UInt8
  | 0 => []
  | count + 1 => md5CryptAlphabet.getD (value &&& 0x3f) 0 :: sixBits (value >>> 6) count

/-- `md5_crypt_encode`. -/
def md5CryptEncode (digest : List UInt8) : List UInt8 :=
  let byte (index : Nat) : Nat := (digest.getD index 0).toNat
  [(0, 6, 12), (1, 7, 13), (2, 8, 14), (3, 9, 15), (4, 10, 5)].flatMap (fun order =>
    sixBits (byte order.1 <<< 16 ||| byte order.2.1 <<< 8 ||| byte order.2.2) 4) ++
      sixBits (byte 11) 2

/-- `dtv_md5_crypt`, with what hashes the updates of a context. -/
def md5CryptOf (hash : List (List UInt8) → List UInt8) (password salt : List UInt8)
    (outputSize : Nat) : Option (List UInt8) :=
  if outputSize < 64 then none
  else
    let salt := cleanSalt salt
    let inner := hash [password, salt, password]
    let start := hash ([password, md5Magic, salt] ++ foldedIn inner password.length ++
      lengthBits password password.length)
    let digest := (List.range 1000).foldl
      (fun digest i => hash (md5Round password salt digest i)) start
    some (md5Magic ++ salt ++ [0x24] ++ md5CryptEncode digest)

def dtvMd5Crypt : List UInt8 → List UInt8 → Nat → Option (List UInt8) := md5CryptOf md5Updates

/-- Every digest in it is the one of a whole message. -/
theorem dtvMd5Crypt_eq :
    dtvMd5Crypt = md5CryptOf fun pieces => md5Digest pieces.flatten := by
  have hash : md5Updates = fun pieces => md5Digest pieces.flatten := funext md5Final_updates
  rw [dtvMd5Crypt, hash]

end Crypt
