import UsbDvbs2.Crypto.Des

/-! # AES-128

The cipher of cs378x in `dtv_camd_crypt.c`, byte by byte. Every layer of a round is undone
by its inverse: the two tables invert each other, and the columns are mixed with matrices
over the field of 256 elements whose product is the identity.
-/

namespace Crypt

def aesSbox : List UInt8 := [
  0x63, 0x7c, 0x77, 0x7b, 0xf2, 0x6b, 0x6f, 0xc5, 0x30, 0x01, 0x67, 0x2b, 0xfe, 0xd7, 0xab, 0x76,
  0xca, 0x82, 0xc9, 0x7d, 0xfa, 0x59, 0x47, 0xf0, 0xad, 0xd4, 0xa2, 0xaf, 0x9c, 0xa4, 0x72, 0xc0,
  0xb7, 0xfd, 0x93, 0x26, 0x36, 0x3f, 0xf7, 0xcc, 0x34, 0xa5, 0xe5, 0xf1, 0x71, 0xd8, 0x31, 0x15,
  0x04, 0xc7, 0x23, 0xc3, 0x18, 0x96, 0x05, 0x9a, 0x07, 0x12, 0x80, 0xe2, 0xeb, 0x27, 0xb2, 0x75,
  0x09, 0x83, 0x2c, 0x1a, 0x1b, 0x6e, 0x5a, 0xa0, 0x52, 0x3b, 0xd6, 0xb3, 0x29, 0xe3, 0x2f, 0x84,
  0x53, 0xd1, 0x00, 0xed, 0x20, 0xfc, 0xb1, 0x5b, 0x6a, 0xcb, 0xbe, 0x39, 0x4a, 0x4c, 0x58, 0xcf,
  0xd0, 0xef, 0xaa, 0xfb, 0x43, 0x4d, 0x33, 0x85, 0x45, 0xf9, 0x02, 0x7f, 0x50, 0x3c, 0x9f, 0xa8,
  0x51, 0xa3, 0x40, 0x8f, 0x92, 0x9d, 0x38, 0xf5, 0xbc, 0xb6, 0xda, 0x21, 0x10, 0xff, 0xf3, 0xd2,
  0xcd, 0x0c, 0x13, 0xec, 0x5f, 0x97, 0x44, 0x17, 0xc4, 0xa7, 0x7e, 0x3d, 0x64, 0x5d, 0x19, 0x73,
  0x60, 0x81, 0x4f, 0xdc, 0x22, 0x2a, 0x90, 0x88, 0x46, 0xee, 0xb8, 0x14, 0xde, 0x5e, 0x0b, 0xdb,
  0xe0, 0x32, 0x3a, 0x0a, 0x49, 0x06, 0x24, 0x5c, 0xc2, 0xd3, 0xac, 0x62, 0x91, 0x95, 0xe4, 0x79,
  0xe7, 0xc8, 0x37, 0x6d, 0x8d, 0xd5, 0x4e, 0xa9, 0x6c, 0x56, 0xf4, 0xea, 0x65, 0x7a, 0xae, 0x08,
  0xba, 0x78, 0x25, 0x2e, 0x1c, 0xa6, 0xb4, 0xc6, 0xe8, 0xdd, 0x74, 0x1f, 0x4b, 0xbd, 0x8b, 0x8a,
  0x70, 0x3e, 0xb5, 0x66, 0x48, 0x03, 0xf6, 0x0e, 0x61, 0x35, 0x57, 0xb9, 0x86, 0xc1, 0x1d, 0x9e,
  0xe1, 0xf8, 0x98, 0x11, 0x69, 0xd9, 0x8e, 0x94, 0x9b, 0x1e, 0x87, 0xe9, 0xce, 0x55, 0x28, 0xdf,
  0x8c, 0xa1, 0x89, 0x0d, 0xbf, 0xe6, 0x42, 0x68, 0x41, 0x99, 0x2d, 0x0f, 0xb0, 0x54, 0xbb, 0x16]

def aesInvSbox : List UInt8 := [
  0x52, 0x09, 0x6a, 0xd5, 0x30, 0x36, 0xa5, 0x38, 0xbf, 0x40, 0xa3, 0x9e, 0x81, 0xf3, 0xd7, 0xfb,
  0x7c, 0xe3, 0x39, 0x82, 0x9b, 0x2f, 0xff, 0x87, 0x34, 0x8e, 0x43, 0x44, 0xc4, 0xde, 0xe9, 0xcb,
  0x54, 0x7b, 0x94, 0x32, 0xa6, 0xc2, 0x23, 0x3d, 0xee, 0x4c, 0x95, 0x0b, 0x42, 0xfa, 0xc3, 0x4e,
  0x08, 0x2e, 0xa1, 0x66, 0x28, 0xd9, 0x24, 0xb2, 0x76, 0x5b, 0xa2, 0x49, 0x6d, 0x8b, 0xd1, 0x25,
  0x72, 0xf8, 0xf6, 0x64, 0x86, 0x68, 0x98, 0x16, 0xd4, 0xa4, 0x5c, 0xcc, 0x5d, 0x65, 0xb6, 0x92,
  0x6c, 0x70, 0x48, 0x50, 0xfd, 0xed, 0xb9, 0xda, 0x5e, 0x15, 0x46, 0x57, 0xa7, 0x8d, 0x9d, 0x84,
  0x90, 0xd8, 0xab, 0x00, 0x8c, 0xbc, 0xd3, 0x0a, 0xf7, 0xe4, 0x58, 0x05, 0xb8, 0xb3, 0x45, 0x06,
  0xd0, 0x2c, 0x1e, 0x8f, 0xca, 0x3f, 0x0f, 0x02, 0xc1, 0xaf, 0xbd, 0x03, 0x01, 0x13, 0x8a, 0x6b,
  0x3a, 0x91, 0x11, 0x41, 0x4f, 0x67, 0xdc, 0xea, 0x97, 0xf2, 0xcf, 0xce, 0xf0, 0xb4, 0xe6, 0x73,
  0x96, 0xac, 0x74, 0x22, 0xe7, 0xad, 0x35, 0x85, 0xe2, 0xf9, 0x37, 0xe8, 0x1c, 0x75, 0xdf, 0x6e,
  0x47, 0xf1, 0x1a, 0x71, 0x1d, 0x29, 0xc5, 0x89, 0x6f, 0xb7, 0x62, 0x0e, 0xaa, 0x18, 0xbe, 0x1b,
  0xfc, 0x56, 0x3e, 0x4b, 0xc6, 0xd2, 0x79, 0x20, 0x9a, 0xdb, 0xc0, 0xfe, 0x78, 0xcd, 0x5a, 0xf4,
  0x1f, 0xdd, 0xa8, 0x33, 0x88, 0x07, 0xc7, 0x31, 0xb1, 0x12, 0x10, 0x59, 0x27, 0x80, 0xec, 0x5f,
  0x60, 0x51, 0x7f, 0xa9, 0x19, 0xb5, 0x4a, 0x0d, 0x2d, 0xe5, 0x7a, 0x9f, 0x93, 0xc9, 0x9c, 0xef,
  0xa0, 0xe0, 0x3b, 0x4d, 0xae, 0x2a, 0xf5, 0xb0, 0xc8, 0xeb, 0xbb, 0x3c, 0x83, 0x53, 0x99, 0x61,
  0x17, 0x2b, 0x04, 0x7e, 0xba, 0x77, 0xd6, 0x26, 0xe1, 0x69, 0x14, 0x63, 0x55, 0x21, 0x0c, 0x7d]

abbrev AesBlock : Type := Vector UInt8 16

/-! ## The cipher -/

/-- Twice an element of the field. -/
def gfDouble (a : UInt8) : UInt8 := (a <<< 1) ^^^ (if a &&& 0x80 ≠ 0 then 0x1b else 0)

/-- The loop of `gf_mul`; a byte is used up after eight turns. -/
def gfLoop : Nat → UInt8 → UInt8 → UInt8 → UInt8
  | 0, _, _, result => result
  | turns + 1, a, b, result =>
      if b = 0 then result
      else gfLoop turns (gfDouble a) (b >>> 1) (if b &&& 1 = 1 then result ^^^ a else result)

def gfMul (a b : UInt8) : UInt8 := gfLoop 8 a b 0

def wordOf (first second third fourth : UInt8) : UInt32 :=
  (first.toUInt32 <<< 24) ||| (second.toUInt32 <<< 16) ||| (third.toUInt32 <<< 8) |||
    fourth.toUInt32

def subByte (byte : UInt8) : UInt8 := aesSbox.getD byte.toNat 0

def invSubByte (byte : UInt8) : UInt8 := aesInvSbox.getD byte.toNat 0

/-- One word more of the key schedule, and the next round constant. -/
def aesExpand (done : List UInt32 × UInt8) (i : Nat) : List UInt32 × UInt8 :=
  let word := done.1.getD (i - 1) 0
  let before := done.1.getD (i - 4) 0
  if i % 4 = 0 then
    let turned := (word <<< 8) ||| (word >>> 24)
    let mixed := wordOf (subByte (turned >>> 24).toUInt8) (subByte (turned >>> 16).toUInt8)
      (subByte (turned >>> 8).toUInt8) (subByte turned.toUInt8)
    (done.1 ++ [before ^^^ mixed ^^^ (done.2.toUInt32 <<< 24)], gfMul done.2 2)
  else (done.1 ++ [before ^^^ word], done.2)

/-- The forty-four words of the round keys. -/
def dtvAes128SetKey (key : AesBlock) : List UInt32 :=
  let first := (List.range 4).map fun i =>
    wordOf (key.toList.getD (4 * i) 0) (key.toList.getD (4 * i + 1) 0)
      (key.toList.getD (4 * i + 2) 0) (key.toList.getD (4 * i + 3) 0)
  (((List.range 40).map (· + 4)).foldl aesExpand (first, 1)).1

def aesAddRoundKey (schedule : List UInt32) (round : Nat) (state : AesBlock) : AesBlock :=
  state.mapIdx fun pos byte =>
    byte ^^^ (schedule.getD (4 * round + pos / 4) 0 >>> (24 - 8 * (pos % 4)).toUInt32).toUInt8

/-- Row `r` rotates left by `r` positions. -/
def shiftRows (state : AesBlock) : AesBlock :=
  .ofFn fun pos => state.toList.getD (4 * ((pos / 4 + pos % 4) % 4) + pos % 4) 0

def invShiftRows (state : AesBlock) : AesBlock :=
  .ofFn fun pos => state.toList.getD (4 * ((pos / 4 + 4 - pos % 4) % 4) + pos % 4) 0

def mixColumn (a0 a1 a2 a3 : UInt8) : Nat → UInt8
  | 0 => gfMul a0 2 ^^^ gfMul a1 3 ^^^ a2 ^^^ a3
  | 1 => a0 ^^^ gfMul a1 2 ^^^ gfMul a2 3 ^^^ a3
  | 2 => a0 ^^^ a1 ^^^ gfMul a2 2 ^^^ gfMul a3 3
  | _ => gfMul a0 3 ^^^ a1 ^^^ a2 ^^^ gfMul a3 2

def invMixColumn (a0 a1 a2 a3 : UInt8) : Nat → UInt8
  | 0 => gfMul a0 14 ^^^ gfMul a1 11 ^^^ gfMul a2 13 ^^^ gfMul a3 9
  | 1 => gfMul a0 9 ^^^ gfMul a1 14 ^^^ gfMul a2 11 ^^^ gfMul a3 13
  | 2 => gfMul a0 13 ^^^ gfMul a1 9 ^^^ gfMul a2 14 ^^^ gfMul a3 11
  | _ => gfMul a0 11 ^^^ gfMul a1 13 ^^^ gfMul a2 9 ^^^ gfMul a3 14

/-- A column operation, applied to each of the four columns. -/
def onColumns (operation : UInt8 → UInt8 → UInt8 → UInt8 → Nat → UInt8) (state : AesBlock) :
    AesBlock :=
  .ofFn fun pos =>
    let column := 4 * (pos.val / 4)
    operation (state.toList.getD column 0) (state.toList.getD (column + 1) 0)
      (state.toList.getD (column + 2) 0) (state.toList.getD (column + 3) 0) (pos % 4)

def mixColumns : AesBlock → AesBlock := onColumns mixColumn

def invMixColumns : AesBlock → AesBlock := onColumns invMixColumn

/-- The state after a round; the tenth does not mix. -/
def aesEncryptRounds (schedule : List UInt32) (block : AesBlock) : Nat → AesBlock
  | 0 => aesAddRoundKey schedule 0 block
  | before + 1 =>
      let shifted := shiftRows ((aesEncryptRounds schedule block before).map subByte)
      aesAddRoundKey schedule (before + 1)
        (if before + 1 ≠ 10 then mixColumns shifted else shifted)

def dtvAes128EncryptBlock (schedule : List UInt32) (block : AesBlock) : AesBlock :=
  aesEncryptRounds schedule block 10

/-- The rounds from the given one down to the first. -/
def aesDecryptRounds (schedule : List UInt32) : Nat → AesBlock → AesBlock
  | 0, state => state
  | before + 1, state =>
      let keyed := aesAddRoundKey schedule before ((invShiftRows state).map invSubByte)
      aesDecryptRounds schedule before (if before + 1 ≠ 1 then invMixColumns keyed else keyed)

def dtvAes128DecryptBlock (schedule : List UInt32) (block : AesBlock) : AesBlock :=
  aesDecryptRounds schedule 10 (aesAddRoundKey schedule 10 block)

/-! ## The layers of a round undo each other -/

/-- The second table inverts the first. -/
theorem invSubByte_aesSbox : aesSbox.map invSubByte = (List.range 256).map UInt8.ofNat := by
  decide +kernel

theorem invSubByte_subByte (byte : UInt8) : invSubByte (subByte byte) = byte := by
  have inside : byte.toNat < (List.range 256).length := by
    rw [List.length_range]
    exact byte.toNat_lt
  have there : (aesSbox.map invSubByte)[byte.toNat]? = some byte := by
    rw [invSubByte_aesSbox, List.getElem?_map, List.getElem?_eq_getElem inside,
      List.getElem_range, Option.map_some, UInt8.ofNat_toNat]
  rw [List.getElem?_map, Option.map_eq_some_iff] at there
  obtain ⟨entry, listed, same⟩ := there
  rw [subByte, List.getD_eq_getElem?_getD, listed]
  exact same

theorem aesAddRoundKey_cancel (schedule : List UInt32) (round : Nat) (state : AesBlock) :
    aesAddRoundKey schedule round (aesAddRoundKey schedule round state) = state := by
  apply Vector.ext
  intro pos inside
  simp only [aesAddRoundKey, Vector.getElem_mapIdx, UInt8.xor_assoc, UInt8.xor_self,
    UInt8.xor_zero]

theorem getD_toList {n : Nat} (data : Vector UInt8 n) {pos : Nat} (inside : pos < n) :
    data.toList.getD pos 0 = data[pos] := by
  rw [List.getD_eq_getElem?_getD, List.getElem?_eq_getElem (by rwa [Vector.length_toList]),
    Option.getD_some, Vector.getElem_toList]

theorem invShiftRows_shiftRows (state : AesBlock) : invShiftRows (shiftRows state) = state := by
  apply Vector.ext
  intro pos inside
  have there : 4 * ((pos / 4 + 4 - pos % 4) % 4) + pos % 4 < 16 := by omega
  have column : (4 * ((pos / 4 + 4 - pos % 4) % 4) + pos % 4) / 4 =
      (pos / 4 + 4 - pos % 4) % 4 := by omega
  have row : (4 * ((pos / 4 + 4 - pos % 4) % 4) + pos % 4) % 4 = pos % 4 := by omega
  have back : 4 * (((pos / 4 + 4 - pos % 4) % 4 + pos % 4) % 4) + pos % 4 = pos := by omega
  simp only [invShiftRows, Vector.getElem_ofFn, getD_toList _ there, shiftRows, column, row, back,
    getD_toList _ inside]

/-! ## Mixing columns

Multiplication is additive in its first factor, so only the products of the coefficients of
the two matrices have to be looked at. -/

theorem topBit_cases (byte : UInt8) : byte &&& 0x80 = 0 ∨ byte &&& 0x80 = 0x80 := by
  have bit := BitVec.and_twoPow byte.toBitVec 7
  rw [← UInt8.toBitVec_inj, ← UInt8.toBitVec_inj, UInt8.toBitVec_and]
  split at bit
  · exact .inr bit
  · exact .inl bit

theorem gfDouble_xor (a b : UInt8) : gfDouble (a ^^^ b) = gfDouble a ^^^ gfDouble b := by
  have top : (a ^^^ b) &&& 0x80 = (a &&& 0x80) ^^^ (b &&& 0x80) := by
    apply UInt8.toNat_inj.mp
    simp only [UInt8.toNat_and, UInt8.toNat_xor]
    exact Nat.and_xor_distrib_right
  have carry : (if (a ^^^ b) &&& 0x80 ≠ 0 then (0x1b : UInt8) else 0) =
      (if a &&& 0x80 ≠ 0 then 0x1b else 0) ^^^ (if b &&& 0x80 ≠ 0 then 0x1b else 0) := by
    rw [top]
    rcases topBit_cases a with low | high <;> rcases topBit_cases b with low' | high' <;>
      simp only [*] <;> decide
  rw [gfDouble, gfDouble, gfDouble, UInt8.shiftLeft_xor, carry]
  ac_rfl

theorem gfLoop_xor (turns : Nat) (a a' b result result' : UInt8) :
    gfLoop turns (a ^^^ a') b (result ^^^ result') =
      gfLoop turns a b result ^^^ gfLoop turns a' b result' := by
  induction turns generalizing a a' b result result' with
  | zero => rfl
  | succ turns ih =>
      unfold gfLoop
      by_cases done : b = 0
      · rw [if_pos done, if_pos done, if_pos done]
      · rw [if_neg done, if_neg done, if_neg done, gfDouble_xor, ← ih]
        by_cases odd : b &&& 1 = 1
        · rw [if_pos odd, if_pos odd, if_pos odd]
          congr 1
          ac_rfl
        · rw [if_neg odd, if_neg odd, if_neg odd]

theorem gfMul_xor (a a' b : UInt8) : gfMul (a ^^^ a') b = gfMul a b ^^^ gfMul a' b :=
  gfLoop_xor 8 a a' b 0 0

/-- The products with the coefficients, in doublings. -/
theorem gfMul_doubles (x : UInt8) :
    gfMul x 2 = gfDouble x ∧ gfMul x 3 = x ^^^ gfDouble x ∧
      gfMul x 9 = x ^^^ gfDouble (gfDouble (gfDouble x)) ∧
      gfMul x 11 = x ^^^ gfDouble x ^^^ gfDouble (gfDouble (gfDouble x)) ∧
      gfMul x 13 = x ^^^ gfDouble (gfDouble x) ^^^ gfDouble (gfDouble (gfDouble x)) ∧
      gfMul x 14 =
        gfDouble x ^^^ gfDouble (gfDouble x) ^^^ gfDouble (gfDouble (gfDouble x)) := by
  refine ⟨?_, ?_, ?_, ?_, ?_, ?_⟩ <;> simp +decide [gfMul, gfLoop]

theorem xor_swap (a b c : UInt8) : a ^^^ (b ^^^ c) = b ^^^ (a ^^^ c) := by ac_rfl

theorem xor_xor_cancel (a b : UInt8) : a ^^^ (a ^^^ b) = b := by
  rw [← UInt8.xor_assoc, UInt8.xor_self, UInt8.zero_xor]

/-- The product of the two matrices: its diagonal, and the other entries of a row. -/
theorem unmixed (x : UInt8) :
    gfMul (gfMul x 2) 14 ^^^ gfMul x 11 ^^^ gfMul x 13 ^^^ gfMul (gfMul x 3) 9 = x ∧
      gfMul (gfMul x 3) 14 ^^^ gfMul (gfMul x 2) 11 ^^^ gfMul x 13 ^^^ gfMul x 9 = 0 ∧
      gfMul x 14 ^^^ gfMul (gfMul x 3) 11 ^^^ gfMul (gfMul x 2) 13 ^^^ gfMul x 9 = 0 ∧
      gfMul x 14 ^^^ gfMul x 11 ^^^ gfMul (gfMul x 3) 13 ^^^ gfMul (gfMul x 2) 9 = 0 := by
  obtain ⟨two, three, -⟩ := gfMul_doubles x
  obtain ⟨-, -, nine, eleven, thirteen, fourteen⟩ := gfMul_doubles x
  obtain ⟨-, -, nine', eleven', thirteen', fourteen'⟩ := gfMul_doubles (gfDouble x)
  simp only [two, three, gfMul_xor, nine, eleven, thirteen, fourteen, nine', eleven', thirteen',
    fourteen']
  -- every doubling of `x` is there an even number of times
  refine ⟨?_, ?_, ?_, ?_⟩ <;>
    simp only [xor_swap, UInt8.xor_comm, xor_xor_cancel, UInt8.xor_self, UInt8.xor_zero]

theorem unmixed_own (x : UInt8) :
    gfMul (gfMul x 2) 14 ^^^ gfMul x 11 ^^^ gfMul x 13 ^^^ gfMul (gfMul x 3) 9 = x :=
  (unmixed x).1

theorem unmixed_next (x : UInt8) :
    gfMul (gfMul x 3) 14 ^^^ gfMul (gfMul x 2) 11 ^^^ gfMul x 13 ^^^ gfMul x 9 = 0 :=
  (unmixed x).2.1

theorem unmixed_across (x : UInt8) :
    gfMul x 14 ^^^ gfMul (gfMul x 3) 11 ^^^ gfMul (gfMul x 2) 13 ^^^ gfMul x 9 = 0 :=
  (unmixed x).2.2.1

theorem unmixed_before (x : UInt8) :
    gfMul x 14 ^^^ gfMul x 11 ^^^ gfMul (gfMul x 3) 13 ^^^ gfMul (gfMul x 2) 9 = 0 :=
  (unmixed x).2.2.2

theorem xor_rotate (p q r s : UInt8) : p ^^^ q ^^^ r ^^^ s = q ^^^ r ^^^ s ^^^ p := by ac_rfl

theorem xor_transpose (p0 p1 p2 p3 q0 q1 q2 q3 r0 r1 r2 r3 s0 s1 s2 s3 : UInt8) :
    (p0 ^^^ p1 ^^^ p2 ^^^ p3) ^^^ (q0 ^^^ q1 ^^^ q2 ^^^ q3) ^^^ (r0 ^^^ r1 ^^^ r2 ^^^ r3) ^^^
        (s0 ^^^ s1 ^^^ s2 ^^^ s3) =
      (p0 ^^^ q0 ^^^ r0 ^^^ s0) ^^^ (p1 ^^^ q1 ^^^ r1 ^^^ s1) ^^^ (p2 ^^^ q2 ^^^ r2 ^^^ s2) ^^^
        (p3 ^^^ q3 ^^^ r3 ^^^ s3) := by
  ac_rfl

/-- Unmixing a mixed column gives its bytes back. -/
theorem invMixColumn_mixColumn (a : Nat → UInt8) (pos : Nat) (inside : pos < 4) :
    invMixColumn (mixColumn (a 0) (a 1) (a 2) (a 3) 0) (mixColumn (a 0) (a 1) (a 2) (a 3) 1)
      (mixColumn (a 0) (a 1) (a 2) (a 3) 2) (mixColumn (a 0) (a 1) (a 2) (a 3) 3) pos = a pos := by
  -- every row of coefficients is the first one, turned by its position
  match pos with
  | 0 =>
      simp only [mixColumn, invMixColumn, gfMul_xor]
      rw [xor_transpose, unmixed_own, unmixed_next, unmixed_across, unmixed_before]
      simp only [UInt8.xor_zero]
  | 1 =>
      simp only [mixColumn, invMixColumn, gfMul_xor]
      rw [xor_transpose, xor_rotate (gfMul (gfMul (a 0) 2) 9), unmixed_before,
        xor_rotate (gfMul (gfMul (a 1) 3) 9), unmixed_own,
        xor_rotate (gfMul (a 2) 9), unmixed_next, xor_rotate (gfMul (a 3) 9), unmixed_across]
      simp only [UInt8.xor_zero, UInt8.zero_xor]
  | 2 =>
      simp only [mixColumn, invMixColumn, gfMul_xor]
      rw [xor_transpose, xor_rotate (gfMul (gfMul (a 0) 2) 13), xor_rotate (gfMul (a 0) 9),
        unmixed_across, xor_rotate (gfMul (gfMul (a 1) 3) 13),
        xor_rotate (gfMul (gfMul (a 1) 2) 9), unmixed_before, xor_rotate (gfMul (a 2) 13),
        xor_rotate (gfMul (gfMul (a 2) 3) 9), unmixed_own, xor_rotate (gfMul (a 3) 13),
        xor_rotate (gfMul (a 3) 9), unmixed_next]
      simp only [UInt8.xor_zero, UInt8.zero_xor]
  | 3 =>
      simp only [mixColumn, invMixColumn, gfMul_xor]
      rw [xor_transpose, ← xor_rotate (gfMul (gfMul (a 0) 3) 14), unmixed_next,
        ← xor_rotate (gfMul (a 1) 14), unmixed_across, ← xor_rotate (gfMul (a 2) 14),
        unmixed_before, ← xor_rotate (gfMul (gfMul (a 3) 2) 14), unmixed_own]
      simp only [UInt8.xor_zero, UInt8.zero_xor]

theorem getElem_onColumns (operation : UInt8 → UInt8 → UInt8 → UInt8 → Nat → UInt8)
    (state : AesBlock) {pos : Nat} (inside : pos < 16) :
    (onColumns operation state)[pos] =
      operation (state.toList.getD (4 * (pos / 4)) 0) (state.toList.getD (4 * (pos / 4) + 1) 0)
        (state.toList.getD (4 * (pos / 4) + 2) 0) (state.toList.getD (4 * (pos / 4) + 3) 0)
        (pos % 4) := by
  simp only [onColumns, Vector.getElem_ofFn]

theorem invMixColumns_mixColumns (state : AesBlock) : invMixColumns (mixColumns state) = state := by
  apply Vector.ext
  intro pos inside
  have entry : ∀ row < 4, (mixColumns state).toList.getD (4 * (pos / 4) + row) 0 =
      mixColumn (state.toList.getD (4 * (pos / 4)) 0) (state.toList.getD (4 * (pos / 4) + 1) 0)
        (state.toList.getD (4 * (pos / 4) + 2) 0) (state.toList.getD (4 * (pos / 4) + 3) 0)
        row := by
    intro row small
    have column : (4 * (pos / 4) + row) / 4 = pos / 4 := by omega
    have place : (4 * (pos / 4) + row) % 4 = row := by omega
    rw [getD_toList _ (by omega), mixColumns, getElem_onColumns, column, place]
  have unmixed := invMixColumn_mixColumn (fun row => state.toList.getD (4 * (pos / 4) + row) 0)
    (pos % 4) (Nat.mod_lt _ (by decide))
  rw [invMixColumns, getElem_onColumns, entry 1 (by decide), entry 2 (by decide),
    entry 3 (by decide)]
  have first := entry 0 (by decide)
  rw [Nat.add_zero] at first unmixed
  rw [first, unmixed, Nat.div_add_mod, getD_toList _ inside]

/-! ## Decrypting undoes encrypting -/

theorem map_invSubByte (state : AesBlock) : (state.map subByte).map invSubByte = state := by
  apply Vector.ext
  intro pos inside
  simp only [Vector.getElem_map, invSubByte_subByte]

/-- From the substituted state in front of a round, the rounds below it lead back to the block. -/
theorem aesDecryptRounds_below (schedule : List UInt32) (block : AesBlock) (before : Nat)
    (most : before < 10) :
    aesDecryptRounds schedule (before + 1)
      (shiftRows ((aesEncryptRounds schedule block before).map subByte)) = block := by
  induction before with
  | zero =>
      simp only [aesDecryptRounds, invShiftRows_shiftRows, map_invSubByte, aesEncryptRounds,
        aesAddRoundKey_cancel]
      rfl
  | succ before ih =>
      have middle : before + 1 ≠ 10 := Nat.ne_of_lt most
      have above : before + 1 + 1 ≠ 1 := by omega
      rw [aesDecryptRounds, invShiftRows_shiftRows, map_invSubByte, if_pos above,
        aesEncryptRounds, if_pos middle, aesAddRoundKey_cancel, invMixColumns_mixColumns]
      exact ih (Nat.lt_of_succ_lt most)

/-- AES decryption undoes encryption under the same schedule. -/
theorem dtvAes128_inverse (schedule : List UInt32) (block : AesBlock) :
    dtvAes128DecryptBlock schedule (dtvAes128EncryptBlock schedule block) = block := by
  have last : ¬(9 + 1 ≠ 10) := by decide
  rw [dtvAes128DecryptBlock, dtvAes128EncryptBlock, aesEncryptRounds, if_neg last,
    aesAddRoundKey_cancel]
  exact aesDecryptRounds_below schedule block 9 (by decide)

end Crypt
