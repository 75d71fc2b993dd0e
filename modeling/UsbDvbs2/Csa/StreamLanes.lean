import UsbDvbs2.Csa.SlicedStream
import UsbDvbs2.Csa.StreamCipher

/-! # A lane of the sliced stream cipher

Seen in one lane, the registers of the sliced cipher are the bits of the packed registers of
`dvbcsa_stream_xor`, and a round of the one is a round of the other: the circuits compute the
entries of the tables.
-/

namespace Dvbcsa

open LittleEndian

theorem respects_bit {c : Nat} (inside : c < 128) : Respects fun word : Word => word.bit c where
  and a b := Word.bit_and a b c
  or a b := Word.bit_or a b c
  xor a b := Word.bit_xor a b c
  not a := Word.bit_not a inside
  zeros := (by decide : ∀ c < 128, (Word.val8 0x00).bit c = false) c inside
  ones := (by decide : ∀ c < 128, (Word.val8 0xff).bit c = true) c inside

/-! ## The packed registers, bit by bit -/

def nibbleAt {w : Nat} (word : BitVec w) (k : Nat) : Quad Bool :=
  ⟨word.getLsbD (4 * k), word.getLsbD (4 * k + 1), word.getLsbD (4 * k + 2),
    word.getLsbD (4 * k + 3)⟩

def nibbles {w : Nat} (word : BitVec w) : Vector (Quad Bool) 10 :=
  Vector.ofFn fun k => nibbleAt word k

theorem get_nibbles {w : Nat} (word : BitVec w) (k : Fin 10) :
    (nibbles word).get k = nibbleAt word k := by
  change (nibbles word)[k.val] = _
  simp [nibbles]

def Registers.slice (r : Registers) : Sliced Bool where
  a := nibbles r.a
  b := nibbles r.b
  x := nibbleAt r.pqzyx 0
  y := nibbleAt r.pqzyx 1
  z := nibbleAt r.pqzyx 2
  d := nibbleAt r.cfed 0
  e := nibbleAt r.cfed 1
  f := nibbleAt r.cfed 2
  p := r.pqzyx.getLsbD 12
  q := r.pqzyx.getLsbD 13
  r := r.cfed.getLsbD 12

/-! ## The tables of A -/

/-- The number with these bits. -/
def number (b0 b1 b2 b3 b4 : Bool) : Nat :=
  b0.toNat + 2 * b1.toNat + 4 * b2.toNat + 8 * b3.toNat + 16 * b4.toNat

theorem low_bits (index : BitVec 64) :
    (index &&& 0x1f).toNat =
      number (index.getLsbD 0) (index.getLsbD 1) (index.getLsbD 2) (index.getLsbD 3)
        (index.getLsbD 4) := by
  have low : (index &&& 0x1f).toNat = index.toNat % 2 ^ 5 := by
    rw [BitVec.toNat_and, ← Nat.and_two_pow_sub_one_eq_mod]
    rfl
  simp only [low, number, BitVec.getLsbD, Nat.toNat_testBit]
  omega

/-- Two bits of a word, set. -/
def pair (i j : Nat) (bits : Bool × Bool) : BitVec 32 :=
  (if bits.1 then .twoPow 32 i else 0) ||| (if bits.2 then .twoPow 32 j else 0)

theorem getLsbD_pair {i j : Nat} (bits : Bool × Bool) (k : Nat) (first : i < 32)
    (second : j < 32) :
    (pair i j bits).getLsbD k =
      ((decide (i = k) && bits.1) || (decide (j = k) && bits.2)) := by
  obtain ⟨one, other⟩ := bits
  cases one <;> cases other <;>
    simp [pair, BitVec.getLsbD_twoPow, first, second]

/-- A number below 1024, from its bits. -/
theorem toNat_of_bits (word : BitVec 32) (small : word.toNat < 1024) :
    word.toNat =
      number (word.getLsbD 0) (word.getLsbD 1) (word.getLsbD 2) (word.getLsbD 3)
          (word.getLsbD 4) +
        32 * number (word.getLsbD 5) (word.getLsbD 6) (word.getLsbD 7) (word.getLsbD 8)
          (word.getLsbD 9) := by
  simp only [number, BitVec.getLsbD, Nat.toNat_testBit]
  omega

/-- The entry of a table for given bits of the index. -/
def entryOf (box : Nat) (b0 b1 b2 b3 b4 : Bool) : BitVec 32 :=
  .ofNat 32 ((csaStreamSbox.getD box []).getD (number b0 b1 b2 b3 b4) 0)

theorem sboxEntry_eq (box : Nat) (index : BitVec 64) :
    sboxEntry box index =
      entryOf box (index.getLsbD 0) (index.getLsbD 1) (index.getLsbD 2) (index.getLsbD 3)
        (index.getLsbD 4) := by
  rw [sboxEntry, low_bits, entryOf]

/-- The tables hold what the circuits compute, at indices that some bits enter twice. -/
theorem entries (fa fb fc fd fe : Bool) :
    entryOf 0 fd fc fb fa fe = pair 0 10 (bsStreamSbox1 fa fb fc fd fe) ∧
      entryOf 1 (fd ^^ fb) fc fb (fc ^^ fa) fe = pair 1 11 (bsStreamSbox2 fa fb fc fd fe) ∧
      entryOf 2 fd fc (fb ^^ fe) fa (fd ^^ fc ^^ fe) = pair 4 2 (bsStreamSbox3 fa fb fc fd fe) ∧
      entryOf 3 (fd ^^ fb) fc fb fa fe = pair 5 3 (bsStreamSbox4 fa fb fc fd fe) ∧
      entryOf 4 (fd ^^ fe) (fc ^^ fa) fb fa fe = pair 8 6 (bsStreamSbox5 fa fb fc fd fe) ∧
      entryOf 5 fd fc fb fa fe = pair 9 7 (bsStreamSbox6 fa fb fc fd fe) ∧
      entryOf 6 fd (fc ^^ fe) (fd ^^ fb) fa fe = pair 12 13 (bsStreamSbox7 fa fb fc fd fe) := by
  revert fa fb fc fd fe
  decide

/-- The circuits' outputs, packed. -/
theorem csaStreamSboxes_eq (a : BitVec 64) :
    csaStreamSboxes a =
      pair 1 11 (bsStreamSbox2 (a.getLsbD 14) (a.getLsbD 27) (a.getLsbD 28) (a.getLsbD 37)
          (a.getLsbD 9)) |||
        pair 8 6 (bsStreamSbox5 (a.getLsbD 19) (a.getLsbD 24) (a.getLsbD 33) (a.getLsbD 38)
          (a.getLsbD 22)) |||
        pair 9 7 (bsStreamSbox6 (a.getLsbD 17) (a.getLsbD 20) (a.getLsbD 30) (a.getLsbD 39)
          (a.getLsbD 13)) |||
        pair 0 10 (bsStreamSbox1 (a.getLsbD 6) (a.getLsbD 25) (a.getLsbD 31) (a.getLsbD 36)
          (a.getLsbD 16)) |||
        pair 4 2 (bsStreamSbox3 (a.getLsbD 8) (a.getLsbD 21) (a.getLsbD 23) (a.getLsbD 26)
          (a.getLsbD 7)) |||
        pair 5 3 (bsStreamSbox4 (a.getLsbD 5) (a.getLsbD 11) (a.getLsbD 18) (a.getLsbD 32)
          (a.getLsbD 15)) |||
        pair 12 13 (bsStreamSbox7 (a.getLsbD 12) (a.getLsbD 29) (a.getLsbD 34) (a.getLsbD 35)
          (a.getLsbD 10)) := by
  rw [← (entries ..).1, ← (entries ..).2.1, ← (entries ..).2.2.1, ← (entries ..).2.2.2.1,
    ← (entries ..).2.2.2.2.1, ← (entries ..).2.2.2.2.2.1, ← (entries ..).2.2.2.2.2.2]
  simp [csaStreamSboxes, sboxEntry_eq]

theorem getLsbD_taken (word low : BitVec 64) (top : ∀ k, 4 ≤ k → low.getLsbD k = false) {k : Nat}
    (high : 4 ≤ k) (inside : k < 64) :
    ((word <<< 4) ||| low).getLsbD k = word.getLsbD (k - 4) := by
  rw [BitVec.getLsbD_or, BitVec.getLsbD_shiftLeft, top _ high, Bool.or_false,
    decide_eq_true inside, decide_eq_false (by omega)]
  rfl

/-- A shift register takes a nibble in at its low end. -/
theorem nibbles_shifted (word low : BitVec 64) (top : ∀ k, 4 ≤ k → low.getLsbD k = false) :
    nibbles ((word <<< 4) ||| low) = shifted (nibbles word) (nibbleAt low 0) := by
  have moved : ∀ k < 10, nibbleAt ((word <<< 4) ||| low) (k + 1) = nibbleAt word k := by
    intro k small
    have bit : ∀ j < 4, ((word <<< 4) ||| low).getLsbD (4 * (k + 1) + j) =
        word.getLsbD (4 * k + j) := by
      intro j _
      rw [getLsbD_taken word low top (by omega) (by omega)]
      congr 1
      omega
    have first : ((word <<< 4) ||| low).getLsbD (4 * (k + 1)) = word.getLsbD (4 * k) :=
      bit 0 (by omega)
    rw [nibbleAt, nibbleAt, first, bit 1 (by omega), bit 2 (by omega), bit 3 (by omega)]
  have taken : nibbleAt ((word <<< 4) ||| low) 0 = nibbleAt low 0 := by
    simp [nibbleAt]
  simp only [shifted, get_nibbles]
  rw [← taken]
  change nibbles _ = #v[_, nibbleAt word 0, nibbleAt word 1, nibbleAt word 2, nibbleAt word 3,
    nibbleAt word 4, nibbleAt word 5, nibbleAt word 6, nibbleAt word 7, nibbleAt word 8]
  rw [← moved 0, ← moved 1, ← moved 2, ← moved 3, ← moved 4, ← moved 5, ← moved 6, ← moved 7,
    ← moved 8]
  · rfl
  all_goals omega

/-! ## The table of C, D, E and F -/

/-- What the table holds: D is the sum of two nibbles without carries, F the sum with them. -/
def cdefFormula (index : Nat) : Nat :=
  let e := index % 16
  let z := index / 16 % 16
  let c := index / 256 % 2
  (if index / 512 = 1 then z + e + c else e + 16 * c) * 256 + (z ^^^ e)

theorem csaStreamCdef_eq : csaStreamCdef = (List.range 1024).map cdefFormula := by
  decide +kernel

theorem cdef_entry {index : Nat} (inside : index < 1024) :
    csaStreamCdef.getD index 0 = cdefFormula index := by
  rw [csaStreamCdef_eq, List.getD_eq_getElem?_getD, List.getElem?_map, List.getElem?_range inside]
  rfl

/-- The bits of what the table holds are those of the sliced registers. -/
theorem cdefFormula_bits (e0 e1 e2 e3 z0 z1 z2 z3 q c : Bool) :
    let word := BitVec.ofNat 32 (cdefFormula (number e0 e1 e2 e3 z0 +
      32 * number z1 z2 z3 c q))
    let sum := summed ⟨z0, z1, z2, z3⟩ ⟨e0, e1, e2, e3⟩ q c
    nibbleAt word 0 = Quad.xor ⟨e0, e1, e2, e3⟩ ⟨z0, z1, z2, z3⟩ ∧
      nibbleAt word 1 = Quad.zeros ∧ nibbleAt word 2 = sum.1 ∧ word.getLsbD 12 = sum.2 := by
  revert e0 e1 e2 e3 z0 z1 z2 z3 q c
  decide

/-- The index into the table: E, Z, the carry and Q. -/
def cdefIndex (pqzyx cfed : BitVec 32) : BitVec 32 :=
  ((cfed &&& 0x10ff) ||| (pqzyx &&& 0x2f00)) >>> 4

theorem cdefIndex_lt (pqzyx cfed : BitVec 32) : (cdefIndex pqzyx cfed).toNat < 1024 := by
  have one : (cfed &&& 0x10ff).toNat < 2 ^ 14 := Nat.and_lt_two_pow _ (by decide)
  have other : (pqzyx &&& 0x2f00).toNat < 2 ^ 14 := Nat.and_lt_two_pow _ (by decide)
  have joined := Nat.or_lt_two_pow one other
  rw [← BitVec.toNat_or] at joined
  rw [cdefIndex, BitVec.toNat_ushiftRight, Nat.shiftRight_eq_div_pow]
  omega

theorem cdefIndex_bits (r : Registers) :
    (cdefIndex r.pqzyx r.cfed).toNat =
      number r.slice.e.n0 r.slice.e.n1 r.slice.e.n2 r.slice.e.n3 r.slice.z.n0 +
        32 * number r.slice.z.n1 r.slice.z.n2 r.slice.z.n3 r.slice.r r.slice.q := by
  rw [toNat_of_bits _ (cdefIndex_lt ..)]
  simp [cdefIndex, Registers.slice, nibbleAt]

/-! ## A round -/

theorem getLsbD_masked {w : Nat} (word mask : BitVec w) {k : Nat} (small : mask.toNat < 16)
    (high : 4 ≤ k) : (word &&& mask).getLsbD k = false := by
  have outside : mask.getLsbD k = false :=
    Nat.testBit_lt_two_pow
      (Nat.lt_of_lt_of_le small (Nat.pow_le_pow_right (by decide : 0 < 2) high))
  rw [BitVec.getLsbD_and, outside, Bool.and_false]

theorem csaStreamBSel_bits (b : BitVec 64) :
    nibbleAt (csaStreamBSel b) 0 =
      ⟨b.getLsbD 38 ^^ b.getLsbD 27 ^^ b.getLsbD 13 ^^ b.getLsbD 32,
        b.getLsbD 34 ^^ b.getLsbD 16 ^^ b.getLsbD 21 ^^ b.getLsbD 23,
        b.getLsbD 33 ^^ b.getLsbD 18 ^^ b.getLsbD 15 ^^ b.getLsbD 24,
        b.getLsbD 12 ^^ b.getLsbD 39 ^^ b.getLsbD 30 ^^ b.getLsbD 25⟩ := by
  simp [csaStreamBSel, nibbleAt, Bool.xor_left_comm]

theorem csaStreamBSel_top (b : BitVec 64) {k : Nat} (high : 4 ≤ k) :
    (csaStreamBSel b).getLsbD k = false := by
  have clear (word mask : BitVec 32) (small : mask.toNat < 16) :
      (word &&& mask).getLsbD k = false := getLsbD_masked word mask small high
  simp only [csaStreamBSel, BitVec.getLsbD_xor, clear _ 0x8#32 (by decide),
    clear _ 0x9#32 (by decide), clear _ 0x4#32 (by decide), clear _ 0x5#32 (by decide),
    clear _ 0x2#32 (by decide), clear _ 0x1#32 (by decide), clear _ 0xe#32 (by decide),
    Bool.xor_self]

theorem nibbleAt_or {w : Nat} (first second : BitVec w) (k : Nat)
    (clear : nibbleAt first k = Quad.zeros) : 
    nibbleAt (first ||| second) k = nibbleAt second k := by
  simp only [nibbleAt, Quad.zeros, Quad.mk.injEq, BsWord.zeros] at clear
  simp [nibbleAt, clear]

theorem csaStreamBSel_extraB (b low : BitVec 64) (top : ∀ k, 4 ≤ k → low.getLsbD k = false) :
    nibbleAt (csaStreamBSel ((b <<< 4) ||| low)) 0 = extraB (nibbles b) := by
  have chosen : extraB (nibbles b) =
      ⟨((b.getLsbD 34 ^^ b.getLsbD 23) ^^ b.getLsbD 9) ^^ b.getLsbD 28,
        ((b.getLsbD 19 ^^ b.getLsbD 30) ^^ b.getLsbD 12) ^^ b.getLsbD 17,
        ((b.getLsbD 20 ^^ b.getLsbD 29) ^^ b.getLsbD 11) ^^ b.getLsbD 14,
        ((b.getLsbD 8 ^^ b.getLsbD 21) ^^ b.getLsbD 26) ^^ b.getLsbD 35⟩ := by
    simp only [extraB, get_nibbles]
    rfl
  rw [csaStreamBSel_bits, chosen]
  simp (disch := omega) only [getLsbD_taken b low top]
  simp [Bool.xor_left_comm, Bool.xor_comm]

theorem csaStreamCfed_eq (r : Registers) :
    csaStreamCfed r.pqzyx r.cfed = ((r.cfed &&& 0x0f00) >>> 4) |||
      BitVec.ofNat 32 (cdefFormula (cdefIndex r.pqzyx r.cfed).toNat) := by
  rw [← cdef_entry (cdefIndex_lt ..)]
  rfl

/-- The nibbles of the new C, F, E and D, without what B gives to D. -/
theorem csaStreamCfed_bits (r : Registers) :
    let word := csaStreamCfed r.pqzyx r.cfed
    let sum := summed r.slice.z r.slice.e r.slice.q r.slice.r
    nibbleAt word 0 = r.slice.e.xor r.slice.z ∧ nibbleAt word 1 = r.slice.f ∧
      nibbleAt word 2 = sum.1 ∧ word.getLsbD 12 = sum.2 := by
  intro word sum
  obtain ⟨low, clear, high, carry⟩ := cdefFormula_bits r.slice.e.n0 r.slice.e.n1 r.slice.e.n2
    r.slice.e.n3 r.slice.z.n0 r.slice.z.n1 r.slice.z.n2 r.slice.z.n3 r.slice.q r.slice.r
  rw [← cdefIndex_bits] at low clear high carry
  have unpacked : word = ((r.cfed &&& 0x0f00) >>> 4) |||
      BitVec.ofNat 32 (cdefFormula (cdefIndex r.pqzyx r.cfed).toNat) := csaStreamCfed_eq r
  generalize BitVec.ofNat 32 (cdefFormula (cdefIndex r.pqzyx r.cfed).toNat) = entry at *
  have moved : nibbleAt ((r.cfed &&& 0x0f00) >>> 4) 0 = Quad.zeros ∧
      nibbleAt ((r.cfed &&& 0x0f00) >>> 4) 1 = r.slice.f ∧
      nibbleAt ((r.cfed &&& 0x0f00) >>> 4) 2 = Quad.zeros ∧
      ((r.cfed &&& 0x0f00) >>> 4).getLsbD 12 = false := by
    simp [nibbleAt, Quad.zeros, Registers.slice, BsWord.zeros]
  rw [unpacked]
  refine ⟨?_, ?_, ?_, ?_⟩
  · rw [nibbleAt_or _ _ _ moved.1, low]
  · rw [BitVec.or_comm, nibbleAt_or _ _ _ clear, moved.2.1]
  · rw [nibbleAt_or _ _ _ moved.2.2.1, high]
  · rw [BitVec.getLsbD_or, moved.2.2.2, Bool.false_or, carry]

/-- The new nibbles X, Y and Z and the bits P and Q. -/
theorem csaStreamSboxes_bits (a low : BitVec 64) (top : ∀ k, 4 ≤ k → low.getLsbD k = false) :
    let word := csaStreamSboxes ((a <<< 4) ||| low)
    let s1 := bsStreamSbox1 (a.getLsbD 2) (a.getLsbD 21) (a.getLsbD 27) (a.getLsbD 32)
      (a.getLsbD 12)
    let s2 := bsStreamSbox2 (a.getLsbD 10) (a.getLsbD 23) (a.getLsbD 24) (a.getLsbD 33)
      (a.getLsbD 5)
    let s3 := bsStreamSbox3 (a.getLsbD 4) (a.getLsbD 17) (a.getLsbD 19) (a.getLsbD 22)
      (a.getLsbD 3)
    let s4 := bsStreamSbox4 (a.getLsbD 1) (a.getLsbD 7) (a.getLsbD 14) (a.getLsbD 28)
      (a.getLsbD 11)
    let s5 := bsStreamSbox5 (a.getLsbD 15) (a.getLsbD 20) (a.getLsbD 29) (a.getLsbD 34)
      (a.getLsbD 18)
    let s6 := bsStreamSbox6 (a.getLsbD 13) (a.getLsbD 16) (a.getLsbD 26) (a.getLsbD 35)
      (a.getLsbD 9)
    let s7 := bsStreamSbox7 (a.getLsbD 8) (a.getLsbD 25) (a.getLsbD 30) (a.getLsbD 31)
      (a.getLsbD 6)
    nibbleAt word 0 = ⟨s1.1, s2.1, s3.2, s4.2⟩ ∧ nibbleAt word 1 = ⟨s3.1, s4.1, s5.2, s6.2⟩ ∧
      nibbleAt word 2 = ⟨s5.1, s6.1, s1.2, s2.2⟩ ∧ word.getLsbD 12 = s7.1 ∧
      word.getLsbD 13 = s7.2 := by
  intro word s1 s2 s3 s4 s5 s6 s7
  have packed : word = pair 1 11 s2 ||| pair 8 6 s5 ||| pair 9 7 s6 ||| pair 0 10 s1 |||
      pair 4 2 s3 ||| pair 5 3 s4 ||| pair 12 13 s7 := by
    simp (disch := omega) only [word, csaStreamSboxes_eq, getLsbD_taken a low top]
    rfl
  rw [packed]
  clear_value s1 s2 s3 s4 s5 s6 s7
  simp (disch := omega) only [nibbleAt, BitVec.getLsbD_or, getLsbD_pair]
  simp

/-- A round of the packed registers, its new nibbles taken as given. -/
theorem slice_round (r : Registers) (lowA lowB : BitVec 64)
    (topA : ∀ k, 4 ≤ k → lowA.getLsbD k = false) (topB : ∀ k, 4 ≤ k → lowB.getLsbD k = false) :
    Registers.slice
        { a := (r.a <<< 4) ||| lowA
          b := (r.b <<< 4) ||| lowB
          cfed := csaStreamCfed r.pqzyx r.cfed ^^^ csaStreamBSel ((r.b <<< 4) ||| lowB)
          pqzyx := csaStreamSboxes ((r.a <<< 4) ||| lowA) } =
      roundEnd r.slice (shifted (nibbles r.a) (nibbleAt lowA 0))
        (shifted (nibbles r.b) (nibbleAt lowB 0)) := by
  obtain ⟨x, y, z, p, q⟩ := csaStreamSboxes_bits r.a lowA topA
  obtain ⟨d, e, f, c⟩ := csaStreamCfed_bits r
  have extra := csaStreamBSel_extraB r.b lowB topB
  have only : ∀ k, 4 ≤ k → (csaStreamBSel ((r.b <<< 4) ||| lowB)).getLsbD k = false :=
    fun k high => csaStreamBSel_top _ high
  generalize csaStreamBSel ((r.b <<< 4) ||| lowB) = selected at *
  generalize csaStreamCfed r.pqzyx r.cfed = entry at *
  generalize csaStreamSboxes ((r.a <<< 4) ||| lowA) = boxes at *
  have kept : ∀ k, 1 ≤ k → nibbleAt (entry ^^^ selected) k = nibbleAt entry k := by
    intro k high
    simp only [nibbleAt, BitVec.getLsbD_xor]
    rw [only _ (by omega), only _ (by omega), only _ (by omega), only _ (by omega)]
    simp only [Bool.xor_false]
  have mixed : nibbleAt (entry ^^^ selected) 0 = (nibbleAt entry 0).xor (nibbleAt selected 0) := by
    simp only [nibbleAt, BitVec.getLsbD_xor]
    rfl
  simp only [Registers.slice, nibbles_shifted _ _ topA, nibbles_shifted _ _ topB, x, y, z, p, q,
    mixed, kept 1 (by decide), kept 2 (by decide), d, e, f, BitVec.getLsbD_xor, c,
    only 12 (by decide), extra, Bool.xor_false]
  simp only [roundEnd, get_nibbles]
  rfl

theorem rotatedBy_set (next : Quad Bool) :
    rotatedBy true next = ⟨next.n3, next.n0, next.n1, next.n2⟩ := by
  rcases next with ⟨n0, n1, n2, n3⟩
  revert n0 n1 n2 n3
  decide

theorem rotatedBy_clear (next : Quad Bool) : rotatedBy false next = next := by
  rcases next with ⟨n0, n1, n2, n3⟩
  revert n0 n1 n2 n3
  decide

theorem csaStreamRotate_bits (pqzyx : BitVec 32) {x : BitVec 32}
    (low : ∀ k, 4 ≤ k → x.getLsbD k = false) :
    nibbleAt ((csaStreamRotate pqzyx x).setWidth 64) 0 =
        rotatedBy (pqzyx.getLsbD 12) (nibbleAt x 0) ∧
      ∀ k, 4 ≤ k → ((csaStreamRotate pqzyx x).setWidth 64).getLsbD k = false := by
  have flag : (pqzyx &&& 0x1000 ≠ 0) ↔ pqzyx.getLsbD 12 = true := by
    change pqzyx &&& BitVec.twoPow 32 12 ≠ 0 ↔ _
    rw [BitVec.and_twoPow]
    cases pqzyx.getLsbD 12 <;> decide
  rw [csaStreamRotate, if_congr flag rfl rfl]
  cases pqzyx.getLsbD 12 with
  | false =>
      rw [if_neg Bool.false_ne_true, rotatedBy_clear]
      refine ⟨?_, fun k high => ?_⟩
      · simp [nibbleAt]
      · simp [low k high]
  | true =>
      rw [if_pos rfl, rotatedBy_set]
      refine ⟨?_, fun k high => ?_⟩
      · simp [nibbleAt]
      · rw [BitVec.getLsbD_setWidth, BitVec.getLsbD_setWidth,
          getLsbD_masked _ _ (by decide) high, Bool.and_false, Bool.and_false]

/-! ## Nibbles of words -/

theorem nibbleAt_xor {w : Nat} (first second : BitVec w) (k : Nat) :
    nibbleAt (first ^^^ second) k = (nibbleAt first k).xor (nibbleAt second k) := by
  simp only [nibbleAt, BitVec.getLsbD_xor]
  rfl

theorem nibbleAt_masked (word : BitVec 64) : nibbleAt (word &&& 0xf) 0 = nibbleAt word 0 := by
  simp [nibbleAt]

theorem nibbleAt_widened (word : BitVec 32) :
    nibbleAt (word.setWidth 64) 0 = nibbleAt word 0 := by
  simp [nibbleAt]

theorem nibbleAt_narrowed (word : BitVec 64) :
    nibbleAt (word.setWidth 32) 0 = nibbleAt word 0 := by
  simp [nibbleAt]

theorem nibbleAt_next (word : BitVec 32) : nibbleAt (word >>> 4) 0 = nibbleAt word 1 := by
  simp [nibbleAt]

theorem nibbleAt_nbget (word : BitVec 64) (n : Nat) :
    nibbleAt (nbget word n) 0 = nibbleAt word n := by
  simp [nibbleAt, nbget, Nat.mul_comm]

theorem nibbleAt_raised (word : BitVec 64) : nibbleAt (word <<< 4) 10 = nibbleAt word 9 := by
  simp [nibbleAt]

theorem masked_top (word : BitVec 64) {k : Nat} (high : 4 ≤ k) :
    (word &&& 0xf).getLsbD k = false :=
  getLsbD_masked _ _ (by decide) high

theorem narrowed_top (word : BitVec 64) {k : Nat} (high : 4 ≤ k) :
    ((word &&& 0xf).setWidth 32).getLsbD k = false := by
  rw [BitVec.getLsbD_setWidth, masked_top _ high, Bool.and_false]

/-! ## The rounds -/

theorem slice_csaStreamInitRound (iv : BitVec 32) (r : Registers) :
    (csaStreamInitRound iv r).slice =
      bsInitRound (nibbleAt iv 1) (nibbleAt iv 0) r.slice := by
  obtain ⟨b, topB⟩ := csaStreamRotate_bits r.pqzyx fun k high => narrowed_top
    (nbget r.b 6 ^^^ nbget r.b 9 ^^^ (r.pqzyx >>> 4).setWidth 64 ^^^ iv.setWidth 64) high
  rw [csaStreamInitRound, bsInitRound]
  refine (slice_round r _ _ (fun k high => masked_top _ high) topB).trans ?_
  rw [b]
  simp only [nibbleAt_masked, nibbleAt_narrowed, nibbleAt_xor, nibbleAt_nbget,
    nibbleAt_raised, nibbleAt_widened, nibbleAt_next, Registers.slice, get_nibbles]
  rfl

theorem slice_csaStreamRound (r : Registers) : (csaStreamRound r).slice = bsRound r.slice := by
  obtain ⟨b, topB⟩ := csaStreamRotate_bits r.pqzyx fun k high => narrowed_top
    (nbget r.b 6 ^^^ nbget r.b 9 ^^^ (r.pqzyx >>> 4).setWidth 64) high
  rw [csaStreamRound, bsRound]
  refine (slice_round r _ _ (fun k high => masked_top _ high) topB).trans ?_
  rw [b]
  simp only [nibbleAt_masked, nibbleAt_narrowed, nibbleAt_xor, nibbleAt_nbget,
    nibbleAt_raised, nibbleAt_widened, nibbleAt_next, Registers.slice, get_nibbles]
  rfl

/-! ## The key stream -/

/-- Bit `n` of a block. -/
def blockBit (block : Block) (n : Nat) : Bool :=
  (block.toList.getD (n / 8) 0).toBitVec.getLsbD (n % 8)

theorem nibbles_eq {w : Nat} (word : BitVec w) :
    nibbles word = #v[nibbleAt word 0, nibbleAt word 1, nibbleAt word 2, nibbleAt word 3,
      nibbleAt word 4, nibbleAt word 5, nibbleAt word 6, nibbleAt word 7, nibbleAt word 8,
      nibbleAt word 9] :=
  rfl

theorem slice_csaStreamLoad (cw : Block) :
    (csaStreamLoad cw).slice = bsStreamLoad (blockBit cw) := by
  have front : ∀ n < 32, (csaStreamLoad cw).a.getLsbD n = blockBit cw n := by
    intro n inside
    rw [csaStreamLoad, BitVec.getLsbD_setWidth, decide_eq_true (by omega), Bool.true_and,
      getLsbD_leWord_at _ inside inside]
    rfl
  have back : ∀ n < 32, (csaStreamLoad cw).b.getLsbD n = blockBit cw (32 + n) := by
    intro n inside
    rw [csaStreamLoad, BitVec.getLsbD_setWidth, decide_eq_true (by omega), Bool.true_and,
      getLsbD_leWord_at _ inside inside, blockBit, show (32 + n) / 8 = 4 + n / 8 by omega,
      show (32 + n) % 8 = n % 8 by omega]
  have beyondA : ∀ n, 32 ≤ n → (csaStreamLoad cw).a.getLsbD n = false := by
    intro n beyond
    rw [csaStreamLoad, BitVec.getLsbD_setWidth, BitVec.getLsbD_of_ge _ n beyond, Bool.and_false]
  have beyondB : ∀ n, 32 ≤ n → (csaStreamLoad cw).b.getLsbD n = false := by
    intro n beyond
    rw [csaStreamLoad, BitVec.getLsbD_setWidth, BitVec.getLsbD_of_ge _ n beyond, Bool.and_false]
  have clear : (csaStreamLoad cw).pqzyx = 0#32 ∧ (csaStreamLoad cw).cfed = 0#32 := ⟨rfl, rfl⟩
  rw [Registers.slice, nibbles_eq, nibbles_eq]
  simp (disch := omega) only [nibbleAt, front, back, beyondA, beyondB, clear, BitVec.getLsbD_zero]
  rfl

/-- The packed nibbles of a byte are those that the sliced cipher is given. -/
theorem slice_csaStreamInitByte (block : Block) (r : Registers) (i : Nat) :
    (csaStreamInitByte r (block.toList.getD i 0)).slice =
      bsInitByte (blockBit block) r.slice i := by
  have bit : ∀ j < 8, blockBit block (8 * i + j) =
      (byteWord (block.toList.getD i 0)).getLsbD j := by
    intro j inside
    rw [blockBit, show (8 * i + j) / 8 = i by omega, show (8 * i + j) % 8 = j by omega, byteWord,
      BitVec.getLsbD_setWidth, decide_eq_true (by omega), Bool.true_and]
  have first : blockBit block (8 * i) = (byteWord (block.toList.getD i 0)).getLsbD 0 :=
    bit 0 (by decide)
  generalize block.toList.getD i 0 = byte at *
  have swapped : nibbleAt (byteWord (swapNbl byte)) 0 = nibbleAt (byteWord byte) 1 ∧
      nibbleAt (byteWord (swapNbl byte)) 1 = nibbleAt (byteWord byte) 0 := by
    simp [nibbleAt, byteWord, swapNbl]
  rw [csaStreamInitByte, slice_csaStreamInitRound, slice_csaStreamInitRound,
    slice_csaStreamInitRound, slice_csaStreamInitRound, swapped.1, swapped.2, bsInitByte]
  simp (disch := decide) only [first, bit]
  rfl

theorem slice_csaStreamInit (cw iv : Block) :
    (csaStreamInit cw iv).slice = bsStreamInit (blockBit cw) (blockBit iv) := by
  have listed : iv.toList = (List.range 8).map fun i => iv.toList.getD i 0 := by
    apply List.ext_getElem
    · simp
    · intro i inside _
      rw [List.getElem_map, List.getElem_range, List.getD_eq_getElem?_getD,
        List.getElem?_eq_getElem inside]
      rfl
  rw [csaStreamInit, listed, List.foldl_map, bsStreamInit, ← slice_csaStreamLoad]
  generalize csaStreamLoad cw = r
  induction List.range 8 generalizing r with
  | nil => rfl
  | cons i later ih => rw [List.foldl_cons, ih, slice_csaStreamInitByte, List.foldl_cons]

theorem slice_iterate (r : Registers) (index : Nat) :
    (csaStreamNext^[index] r).slice = bsNext^[index] r.slice := by
  have next (r : Registers) : (csaStreamNext r).slice = bsNext r.slice := by
    simp only [csaStreamNext, bsNext, slice_csaStreamRound]
  induction index generalizing r with
  | zero => rfl
  | succ index ih => rw [Function.iterate_succ_apply, ih, next, Function.iterate_succ_apply]

/-- What the output table makes of D, at an even and at an odd bit. -/
theorem outByte_bits (r : Registers) : ∀ j < 4,
    (outByte r).toBitVec.getLsbD (2 * j) = (r.slice.d.n0 ^^^ r.slice.d.n1) ∧
      (outByte r).toBitVec.getLsbD (2 * j + 1) = (r.slice.d.n2 ^^^ r.slice.d.n3) := by
  have table : ∀ b0 b1 b2 b3 : Bool, ∀ j < 4,
      (csaStreamOut.getD (number b0 b1 b2 b3 false) 0).toBitVec.getLsbD (2 * j) = (b0 ^^^ b1) ∧
        (csaStreamOut.getD (number b0 b1 b2 b3 false) 0).toBitVec.getLsbD (2 * j + 1) =
          (b2 ^^^ b3) := by
    decide
  have low : (r.cfed &&& 0xf).toNat = number r.slice.d.n0 r.slice.d.n1 r.slice.d.n2 r.slice.d.n3
      false := by
    have cut : (r.cfed &&& 0xf).toNat = r.cfed.toNat % 2 ^ 4 := by
      rw [BitVec.toNat_and, ← Nat.and_two_pow_sub_one_eq_mod]
      rfl
    simp only [cut, number, Registers.slice, nibbleAt, BitVec.getLsbD, Nat.toNat_testBit,
      Bool.toNat_false]
    omega
  rw [outByte, low]
  exact table _ _ _ _

/-- A byte of the key stream, bit by bit, as the sliced cipher makes it. -/
theorem csaStreamMix_bits (r : Registers) (b : Fin 8) :
    (csaStreamMix r 0).toBitVec.getLsbD b = (bsStreamByte r.slice).get b := by
  have r4 := outByte_bits (csaStreamRound (csaStreamRound (csaStreamRound (csaStreamRound r))))
  have r3 := outByte_bits (csaStreamRound (csaStreamRound (csaStreamRound r)))
  have r2 := outByte_bits (csaStreamRound (csaStreamRound r))
  have r1 := outByte_bits (csaStreamRound r)
  have mixed : (csaStreamMix r 0).toBitVec.getLsbD b =
      (((((outByte (csaStreamRound r)).toBitVec.getLsbD b && (0xc0#8).getLsbD b) ^^
        ((outByte (csaStreamRound (csaStreamRound r))).toBitVec.getLsbD b &&
          (0x30#8).getLsbD b)) ^^
        ((outByte (csaStreamRound (csaStreamRound (csaStreamRound r)))).toBitVec.getLsbD b &&
          (0x0c#8).getLsbD b)) ^^
        ((outByte (csaStreamRound (csaStreamRound (csaStreamRound
          (csaStreamRound r))))).toBitVec.getLsbD b && (0x03#8).getLsbD b)) := by
    rw [csaStreamMix, UInt8.zero_xor]
    simp only [UInt8.toBitVec_xor, UInt8.toBitVec_and, BitVec.getLsbD_xor, BitVec.getLsbD_and]
    rfl
  rw [mixed]
  clear mixed
  generalize outByte (csaStreamRound (csaStreamRound (csaStreamRound (csaStreamRound r)))) = o4 at *
  generalize outByte (csaStreamRound (csaStreamRound (csaStreamRound r))) = o3 at *
  generalize outByte (csaStreamRound (csaStreamRound r)) = o2 at *
  generalize outByte (csaStreamRound r) = o1 at *
  simp only [slice_csaStreamRound] at r1 r2 r3 r4
  rcases b with ⟨_ | _ | _ | _ | _ | _ | _ | _ | b, inside⟩
  · exact Eq.trans (by simp) (r4 0 (by decide)).1
  · exact Eq.trans (by simp) (r4 0 (by decide)).2
  · exact Eq.trans (by simp) (r3 1 (by decide)).1
  · exact Eq.trans (by simp) (r3 1 (by decide)).2
  · exact Eq.trans (by simp) (r2 2 (by decide)).1
  · exact Eq.trans (by simp) (r2 2 (by decide)).2
  · exact Eq.trans (by simp) (r1 3 (by decide)).1
  · exact Eq.trans (by simp) (r1 3 (by decide)).2
  · omega

theorem keyByte_bits (cw iv : Block) (index : Nat) (b : Fin 8) :
    (keyByte cw iv index).toBitVec.getLsbD b =
      (bsStreamByte (bsNext^[index] (bsStreamInit (blockBit cw) (blockBit iv)))).get b := by
  rw [keyByte, csaStreamMix_bits, slice_iterate, slice_csaStreamInit]

/-! ## A lane -/

/-- The initialization reads 64 words of the first blocks. -/
theorem bsStreamInit_congr {α : Type} [BsWord α] (stream : Nat → α) {sb other : Nat → α}
    (same : ∀ n < 64, sb n = other n) : bsStreamInit stream sb = bsStreamInit stream other := by
  have step (s : Sliced α) (i : Nat) (inside : i < 8) :
      bsInitByte sb s i = bsInitByte other s i := by
    simp (disch := omega) only [bsInitByte, same]
  have run (bytes : List Nat) (all : ∀ i ∈ bytes, i < 8) (s : Sliced α) :
      bytes.foldl (bsInitByte sb) s = bytes.foldl (bsInitByte other) s := by
    induction bytes generalizing s with
    | nil => rfl
    | cons i later ih =>
        rw [List.foldl_cons, List.foldl_cons, step s i (all i List.mem_cons_self),
          ih fun j listed => all j (List.mem_cons_of_mem i listed)]
  exact run _ (fun i listed => List.mem_range.mp listed) _

theorem map_iterate {α β : Type} [BsWord α] [BsWord β] {f : α → β} (respects : Respects f)
    (s : Sliced α) (index : Nat) : (bsNext^[index] s).map f = bsNext^[index] (s.map f) := by
  induction index generalizing s with
  | zero => rfl
  | succ index ih =>
      rw [Function.iterate_succ_apply, ih, map_bsNext respects, Function.iterate_succ_apply]

/-- A lane that is given the bits of a control word and of a first block gives the bits of the
key stream they start. -/
theorem bit_bsStreamByte {stream sb : Nat → Word} {cw iv : Block} {c : Nat} (inside : c < 128)
    (word : ∀ n, (stream n).bit c = blockBit cw n)
    (first : ∀ n < 64, (sb n).bit c = blockBit iv n) (index : Nat) (b : Fin 8) :
    ((bsStreamByte (bsNext^[index] (bsStreamInit stream sb))).get b).bit c =
      (keyByte cw iv index).toBitVec.getLsbD b := by
  have respects := respects_bit inside
  have lane := congrArg (fun bytes : Vector Bool 8 => bytes.get b)
    (map_bsStreamByte respects (bsNext^[index] (bsStreamInit stream sb)))
  have read : (Vector.map (fun word : Word => word.bit c)
      (bsStreamByte (bsNext^[index] (bsStreamInit stream sb)))).get b =
        ((bsStreamByte (bsNext^[index] (bsStreamInit stream sb))).get b).bit c := by
    change (Vector.map _ (bsStreamByte _))[b.val] = _
    rw [Vector.getElem_map]
    rfl
  rw [← read, lane, map_iterate respects, map_bsStreamInit respects, keyByte_bits]
  have words : (fun word : Word => word.bit c) ∘ stream = blockBit cw := funext word
  have blocks : ∀ n < 64, ((fun word : Word => word.bit c) ∘ sb) n = blockBit iv n := first
  rw [words, bsStreamInit_congr _ blocks]

end Dvbcsa
