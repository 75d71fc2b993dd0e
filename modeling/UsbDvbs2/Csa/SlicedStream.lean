import UsbDvbs2.Csa.Word128

/-! # The stream cipher, sliced

`dvbcsa_bs_stream.c` runs the stream cipher of CSA for a whole batch: every bit of its
registers is a word, with a lane for each packet. The code is given for any kind of word, and a
map of words that respects the operations is carried through all of it.
-/

namespace Dvbcsa

/-- What `dvbcsa_bs.h` asks of a word. -/
class BsWord (α : Type) extends AndOp α, OrOp α, XorOp α, Complement α where
  /-- `BS_VAL8(00)` -/
  zeros : α
  /-- `BS_VAL8(ff)` -/
  ones : α

instance : BsWord Word where
  zeros := .val8 0x00
  ones := .val8 0xff

/-- A word with one lane. -/
instance : BsWord Bool where
  and := and
  or := or
  xor := xor
  complement := not
  zeros := false
  ones := true

section Code

variable {α : Type} [BsWord α]

def bsStreamSbox1 (fa fb fc fd fe : α) : α × α :=
  let tmp0 := fa ^^^ (fb ^^^ ~~~(((fa ||| fb) ^^^ fc) ||| (fc ^^^ fd)))
  let tmp1 := (fa ||| fb) ^^^ ~~~(fc &&& (fa ||| (fb ^^^ fd)))
  let tmp2 := fa ^^^ ((fb &&& fd) ^^^ ((fa &&& fd) ||| fc))
  let tmp3 := (fa &&& fc) ^^^ (fa ^^^ ((fa &&& fb) ||| fd))
  (tmp0 ^^^ (fe &&& tmp1), tmp2 ^^^ (fe &&& tmp3))

def bsStreamSbox2 (fa fb fc fd fe : α) : α × α :=
  let tmp0 := fa ^^^ ((fb &&& (fc ||| fd)) ^^^ (fc ^^^ ~~~fd))
  let tmp1 := (fa &&& (fb ^^^ fd)) ||| ((fa ||| fb) &&& fc)
  let tmp2 := (fb &&& fd) ^^^ ((fa &&& fd) ||| (fb ^^^ ~~~fc))
  let tmp3 := (fa &&& fd) ||| (fa ^^^ (fb ^^^ (fc &&& fd)))
  (tmp0 ^^^ (fe &&& tmp1), tmp2 ^^^ (fe &&& tmp3))

def bsStreamSbox3 (fa fb fc fd fe : α) : α × α :=
  let tmp0 := fa ^^^ (fb ^^^ ((fc &&& (fa ||| fd)) ^^^ fd))
  let tmp1 := (fa &&& fc) ^^^ ((fa ^^^ fd) ||| ((fb ||| fc) ^^^ ~~~fd))
  let tmp2 := fa ^^^ (((fb ^^^ fc) &&& fd) ^^^ fc)
  (tmp0 ^^^ (~~~fe &&& tmp1), tmp2 ^^^ fe)

def bsStreamSbox4 (fa fb fc fd fe : α) : α × α :=
  let tmp0 := fa ^^^ ((fc &&& (fa ^^^ fd)) ||| (fb ^^^ (fc ||| ~~~fd)))
  let tmp1 := (fa &&& fb) ^^^ (fb ^^^ (((fa ||| fc) &&& fd) ^^^ fc))
  let tmp2 := fa ^^^ ((fb &&& fc) ||| (((fa &&& (fb ^^^ fd)) ||| fc) ^^^ fd))
  let sa := tmp0 ^^^ (fe &&& (tmp1 ^^^ tmp0))
  (sa, (sa ^^^ tmp2) ^^^ fe)

def bsStreamSbox5 (fa fb fc fd fe : α) : α × α :=
  let tmp0 := ((fa &&& (fb ||| fc)) ^^^ fb) ||| (((fa ^^^ fc) ||| fd) ^^^ BsWord.ones)
  let tmp1 := fb ^^^ ((fc ^^^ fd) &&& (fc ^^^ (fb ||| (fa ^^^ fd))))
  let tmp2 := (fa &&& fc) ^^^ (fb ^^^ ((fb ||| (fa ^^^ fc)) &&& fd))
  let tmp3 := ((fa ^^^ fb) &&& (fc ^^^ BsWord.ones)) ||| fd
  (tmp0 ^^^ (fe &&& tmp1), tmp2 ^^^ (fe &&& tmp3))

def bsStreamSbox6 (fa fb fc fd fe : α) : α × α :=
  let tmp0 := ((fa &&& fc) &&& fd) ^^^ ((fb &&& (fa ||| fd)) ^^^ fc)
  let tmp1 := ~~~((fa ^^^ fc) &&& fd)
  let tmp2 := (fa &&& (fb ||| fc)) ^^^ (fb ^^^ ((fb &&& fc) ||| fd))
  let tmp3 := fc &&& ((fa &&& (fb ^^^ fd)) ^^^ (fb ||| fd))
  (tmp0 ^^^ (fe &&& tmp1), tmp2 ^^^ (fe &&& tmp3))

def bsStreamSbox7 (fa fb fc fd fe : α) : α × α :=
  let tmp0 := fb ^^^ ((fc &&& fd) ||| (fa ^^^ (fc ^^^ fd)))
  let tmp1 := (fb ||| fd) &&& ((fa &&& fc) ||| (fb ^^^ (fc ^^^ fd)))
  let tmp2 := (fa ||| fb) ^^^ ((fc &&& (fb ||| fd)) ^^^ fd)
  let tmp3 := fd ||| ((fa &&& fc) ^^^ BsWord.ones)
  (tmp0 ^^^ (fe &&& tmp1), tmp2 ^^^ (fe &&& tmp3))

/-- A nibble, with a word for each of its bits. -/
structure Quad (α : Type) where
  n0 : α
  n1 : α
  n2 : α
  n3 : α
  deriving DecidableEq

def Quad.xor (first second : Quad α) : Quad α :=
  ⟨first.n0 ^^^ second.n0, first.n1 ^^^ second.n1, first.n2 ^^^ second.n2,
    first.n3 ^^^ second.n3⟩

def Quad.zeros : Quad α := ⟨BsWord.zeros, BsWord.zeros, BsWord.zeros, BsWord.zeros⟩

/-- The registers of `dvbcsa_bs_stream_cipher_batch`. -/
structure Sliced (α : Type) where
  a : Vector (Quad α) 10
  b : Vector (Quad α) 10
  x : Quad α
  y : Quad α
  z : Quad α
  d : Quad α
  e : Quad α
  f : Quad α
  p : α
  q : α
  r : α
  deriving DecidableEq

/-- A shift register moves on by a nibble. -/
def shifted (rows : Vector (Quad α) 10) (next : Quad α) : Vector (Quad α) 10 :=
  #v[next, rows.get 0, rows.get 1, rows.get 2, rows.get 3, rows.get 4, rows.get 5, rows.get 6,
    rows.get 7, rows.get 8]

/-- The nibble that goes into D. -/
def extraB (b : Vector (Quad α) 10) : Quad α where
  n3 := (((b.get 2).n0 ^^^ (b.get 5).n1) ^^^ (b.get 6).n2) ^^^ (b.get 8).n3
  n2 := (((b.get 5).n0 ^^^ (b.get 7).n1) ^^^ (b.get 2).n3) ^^^ (b.get 3).n2
  n1 := (((b.get 4).n3 ^^^ (b.get 7).n2) ^^^ (b.get 3).n0) ^^^ (b.get 4).n1
  n0 := (((b.get 8).n2 ^^^ (b.get 5).n3) ^^^ (b.get 2).n1) ^^^ (b.get 7).n0

/-- The nibble, rotated left in the lanes where `p` is set. -/
def rotatedBy (p : α) (next : Quad α) : Quad α where
  n3 := next.n3 ^^^ ((next.n3 ^^^ next.n2) &&& p)
  n2 := next.n2 ^^^ ((next.n2 ^^^ next.n1) &&& p)
  n1 := next.n1 ^^^ ((next.n1 ^^^ next.n0) &&& p)
  n0 := next.n0 ^^^ ((next.n0 ^^^ next.n3) &&& p)

/-- A carry of the addition of Z and E. -/
def carried (z e carry : α) : α := (z &&& e) ||| ((z ^^^ e) &&& carry)

/-- F and the carry, the sum of Z, E and the carry in the lanes where `q` is set. -/
def summed (z e : Quad α) (q r : α) : Quad α × α :=
  let carry1 := carried z.n0 e.n0 r
  let carry2 := carried z.n1 e.n1 carry1
  let carry3 := carried z.n2 e.n2 carry2
  (⟨e.n0 ^^^ (q &&& (z.n0 ^^^ r)), e.n1 ^^^ (q &&& (z.n1 ^^^ carry1)),
      e.n2 ^^^ (q &&& (z.n2 ^^^ carry2)), e.n3 ^^^ (q &&& (z.n3 ^^^ carry3))⟩,
    r ^^^ (q &&& (carried z.n3 e.n3 carry3 ^^^ r)))

/-- The end of a round: the registers but A and B. -/
def roundEnd (s : Sliced α) (a b : Vector (Quad α) 10) : Sliced α :=
  let s1 := bsStreamSbox1 (s.a.get 0).n2 (s.a.get 5).n1 (s.a.get 6).n3 (s.a.get 8).n0 (s.a.get 3).n0
  let s2 := bsStreamSbox2 (s.a.get 2).n2 (s.a.get 5).n3 (s.a.get 6).n0 (s.a.get 8).n1 (s.a.get 1).n1
  let s3 := bsStreamSbox3 (s.a.get 1).n0 (s.a.get 4).n1 (s.a.get 4).n3 (s.a.get 5).n2 (s.a.get 0).n3
  let s4 := bsStreamSbox4 (s.a.get 0).n1 (s.a.get 1).n3 (s.a.get 3).n2 (s.a.get 7).n0 (s.a.get 2).n3
  let s5 := bsStreamSbox5 (s.a.get 3).n3 (s.a.get 5).n0 (s.a.get 7).n1 (s.a.get 8).n2 (s.a.get 4).n2
  let s6 := bsStreamSbox6 (s.a.get 3).n1 (s.a.get 4).n0 (s.a.get 6).n2 (s.a.get 8).n3 (s.a.get 2).n1
  let s7 := bsStreamSbox7 (s.a.get 2).n0 (s.a.get 6).n1 (s.a.get 7).n2 (s.a.get 7).n3 (s.a.get 1).n2
  let sum := summed s.z s.e s.q s.r
  { a := a
    b := b
    x := ⟨s1.1, s2.1, s3.2, s4.2⟩
    y := ⟨s3.1, s4.1, s5.2, s6.2⟩
    z := ⟨s5.1, s6.1, s1.2, s2.2⟩
    d := (s.e.xor s.z).xor (extraB s.b)
    e := s.f
    f := sum.1
    p := s7.1
    q := s7.2
    r := sum.2 }

/-- A round of the initialization, with a nibble for A and one for B. -/
def bsInitRound (inA inB : Quad α) (s : Sliced α) : Sliced α :=
  let nextA := (((s.a.get 9).xor s.x).xor s.d).xor inA
  let nextB := (((s.b.get 6).xor (s.b.get 9)).xor s.y).xor inB
  roundEnd s (shifted s.a nextA) (shifted s.b (rotatedBy s.p nextB))

/-- A round of the generation. -/
def bsRound (s : Sliced α) : Sliced α :=
  let nextA := (s.a.get 9).xor s.x
  let nextB := ((s.b.get 6).xor (s.b.get 9)).xor s.y
  roundEnd s (shifted s.a nextA) (shifted s.b (rotatedBy s.p nextB))

/-- The registers before the first round, from the bits of the control word. -/
def bsStreamLoad (stream : Nat → α) : Sliced α :=
  let nibble := fun i =>
    ⟨stream (4 * i), stream (4 * i + 1), stream (4 * i + 2), stream (4 * i + 3)⟩
  { a := #v[nibble 0, nibble 1, nibble 2, nibble 3, nibble 4, nibble 5, nibble 6, nibble 7, .zeros,
      .zeros]
    b := #v[nibble 8, nibble 9, nibble 10, nibble 11, nibble 12, nibble 13, nibble 14, nibble 15,
      .zeros, .zeros]
    x := .zeros
    y := .zeros
    z := .zeros
    d := .zeros
    e := .zeros
    f := .zeros
    p := BsWord.zeros
    q := BsWord.zeros
    r := BsWord.zeros }

/-- The four rounds for byte `i` of the first blocks, whose bits are the words of `sb`. -/
def bsInitByte (sb : Nat → α) (s : Sliced α) (i : Nat) : Sliced α :=
  let in1 := ⟨sb (8 * i + 4), sb (8 * i + 5), sb (8 * i + 6), sb (8 * i + 7)⟩
  let in2 := ⟨sb (8 * i), sb (8 * i + 1), sb (8 * i + 2), sb (8 * i + 3)⟩
  let s := bsInitRound in1 in2 s
  let s := bsInitRound in2 in1 s
  let s := bsInitRound in1 in2 s
  bsInitRound in2 in1 s

def bsStreamInit (stream sb : Nat → α) : Sliced α :=
  (List.range 8).foldl (bsInitByte sb) (bsStreamLoad stream)

def bsNext (s : Sliced α) : Sliced α := bsRound (bsRound (bsRound (bsRound s)))

/-- The words `cb` of the byte that four rounds give. -/
def bsStreamByte (s : Sliced α) : Vector α 8 :=
  let s1 := bsRound s
  let s2 := bsRound s1
  let s3 := bsRound s2
  let s4 := bsRound s3
  #v[s4.d.n0 ^^^ s4.d.n1, s4.d.n2 ^^^ s4.d.n3, s3.d.n0 ^^^ s3.d.n1, s3.d.n2 ^^^ s3.d.n3,
    s2.d.n0 ^^^ s2.d.n1, s2.d.n2 ^^^ s2.d.n3, s1.d.n0 ^^^ s1.d.n1, s1.d.n2 ^^^ s1.d.n3]

end Code

/-! ## Maps of words -/

section Maps

variable {α β : Type} [BsWord α] [BsWord β]

/-- A map of words that respects what the code does with them. -/
structure Respects (f : α → β) : Prop where
  and : ∀ a b, f (a &&& b) = f a &&& f b
  or : ∀ a b, f (a ||| b) = f a ||| f b
  xor : ∀ a b, f (a ^^^ b) = f a ^^^ f b
  not : ∀ a, f (~~~a) = ~~~f a
  zeros : f BsWord.zeros = BsWord.zeros
  ones : f BsWord.ones = BsWord.ones

def Quad.map (f : α → β) (quad : Quad α) : Quad β :=
  ⟨f quad.n0, f quad.n1, f quad.n2, f quad.n3⟩

def Sliced.map (f : α → β) (s : Sliced α) : Sliced β where
  a := Vector.map (Quad.map f) s.a
  b := Vector.map (Quad.map f) s.b
  x := s.x.map f
  y := s.y.map f
  z := s.z.map f
  d := s.d.map f
  e := s.e.map f
  f := s.f.map f
  p := f s.p
  q := f s.q
  r := f s.r

variable {f : α → β} (respects : Respects f)

omit [BsWord α] [BsWord β] in
theorem get_map (rows : Vector (Quad α) 10) (k : Fin 10) :
    (Vector.map (Quad.map f) rows).get k = (rows.get k).map f := by
  change (Vector.map (Quad.map f) rows)[k.val] = (rows[k.val]).map f
  rw [Vector.getElem_map]

omit [BsWord α] [BsWord β] in
theorem map_shifted (rows : Vector (Quad α) 10) (next : Quad α) :
    Vector.map (Quad.map f) (shifted rows next) =
      shifted (Vector.map (Quad.map f) rows) (next.map f) := by
  simp only [shifted, get_map, Vector.map_mk, List.map_toArray, List.map_cons, List.map_nil]

include respects

theorem Quad.map_xor (first second : Quad α) :
    (first.xor second).map f = (first.map f).xor (second.map f) := by
  simp only [Quad.xor, Quad.map, respects.xor]

theorem Quad.map_zeros : (Quad.zeros : Quad α).map f = Quad.zeros := by
  simp only [Quad.zeros, Quad.map, respects.zeros]

theorem map_rotatedBy (p : α) (next : Quad α) :
    (rotatedBy p next).map f = rotatedBy (f p) (next.map f) := by
  simp only [rotatedBy, Quad.map, respects.xor, respects.and]

theorem map_roundEnd (s : Sliced α) (a b : Vector (Quad α) 10) :
    (roundEnd s a b).map f =
      roundEnd (s.map f) (Vector.map (Quad.map f) a) (Vector.map (Quad.map f) b) := by
  simp only [roundEnd, Sliced.map, Quad.map, Quad.xor, extraB, summed, carried, bsStreamSbox1,
    bsStreamSbox2, bsStreamSbox3, bsStreamSbox4, bsStreamSbox5, bsStreamSbox6, bsStreamSbox7,
    get_map, respects.xor, respects.and, respects.or, respects.not, respects.ones]

theorem map_bsInitRound (inA inB : Quad α) (s : Sliced α) :
    (bsInitRound inA inB s).map f = bsInitRound (inA.map f) (inB.map f) (s.map f) := by
  simp only [bsInitRound, map_roundEnd respects, map_shifted, map_rotatedBy respects,
    Quad.map_xor respects, ← get_map]
  rfl

theorem map_bsRound (s : Sliced α) : (bsRound s).map f = bsRound (s.map f) := by
  simp only [bsRound, map_roundEnd respects, map_shifted, map_rotatedBy respects,
    Quad.map_xor respects, ← get_map]
  rfl

theorem map_bsNext (s : Sliced α) : (bsNext s).map f = bsNext (s.map f) := by
  simp only [bsNext, map_bsRound respects]

theorem map_bsInitByte (sb : Nat → α) (s : Sliced α) (i : Nat) :
    (bsInitByte sb s i).map f = bsInitByte (f ∘ sb) (s.map f) i := by
  simp only [bsInitByte, map_bsInitRound respects]
  rfl

theorem map_bsStreamLoad (stream : Nat → α) :
    (bsStreamLoad stream).map f = bsStreamLoad (f ∘ stream) := by
  simp only [bsStreamLoad, Sliced.map, Quad.map_zeros respects, respects.zeros, Vector.map_mk,
    List.map_toArray, List.map_cons, List.map_nil]
  rfl

theorem map_bsStreamInit (stream sb : Nat → α) :
    (bsStreamInit stream sb).map f = bsStreamInit (f ∘ stream) (f ∘ sb) := by
  rw [bsStreamInit, bsStreamInit, ← map_bsStreamLoad respects]
  generalize bsStreamLoad stream = s
  induction List.range 8 generalizing s with
  | nil => rfl
  | cons i later ih => rw [List.foldl_cons, ih, map_bsInitByte respects]; rfl

theorem map_bsStreamByte (s : Sliced α) :
    Vector.map f (bsStreamByte s) = bsStreamByte (s.map f) := by
  simp only [bsStreamByte, ← map_bsRound respects, Vector.map_mk, List.map_toArray, List.map_cons,
    List.map_nil, respects.xor]
  rfl

end Maps

end Dvbcsa
