import Mathlib.Init

/-! # Text of the broadcast tables

A text names its character table in its first bytes, or comes in the default one.
What leaves is UTF-8 for a buffer of a given size.
-/

namespace Text

inductive DvbTable where
  | iso6937
  | latin1
  | latin5
  | latin9
  | cyrillic
  | greek
  | utf8
  | utf16be
  deriving DecidableEq

/-! ## The character tables

Below `0xa0` all of them agree with ASCII. A code of zero is an unassigned byte.
-/

def highFirst : UInt8 := 0xa0

def latin5 : List (UInt8 × Nat) :=
  [(0xd0, 0x011e), (0xdd, 0x0130), (0xde, 0x015e), (0xf0, 0x011f), (0xfd, 0x0131), (0xfe, 0x015f)]

def latin9 : List (UInt8 × Nat) :=
  [(0xa4, 0x20ac), (0xa6, 0x0160), (0xa8, 0x0161), (0xb4, 0x017d), (0xb8, 0x017e),
  (0xbc, 0x0152), (0xbd, 0x0153), (0xbe, 0x0178)]

/-- From `0xa0` on. -/
def greekLow : List Nat :=
  [0x00a0, 0x2018, 0x2019, 0x00a3, 0x20ac, 0x20af, 0x00a6, 0x00a7, 0x00a8, 0x00a9, 0x037a,
  0x00ab, 0x00ac, 0x00ad, 0, 0x2015, 0x00b0, 0x00b1, 0x00b2, 0x00b3, 0x0384, 0x0385]

/-- From `0xa0` on. -/
def iso6937A0 : List Nat :=
  [0x00a0, 0x00a1, 0x00a2, 0x00a3, 0x20ac, 0x00a5, 0, 0x00a7, 0x00a4, 0x2018, 0x201c, 0x00ab,
  0x2190, 0x2191, 0x2192, 0x2193, 0x00b0, 0x00b1, 0x00b2, 0x00b3, 0x00d7, 0x00b5, 0x00b6, 0x00b7,
  0x00f7, 0x2019, 0x201d, 0x00bb, 0x00bc, 0x00bd, 0x00be, 0x00bf]

/-- From `0xd0` on. -/
def iso6937D0 : List Nat :=
  [0x2015, 0x00b9, 0x00ae, 0x00a9, 0x2122, 0x266a, 0x00ac, 0x00a6, 0, 0, 0, 0, 0x215b, 0x215c,
  0x215d, 0x215e, 0x2126, 0x00c6, 0x0110, 0x00aa, 0x0126, 0, 0x0132, 0x013f, 0x0141, 0x00d8,
  0x0152, 0x00ba, 0x00de, 0x0166, 0x014a, 0x0149, 0x0138, 0x00e6, 0x0111, 0x00f0, 0x0127, 0x0131,
  0x0133, 0x0140, 0x0142, 0x00f8, 0x0153, 0x00df, 0x00fe, 0x0167, 0x014b, 0x00ad]

/-- The marks from `0xc1` on, which apply to the character that follows. -/
def iso6937Marks : List Nat :=
  [0x0300, 0x0301, 0x0302, 0x0303, 0x0304, 0x0306, 0x0307, 0x0308, 0, 0x030a, 0x0327, 0, 0x030b,
  0x0328, 0x030c]

/-- Mark and letter to the one character that means the same. -/
def iso6937Compose : List (Nat × UInt8 × Nat) :=
  [(0x0300, 0x41, 0x00c0), (0x0300, 0x45, 0x00c8), (0x0300, 0x49, 0x00cc),
  (0x0300, 0x4f, 0x00d2), (0x0300, 0x55, 0x00d9), (0x0300, 0x61, 0x00e0), (0x0300, 0x65, 0x00e8),
  (0x0300, 0x69, 0x00ec), (0x0300, 0x6f, 0x00f2), (0x0300, 0x75, 0x00f9), (0x0301, 0x41, 0x00c1),
  (0x0301, 0x43, 0x0106), (0x0301, 0x45, 0x00c9), (0x0301, 0x49, 0x00cd), (0x0301, 0x4e, 0x0143),
  (0x0301, 0x4f, 0x00d3), (0x0301, 0x53, 0x015a), (0x0301, 0x55, 0x00da), (0x0301, 0x59, 0x00dd),
  (0x0301, 0x5a, 0x0179), (0x0301, 0x61, 0x00e1), (0x0301, 0x63, 0x0107), (0x0301, 0x65, 0x00e9),
  (0x0301, 0x69, 0x00ed), (0x0301, 0x6e, 0x0144), (0x0301, 0x6f, 0x00f3), (0x0301, 0x73, 0x015b),
  (0x0301, 0x75, 0x00fa), (0x0301, 0x79, 0x00fd), (0x0301, 0x7a, 0x017a), (0x0302, 0x41, 0x00c2),
  (0x0302, 0x45, 0x00ca), (0x0302, 0x49, 0x00ce), (0x0302, 0x4f, 0x00d4), (0x0302, 0x55, 0x00db),
  (0x0302, 0x61, 0x00e2), (0x0302, 0x65, 0x00ea), (0x0302, 0x69, 0x00ee), (0x0302, 0x6f, 0x00f4),
  (0x0302, 0x75, 0x00fb), (0x0303, 0x41, 0x00c3), (0x0303, 0x4e, 0x00d1), (0x0303, 0x4f, 0x00d5),
  (0x0303, 0x61, 0x00e3), (0x0303, 0x6e, 0x00f1), (0x0303, 0x6f, 0x00f5), (0x0306, 0x41, 0x0102),
  (0x0306, 0x47, 0x011e), (0x0306, 0x61, 0x0103), (0x0306, 0x67, 0x011f), (0x0307, 0x49, 0x0130),
  (0x0307, 0x5a, 0x017b), (0x0307, 0x7a, 0x017c), (0x0308, 0x41, 0x00c4), (0x0308, 0x45, 0x00cb),
  (0x0308, 0x49, 0x00cf), (0x0308, 0x4f, 0x00d6), (0x0308, 0x55, 0x00dc), (0x0308, 0x59, 0x0178),
  (0x0308, 0x61, 0x00e4), (0x0308, 0x65, 0x00eb), (0x0308, 0x69, 0x00ef), (0x0308, 0x6f, 0x00f6),
  (0x0308, 0x75, 0x00fc), (0x0308, 0x79, 0x00ff), (0x030a, 0x41, 0x00c5), (0x030a, 0x55, 0x016e),
  (0x030a, 0x61, 0x00e5), (0x030a, 0x75, 0x016f), (0x030b, 0x4f, 0x0150), (0x030b, 0x55, 0x0170),
  (0x030b, 0x6f, 0x0151), (0x030b, 0x75, 0x0171), (0x030c, 0x43, 0x010c), (0x030c, 0x44, 0x010e),
  (0x030c, 0x45, 0x011a), (0x030c, 0x4e, 0x0147), (0x030c, 0x52, 0x0158), (0x030c, 0x53, 0x0160),
  (0x030c, 0x54, 0x0164), (0x030c, 0x5a, 0x017d), (0x030c, 0x63, 0x010d), (0x030c, 0x64, 0x010f),
  (0x030c, 0x65, 0x011b), (0x030c, 0x6e, 0x0148), (0x030c, 0x72, 0x0159), (0x030c, 0x73, 0x0161),
  (0x030c, 0x74, 0x0165), (0x030c, 0x7a, 0x017e), (0x0327, 0x43, 0x00c7), (0x0327, 0x47, 0x0122),
  (0x0327, 0x53, 0x015e), (0x0327, 0x54, 0x0162), (0x0327, 0x63, 0x00e7), (0x0327, 0x67, 0x0123),
  (0x0327, 0x73, 0x015f), (0x0327, 0x74, 0x0163), (0x0328, 0x41, 0x0104), (0x0328, 0x45, 0x0118),
  (0x0328, 0x61, 0x0105), (0x0328, 0x65, 0x0119)]

/-- `high_byte_code`, of a byte from `0xa0` on. -/
def highByteCode (table : DvbTable) (byte : UInt8) : Nat :=
  match table with
  | .latin5 => (latin5.lookup byte).getD byte.toNat
  | .latin9 => (latin9.lookup byte).getD byte.toNat
  | .cyrillic =>
      if byte = 0xa0 then 0x00a0
      else if byte = 0xad then 0x00ad
      else if byte = 0xf0 then 0x2116
      else if byte = 0xfd then 0x00a7
      else if 0xa1 ≤ byte ∧ byte ≤ 0xac then 0x0401 + (byte.toNat - 0xa1)
      else if 0xae ≤ byte ∧ byte ≤ 0xaf then 0x040e + (byte.toNat - 0xae)
      else if 0xb0 ≤ byte ∧ byte ≤ 0xef then 0x0410 + (byte.toNat - 0xb0)
      else if 0xf1 ≤ byte ∧ byte ≤ 0xfc then 0x0451 + (byte.toNat - 0xf1)
      else 0x045e + (byte.toNat - 0xfe)
  | .greek =>
      if byte ≤ 0xb5 then greekLow.getD (byte.toNat - 0xa0) 0
      else if byte = 0xb6 then 0x0386
      else if byte = 0xb7 then 0x00b7
      else if 0xb8 ≤ byte ∧ byte ≤ 0xba then 0x0388 + (byte.toNat - 0xb8)
      else if byte = 0xbb then 0x00bb
      else if byte = 0xbc then 0x038c
      else if byte = 0xbd then 0x00bd
      else 0x038e + (byte.toNat - 0xbe)
  | _ => byte.toNat

/-- `compose`; zero for a pair that is not listed. -/
def compose (mark : Nat) (base : UInt8) : Nat :=
  ((iso6937Compose.find? fun entry => entry.1 = mark ∧ entry.2.1 = base).map fun entry =>
    entry.2.2).getD 0

/-- The code of a byte of the default table that is no mark. -/
def iso6937Code (byte : UInt8) : Nat :=
  if byte < 0xc0 then iso6937A0.getD (byte.toNat - 0xa0) 0
  else if byte < 0xd0 then 0
  else iso6937D0.getD (byte.toNat - 0xd0) 0

/-- `pick_table`: the table, and where the text starts. -/
def pickTable (source : List UInt8) : DvbTable × Nat :=
  let selector := source.getD 0 0
  if source = [] ∨ 0x20 ≤ selector then (.iso6937, 0)
  else if selector = 0x01 then (.cyrillic, 1)
  else if selector = 0x03 then (.greek, 1)
  else if selector = 0x05 then (.latin5, 1)
  else if selector = 0x0b then (.latin9, 1)
  else if selector = 0x10 then
    if 3 ≤ source.length then
      let part := source.getD 2 0
      (if part = 0x05 then .cyrillic
       else if part = 0x07 then .greek
       else if part = 0x09 then .latin5
       else if part = 0x0f then .latin9
       else .latin1, 3)
    else (.latin1, 1)
  else if selector = 0x11 then (.utf16be, 1)
  else if selector = 0x15 then (.utf8, 1)
  else if selector = 0x1f then (.latin1, if 2 ≤ source.length then 2 else 1)
  else (.latin1, 1)

/-! ## The conversion -/

/-- A continuation byte of six bits. -/
def utf8Tail (code : Nat) : UInt8 := UInt8.ofNat (0x80 ||| code &&& 0x3f)

/-- The bytes of a code point. -/
def utf8Bytes (code : Nat) : List UInt8 :=
  if code < 0x80 then [UInt8.ofNat code]
  else if code < 0x800 then [UInt8.ofNat (0xc0 ||| code >>> 6), utf8Tail code]
  else if code < 0x10000 then
    [UInt8.ofNat (0xe0 ||| code >>> 12), utf8Tail (code >>> 6), utf8Tail code]
  else
    [UInt8.ofNat (0xf0 ||| code >>> 18), utf8Tail (code >>> 12), utf8Tail (code >>> 6),
      utf8Tail code]

/-- `put_utf8`: nothing when the code point does not fit. -/
def putUtf8 (size : Nat) (out : List UInt8) (code : Nat) : Option (List UInt8) :=
  if code = 0 then some out
  else if size < out.length + (utf8Bytes code).length + 1 then none
  else some (out ++ utf8Bytes code)

/-- The bytes that a byte of UTF-8 announces; zero for none. -/
def utf8Length (byte : UInt8) : Nat :=
  if byte < 0x80 then 1
  else if byte &&& 0xe0 = 0xc0 then 2
  else if byte &&& 0xf0 = 0xe0 then 3
  else if byte &&& 0xf8 = 0xf0 then 4
  else 0

/-- The loop over a text that is UTF-8 already. -/
def copyUtf8 (size : Nat) : Nat → List UInt8 → List UInt8 → List UInt8
  | 0, _, out => out
  | _ + 1, [], out => out
  | fuel + 1, ch :: rest, out =>
      let length := utf8Length ch
      if size ≤ out.length + 1 ∨ length = 0 ∨ rest.length + 1 < length then out
      else if length = 1 then
        copyUtf8 size fuel rest (out ++ [if ch < 0x20 ∨ ch = 0x7f then 0x20 else ch])
      else if size < out.length + length + 1 then out
      else copyUtf8 size fuel (rest.drop (length - 1)) (out ++ (ch :: rest).take length)

/-- The loop over UTF-16. -/
def readUtf16 (size : Nat) : List UInt8 → List UInt8 → List UInt8
  | high :: low :: rest, out =>
      let code := high.toNat * 256 + low.toNat
      match putUtf8 size out (if code < 0x20 ∨ code = 0x7f then 0x20 else code) with
      | some out => readUtf16 size rest out
      | none => out
  | _, out => out

/-- What a byte of the tables of one byte a character, or of the default one, stands
for, and the text behind it. -/
def nextCodes (table : DvbTable) (ch : UInt8) (rest : List UInt8) : List Nat × List UInt8 :=
  if ch < 0x20 ∨ 0x7f ≤ ch ∧ ch < highFirst then ([0x20], rest)
  else if ch < highFirst then ([ch.toNat], rest)
  else if table ≠ .iso6937 then ([highByteCode table ch], rest)
  else if 0xc1 ≤ ch ∧ ch ≤ 0xcf then
    let mark := iso6937Marks.getD (ch.toNat - 0xc1) 0
    let base := rest.headD 0
    if mark = 0 ∨ base = 0 then ([], rest.tail)
    else if compose mark base ≠ 0 then ([compose mark base], rest.tail)
    -- The letter and the mark one after the other.
    else ([base.toNat, mark], rest.tail)
  else ([iso6937Code ch], rest)

/-- The code points one after the other, and whether all of them fit. -/
def putCodes (size : Nat) : List Nat → List UInt8 → List UInt8 × Bool
  | [], out => (out, true)
  | code :: codes, out =>
      match putUtf8 size out code with
      | some out => putCodes size codes out
      | none => (out, false)

/-- The loop over the tables of one byte a character, and the default one. -/
def readBytes (table : DvbTable) (size : Nat) : Nat → List UInt8 → List UInt8 → List UInt8
  | 0, _, out => out
  | _ + 1, [], out => out
  | fuel + 1, ch :: rest, out =>
      let (codes, behind) := nextCodes table ch rest
      let (out, fits) := putCodes size codes out
      if fits then readBytes table size fuel behind out else out

/-- `dtv_dvb_text_to_utf8`: the bytes in front of the terminator. -/
def dtvDvbTextToUtf8 (size : Nat) (source : List UInt8) : List UInt8 :=
  if size = 0 then []
  else
    let (table, start) := pickTable source
    let text := source.drop start
    match table with
    | .utf8 => copyUtf8 size text.length text []
    | .utf16be => readUtf16 size text []
    | table => readBytes table size text.length text []

example : dtvDvbTextToUtf8 512 [0x05, 0x41, 0xdd] = [0x41, 0xc4, 0xb0] := by decide

/-! ## The room taken -/

section Room

variable {size : Nat}

theorem putUtf8_length {out more : List UInt8} {code : Nat} (short : out.length < size)
    (put : putUtf8 size out code = some more) : more.length < size := by
  unfold putUtf8 at put
  split at put
  · rw [← Option.some.inj put]
    exact short
  · split at put
    · exact nomatch put
    · rw [← Option.some.inj put, List.length_append]
      omega

theorem copyUtf8_length {fuel : Nat} {text out : List UInt8} (short : out.length < size) :
    (copyUtf8 size fuel text out).length < size := by
  induction fuel generalizing text out with
  | zero => exact short
  | succ fuel ih =>
      cases text with
      | nil => exact short
      | cons ch rest =>
          simp only [copyUtf8]
          split
          · exact short
          · split
            · exact ih (by rw [List.length_append, List.length_singleton]; omega)
            · split
              · exact short
              · exact ih (by rw [List.length_append, List.length_take]; omega)

theorem readUtf16_length {text out : List UInt8} (short : out.length < size) :
    (readUtf16 size text out).length < size := by
  fun_induction readUtf16 size text out with
  | case1 out high low rest code more put ih => exact ih (putUtf8_length short put)
  | case2 => exact short
  | case3 => exact short

theorem putCodes_length {codes : List Nat} {out : List UInt8} (short : out.length < size) :
    (putCodes size codes out).1.length < size := by
  induction codes generalizing out with
  | nil => exact short
  | cons code codes ih =>
      rw [putCodes]
      split
      · rename_i more put
        exact ih (putUtf8_length short put)
      · exact short

theorem readBytes_length {table : DvbTable} {fuel : Nat} {text out : List UInt8}
    (short : out.length < size) : (readBytes table size fuel text out).length < size := by
  induction fuel generalizing text out with
  | zero => exact short
  | succ fuel ih =>
      cases text with
      | nil => exact short
      | cons ch rest =>
          have put : (putCodes size (nextCodes table ch rest).1 out).1.length < size :=
            putCodes_length short
          simp only [readBytes]
          split
          · exact ih put
          · exact put

/-- The text and its terminator stay in the buffer. -/
theorem dtvDvbTextToUtf8_length (room : 0 < size) (source : List UInt8) :
    (dtvDvbTextToUtf8 size source).length < size := by
  rw [dtvDvbTextToUtf8, if_neg (Nat.ne_of_gt room)]
  simp only
  split
  · exact copyUtf8_length room
  · exact readUtf16_length room
  · exact readBytes_length room

end Room
end Text
