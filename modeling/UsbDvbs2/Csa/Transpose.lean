import UsbDvbs2.Bytes.Exchange
import UsbDvbs2.Bytes.Queued
import UsbDvbs2.Csa.Word128

/-! # Between packets and lanes

`dvbcsa_bs_transpose128.c` and `dvbcsa_bs_transpose.c`: the bytes of a batch of packets are
brought into words in which every packet has a lane, and back. All of it is done by exchanging
spans of bits between pairs of words.
-/

namespace Dvbcsa

open Exchange LittleEndian Memory

/-! ## A stage -/

/-- The first of two words takes spans of the other in, `low` being the spans it keeps. -/
def upper (up : Word → Word) (low top bottom : Word) : Word := (top &&& low) ||| up (bottom &&& low)

def lower (down : Word → Word) (high top bottom : Word) : Word :=
  (bottom &&& high) ||| down (top &&& high)

/-- A stage that moves whole bytes. -/
def byteStage (low high : Word) (bytes count d : Nat) : (Nat → Word) → Nat → Word :=
  stage (upper (fun word => word.shl8 bytes) low) (lower (fun word => word.shr8 bytes) high) count d

/-- A stage that moves bits within bytes. -/
def bitStage (low high : Word) (bits count d : Nat) : (Nat → Word) → Nat → Word :=
  stage (upper (fun word => word.shl bits) low) (lower (fun word => word.shr bits) high) count d

/-- The spans of `n` bits that a mask has. -/
structure Spans (low high : Word) (n : Nat) : Prop where
  low_bit : ∀ c < 128, low.bit c = decide (c / n % 2 = 0)
  high_bit : ∀ c < 128, high.bit c = decide (c / n % 2 = 1)

/-- A shift by `n` bits, within pieces of `reach` bits, brings spans onto spans. -/
structure Reaches (n reach : Nat) : Prop where
  arrives : ∀ c < 128, (n ≤ c % reach → n ≤ c ∧ (c / n % 2 = 0 → (c - n) / n % 2 = 1)) ∧
    (c / n % 2 = 1 → n ≤ c % reach ∧ (c - n) / n % 2 = 0)
  leaves : ∀ c < 128,
    (c % reach + n < reach → c + n < 128 ∧ (c / n % 2 = 1 → (c + n) / n % 2 = 0)) ∧
      (c / n % 2 = 0 → c % reach + n < reach ∧ (c + n) / n % 2 = 1)

theorem exchanges_spans {low high : Word} {up down : Word → Word} {n reach : Nat}
    (spans : Spans low high n) (reaches : Reaches n reach)
    (raised : ∀ word, ∀ c < 128, (up word).bit c = (decide (n ≤ c % reach) && word.bit (c - n)))
    (sunk : ∀ word, ∀ c < 128,
      (down word).bit c = (decide (c % reach + n < reach) && word.bit (c + n))) :
    Exchanges Word.bit 128 (upper up low) (lower down high) n where
  first_even top bottom c inside even := by
    rw [upper, Word.bit_or, Word.bit_and, spans.low_bit c inside, decide_eq_true even,
      Bool.and_true, raised _ c inside]
    by_cases within : n ≤ c % reach
    · obtain ⟨-, odd⟩ := (reaches.arrives c inside).1 within
      have dropped : ¬ (c - n) / n % 2 = 0 := by rw [odd even]; decide
      rw [Word.bit_and, spans.low_bit _ (by omega), decide_eq_false dropped, Bool.and_false,
        Bool.and_false, Bool.or_false]
    · rw [decide_eq_false within, Bool.false_and, Bool.or_false]
  first_odd top bottom c inside odd := by
    obtain ⟨within, even⟩ := (reaches.arrives c inside).2 odd
    rw [upper, Word.bit_or, Word.bit_and, spans.low_bit c inside, decide_eq_false (by omega),
      Bool.and_false, Bool.false_or, raised _ c inside, decide_eq_true within, Bool.true_and,
      Word.bit_and, spans.low_bit _ (by omega), decide_eq_true even, Bool.and_true]
  second_even top bottom c inside even := by
    obtain ⟨within, odd⟩ := (reaches.leaves c inside).2 even
    have fits := ((reaches.leaves c inside).1 within).1
    rw [lower, Word.bit_or, Word.bit_and, spans.high_bit c inside, decide_eq_false (by omega),
      Bool.and_false, Bool.false_or, sunk _ c inside, decide_eq_true within, Bool.true_and,
      Word.bit_and, spans.high_bit _ fits, decide_eq_true odd, Bool.and_true]
  second_odd top bottom c inside odd := by
    rw [lower, Word.bit_or, Word.bit_and, spans.high_bit c inside, decide_eq_true odd,
      Bool.and_true, sunk _ c inside]
    by_cases within : c % reach + n < reach
    · obtain ⟨fits, even⟩ := (reaches.leaves c inside).1 within
      have dropped : ¬ (c + n) / n % 2 = 1 := by rw [even odd]; decide
      rw [Word.bit_and, spans.high_bit _ fits, decide_eq_false dropped, Bool.and_false,
        Bool.and_false, Bool.or_false]
    · rw [decide_eq_false within, Bool.false_and, Bool.or_false]

section Places

variable {low high : Word} {count d r c r' c' : Nat} (rows : Nat → Word)

/-- A stage that moves bytes, cell by cell. -/
theorem bit_byteStage {bytes : Nat} (spans : Spans low high (8 * bytes))
    (reaches : Reaches (8 * bytes) 128) (positive : 0 < d)
    (moved : source d (8 * bytes) (r, c) = (r', c')) (row : r < count) (column : c < 128) :
    (byteStage low high bytes count d rows r).bit c = (rows r').bit c' := by
  have raised : ∀ word : Word, ∀ c < 128, (word.shl8 bytes).bit c =
      (decide (8 * bytes ≤ c % 128) && word.bit (c - 8 * bytes)) := by
    intro word c inside
    rw [Word.bit_shl8 word inside, Nat.mod_eq_of_lt inside]
  have sunk : ∀ word : Word, ∀ c < 128, (word.shr8 bytes).bit c =
      (decide (c % 128 + 8 * bytes < 128) && word.bit (c + 8 * bytes)) := by
    intro word c inside
    rw [Word.bit_shr8, Nat.mod_eq_of_lt inside]
    by_cases fits : c + 8 * bytes < 128
    · rw [decide_eq_true fits, Bool.true_and]
    · rw [decide_eq_false fits, Bool.false_and, Word.bit_of_ge _ (by omega)]
  have cell := cell_stage Word.bit 128 positive (exchanges_spans spans reaches raised sunk) rows
    (show (r, c).1 < count from row) column
  rwa [moved] at cell

/-- A stage that moves bits within bytes, cell by cell. -/
theorem bit_bitStage {bits : Nat} (spans : Spans low high bits) (reaches : Reaches bits 64)
    (few : bits < 64) (positive : 0 < d) (moved : source d bits (r, c) = (r', c'))
    (row : r < count) (column : c < 128) :
    (bitStage low high bits count d rows r).bit c = (rows r').bit c' := by
  have cell := cell_stage Word.bit 128 positive
    (exchanges_spans spans reaches (fun word c inside => Word.bit_shl word inside few)
      fun word c _ => Word.bit_shr word few) rows
    (show (r, c).1 < count from row) column
  rwa [moved] at cell

end Places

/-! ## The transpositions -/

/-- The stages with 32, 16 and 8 bits, for so many rows that the last is `d` apart. -/
def byteStages (count d : Nat) (rows : Nat → Word) : Nat → Word :=
  byteStage (.val16 0x00ff) (.val16 0xff00) 1 count d
    (byteStage (.val32 0x0000ffff) (.val32 0xffff0000) 2 count (2 * d)
      (byteStage (.val64 0x00000000ffffffff) (.val64 0xffffffff00000000) 4 count (4 * d) rows))

/-- `dvbcsa_bs_stream_transpose_in`, behind the loading of the rows. -/
def streamTransposeIn (rows : Nat → Word) : Nat → Word :=
  bitStage (.val8 0x55) (.val8 0xaa) 1 64 1
    (bitStage (.val8 0x33) (.val8 0xcc) 2 64 2
      (bitStage (.val8 0x0f) (.val8 0xf0) 4 64 4 (byteStages 64 8 rows)))

/-- The masks of the stages, with the widths of their spans. -/
def masks : List (Word × Word × Nat) :=
  [(.val64 0x00000000ffffffff, .val64 0xffffffff00000000, 32),
    (.val32 0x0000ffff, .val32 0xffff0000, 16), (.val16 0x00ff, .val16 0xff00, 8),
    (.val8 0x0f, .val8 0xf0, 4), (.val8 0x33, .val8 0xcc, 2), (.val8 0x55, .val8 0xaa, 1)]

theorem bit_masks : ∀ mask ∈ masks, ∀ c < 128,
    mask.1.bit c = decide (c / mask.2.2 % 2 = 0) ∧
      mask.2.1.bit c = decide (c / mask.2.2 % 2 = 1) := by
  decide

theorem spans_listed {low high : Word} {n : Nat} (listed : (low, high, n) ∈ masks) :
    Spans low high n :=
  ⟨fun c inside => (bit_masks _ listed c inside).1, fun c inside => (bit_masks _ listed c inside).2⟩

theorem spans_thirtyTwo : Spans (.val64 0x00000000ffffffff) (.val64 0xffffffff00000000) 32 :=
  spans_listed (.head _)

theorem spans_sixteen : Spans (.val32 0x0000ffff) (.val32 0xffff0000) 16 :=
  spans_listed (.tail _ (.head _))

theorem spans_eight : Spans (.val16 0x00ff) (.val16 0xff00) 8 :=
  spans_listed (.tail _ (.tail _ (.head _)))

theorem spans_four : Spans (.val8 0x0f) (.val8 0xf0) 4 :=
  spans_listed (.tail _ (.tail _ (.tail _ (.head _))))

theorem spans_two : Spans (.val8 0x33) (.val8 0xcc) 2 :=
  spans_listed (.tail _ (.tail _ (.tail _ (.tail _ (.head _)))))

theorem spans_one : Spans (.val8 0x55) (.val8 0xaa) 1 :=
  spans_listed (.tail _ (.tail _ (.tail _ (.tail _ (.tail _ (.head _))))))

theorem reaches_word {n : Nat} (chosen : n = 8 ∨ n = 16 ∨ n = 32) : Reaches n 128 := by
  rcases chosen with rfl | rfl | rfl <;> constructor <;> intro c inside <;> omega

theorem reaches_half {n : Nat} (chosen : n = 1 ∨ n = 2 ∨ n = 4) : Reaches n 64 := by
  rcases chosen with rfl | rfl | rfl <;> constructor <;> intro c inside <;> omega

theorem bit_byteStages {count d r c r1 c1 r2 c2 r3 c3 : Nat} (positive : 0 < d)
    (rows : Nat → Word) (first : source d 8 (r, c) = (r1, c1))
    (second : source (2 * d) 16 (r1, c1) = (r2, c2))
    (third : source (4 * d) 32 (r2, c2) = (r3, c3))
    (inside : (r < count ∧ c < 128) ∧ (r1 < count ∧ c1 < 128) ∧ r2 < count ∧ c2 < 128) :
    (byteStages count d rows r).bit c = (rows r3).bit c3 := by
  have eight : Reaches 8 128 := reaches_word (by decide)
  have sixteen : Reaches 16 128 := reaches_word (by decide)
  have thirtyTwo : Reaches 32 128 := reaches_word (by decide)
  obtain ⟨⟨row, column⟩, ⟨row1, column1⟩, row2, column2⟩ := inside
  rw [byteStages, bit_byteStage _ spans_eight eight positive first row column,
    bit_byteStage _ spans_sixteen sixteen (by omega) second row1 column1,
    bit_byteStage _ spans_thirtyTwo thirtyTwo (by omega) third row2 column2]

theorem halfway_inside {d r c : Nat} (chosen : d = 1 ∨ d = 2 ∨ d = 4 ∨ d = 8 ∨ d = 16 ∨ d = 32)
    (row : r < 64) (column : c < 128) : (halfway d r c).1 < 64 ∧ (halfway d r c).2 < 128 := by
  unfold halfway
  rcases chosen with rfl | rfl | rfl | rfl | rfl | rfl <;> omega

/-- Every row of a half becomes a column of it. -/
theorem bit_streamTransposeIn (rows : Nat → Word) {r c : Nat} (row : r < 64) (column : c < 128) :
    (streamTransposeIn rows r).bit c = (rows (c % 64)).bit (64 * (c / 64) + r) := by
  have one : Reaches 1 64 := reaches_half (by decide)
  have two : Reaches 2 64 := reaches_half (by decide)
  have four : Reaches 4 64 := reaches_half (by decide)
  have inside {d : Nat} (chosen : d = 1 ∨ d = 2 ∨ d = 4 ∨ d = 8 ∨ d = 16 ∨ d = 32) :=
    halfway_inside chosen row column
  have first : source 1 1 (r, c) = halfway 2 r c := by
    rw [← halfway_one r c]
    exact source_halfway (by decide) r c
  have at2 := @inside 2 (by decide)
  have at4 := @inside 4 (by decide)
  rw [streamTransposeIn, bit_bitStage _ spans_one one (by decide) (by decide) first row column,
    bit_bitStage _ spans_two two (by decide) (by decide) (source_halfway (by decide) r c) at2.1
      at2.2,
    bit_bitStage _ spans_four four (by decide) (by decide) (source_halfway (by decide) r c) at4.1
      at4.2,
    bit_byteStages (by decide) rows (source_halfway (by decide) r c)
      (source_halfway (by decide) r c) (source_halfway (by decide) r c)
      ⟨inside (by decide), inside (by decide), inside (by decide)⟩]
  change (rows (c % 64 + 64 * (r / 64))).bit (r % 64 + 64 * (c / 64)) = _
  rw [show c % 64 + 64 * (r / 64) = c % 64 by omega,
    show r % 64 + 64 * (c / 64) = 64 * (c / 64) + r by omega]

/-! ### Out of the stream -/

/-- Spans of a half exchanged within a word. -/
def swapWithin (keep high low : Word) (bits : Nat) (t : Word) : Word :=
  (t &&& keep) ||| ((t &&& high).shr bits ||| (t &&& low).shl bits)

/-- The words of `dvbcsa_bs_stream_transpose_out`, before bytes are taken from them. -/
def streamTransposeOut (rows : Nat → Word) (j : Nat) : Word :=
  swapWithin (.val16 0xaa55) (.val16 0x5500) (.val16 0x00aa) 7
    (swapWithin (.val32 0xcccc3333) (.val32 0x33330000) (.val32 0x0000cccc) 14
      (swapWithin (.val64 0xf0f0f0f00f0f0f0f) (.val64 0x0f0f0f0f00000000)
        (.val64 0x00000000f0f0f0f0) 28 (byteStages 8 1 rows j)))

/-- Where the bits of a word come from that exchanges two of their digits. -/
def exchanged (p q c : Nat) : Nat :=
  if c / p % 2 = c / q % 2 then c else if c / p % 2 = 1 then c - p + q else c + p - q

theorem bit_swapWithin {keep high low : Word} {bits p q : Nat} (few : bits < 64)
    (masks : ∀ c < 128,
      (exchanged p q c = c ∧ keep.bit c = true ∧
          (decide (c % 64 + bits < 64) && high.bit (c + bits)) = false ∧
          (decide (bits ≤ c % 64) && low.bit (c - bits)) = false) ∨
        (exchanged p q c = c + bits ∧ keep.bit c = false ∧
          (decide (c % 64 + bits < 64) && high.bit (c + bits)) = true ∧
          (decide (bits ≤ c % 64) && low.bit (c - bits)) = false) ∨
        (exchanged p q c = c - bits ∧ keep.bit c = false ∧
          (decide (c % 64 + bits < 64) && high.bit (c + bits)) = false ∧
          (decide (bits ≤ c % 64) && low.bit (c - bits)) = true))
    (t : Word) {c : Nat} (inside : c < 128) :
    (swapWithin keep high low bits t).bit c = t.bit (exchanged p q c) := by
  have selected : (swapWithin keep high low bits t).bit c =
      ((t.bit c && keep.bit c) ||
        ((t.bit (c + bits) && (decide (c % 64 + bits < 64) && high.bit (c + bits))) ||
          (t.bit (c - bits) && (decide (bits ≤ c % 64) && low.bit (c - bits))))) := by
    rw [swapWithin, Word.bit_or, Word.bit_or, Word.bit_and, Word.bit_shr _ few,
      Word.bit_shl _ inside few, Word.bit_and, Word.bit_and, Bool.and_left_comm,
      Bool.and_left_comm (t.bit (c - bits))]
  rw [selected]
  rcases masks c inside with ⟨place, k, h, l⟩ | ⟨place, k, h, l⟩ | ⟨place, k, h, l⟩ <;>
    rw [place, k, h, l] <;> simp

/-- The bytes of a row are its bytes turned: bit `t` of byte `s` comes from bit `s` of byte `t`. -/
theorem bit_turned {t : Word} {c : Nat} (inside : c < 128) :
    (swapWithin (.val16 0xaa55) (.val16 0x5500) (.val16 0x00aa) 7
      (swapWithin (.val32 0xcccc3333) (.val32 0x33330000) (.val32 0x0000cccc) 14
        (swapWithin (.val64 0xf0f0f0f00f0f0f0f) (.val64 0x0f0f0f0f00000000)
          (.val64 0x00000000f0f0f0f0) 28 t))).bit c =
      t.bit (64 * (c / 64) + 8 * (c % 8) + c / 8 % 8) := by
  have places : ∀ c < 128, exchanged 8 1 c < 128 ∧ exchanged 16 2 (exchanged 8 1 c) < 128 ∧
      exchanged 32 4 (exchanged 16 2 (exchanged 8 1 c)) =
        64 * (c / 64) + 8 * (c % 8) + c / 8 % 8 := by
    decide
  obtain ⟨first, second, last⟩ := places c inside
  rw [bit_swapWithin (p := 8) (q := 1) (by decide) (by decide) _ inside,
    bit_swapWithin (p := 16) (q := 2) (by decide) (by decide) _ first,
    bit_swapWithin (p := 32) (q := 4) (by decide) (by decide) _ second, last]

/-- Bit `t` of byte `8 h + s` of row `j` comes from row `t`. -/
theorem bit_streamTransposeOut (rows : Nat → Word) {j c : Nat} (row : j < 8) (column : c < 128) :
    (streamTransposeOut rows j).bit c =
      (rows (c % 8)).bit (64 * (c / 64) + 8 * j + c / 8 % 8) := by
  have step {d : Nat} (positive : 0 < d) :
      source d (8 * d) ((halfway d j (8 * (c / 64) + c % 8)).1,
          8 * (halfway d j (8 * (c / 64) + c % 8)).2 + c / 8 % 8) =
        ((halfway (2 * d) j (8 * (c / 64) + c % 8)).1,
          8 * (halfway (2 * d) j (8 * (c / 64) + c % 8)).2 + c / 8 % 8) := by
    have moved := source_scaled (k := 1) (m := 8) (g := 0) (t := c / 8 % 8)
      (source_halfway positive j (8 * (c / 64) + c % 8)) (by decide) (Nat.mod_lt _ (by decide))
    simp only [Nat.one_mul, Nat.add_zero] at moved
    exact moved
  have first : source 1 8 (j, 64 * (c / 64) + 8 * (c % 8) + c / 8 % 8) =
      ((halfway 2 j (8 * (c / 64) + c % 8)).1,
        8 * (halfway 2 j (8 * (c / 64) + c % 8)).2 + c / 8 % 8) := by
    have begun := @step 1 (by decide)
    rw [halfway_one] at begun
    rw [show 64 * (c / 64) + 8 * (c % 8) + c / 8 % 8 = 8 * (8 * (c / 64) + c % 8) + c / 8 % 8 by
      omega]
    exact begun
  have inside2 : (halfway 2 j (8 * (c / 64) + c % 8)).1 < 8 ∧
      8 * (halfway 2 j (8 * (c / 64) + c % 8)).2 + c / 8 % 8 < 128 := by
    unfold halfway
    omega
  have inside4 : (halfway 4 j (8 * (c / 64) + c % 8)).1 < 8 ∧
      8 * (halfway 4 j (8 * (c / 64) + c % 8)).2 + c / 8 % 8 < 128 := by
    unfold halfway
    omega
  rw [streamTransposeOut, bit_turned column,
    bit_byteStages (by decide) rows first (@step 2 (by decide)) (@step 4 (by decide))
      ⟨⟨row, by omega⟩, inside2, inside4⟩]
  change (rows ((8 * (c / 64) + c % 8) % 8 + 8 * (j / 8))).bit
    (8 * (j % 8 + 8 * ((8 * (c / 64) + c % 8) / 8)) + c / 8 % 8) = _
  rw [show (8 * (c / 64) + c % 8) % 8 + 8 * (j / 8) = c % 8 by omega,
    show 8 * (j % 8 + 8 * ((8 * (c / 64) + c % 8) / 8)) + c / 8 % 8 =
      64 * (c / 64) + 8 * j + c / 8 % 8 by omega]

/-! ### Blocks -/

/-- The stages of `dvbcsa_bs_block_transpose_in`. -/
def blockTransposeIn (rows : Nat → Word) : Nat → Word :=
  byteStage (.val16 0x00ff) (.val16 0xff00) 1 64 8
    (byteStage (.val32 0x0000ffff) (.val32 0xffff0000) 2 64 16 rows)

/-- The stages of `dvbcsa_bs_block_transpose_out`. -/
def blockTransposeOut (rows : Nat → Word) : Nat → Word :=
  byteStage (.val32 0x0000ffff) (.val32 0xffff0000) 2 64 16
    (byteStage (.val16 0x00ff) (.val16 0xff00) 1 64 8 rows)

/-- Two digits of the register are exchanged with two of the byte. -/
theorem byte_blockTranspose (rows : Nat → Word) {m g p : Nat} (register : m < 8) (word : g < 8)
    (byte : p < 16) :
    (blockTransposeIn rows (8 * m + g)).byte p =
        (rows (8 * (4 * (m / 4) + p % 4) + g)).byte (4 * (p / 4) + m % 4) ∧
      (blockTransposeOut rows (8 * m + g)).byte p =
        (rows (8 * (4 * (m / 4) + p % 4) + g)).byte (4 * (p / 4) + m % 4) := by
  have eight : Reaches 8 128 := reaches_word (by decide)
  have sixteen : Reaches 16 128 := reaches_word (by decide)
  have small : ∀ m < 8, ∀ p < 16,
      ((source 1 1 (m, p)).1 < 8 ∧ (source 1 1 (m, p)).2 < 16) ∧
        ((source 2 2 (m, p)).1 < 8 ∧ (source 2 2 (m, p)).2 < 16) ∧
        source 2 2 (source 1 1 (m, p)) = (4 * (m / 4) + p % 4, 4 * (p / 4) + m % 4) ∧
        source 1 1 (source 2 2 (m, p)) = (4 * (m / 4) + p % 4, 4 * (p / 4) + m % 4) := by
    decide
  obtain ⟨one, two, inward, outward⟩ := small m register p byte
  have moved {d m p j : Nat} (low : j < 8) :
      source (8 * d) (8 * d) (8 * m + g, 8 * p + j) =
        (8 * (source d d (m, p)).1 + g, 8 * (source d d (m, p)).2 + j) :=
    source_scaled rfl word low
  constructor
  · apply Word.byte_eq_of_bits
    intro j low
    rw [blockTransposeIn, bit_byteStage _ spans_eight eight (by decide) (moved (d := 1) low)
        (by omega) (by omega),
      bit_byteStage _ spans_sixteen sixteen (by decide) (moved (d := 2) low) (by omega) (by omega),
      inward]
  · apply Word.byte_eq_of_bits
    intro j low
    rw [blockTransposeOut, bit_byteStage _ spans_sixteen sixteen (by decide) (moved (d := 2) low)
        (by omega) (by omega),
      bit_byteStage _ spans_eight eight (by decide) (moved (d := 1) low) (by omega) (by omega),
      outward]

end Dvbcsa
