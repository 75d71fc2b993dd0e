import Mathlib.Algebra.Group.Int.Defs
import Mathlib.Algebra.Group.Nat.Defs
import UsbDvbs2.Text.Lines

/-! # Numbers in text

Numbers as `printf` writes them and as `atoi` and `strtoll` read them back.
-/

namespace Text

/-- `%u`. -/
def decimal (number : Nat) : List UInt8 := (Nat.toDigits 10 number).map Char.toUInt8

def minus : UInt8 := 0x2d

/-- `%lld`. -/
def signed (number : Int) : List UInt8 :=
  if number < 0 then minus :: decimal number.natAbs else decimal number.natAbs

/-! ## Reading -/

def isDigit (byte : UInt8) : Bool := 0x30 ≤ byte && byte ≤ 0x39

def isSpace (byte : UInt8) : Bool := byte == 0x20 || 0x09 ≤ byte && byte ≤ 0x0d

/-- The digits a text begins with, behind a number read so far. -/
def readDigits (sofar : Nat) : List UInt8 → Nat
  | [] => sofar
  | byte :: more =>
      if isDigit byte then readDigits (10 * sofar + (byte.toNat - 0x30)) more else sofar

def int64Min : Int := -2 ^ 63

def int64Max : Int := 2 ^ 63 - 1

/-- `strtoll` to base 10. -/
def strtoll (text : List UInt8) : Int :=
  let number : Int :=
    match text.dropWhile isSpace with
    | 0x2d :: digits => -(readDigits 0 digits : Int)
    | 0x2b :: digits => readDigits 0 digits
    | digits => readDigits 0 digits
  max int64Min (min int64Max number)

/-- `atoi`, which reads a long and keeps 32 bits of it. -/
def atoi (text : List UInt8) : Int := (strtoll text).bmod (2 ^ 32)

/-! ## Reading back -/

theorem digit_byte {c : Char} (digit : c.isDigit = true) :
    isDigit c.toUInt8 = true ∧ c.toUInt8.toNat = c.toNat := by
  have bounds : 48 ≤ c.val ∧ c.val ≤ 57 := by simpa [Char.isDigit] using digit
  have low : 48 ≤ c.val.toNat := bounds.1
  have high : c.val.toNat ≤ 57 := bounds.2
  have same : c.toUInt8.toNat = c.val.toNat := by
    rw [Char.toUInt8, UInt32.toNat_toUInt8]
    omega
  refine ⟨?_, same⟩
  rw [isDigit, Bool.and_eq_true, decide_eq_true_iff, decide_eq_true_iff, UInt8.le_iff_toNat_le,
    UInt8.le_iff_toNat_le, same]
  exact ⟨low, high⟩

theorem readDigits_map {chars : List Char} (digits : ∀ c ∈ chars, c.isDigit = true)
    (sofar : Nat) :
    readDigits sofar (chars.map Char.toUInt8) = Nat.ofDigitChars 10 chars sofar := by
  induction chars generalizing sofar with
  | nil => simp [readDigits]
  | cons c chars ih =>
      obtain ⟨digit, same⟩ := digit_byte (digits c (List.mem_cons_self ..))
      rw [List.map_cons, readDigits, if_pos digit, same, Nat.ofDigitChars_cons,
        ih (fun other mem => digits other (List.mem_cons_of_mem _ mem))]
      rfl

theorem isDigit_of_mem_decimal {number : Nat} {byte : UInt8} (mem : byte ∈ decimal number) :
    isDigit byte = true := by
  obtain ⟨c, inside, rfl⟩ := List.mem_map.1 mem
  exact (digit_byte (Nat.isDigit_of_mem_toDigits (by decide) (by decide) inside)).1

theorem readDigits_decimal (number : Nat) : readDigits 0 (decimal number) = number := by
  rw [decimal, readDigits_map fun c mem =>
    Nat.isDigit_of_mem_toDigits (by decide) (by decide) mem]
  exact Nat.ofDigitChars_ten_toDigits

theorem decimal_ne_nil (number : Nat) : decimal number ≠ [] := by
  simp [decimal]

theorem decimal_length {number count : Nat} (positive : 0 < count) (fits : number < 10 ^ count) :
    (decimal number).length ≤ count := by
  rw [decimal, List.length_map]
  exact (Nat.length_toDigits_le_iff (by decide) positive).2 fits

/-- A number begins with a digit. -/
theorem decimal_cons (number : Nat) : ∃ byte more, decimal number = byte :: more ∧
    isDigit byte = true := by
  obtain ⟨byte, more, same⟩ := List.exists_cons_of_ne_nil (decimal_ne_nil number)
  exact ⟨byte, more, same, isDigit_of_mem_decimal (same ▸ List.mem_cons_self ..)⟩

theorem digit_plain {byte : UInt8} (digit : isDigit byte = true) :
    isSpace byte = false ∧ byte ≠ 0x2d ∧ byte ≠ 0x2b := by
  rw [isDigit, Bool.and_eq_true, decide_eq_true_iff, decide_eq_true_iff, UInt8.le_iff_toNat_le,
    UInt8.le_iff_toNat_le] at digit
  have low : 48 ≤ byte.toNat := digit.1
  refine ⟨?_, ?_, ?_⟩
  · rw [isSpace, Bool.or_eq_false_iff, Bool.and_eq_false_iff, beq_eq_false_iff_ne,
      decide_eq_false_iff_not, decide_eq_false_iff_not, UInt8.le_iff_toNat_le,
      UInt8.le_iff_toNat_le]
    refine ⟨?_, .inr ?_⟩
    · intro same
      rw [same] at low
      exact absurd low (by decide)
    · exact fun high => absurd (Nat.le_trans low high) (by decide)
  · intro same
    rw [same] at low
    exact absurd low (by decide)
  · intro same
    rw [same] at low
    exact absurd low (by decide)

theorem strtoll_of_digit {byte : UInt8} {more : List UInt8} (digit : isDigit byte = true) :
    strtoll (byte :: more) =
      max int64Min (min int64Max (readDigits 0 (byte :: more) : Int)) := by
  obtain ⟨space, minus, plus⟩ := digit_plain digit
  have starts : (byte :: more).dropWhile isSpace = byte :: more :=
    List.dropWhile_cons_of_neg (by simp [space])
  rw [strtoll, starts]
  split
  · exact (minus (List.cons.inj ‹_›).1).elim
  · exact (plus (List.cons.inj ‹_›).1).elim
  · rfl

theorem strtoll_decimal {number : Nat} (fits : (number : Int) ≤ int64Max) :
    strtoll (decimal number) = number := by
  obtain ⟨byte, more, same, digit⟩ := decimal_cons number
  rw [same, strtoll_of_digit digit, ← same, readDigits_decimal]
  unfold int64Min int64Max at *
  omega

theorem strtoll_signed {number : Int} (least : int64Min ≤ number) (most : number ≤ int64Max) :
    strtoll (signed number) = number := by
  unfold signed
  by_cases negative : number < 0
  · have starts : (minus :: decimal number.natAbs).dropWhile isSpace =
        minus :: decimal number.natAbs := List.dropWhile_cons_of_neg (by decide)
    have size : (number.natAbs : Int) = -number := by omega
    rw [if_pos negative, strtoll, starts]
    simp only [minus, readDigits_decimal, size]
    unfold int64Min int64Max at *
    omega
  · have size : (number.natAbs : Int) = number := by omega
    rw [if_neg negative, strtoll_decimal (by omega), size]

theorem atoi_decimal {number : Nat} (fits : number < 2 ^ 31) : atoi (decimal number) = number := by
  have inside : (number : Int) ≤ int64Max := by
    unfold int64Max
    omega
  rw [atoi, strtoll_decimal inside]
  exact Int.bmod_eq_of_le (by omega) (by omega)

theorem atoi_uint16 (number : UInt16) :
    UInt16.ofInt (atoi (decimal number.toNat)) = number := by
  have fits := number.toNat_lt
  have same : ((number.toNat : Int) % 2 ^ 16).toNat = number.toNat := by omega
  rw [atoi_decimal (by omega), UInt16.ofInt, same, UInt16.ofNat_toNat]

theorem atoi_uint32 {number : UInt32} (fits : number.toNat < 2 ^ 31) :
    UInt32.ofInt (atoi (decimal number.toNat)) = number := by
  have same : ((number.toNat : Int) % 2 ^ 32).toNat = number.toNat := by omega
  rw [atoi_decimal fits, UInt32.ofInt, same, UInt32.ofNat_toNat]

/-- A 64-bit number has at most nineteen digits and a sign. -/
theorem signed_length {number : Int} (least : int64Min ≤ number) (most : number ≤ int64Max) :
    (signed number).length ≤ 20 := by
  have digits : (decimal number.natAbs).length ≤ 19 :=
    decimal_length (by decide) (by unfold int64Min int64Max at *; omega)
  unfold signed
  split
  · rw [List.length_cons]
    omega
  · omega

end Text
