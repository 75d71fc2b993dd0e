import Mathlib.Data.List.TakeWhile
import UsbDvbs2.Text.Decimal

/-! # Fields as `sscanf` reads them

A conversion skips white space, takes the bytes that belong to its field and leaves the
rest to the next one. A field that was written with something behind it that ends it is
read back.
-/

namespace Text

/-- A field without white space. -/
structure Word (text : List UInt8) : Prop where
  some : text ≠ []
  solid : ∀ byte ∈ text, isSpace byte = false

/-- `%<width>s`, with what it leaves. -/
def scanString (width : Nat) (text : List UInt8) : Option (List UInt8 × List UInt8) :=
  let start := text.dropWhile isSpace
  let field := (start.take width).takeWhile (!isSpace ·)
  if field = [] then none else some (field, start.drop field.length)

/-- The digits behind a sign. -/
def behindSign : List UInt8 → List UInt8
  | [] => []
  | byte :: more => if byte = 0x2d ∨ byte = 0x2b then more else byte :: more

/-- A number converted by its own function, with what is left behind its digits. -/
def scanNumber {α : Type} (convert : List UInt8 → α) (text : List UInt8) :
    Option (α × List UInt8) :=
  let start := text.dropWhile isSpace
  if (behindSign start).takeWhile isDigit = [] then none
  else some (convert start, (behindSign start).dropWhile isDigit)

/-- `%ld`. -/
def scanLong : List UInt8 → Option (Int × List UInt8) := scanNumber strtoll

def uint64Max : Nat := 2 ^ 64 - 1

/-- `strtoul` to base 10; a number behind a minus is taken from zero. -/
def strtoul (text : List UInt8) : UInt64 :=
  match text.dropWhile isSpace with
  | 0x2d :: digits =>
      if readDigits 0 digits ≤ uint64Max then -UInt64.ofNat (readDigits 0 digits)
      else UInt64.ofNat uint64Max
  | 0x2b :: digits => UInt64.ofNat (min uint64Max (readDigits 0 digits))
  | digits => UInt64.ofNat (min uint64Max (readDigits 0 digits))

/-- `%u`, which keeps 32 bits. -/
def scanUnsigned : List UInt8 → Option (UInt32 × List UInt8) :=
  scanNumber fun text => (strtoul text).toUInt32

/-! ## Reading back -/

theorem blank_space : ∀ byte ∈ ([0x20] : List UInt8), isSpace byte = true :=
  List.forall_mem_singleton.2 rfl

variable {gap rest : List UInt8}

theorem skip_gap {byte : UInt8} {more : List UInt8} (blank : ∀ byte ∈ gap, isSpace byte = true)
    (solid : isSpace byte = false) : (gap ++ byte :: more).dropWhile isSpace = byte :: more := by
  rw [List.dropWhile_append_of_pos blank, List.dropWhile_cons_of_neg (by rw [solid]; decide)]

theorem takeWhile_take {belongs : UInt8 → Bool} (stops : rest.takeWhile belongs = [])
    (count : Nat) : (rest.take count).takeWhile belongs = [] := by
  cases rest with
  | nil => rw [List.take_nil, List.takeWhile_nil]
  | cons byte rest =>
      cases count with
      | zero => rfl
      | succ count =>
          by_cases inside : belongs byte = true
          · rw [List.takeWhile_cons_of_pos inside] at stops
            exact nomatch stops
          · exact List.takeWhile_cons_of_neg inside

theorem scanString_word {field : List UInt8} {width : Nat} (word : Word field)
    (blank : ∀ byte ∈ gap, isSpace byte = true) (fits : field.length ≤ width)
    (stops : rest.takeWhile (!isSpace ·) = []) :
    scanString width (gap ++ (field ++ rest)) = some (field, rest) := by
  obtain ⟨byte, more, same⟩ := List.exists_cons_of_ne_nil word.some
  have solid : isSpace byte = false := word.solid byte (same ▸ List.mem_cons_self)
  have start : (gap ++ (field ++ rest)).dropWhile isSpace = field ++ rest := by
    rw [same, List.cons_append, skip_gap blank solid]
  have inside : ∀ byte ∈ field, (!isSpace byte) = true := fun byte mem => by
    rw [word.solid byte mem]
    rfl
  have taken : ((field ++ rest).take width).takeWhile (!isSpace ·) = field := by
    rw [List.take_append, List.take_of_length_le fits, List.takeWhile_append_of_pos inside,
      takeWhile_take stops, List.append_nil]
  rw [scanString, start]
  simp only [taken, if_neg word.some, List.drop_left]

theorem takeWhile_digits {digits : List UInt8} (all : ∀ byte ∈ digits, isDigit byte = true)
    (stops : rest.takeWhile isDigit = []) :
    (digits ++ rest).takeWhile isDigit = digits ∧ (digits ++ rest).dropWhile isDigit = rest := by
  rw [List.takeWhile_append_of_pos all, List.dropWhile_append_of_pos all, stops, List.append_nil]
  refine ⟨rfl, ?_⟩
  have whole := @List.takeWhile_append_dropWhile _ isDigit rest
  rwa [stops] at whole

/-- Digits are read up to the first byte that is none. -/
theorem readDigits_append {digits : List UInt8} (all : ∀ byte ∈ digits, isDigit byte = true)
    (stops : rest.takeWhile isDigit = []) (sofar : Nat) :
    readDigits sofar (digits ++ rest) = readDigits sofar digits := by
  induction digits generalizing sofar with
  | nil =>
      cases rest with
      | nil => rfl
      | cons byte rest =>
          by_cases digit : isDigit byte = true
          · rw [List.takeWhile_cons_of_pos digit] at stops
            exact nomatch stops
          · rw [List.nil_append, readDigits, readDigits, if_neg digit]
  | cons byte digits ih =>
      rw [List.forall_mem_cons] at all
      rw [List.cons_append, readDigits, readDigits, if_pos all.1, if_pos all.1, ih all.2]

theorem decimal_digits (number : Nat) : ∀ byte ∈ decimal number, isDigit byte = true :=
  fun _ => isDigit_of_mem_decimal

theorem readDigits_decimal_append {number : Nat} (stops : rest.takeWhile isDigit = []) :
    readDigits 0 (decimal number ++ rest) = number := by
  rw [readDigits_append (decimal_digits number) stops, readDigits_decimal]

/-- A number without a sign has nothing in front of its digits. -/
theorem behindSign_digit {byte : UInt8} {more : List UInt8} (digit : isDigit byte = true) :
    behindSign (byte :: more) = byte :: more := by
  obtain ⟨-, minus, plus⟩ := digit_plain digit
  exact if_neg (not_or.2 ⟨minus, plus⟩)

theorem scanNumber_decimal {α : Type} (convert : List UInt8 → α) {number : Nat}
    (blank : ∀ byte ∈ gap, isSpace byte = true) (stops : rest.takeWhile isDigit = []) :
    scanNumber convert (gap ++ (decimal number ++ rest)) =
      some (convert (decimal number ++ rest), rest) := by
  obtain ⟨byte, more, same, digit⟩ := decimal_cons number
  obtain ⟨taken, left⟩ := takeWhile_digits (decimal_digits number) stops
  have start : (gap ++ (decimal number ++ rest)).dropWhile isSpace = decimal number ++ rest := by
    rw [same, List.cons_append, skip_gap blank (digit_plain digit).1]
  have unsigned : behindSign (decimal number ++ rest) = decimal number ++ rest := by
    rw [same, List.cons_append, behindSign_digit digit]
  rw [scanNumber, start, unsigned]
  simp only [taken, left, if_neg (decimal_ne_nil number)]

theorem scanUnsigned_decimal {number : UInt32} (blank : ∀ byte ∈ gap, isSpace byte = true)
    (stops : rest.takeWhile isDigit = []) :
    scanUnsigned (gap ++ (decimal number.toNat ++ rest)) = some (number, rest) := by
  obtain ⟨byte, more, same, digit⟩ := decimal_cons number.toNat
  obtain ⟨space, minus, plus⟩ := digit_plain digit
  have small : number.toNat ≤ uint64Max := by
    have := number.toNat_lt
    unfold uint64Max
    omega
  have value : strtoul (decimal number.toNat ++ rest) = UInt64.ofNat number.toNat := by
    have read := @readDigits_decimal_append rest number.toNat stops
    rw [same, List.cons_append] at read ⊢
    rw [strtoul, List.dropWhile_cons_of_neg (by rw [space]; decide)]
    split
    · exact (minus (List.cons.inj ‹_›).1).elim
    · exact (plus (List.cons.inj ‹_›).1).elim
    · rw [read, Nat.min_eq_right small]
  rw [scanUnsigned, scanNumber_decimal _ blank stops, value]
  simp

/-! ## Numbers with a sign -/

def sign (number : Int) : List UInt8 := if number < 0 then [minus] else []

theorem signed_eq (number : Int) : signed number = sign number ++ decimal number.natAbs := by
  unfold signed sign
  split <;> rfl

theorem behindSign_sign (number : Int) {byte : UInt8} {more : List UInt8}
    (digit : isDigit byte = true) : behindSign (sign number ++ byte :: more) = byte :: more := by
  unfold sign
  split
  · rfl
  · exact behindSign_digit digit

theorem skip_sign (number : Int) {byte : UInt8} {more : List UInt8}
    (blank : ∀ byte ∈ gap, isSpace byte = true) (digit : isDigit byte = true) :
    (gap ++ (sign number ++ byte :: more)).dropWhile isSpace = sign number ++ byte :: more := by
  unfold sign
  split
  · exact skip_gap blank (by decide)
  · exact skip_gap blank (digit_plain digit).1

/-- A number is read as soon as there is one of its digits. -/
theorem scanLong_digit (number : Int) {byte : UInt8} {more : List UInt8}
    (blank : ∀ byte ∈ gap, isSpace byte = true) (digit : isDigit byte = true) :
    scanLong (gap ++ (sign number ++ byte :: more)) =
      some (strtoll (sign number ++ byte :: more), (byte :: more).dropWhile isDigit) := by
  have some : (byte :: more).takeWhile isDigit ≠ [] := by
    rw [List.takeWhile_cons_of_pos digit]
    exact List.cons_ne_nil _ _
  rw [scanLong, scanNumber, skip_sign number blank digit, behindSign_sign number digit, if_neg some]

theorem strtoll_signed_append {number : Int} (least : int64Min ≤ number)
    (most : number ≤ int64Max) (stops : rest.takeWhile isDigit = []) :
    strtoll (signed number ++ rest) = number := by
  obtain ⟨byte, more, same, digit⟩ := decimal_cons number.natAbs
  have read := @readDigits_decimal_append rest number.natAbs stops
  rw [signed_eq, List.append_assoc]
  rw [same, List.cons_append] at read ⊢
  unfold sign
  split
  · rw [strtoll, List.singleton_append, List.dropWhile_cons_of_neg (by decide)]
    simp only [minus, read]
    unfold int64Min int64Max at *
    omega
  · rw [List.nil_append, strtoll_of_digit digit, read]
    unfold int64Min int64Max at *
    omega

theorem scanLong_signed {number : Int} (blank : ∀ byte ∈ gap, isSpace byte = true)
    (least : int64Min ≤ number) (most : number ≤ int64Max)
    (stops : rest.takeWhile isDigit = []) :
    scanLong (gap ++ (signed number ++ rest)) = some (number, rest) := by
  obtain ⟨byte, more, same, digit⟩ := decimal_cons number.natAbs
  have value := strtoll_signed_append least most stops
  have left := (takeWhile_digits (decimal_digits number.natAbs) stops).2
  rw [signed_eq, List.append_assoc] at value ⊢
  rw [same, List.cons_append] at value left ⊢
  rw [scanLong_digit number blank digit, value, left]

/-- What begins like two texts ends in the first or reaches into the second. -/
theorem begins_append {text front back : List UInt8} (begins : text <+: front ++ back) :
    text <+: front ∨ ∃ more, text = front ++ more ∧ more <+: back := by
  obtain ⟨rest, same⟩ := begins
  rcases List.append_eq_append_iff.1 same with ⟨middle, rfl, _⟩ | ⟨middle, rfl, back⟩
  · exact .inl (List.prefix_append _ _)
  · exact .inr ⟨middle, rfl, rest, back.symm⟩

/-- Without a digit there is no number. -/
theorem scanLong_sign {number : Int} {text : List UInt8}
    (blank : ∀ byte ∈ gap, isSpace byte = true) (begins : text <+: gap ++ sign number) :
    scanLong text = none := by
  have bare : ∀ front : List UInt8, (∀ byte ∈ front, isSpace byte = true) →
      scanLong front = none ∧ scanLong (front ++ [minus]) = none := by
    intro front blank'
    have start : front.dropWhile isSpace = [] := by
      have all := @List.dropWhile_append_of_pos _ isSpace front [] blank'
      rwa [List.append_nil] at all
    have signed : (front ++ [minus]).dropWhile isSpace = [minus] := skip_gap blank' (by decide)
    rw [scanLong, scanNumber, scanNumber, start, signed]
    exact ⟨rfl, rfl⟩
  have alone := bare gap blank
  rcases begins_append begins with within | ⟨left, rfl, short⟩
  · exact (bare text fun byte mem => blank byte (within.subset mem)).1
  · unfold sign at short
    split at short
    · rcases List.prefix_cons_iff.1 short with rfl | ⟨more, rfl, none⟩
      · rw [List.append_nil]
        exact alone.1
      · rw [List.prefix_nil.1 none]
        exact alone.2
    · rw [List.prefix_nil.1 short, List.append_nil]
      exact alone.1

/-! ## Numerals -/

/-- A number as it may stand in a text: blanks, at most one sign, and digits. -/
structure Numeral where
  gap : List UInt8
  mark : Option UInt8
  digits : List UInt8
  blank : ∀ byte ∈ gap, isSpace byte = true
  signed : ∀ byte ∈ mark, byte = 0x2d ∨ byte = 0x2b
  some : digits ≠ []
  numeric : ∀ byte ∈ digits, isDigit byte = true

def Numeral.text (numeral : Numeral) : List UInt8 :=
  numeral.gap ++ (numeral.mark.toList ++ numeral.digits)

/-- A text begins with so many numbers, each as long as its digits go. -/
def BeginsWithNumerals : Nat → List UInt8 → Prop
  | 0, _ => True
  | count + 1, text => ∃ (numeral : Numeral) (rest : List UInt8), text = numeral.text ++ rest ∧
      rest.takeWhile isDigit = [] ∧ BeginsWithNumerals count rest

theorem takeWhile_dropWhile (belongs : UInt8 → Bool) (text : List UInt8) :
    (text.dropWhile belongs).takeWhile belongs = [] := by
  induction text with
  | nil => rfl
  | cons byte text ih =>
      by_cases inside : belongs byte = true
      · rwa [List.dropWhile_cons_of_pos inside]
      · rw [List.dropWhile_cons_of_neg inside, List.takeWhile_cons_of_neg inside]

theorem behindSign_split (text : List UInt8) :
    ∃ mark : Option UInt8, text = mark.toList ++ behindSign text ∧
      ∀ byte ∈ mark, byte = 0x2d ∨ byte = 0x2b := by
  cases text with
  | nil => exact ⟨none, rfl, nofun⟩
  | cons byte more =>
      by_cases signs : byte = 0x2d ∨ byte = 0x2b
      · refine ⟨some byte, ?_, fun _ same => Option.some.inj same ▸ signs⟩
        rw [behindSign, if_pos signs]
        rfl
      · refine ⟨none, ?_, nofun⟩
        rw [behindSign, if_neg signs]
        rfl

section Numerals

variable {α : Type} {convert : List UInt8 → α} {text : List UInt8} {value : α}

/-- What is read is a numeral. -/
theorem scanNumber_eq_some (read : scanNumber convert text = some (value, rest)) :
    ∃ numeral : Numeral, text = numeral.text ++ rest ∧ rest.takeWhile isDigit = [] := by
  simp only [scanNumber] at read
  split at read
  · exact nomatch read
  rename_i digits
  obtain ⟨-, rfl⟩ := Prod.mk.inj (Option.some.inj read)
  obtain ⟨mark, split, signed⟩ := behindSign_split (text.dropWhile isSpace)
  refine ⟨{ gap := text.takeWhile isSpace
            mark
            digits := (behindSign (text.dropWhile isSpace)).takeWhile isDigit
            blank := fun byte mem => List.mem_takeWhile_imp mem
            signed
            some := digits
            numeric := fun byte mem => List.mem_takeWhile_imp mem }, ?_, takeWhile_dropWhile _ _⟩
  rw [Numeral.text, List.append_assoc, List.append_assoc, List.takeWhile_append_dropWhile, ← split,
    List.takeWhile_append_dropWhile]

/-- A numeral is read. -/
theorem Numeral.read (numeral : Numeral) (convert : List UInt8 → α)
    (stops : rest.takeWhile isDigit = []) :
    ∃ value, scanNumber convert (numeral.text ++ rest) = Option.some (value, rest) := by
  obtain ⟨byte, more, same⟩ := List.exists_cons_of_ne_nil numeral.some
  have digit : isDigit byte = true := numeral.numeric byte (same ▸ List.mem_cons_self)
  obtain ⟨taken, left⟩ := takeWhile_digits numeral.numeric stops
  have behind : behindSign (numeral.mark.toList ++ (numeral.digits ++ rest)) =
      numeral.digits ++ rest := by
    cases mark : numeral.mark with
    | none =>
        rw [same, List.cons_append]
        exact behindSign_digit digit
    | some sign => exact if_pos (numeral.signed sign mark)
  have start : (numeral.text ++ rest).dropWhile isSpace =
      numeral.mark.toList ++ (numeral.digits ++ rest) := by
    rw [Numeral.text, List.append_assoc, List.append_assoc]
    cases mark : numeral.mark with
    | none =>
        rw [same, List.cons_append]
        exact skip_gap numeral.blank (digit_plain digit).1
    | some sign =>
        refine skip_gap numeral.blank ?_
        rcases numeral.signed sign mark with rfl | rfl <;> rfl
  refine ⟨convert (numeral.mark.toList ++ (numeral.digits ++ rest)), ?_⟩
  rw [scanNumber, start, behind]
  simp only [taken, left, if_neg numeral.some]

end Numerals
end Text
