import Mathlib.Data.List.Infix
import Mathlib.Data.List.TakeWhile
import UsbDvbs2.Text.Fields

/-! # Status replies

The daemon answers `STATUS` with one line of numbers and fields, and the status thread of
the host takes whatever one read brings for a reply. It looks at the word and the five
numbers in front and for nothing that ends the line.
-/

namespace Sdk

open Text

def tab : UInt8 := 0x09

/-- A text field of `usb_dvbs2_engine_status`. -/
structure StatusText (size : Nat) where
  text : List UInt8
  fits : text.length < size
  plain : ∀ byte ∈ text, byte ≠ 0 ∧ byte ≠ tab ∧ byte ≠ cr ∧ byte ≠ lf

/-- `usb_dvbs2_engine_status`. -/
structure EngineStatus where
  locked : Int64
  fecLocked : Int64
  frameLocked : Int64
  snrX100 : Int64
  symbolRateHz : Int64
  date : StatusText 16
  time : StatusText 16
  nowStart : StatusText 16
  nowEnd : StatusText 16
  nowTitle : StatusText 192
  nextStart : StatusText 16
  nextTitle : StatusText 192
  camState : Int32
  camMessage : StatusText 128

namespace EngineStatus

variable (status : EngineStatus)

def numbers : List Int :=
  [status.locked, status.fecLocked, status.frameLocked, status.snrX100, status.symbolRateHz].map
    Int64.toInt

/-- The fields behind the numbers. -/
def fields : List (List UInt8) :=
  [status.date.text, status.time.text, status.nowStart.text, status.nowEnd.text,
    status.nowTitle.text, status.nextStart.text, status.nextTitle.text,
    signed status.camState.toInt, status.camMessage.text]

end EngineStatus

def statusKeyword : List UInt8 := ascii ['S', 'T', 'A', 'T', 'U', 'S']

/-- `" %ld"` for each of the numbers. -/
def numberText (numbers : List Int) : List UInt8 :=
  numbers.flatMap fun number => [0x20] ++ signed number

/-- The text that `handle_line` formats. -/
def EngineStatus.line (status : EngineStatus) : List UInt8 :=
  statusKeyword ++ (numberText status.numbers ++ (status.fields.flatMap (tab :: ·) ++ [lf]))

/-- What `handle_line` writes, out of a buffer of 768 bytes. -/
def EngineStatus.reply (status : EngineStatus) : List UInt8 := status.line.take 767

/-- Replies one after the other. -/
def replies (statuses : List EngineStatus) : List UInt8 := statuses.flatMap EngineStatus.reply

/-! ## The host -/

/-- `usb_dvbs2_status`. -/
structure UsbStatus where
  locked : Bool
  fecLocked : Bool
  frameLocked : Bool
  snrX100 : Int32
  symbolRateHz : UInt32
  date : List UInt8
  time : List UInt8
  nowStart : List UInt8
  nowEnd : List UInt8
  nowTitle : List UInt8
  nextStart : List UInt8
  nextTitle : List UInt8
  camState : Int
  camMessage : List UInt8

/-- `"%ld"` as often as asked. -/
def scanLongs : Nat → List UInt8 → Option (List Int × List UInt8)
  | 0, text => some ([], text)
  | count + 1, text =>
      match scanLong text with
      | none => none
      | some (number, more) =>
          match scanLongs count more with
          | none => none
          | some (numbers, rest) => some (number :: numbers, rest)

/-- The scan at the beginning of a reply. -/
def statusNumbers (text : List UInt8) : Option (List Int) :=
  if statusKeyword.isPrefixOf text then
    (scanLongs 5 (text.drop statusKeyword.length)).map Prod.fst
  else none

/-- What `strpbrk` looks for. -/
def inField (byte : UInt8) : Bool := byte != tab && byte != cr && byte != lf

/-- The fields that are found, as many as asked at most. -/
def splitFields : Nat → List UInt8 → List (List UInt8)
  | 0, _ => []
  | count + 1, text =>
      text.takeWhile inField ::
        match text.dropWhile inField with
        | [] => []
        | _ :: more => splitFields count more

/-- The fields behind the first tab, if there is one. -/
def statusFields (text : List UInt8) : List (List UInt8) :=
  match text.dropWhile (· != tab) with
  | [] => []
  | _ :: more => splitFields 9 more

/-- `COPY_META`. -/
def copyMeta (size : Nat) (fields : List (List UInt8)) (index : Nat) : List UInt8 :=
  (fields.getD index []).take (size - 1)

def usbStatus (fields : List (List UInt8)) (locked fec frame snr symbolRate : Int) : UsbStatus where
  locked := locked != 0
  fecLocked := fec != 0
  frameLocked := frame != 0
  snrX100 := Int32.ofInt snr
  symbolRateHz := if 0 < symbolRate then UInt32.ofInt symbolRate else 0
  date := copyMeta 16 fields 0
  time := copyMeta 16 fields 1
  nowStart := copyMeta 16 fields 2
  nowEnd := copyMeta 16 fields 3
  nowTitle := copyMeta 192 fields 4
  nextStart := copyMeta 16 fields 5
  nextTitle := copyMeta 192 fields 6
  camState := (fields[7]?).elim 0 atoi
  camMessage := copyMeta 128 fields 8

/-- `parse_status_reply` for the bytes of one read. -/
def parseStatusReply (read : List UInt8) : Option UsbStatus :=
  let text := read.takeWhile (· != 0)
  match statusNumbers text with
  | some [locked, fec, frame, snr, symbolRate] =>
      some (usbStatus (statusFields text) locked fec frame snr symbolRate)
  | _ => none

/-! ## The numbers -/

section Numbers

variable {numbers : List Int} {text rest : List UInt8}

theorem numberText_cons (number : Int) (numbers : List Int) :
    numberText (number :: numbers) = [0x20] ++ (signed number ++ numberText numbers) := by
  rw [numberText, List.flatMap_cons, List.append_assoc]
  rfl

theorem numberText_stops (numbers : List Int) (stops : rest.takeWhile isDigit = []) :
    (numberText numbers ++ rest).takeWhile isDigit = [] := by
  cases numbers with
  | nil => exact stops
  | cons number numbers =>
      rw [numberText_cons]
      rfl

/-- The numbers that were printed are read, and the scan goes on behind them. -/
theorem scanLongs_numberText
    (range : ∀ number ∈ numbers, int64Min ≤ number ∧ number ≤ int64Max)
    (stops : rest.takeWhile isDigit = []) (count : Nat) :
    scanLongs (numbers.length + count) (numberText numbers ++ rest) =
      (scanLongs count rest).map fun found => (numbers ++ found.1, found.2) := by
  induction numbers with
  | nil =>
      rw [List.length_nil, Nat.zero_add]
      change scanLongs count rest = _
      cases scanLongs count rest <;> rfl
  | cons number numbers ih =>
      rw [List.forall_mem_cons] at range
      have first := scanLong_signed blank_space range.1.1 range.1.2 (numberText_stops numbers stops)
      have later := ih range.2
      rw [List.length_cons, Nat.add_right_comm, numberText_cons, List.append_assoc,
        List.append_assoc, scanLongs, first]
      simp only [later]
      cases scanLongs count rest with
      | none => rfl
      | some found => rfl

theorem scanLongs_nil {count : Nat} (positive : 0 < count) : scanLongs count [] = none := by
  cases count with
  | zero => exact absurd positive (by decide)
  | succ count => rfl

/-- A number with digits is read, whatever its size. -/
theorem scanLong_some (number : Int) {digits : List UInt8}
    (all : ∀ byte ∈ digits, isDigit byte = true) (some : digits ≠ [])
    (stops : rest.takeWhile isDigit = []) :
    ∃ value, scanLong (([0x20] ++ sign number) ++ (digits ++ rest)) =
      Option.some (value, rest) := by
  obtain ⟨byte, more, rfl⟩ := List.exists_cons_of_ne_nil some
  have left := (takeWhile_digits all stops).2
  have read := @scanLong_digit [0x20] number byte (more ++ rest) blank_space
    (all byte List.mem_cons_self)
  rw [List.cons_append] at left
  rw [left, ← List.append_assoc] at read
  exact ⟨_, read⟩

/-- A text that ends before the last of the numbers asked for does not have them. -/
theorem scanLongs_short {last : Int} {count : Nat}
    (begins : text <+: numberText numbers ++ ([0x20] ++ sign last))
    (fewer : numbers.length < count) : scanLongs count text = none := by
  induction numbers generalizing text count with
  | nil =>
      obtain ⟨count, rfl⟩ := Nat.exists_eq_add_of_lt fewer
      rw [List.length_nil, Nat.zero_add, scanLongs, scanLong_sign blank_space begins]
  | cons number numbers ih =>
      obtain ⟨count, rfl⟩ := Nat.exists_eq_add_of_lt fewer
      have later : numbers.length < (number :: numbers).length + count := by
        rw [List.length_cons]
        omega
      rw [numberText_cons, signed_eq, List.append_assoc, List.append_assoc, List.append_assoc,
        ← List.append_assoc] at begins
      rw [scanLongs]
      -- the text ends before the digits, within them, or behind them
      rcases begins_append begins with short | ⟨front, rfl, behind⟩
      · rw [scanLong_sign blank_space short]
      · rcases begins_append behind with within | ⟨more, rfl, further⟩
        · by_cases some : front = []
          · subst some
            rw [List.append_nil, scanLong_sign blank_space List.prefix_rfl]
          · obtain ⟨value, read⟩ := @scanLong_some [] number front
              (fun byte mem => decimal_digits _ byte (within.subset mem)) some rfl
            rw [List.append_nil] at read
            simp only [read, scanLongs_nil (Nat.zero_lt_of_lt later)]
        · have stops : more.takeWhile isDigit = [] := by
            rw [List.prefix_iff_eq_take.1 further]
            exact takeWhile_take (numberText_stops numbers rfl) _
          obtain ⟨value, read⟩ := scanLong_some number (decimal_digits number.natAbs)
            (decimal_ne_nil _) stops
          simp only [read, ih further later]

/-- With a digit of the last number they are all there. -/
theorem scanLongs_enough {last : Int} {digits : List UInt8}
    (range : ∀ number ∈ numbers, int64Min ≤ number ∧ number ≤ int64Max)
    (all : ∀ byte ∈ digits, isDigit byte = true) (some : digits ≠ [])
    (stops : rest.takeWhile isDigit = []) :
    ∃ value, scanLongs (numbers.length + 1)
        (numberText numbers ++ (([0x20] ++ sign last) ++ (digits ++ rest))) =
      Option.some (numbers ++ [value], rest) := by
  obtain ⟨value, read⟩ := scanLong_some last all some stops
  refine ⟨value, ?_⟩
  rw [scanLongs_numberText range rfl 1, scanLongs, read]
  rfl

/-- The numbers are found where they stand. -/
theorem scanLongs_isSome_iff (count : Nat) (text : List UInt8) :
    (scanLongs count text).isSome = true ↔ BeginsWithNumerals count text := by
  induction count generalizing text with
  | zero => exact iff_of_true rfl trivial
  | succ count ih =>
      constructor
      · intro read
        rw [scanLongs] at read
        split at read
        · exact nomatch read
        · rename_i number more first
          obtain ⟨numeral, split, stops⟩ := scanNumber_eq_some first
          refine ⟨numeral, more, split, stops, (ih more).1 ?_⟩
          split at read
          · exact nomatch read
          · rename_i later
            rw [later]
            rfl
      · rintro ⟨numeral, rest, rfl, stops, numerals⟩
        obtain ⟨value, first⟩ := numeral.read strtoll stops
        obtain ⟨found, later⟩ := Option.isSome_iff_exists.1 ((ih rest).2 numerals)
        rw [scanLongs, scanLong, first]
        simp only [later, Option.isSome_some]

/-- As many numbers as asked. -/
theorem length_scanLongs {count : Nat} (read : scanLongs count text = some (numbers, rest)) :
    numbers.length = count := by
  induction count generalizing text numbers with
  | zero =>
      cases read
      rfl
  | succ count ih =>
      rw [scanLongs] at read
      split at read
      · exact nomatch read
      · split at read
        · exact nomatch read
        · rename_i later
          cases read
          rw [List.length_cons, ih later]

end Numbers

/-! ## The fields -/

theorem inField_iff (byte : UInt8) : inField byte = true ↔ byte ≠ tab ∧ byte ≠ cr ∧ byte ≠ lf := by
  rw [inField, Bool.and_eq_true, Bool.and_eq_true, bne_iff_ne, bne_iff_ne, bne_iff_ne, and_assoc]

/-- A field ends at the first byte that is not its own. -/
theorem span_field {field rest : List UInt8} {stop : UInt8}
    (inside : ∀ byte ∈ field, inField byte = true) (ends : inField stop = false) :
    (field ++ stop :: rest).takeWhile inField = field ∧
      (field ++ stop :: rest).dropWhile inField = stop :: rest := by
  have other : ¬ inField stop = true := by rw [ends]; decide
  rw [List.takeWhile_append_of_pos inside, List.dropWhile_append_of_pos inside,
    List.takeWhile_cons_of_neg other, List.dropWhile_cons_of_neg other, List.append_nil]
  exact ⟨rfl, rfl⟩

/-- The fields that were printed are found. -/
theorem splitFields_fields {first rest : List UInt8} {fields : List (List UInt8)}
    (inside : ∀ field ∈ first :: fields, ∀ byte ∈ field, inField byte = true) :
    splitFields (fields.length + 1) (first ++ (fields.flatMap (tab :: ·) ++ lf :: rest)) =
      first :: fields := by
  induction fields generalizing first with
  | nil =>
      rw [List.forall_mem_cons] at inside
      obtain ⟨taken, left⟩ := @span_field first rest lf inside.1 rfl
      rw [splitFields, List.flatMap_nil, List.nil_append, taken, left]
      rfl
  | cons field fields ih =>
      rw [List.forall_mem_cons] at inside
      obtain ⟨taken, left⟩ := @span_field first
        (field ++ (fields.flatMap (tab :: ·) ++ lf :: rest)) tab inside.1 rfl
      have split : (field :: fields).flatMap (tab :: ·) ++ lf :: rest =
          tab :: (field ++ (fields.flatMap (tab :: ·) ++ lf :: rest)) := by
        rw [List.flatMap_cons, List.cons_append, List.cons_append, List.append_assoc]
      rw [splitFields, split, taken, left]
      exact congrArg _ (ih inside.2)

/-! ## The line -/

/-- A byte of a number. -/
theorem signed_plain (number : Int) : ∀ byte ∈ signed number, byte ≠ 0 ∧ inField byte = true := by
  have digits : ∀ byte ∈ decimal number.natAbs, byte ≠ 0 ∧ inField byte = true := by
    intro byte mem
    have digit := isDigit_of_mem_decimal mem
    obtain ⟨space, -, -⟩ := digit_plain digit
    refine ⟨?_, ?_⟩
    · rintro rfl
      exact absurd digit (by decide)
    · rw [inField_iff]
      refine ⟨?_, ?_, ?_⟩ <;> (rintro rfl; exact absurd space (by decide))
  rw [signed_eq]
  unfold sign
  split
  · exact List.forall_mem_cons.2 ⟨by decide, digits⟩
  · exact digits

theorem StatusText.inField {size : Nat} (field : StatusText size) :
    ∀ byte ∈ field.text, byte ≠ 0 ∧ Sdk.inField byte = true := by
  intro byte mem
  obtain ⟨some, inside⟩ := field.plain byte mem
  exact ⟨some, (inField_iff byte).2 inside⟩

section Line

variable (status : EngineStatus)

theorem fields_plain : ∀ field ∈ status.fields, ∀ byte ∈ field, byte ≠ 0 ∧ inField byte = true := by
  simp only [EngineStatus.fields, List.forall_mem_cons, List.not_mem_nil, false_imp_iff,
    implies_true, and_true]
  exact ⟨status.date.inField, status.time.inField, status.nowStart.inField, status.nowEnd.inField,
    status.nowTitle.inField, status.nextStart.inField, status.nextTitle.inField,
    signed_plain _, status.camMessage.inField⟩

theorem numbers_range : ∀ number ∈ status.numbers, int64Min ≤ number ∧ number ≤ int64Max := by
  intro number mem
  obtain ⟨value, -, rfl⟩ := List.mem_map.1 mem
  have least := value.le_toInt
  have most := value.toInt_lt
  unfold int64Min int64Max
  omega

theorem numberText_plain (numbers : List Int) :
    ∀ byte ∈ numberText numbers, byte ≠ 0 ∧ inField byte = true := by
  intro byte mem
  obtain ⟨number, -, inside⟩ := List.mem_flatMap.1 mem
  rcases List.mem_cons.1 inside with rfl | inside
  · decide
  · exact signed_plain number byte inside

theorem keyword_plain : ∀ byte ∈ statusKeyword, byte ≠ 0 ∧ inField byte = true :=
  all_bytes (by decide)

/-- There is no NUL in a line. -/
theorem line_plain : ∀ byte ∈ status.line, byte ≠ 0 := by
  simp only [EngineStatus.line, List.forall_mem_append, List.forall_mem_singleton]
  refine ⟨fun byte mem => (keyword_plain byte mem).1,
    fun byte mem => (numberText_plain _ byte mem).1, fun byte mem => ?_, by decide⟩
  obtain ⟨field, member, inside⟩ := List.mem_flatMap.1 mem
  rcases List.mem_cons.1 inside with rfl | inside
  · decide
  · exact (fields_plain status field member byte inside).1

theorem length_numberText {numbers : List Int}
    (range : ∀ number ∈ numbers, int64Min ≤ number ∧ number ≤ int64Max) :
    (numberText numbers).length ≤ 21 * numbers.length := by
  induction numbers with
  | nil => exact Nat.le_refl _
  | cons number numbers ih =>
      rw [List.forall_mem_cons] at range
      have here := signed_length range.1.1 range.1.2
      have later := ih range.2
      rw [numberText_cons, List.length_append, List.length_append]
      simp only [List.length_cons, List.length_nil]
      omega

/-- A line always fits the buffer it is formatted in. -/
theorem reply_eq : status.reply = status.line := by
  refine List.take_of_length_le ?_
  have numbers := length_numberText (numbers_range status)
  have count : status.numbers.length = 5 := rfl
  have least := status.camState.le_toInt
  have most := status.camState.toInt_lt
  have camState := @signed_length status.camState.toInt
    (by unfold int64Min; omega) (by unfold int64Max; omega)
  have date := status.date.fits
  have time := status.time.fits
  have nowStart := status.nowStart.fits
  have nowEnd := status.nowEnd.fits
  have nowTitle := status.nowTitle.fits
  have nextStart := status.nextStart.fits
  have nextTitle := status.nextTitle.fits
  have camMessage := status.camMessage.fits
  have keyword : statusKeyword.length = 6 := rfl
  simp only [EngineStatus.line, EngineStatus.fields, List.flatMap_cons, List.flatMap_nil,
    List.length_append, List.length_cons, List.length_nil]
  omega

/-- Everything of a line in front of the first digit of its last number. -/
def EngineStatus.lead (status : EngineStatus) : List UInt8 :=
  statusKeyword ++ (numberText (status.numbers.take 4) ++
    ([0x20] ++ sign status.symbolRateHz.toInt))

/-- The rest of a line. -/
def EngineStatus.tail (status : EngineStatus) : List UInt8 :=
  status.fields.flatMap (tab :: ·) ++ [lf]

theorem line_eq : status.line =
    status.lead ++ (decimal status.symbolRateHz.toInt.natAbs ++ status.tail) := by
  have last : status.numbers = status.numbers.take 4 ++ [status.symbolRateHz.toInt] := rfl
  have text : numberText status.numbers = numberText (status.numbers.take 4) ++
      (([0x20] ++ sign status.symbolRateHz.toInt) ++
        decimal status.symbolRateHz.toInt.natAbs) := by
    rw [last, numberText, List.flatMap_append, List.flatMap_singleton, signed_eq]
    simp only [numberText, List.append_assoc]
    rfl
  rw [EngineStatus.line, EngineStatus.lead, EngineStatus.tail, text]
  simp only [List.append_assoc]

end Line

/-! ## One read -/

section Read

variable {status : EngineStatus} {read rest : List UInt8}

theorem statusNumbers_keyword (text : List UInt8) :
    statusNumbers (statusKeyword ++ text) = (scanLongs 5 text).map Prod.fst := by
  rw [statusNumbers, if_pos (List.isPrefixOf_iff_prefix.2 (List.prefix_append _ _)),
    List.drop_left]

/-- A text begins with the word and five numbers. -/
def LikeReply (text : List UInt8) : Prop :=
  ∃ more, text = statusKeyword ++ more ∧ BeginsWithNumerals 5 more

theorem statusNumbers_isSome_iff (text : List UInt8) :
    (statusNumbers text).isSome = true ↔ LikeReply text := by
  by_cases keyword : statusKeyword <+: text
  · obtain ⟨more, rfl⟩ := keyword
    rw [statusNumbers_keyword, Option.isSome_map, scanLongs_isSome_iff]
    constructor
    · exact fun numerals => ⟨more, rfl, numerals⟩
    · rintro ⟨other, same, numerals⟩
      exact List.append_cancel_left same ▸ numerals
  · rw [statusNumbers, if_neg (mt List.isPrefixOf_iff_prefix.1 keyword)]
    refine iff_of_false nofun ?_
    rintro ⟨more, rfl, -⟩
    exact keyword (List.prefix_append _ _)

/-- A read without a NUL is taken whole for a text. -/
theorem takeWhile_plain (plain : ∀ byte ∈ read, byte ≠ 0) : read.takeWhile (· != 0) = read :=
  List.takeWhile_eq_self_iff.2 fun byte mem => bne_iff_ne.2 (plain byte mem)

/-- A read is reported if it begins with the word and five numbers. -/
theorem parseStatusReply_isSome (plain : ∀ byte ∈ read, byte ≠ 0) :
    (parseStatusReply read).isSome = (statusNumbers read).isSome := by
  rw [parseStatusReply, takeWhile_plain plain]
  cases scanned : statusNumbers read with
  | none => rfl
  | some numbers =>
      rw [statusNumbers] at scanned
      split at scanned
      · obtain ⟨found, five, rfl⟩ := Option.map_eq_some_iff.1 scanned
        match found, length_scanLongs five with
        | ([_, _, _, _, _], _), _ => rfl
      · exact nomatch scanned

/-- A read that ends in front of the last number is not reported. -/
theorem statusNumbers_short (begins : read <+: status.lead) : statusNumbers read = none := by
  rw [statusNumbers]
  split
  · rename_i keyword
    obtain ⟨more, rfl⟩ := List.isPrefixOf_iff_prefix.1 keyword
    have short := (List.prefix_append_right_inj _).1 begins
    have four : (status.numbers.take 4).length < 5 := Nat.lt_succ_self 4
    rw [List.drop_left, scanLongs_short short four, Option.map_none]
  · rfl

theorem tail_stops (status : EngineStatus) (rest : List UInt8) :
    (status.tail ++ rest).takeWhile isDigit = [] := rfl

/-- A read that reaches the last number is. -/
theorem statusNumbers_enough (begins : read <+: status.line ++ rest)
    (long : status.lead.length < read.length) : (statusNumbers read).isSome = true := by
  rw [line_eq, List.append_assoc, List.append_assoc] at begins
  rcases begins_append begins with short | ⟨part, rfl, behind⟩
  · exact absurd short.length_le (Nat.not_le.2 long)
  · have some : part ≠ [] := by
      rintro rfl
      rw [List.append_nil] at long
      exact Nat.lt_irrefl _ long
    obtain ⟨digits, after, rfl, all, present, stops⟩ : ∃ digits after, part = digits ++ after ∧
        (∀ byte ∈ digits, isDigit byte = true) ∧ digits ≠ [] ∧ after.takeWhile isDigit = [] := by
      rcases begins_append behind with within | ⟨after, rfl, further⟩
      · exact ⟨part, [], (List.append_nil _).symm,
          fun byte mem => decimal_digits _ byte (within.subset mem), some, rfl⟩
      · refine ⟨_, after, rfl, decimal_digits _, decimal_ne_nil _, ?_⟩
        rw [List.prefix_iff_eq_take.1 further]
        exact takeWhile_take (tail_stops status rest) _
    have range : ∀ number ∈ status.numbers.take 4, int64Min ≤ number ∧ number ≤ int64Max :=
      fun number mem => numbers_range status number (List.mem_of_mem_take mem)
    obtain ⟨value, scanned⟩ := @scanLongs_enough _ _ status.symbolRateHz.toInt digits range all
      present stops
    have five : (status.numbers.take 4).length + 1 = 5 := rfl
    rw [five] at scanned
    rw [EngineStatus.lead, List.append_assoc, List.append_assoc, statusNumbers_keyword, scanned]
    rfl

/-- The fields of a line that is all there. -/
theorem statusFields_line (status : EngineStatus) (rest : List UInt8) :
    statusFields (status.line ++ rest) = status.fields := by
  have front : ∀ byte ∈ statusKeyword ++ numberText status.numbers, (byte != tab) = true := by
    intro byte mem
    have inside : inField byte = true := by
      rcases List.mem_append.1 mem with keyword | number
      · exact (keyword_plain byte keyword).2
      · exact (numberText_plain _ byte number).2
    exact bne_iff_ne.2 ((inField_iff byte).1 inside).1
  have split : status.line ++ rest = (statusKeyword ++ numberText status.numbers) ++
      tab :: (status.date.text ++ (status.fields.tail.flatMap (tab :: ·) ++ lf :: rest)) := by
    have fields : status.fields = status.date.text :: status.fields.tail := rfl
    rw [EngineStatus.line, fields, List.flatMap_cons]
    simp only [List.append_assoc, List.cons_append, List.nil_append, List.tail_cons]
  rw [statusFields, split, List.dropWhile_append_of_pos front,
    List.dropWhile_cons_of_neg (by decide)]
  exact splitFields_fields fun field member byte mem =>
    (fields_plain status field member byte mem).2

/-- What a read that begins with a whole line is reported as. -/
theorem parseStatusReply_line (status : EngineStatus)
    (plain : ∀ byte ∈ status.line ++ rest, byte ≠ 0) :
    parseStatusReply (status.line ++ rest) =
      some (usbStatus status.fields status.locked.toInt status.fecLocked.toInt
        status.frameLocked.toInt status.snrX100.toInt status.symbolRateHz.toInt) := by
  have numbers : statusNumbers (status.line ++ rest) = some status.numbers := by
    have scanned := @scanLongs_numberText status.numbers (status.tail ++ rest)
      (numbers_range status) (tail_stops status rest) 0
    have five : status.numbers.length + 0 = 5 := rfl
    have line : status.line ++ rest =
        statusKeyword ++ (numberText status.numbers ++ (status.tail ++ rest)) := by
      rw [EngineStatus.line, EngineStatus.tail]
      simp only [List.append_assoc]
    rw [five] at scanned
    rw [line, statusNumbers_keyword, scanned, scanLongs, Option.map_some, Option.map_some,
      List.append_nil]
  rw [parseStatusReply, takeWhile_plain plain, numbers, statusFields_line]
  rfl

end Read

/-! ## Field by field -/

/-- The status of the host is that of the engine; a lock is a truth value there. -/
structure UsbStatus.Equals (out : UsbStatus) (status : EngineStatus) : Prop where
  locked : out.locked = true ↔ status.locked.toInt ≠ 0
  fecLocked : out.fecLocked = true ↔ status.fecLocked.toInt ≠ 0
  frameLocked : out.frameLocked = true ↔ status.frameLocked.toInt ≠ 0
  snrX100 : out.snrX100.toInt = status.snrX100.toInt
  symbolRateHz : (out.symbolRateHz.toNat : Int) = status.symbolRateHz.toInt
  date : out.date = status.date.text
  time : out.time = status.time.text
  nowStart : out.nowStart = status.nowStart.text
  nowEnd : out.nowEnd = status.nowEnd.text
  nowTitle : out.nowTitle = status.nowTitle.text
  nextStart : out.nextStart = status.nextStart.text
  nextTitle : out.nextTitle = status.nextTitle.text
  camState : out.camState = status.camState.toInt
  camMessage : out.camMessage = status.camMessage.text

/-- The two numbers that the host keeps in narrower types. -/
structure EngineStatus.Fits (status : EngineStatus) : Prop where
  snrX100 : -2 ^ 31 ≤ status.snrX100.toInt ∧ status.snrX100.toInt < 2 ^ 31
  symbolRateHz : 0 ≤ status.symbolRateHz.toInt ∧ status.symbolRateHz.toInt < 2 ^ 32

theorem atoi_signed {number : Int} (least : -2 ^ 31 ≤ number) (most : number < 2 ^ 31) :
    atoi (signed number) = number := by
  have read := @strtoll_signed number (by unfold int64Min; omega) (by unfold int64Max; omega)
  rw [atoi, read]
  exact Int.bmod_eq_of_le (by omega) (by omega)

theorem toInt_ofInt_iff (number : Int) :
    (Int32.ofInt number).toInt = number ↔ -2 ^ 31 ≤ number ∧ number < 2 ^ 31 := by
  have least := (Int32.ofInt number).le_toInt
  have most := (Int32.ofInt number).toInt_lt
  constructor
  · intro same
    omega
  · rintro ⟨low, high⟩
    have size : Int32.size = 2 ^ 32 := rfl
    rw [Int32.toInt_ofInt, size]
    exact Int.bmod_eq_of_le (by omega) (by omega)

theorem toNat_ofInt_iff (number : Int) :
    (((if 0 < number then UInt32.ofInt number else 0 : UInt32).toNat : Nat) : Int) = number ↔
      0 ≤ number ∧ number < 2 ^ 32 := by
  have most := (if 0 < number then UInt32.ofInt number else 0 : UInt32).toNat_lt
  constructor
  · intro same
    omega
  · rintro ⟨low, high⟩
    by_cases positive : 0 < number
    · rw [if_pos positive, UInt32.ofInt, UInt32.toNat_ofNat']
      omega
    · rw [if_neg positive]
      have zero : ((0 : UInt32).toNat : Int) = 0 := rfl
      omega

/-- A whole line is reported as it is exactly when its numbers fit. -/
theorem usbStatus_equals_iff (status : EngineStatus) :
    (usbStatus status.fields status.locked.toInt status.fecLocked.toInt status.frameLocked.toInt
      status.snrX100.toInt status.symbolRateHz.toInt).Equals status ↔ status.Fits := by
  have kept : ∀ {size : Nat} (field : StatusText size), field.text.take (size - 1) = field.text :=
    fun field => List.take_of_length_le (Nat.le_sub_one_of_lt field.fits)
  have cam := @atoi_signed status.camState.toInt status.camState.le_toInt status.camState.toInt_lt
  constructor
  · intro equals
    exact ⟨(toInt_ofInt_iff _).1 equals.snrX100, (toNat_ofInt_iff _).1 equals.symbolRateHz⟩
  · intro fits
    exact
      { locked := bne_iff_ne
        fecLocked := bne_iff_ne
        frameLocked := bne_iff_ne
        snrX100 := (toInt_ofInt_iff _).2 fits.snrX100
        symbolRateHz := (toNat_ofInt_iff _).2 fits.symbolRateHz
        date := kept status.date
        time := kept status.time
        nowStart := kept status.nowStart
        nowEnd := kept status.nowEnd
        nowTitle := kept status.nowTitle
        nextStart := kept status.nextStart
        nextTitle := kept status.nextTitle
        camState := cam
        camMessage := kept status.camMessage }

/-! ## The reads of a session -/

/-- A reply begins at the place in the stream that the bytes lead to. -/
def Begins (statuses : List EngineStatus) (bytes : List UInt8) (status : EngineStatus) : Prop :=
  ∃ earlier later, statuses = earlier ++ status :: later ∧ bytes = replies earlier

/-- Every read that is reported begins with a reply that it holds to its end, and is
reported as the status of that reply. -/
def ReadWhole (statuses : List EngineStatus) (reads : List (List UInt8)) : Prop :=
  ∀ before read after out, reads = before ++ read :: after → parseStatusReply read = some out →
    ∃ status, Begins statuses before.flatten status ∧ status.reply <+: read ∧ out.Equals status

/-- Where reads may end and begin. -/
structure Framed (statuses : List EngineStatus) (reads : List (List UInt8)) : Prop where
  /-- a read that begins with a reply ends in front of its last number, or holds it to the
  end, and then its numbers fit -/
  ends : ∀ before read after status, reads = before ++ read :: after →
    Begins statuses before.flatten status → read.length ≤ status.lead.length ∨
      status.reply.length ≤ read.length ∧ status.Fits
  /-- a read that begins elsewhere does not look like the beginning of a reply -/
  begins : ∀ before read after, reads = before ++ read :: after →
    (∀ status, ¬ Begins statuses before.flatten status) → ¬ LikeReply read

section Session

variable {statuses : List EngineStatus} {reads : List (List UInt8)} {bytes read : List UInt8}
  {status other : EngineStatus}

theorem reply_ne_nil (status : EngineStatus) : status.reply ≠ [] := by
  rw [reply_eq]
  exact List.append_ne_nil_of_left_ne_nil (by decide) _

theorem replies_append (earlier later : List EngineStatus) :
    replies (earlier ++ later) = replies earlier ++ replies later := List.flatMap_append

/-- Only one reply begins at a place. -/
theorem Begins.unique (begins : Begins statuses bytes status) (same : Begins statuses bytes other) :
    status = other := by
  obtain ⟨earlier, later, laid, rfl⟩ := begins
  obtain ⟨earlier', later', laid', equal⟩ := same
  have shorter : ∀ {front back : List EngineStatus}, replies front = replies (front ++ back) →
      back = [] := by
    intro front back equal
    rw [replies_append, List.self_eq_append_right, replies, List.flatMap_eq_nil_iff] at equal
    exact List.eq_nil_iff_forall_not_mem.2 fun status mem => reply_ne_nil status (equal status mem)
  rw [laid] at laid'
  rcases List.append_eq_append_iff.1 laid' with ⟨middle, rfl, more⟩ | ⟨middle, rfl, more⟩
  · rw [shorter equal] at more
    exact (List.cons.inj more).1
  · rw [shorter equal.symm] at more
    exact (List.cons.inj more).1.symm

theorem replies_plain (statuses : List EngineStatus) : ∀ byte ∈ replies statuses, byte ≠ 0 := by
  intro byte mem
  obtain ⟨status, -, inside⟩ := List.mem_flatMap.1 mem
  rw [reply_eq] at inside
  exact line_plain status byte inside

/-- A read at the beginning of a reply begins like it. -/
theorem Begins.brings {after : List UInt8} (begins : Begins statuses bytes status)
    (sent : bytes ++ (read ++ after) <+: replies statuses) :
    ∃ later, read <+: status.line ++ replies later := by
  obtain ⟨earlier, later, rfl, rfl⟩ := begins
  have whole : replies (earlier ++ status :: later) =
      replies earlier ++ (status.line ++ replies later) := by
    rw [replies_append, replies, replies, List.flatMap_cons, reply_eq]
    rfl
  rw [whole] at sent
  exact ⟨later, (List.prefix_append _ _).trans ((List.prefix_append_right_inj _).1 sent)⟩

/-- What is known of a read at its place in the stream. -/
theorem placed (sent : reads.flatten <+: replies statuses) {before after : List (List UInt8)}
    {read : List UInt8} (laid : reads = before ++ read :: after) :
    before.flatten ++ (read ++ after.flatten) <+: replies statuses := by
  rwa [laid, List.flatten_append, List.flatten_cons] at sent

theorem placed_plain (sent : reads.flatten <+: replies statuses)
    {before after : List (List UInt8)} {read : List UInt8}
    (laid : reads = before ++ read :: after) : ∀ byte ∈ read, byte ≠ 0 := fun byte mem =>
  replies_plain statuses byte
    ((placed sent laid).subset (List.mem_append_right _ (List.mem_append_left _ mem)))

/-- Where every read that is reported is read whole, a read that begins with a reply ends in
front of its last number or holds it. -/
theorem ReadWhole.framed (whole : ReadWhole statuses reads)
    (sent : reads.flatten <+: replies statuses) : Framed statuses reads := by
  refine ⟨fun before read after status laid begins => ?_,
    fun before read after laid elsewhere => ?_⟩
  · by_cases short : read.length ≤ status.lead.length
    · exact .inl short
    · obtain ⟨later, brings⟩ := begins.brings (placed sent laid)
      have reported := statusNumbers_enough brings (Nat.lt_of_not_le short)
      rw [← parseStatusReply_isSome (placed_plain sent laid)] at reported
      obtain ⟨out, parsed⟩ := Option.isSome_iff_exists.1 reported
      obtain ⟨same, begins', holds, equals⟩ := whole before read after out laid parsed
      obtain rfl := begins.unique begins'
      refine .inr ⟨holds.length_le, ?_⟩
      obtain ⟨rest, rfl⟩ := holds
      have all := placed_plain sent laid
      rw [reply_eq] at parsed all
      rw [parseStatusReply_line status all] at parsed
      rw [← Option.some.inj parsed] at equals
      exact (usbStatus_equals_iff status).1 equals
  · rw [← statusNumbers_isSome_iff, ← parseStatusReply_isSome (placed_plain sent laid)]
    intro reported
    obtain ⟨out, parsed⟩ := Option.isSome_iff_exists.1 reported
    obtain ⟨status, begins, -⟩ := whole before read after out laid parsed
    exact elsewhere status begins

/-- A read that is reported begins with a reply, and holds all of it. -/
theorem Framed.readWhole (framed : Framed statuses reads)
    (sent : reads.flatten <+: replies statuses) : ReadWhole statuses reads := by
  intro before read after out laid parsed
  have reported : (statusNumbers read).isSome = true := by
    rw [← parseStatusReply_isSome (placed_plain sent laid), parsed]
    rfl
  by_cases elsewhere : ∀ status, ¬ Begins statuses before.flatten status
  · rw [statusNumbers_isSome_iff] at reported
    exact absurd reported (framed.begins before read after laid elsewhere)
  · obtain ⟨status, begins⟩ := not_forall_not.1 elsewhere
    obtain ⟨later, brings⟩ := begins.brings (placed sent laid)
    refine ⟨status, begins, ?_⟩
    rcases framed.ends before read after status laid begins with short | ⟨long, fits⟩
    · have lead : status.lead <+: status.line ++ replies later := by
        rw [line_eq, List.append_assoc]
        exact List.prefix_append _ _
      rw [statusNumbers_short (List.prefix_of_prefix_length_le brings lead short)] at reported
      contradiction
    · rw [reply_eq] at long ⊢
      obtain ⟨rest, rfl⟩ :=
        List.prefix_of_prefix_length_le (List.prefix_append _ _) brings long
      refine ⟨List.prefix_append _ _, ?_⟩
      rw [parseStatusReply_line status (placed_plain sent laid)] at parsed
      rw [← Option.some.inj parsed]
      exact (usbStatus_equals_iff status).2 fits

/-- **Which reads are read whole.** Whatever the statuses are and however their replies are
cut into reads, every read that is reported holds a whole reply and is reported as its
status exactly when every read that begins with a reply ends in front of its last number or
holds it to its end, with numbers that fit, and no other read looks like a reply. -/
theorem status_read_whole_iff (sent : reads.flatten <+: replies statuses) :
    ReadWhole statuses reads ↔ Framed statuses reads :=
  ⟨fun whole => whole.framed sent, fun framed => framed.readWhole sent⟩

end Session

/-! ### A title cut in two -/

def noText (size : Nat) (some : 0 < size) : StatusText size := ⟨[], some, nofun⟩

/-- A locked receiver with the news on. -/
def watching : EngineStatus where
  locked := 1
  fecLocked := 1
  frameLocked := 1
  snrX100 := 1200
  symbolRateHz := 27500000
  date := noText 16 (by decide)
  time := noText 16 (by decide)
  nowStart := noText 16 (by decide)
  nowEnd := noText 16 (by decide)
  nowTitle := ⟨ascii ['N', 'e', 'w', 's'], by decide, all_bytes (by decide)⟩
  nextStart := noText 16 (by decide)
  nextTitle := noText 192 (by decide)
  camState := 0
  camMessage := noText 128 (by decide)

theorem status_read_whole_iff_watching :
    ReadWhole [watching, watching] [watching.reply, watching.reply] ↔
      Framed [watching, watching] [watching.reply, watching.reply] :=
  status_read_whole_iff List.prefix_rfl

/-- The reply up to the middle of the title. -/
def upToTitle : List UInt8 := watching.line.take 33

/-- The first half is reported with half a title. -/
theorem status_read_in_part :
    [upToTitle, watching.line.drop 33].flatten <+: replies [watching] ∧
      (parseStatusReply upToTitle).map UsbStatus.nowTitle = some (ascii ['N', 'e']) ∧
        ¬ ReadWhole [watching] [upToTitle, watching.line.drop 33] := by
  have part : (parseStatusReply upToTitle).map UsbStatus.nowTitle = some (ascii ['N', 'e']) := by
    decide +kernel
  obtain ⟨out, parsed, -⟩ := Option.map_eq_some_iff.1 part
  refine ⟨?_, part, fun whole => ?_⟩
  · have joined : [upToTitle, watching.line.drop 33].flatten = watching.line :=
      (congrArg _ (List.append_nil _)).trans (List.take_append_drop 33 _)
    rw [joined, replies, List.flatMap_singleton, reply_eq]
  · obtain ⟨status, begins, holds, -⟩ := whole [] _ _ out rfl parsed
    have here : Begins [watching] [] watching := ⟨[], [], rfl, rfl⟩
    obtain rfl := here.unique begins
    rw [reply_eq] at holds
    exact absurd holds.length_le (by decide +kernel)

end Sdk
