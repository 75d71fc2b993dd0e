import UsbDvbs2.Camd.DesKey
import UsbDvbs2.Text.Hexadecimal
import Mathlib.Data.List.GetD

/-! # The grammar of a key in text

`dtv_camd_parse_des_key` accepts a sign that may be left out and twenty-eight
digits with separators anywhere, and nothing else. The key is kept as the digits
so far spell it, the places behind them being zero.
-/

namespace Camd

open Bytes (forall_byte)
open Text

/-- What may stand in front of the digits. -/
def hexSigns : List (List UInt8) := [[], ascii ['0', 'x'], ascii ['0', 'X']]

/-- The key that digits spell, two of them a byte; digits that are missing count as zero. -/
def DesKey.ofDigits (digits : List (Fin 16)) : DesKey :=
  .ofFn fun pos =>
    UInt8.ofNat (16 * (digits.getD (2 * pos) 0).val + (digits.getD (2 * pos + 1) 0).val)

/-- A text that renders a key: a sign that may be left out and twenty-eight digits with
separators anywhere. -/
def Renders (key : DesKey) (text : List UInt8) : Prop :=
  ∃ sign ∈ hexSigns, ∃ digits body, text = sign ++ body ∧ digits.length = 28 ∧
    Spells (isSeparator · = true) digits body ∧ key = .ofDigits digits

/-! ## One byte of the text -/

section Grammar

variable {digits : List (Fin 16)} {byte value : UInt8} {text : List UInt8} {key : DesKey}

theorem hexDigit_apart (upper : Bool) (value : Fin 16) :
    ¬ isSeparator (hexDigit upper value) = true := by
  have all : ∀ upper : Bool, ∀ value : Fin 16, ¬ isSeparator (hexDigit upper value) = true := by
    decide
  exact all upper value

theorem hexValue_hexDigit (upper : Bool) (value : Fin 16) :
    hexValue (hexDigit upper value) = some value.val.toUInt8 := by
  have all : ∀ upper : Bool, ∀ value : Fin 16,
      hexValue (hexDigit upper value) = some value.val.toUInt8 := by
    decide
  exact all upper value

/-- The three ranges are the digits of either case. -/
theorem hexValue_some (known : hexValue byte = some value) :
    ∃ upper digit, byte = hexDigit upper digit := by
  have all : ∀ byte : UInt8, (hexValue byte).isSome = true →
      ∃ upper : Bool, ∃ digit : Fin 16, byte = hexDigit upper digit := by
    apply forall_byte
    decide +kernel
  exact all byte (Option.isSome_of_mem known)

theorem hexValue_none (unknown : hexValue byte = none) (upper : Bool) (value : Fin 16) :
    byte ≠ hexDigit upper value := by
  rintro rfl
  rw [hexValue_hexDigit] at unknown
  exact nomatch unknown

/-! ## The key so far -/

theorem put_upper (value : Fin 16) : value.val.toUInt8 <<< 4 = UInt8.ofNat (16 * value.val) := by
  have all : ∀ value : Fin 16, value.val.toUInt8 <<< 4 = UInt8.ofNat (16 * value.val) := by
    decide
  exact all value

theorem put_lower (upper value : Fin 16) : UInt8.ofNat (16 * upper.val) ||| value.val.toUInt8 =
    UInt8.ofNat (16 * upper.val + value.val) := by
  have all : ∀ upper value : Fin 16, UInt8.ofNat (16 * upper.val) ||| value.val.toUInt8 =
      UInt8.ofNat (16 * upper.val + value.val) := by
    decide
  exact all upper value

/-- The next digit takes its place. -/
theorem DesKey.put_ofDigits (digits : List (Fin 16)) (value : Fin 16) :
    (DesKey.ofDigits digits).put digits.length value.val.toUInt8 =
      DesKey.ofDigits (digits ++ [value]) := by
  have behind : ∀ place, digits.length ≤ place → digits.getD place 0 = 0 := fun place past => by
    rw [List.getD_eq_getElem?_getD, List.getElem?_eq_none past, Option.getD_none]
  have same : ∀ place, place ≠ digits.length →
      (digits ++ [value]).getD place 0 = digits.getD place 0 := by
    intro place other
    rcases Nat.lt_or_gt_of_ne other with before | past
    · exact List.getD_append _ _ _ _ before
    · rw [behind place (Nat.le_of_lt past), List.getD_eq_getElem?_getD, List.getElem?_eq_none,
        Option.getD_none]
      rw [List.length_append, List.length_singleton]
      exact past
  have here : (digits ++ [value]).getD digits.length 0 = value := by
    rw [List.getD_append_right _ _ _ _ (Nat.le_refl _), Nat.sub_self]
    rfl
  apply Vector.ext
  intro pos inside
  simp only [put, ofDigits, Vector.getElem_mapIdx, Vector.getElem_ofFn]
  by_cases byte : pos = digits.length / 2
  · rw [if_neg (not_not_intro byte)]
    by_cases odd : digits.length % 2 = 1
    · have upper : 2 * pos ≠ digits.length := by omega
      have lower : 2 * pos + 1 = digits.length := by omega
      rw [if_pos odd, same _ upper, lower, here, behind _ (Nat.le_refl _)]
      exact put_lower _ _
    · have upper : 2 * pos = digits.length := by omega
      rw [if_neg odd, upper, here, same _ (Nat.succ_ne_self _), behind _ (Nat.le_succ _)]
      exact put_upper value
  · rw [if_pos byte, same _ (by omega), same _ (by omega)]

theorem DesKey.ofDigits_nil : DesKey.ofDigits [] = .zero := by decide

/-! ## The loop -/

/-- The first of the digits that are missing is one of those so far in the next turn. -/
theorem missing_digit (digit : Fin 16) (holds : List (Fin 16) → Prop) :
    (∃ later, holds later ∧ digits.length + 1 + later.length = 28 ∧
        key = .ofDigits (digits ++ [digit] ++ later)) ↔
      ∃ more, (∃ later, more = digit :: later ∧ holds later) ∧
        digits.length + more.length = 28 ∧ key = .ofDigits (digits ++ more) := by
  constructor
  · rintro ⟨later, held, count, rfl⟩
    refine ⟨digit :: later, ⟨later, rfl, held⟩, ?_, ?_⟩
    · rw [List.length_cons]
      omega
    · rw [List.append_assoc, List.singleton_append]
  · rintro ⟨more, ⟨later, rfl, held⟩, count, rfl⟩
    rw [List.length_cons] at count
    refine ⟨later, held, by omega, ?_⟩
    rw [List.append_assoc, List.singleton_append]

/-- The loop goes on from the key that the digits so far spell, and accepts what is left
exactly when that spells the digits that are missing. -/
theorem readDesKey_iff (few : digits.length ≤ 28) :
    readDesKey digits.length (.ofDigits digits) text = some key ↔
      ∃ more, Spells (isSeparator · = true) more text ∧ digits.length + more.length = 28 ∧
        key = .ofDigits (digits ++ more) := by
  induction text generalizing digits with
  | nil =>
      simp only [readDesKey, spells_nil_iff, exists_eq_left, List.length_nil, Nat.add_zero,
        List.append_nil]
      split
      · rename_i full
        simp only [Option.some.injEq, full, true_and]
        exact eq_comm
      · rename_i short
        simp only [reduceCtorEq, short, false_and]
  | cons byte text ih =>
      rw [readDesKey]
      by_cases separator : isSeparator byte = true
      · have passes : ∀ more, Spells (isSeparator · = true) more (byte :: text) ↔
            Spells (isSeparator · = true) more text := fun more =>
          spells_gap_iff hexDigit_apart separator
        simp only [if_pos separator, ih few, passes]
      · rw [if_neg separator]
        cases known : hexValue byte with
        | none =>
            refine iff_of_false (Option.some_ne_none key).symm ?_
            rintro ⟨more, spells, -⟩
            exact not_spells separator (hexValue_none known) spells
        | some value =>
            obtain ⟨upper, digit, rfl⟩ := hexValue_some known
            obtain rfl : digit.val.toUInt8 = value :=
              Option.some.inj ((hexValue_hexDigit upper digit).symm.trans known)
            have begins : ∀ more,
                Spells (isSeparator · = true) more (hexDigit upper digit :: text) ↔
                ∃ later, more = digit :: later ∧ Spells (isSeparator · = true) later text :=
              fun more => spells_digit_iff hexDigit_apart upper digit
            simp only [begins]
            by_cases full : 28 ≤ digits.length
            · rw [if_pos full]
              refine iff_of_false (Option.some_ne_none key).symm ?_
              rintro ⟨more, ⟨later, rfl, -⟩, count, -⟩
              rw [List.length_cons] at count
              omega
            · have next := @ih (digits ++ [digit])
                (by rw [List.length_append, List.length_singleton]; omega)
              rw [List.length_append, List.length_singleton] at next
              rw [if_neg full, DesKey.put_ofDigits, next]
              exact missing_digit digit fun later => Spells (isSeparator · = true) later text

/-! ## The sign in front -/

/-- A sign is no beginning of digits: its second character is neither digit nor separator. -/
theorem behindHexSign_spells (spells : Spells (isSeparator · = true) digits text) :
    behindHexSign text = text := by
  match text, spells with
  | [], _ | [_], _ => rfl
  | first :: second :: text, spells =>
      rw [behindHexSign, if_neg]
      rintro ⟨-, sign⟩
      have second_spelt : ∃ digits, Spells (isSeparator · = true) digits (second :: text) := by
        cases spells with
        | gap _ rest | digit _ _ rest => exact ⟨_, rest⟩
      obtain ⟨digits, rest⟩ := second_spelt
      refine not_spells ?_ ?_ rest
      · rcases sign with rfl | rfl <;> decide
      · rcases sign with rfl | rfl <;>
          exact fun upper value => hexValue_none (by decide) upper value

theorem behindHexSign_append_sign {sign : List UInt8} (known : sign ∈ hexSigns)
    (spells : Spells (isSeparator · = true) digits text) :
    behindHexSign (sign ++ text) = text := by
  rcases List.mem_cons.1 known with rfl | known
  · exact behindHexSign_spells spells
  rcases List.mem_cons.1 known with rfl | known
  · rfl
  obtain rfl := List.mem_singleton.1 known
  rfl

theorem exists_hexSign (text : List UInt8) :
    ∃ sign ∈ hexSigns, text = sign ++ behindHexSign text := by
  match text with
  | [] | [_] => exact ⟨[], List.mem_cons_self, rfl⟩
  | first :: second :: text =>
      rw [behindHexSign]
      split
      · rename_i sign
        obtain ⟨rfl, rfl | rfl⟩ := sign
        · exact ⟨_, List.mem_cons_of_mem _ List.mem_cons_self, rfl⟩
        · exact ⟨_, List.mem_cons_of_mem _ (List.mem_cons_of_mem _ List.mem_cons_self), rfl⟩
      · exact ⟨[], List.mem_cons_self, rfl⟩

/-! ## Exactly the grammar -/

/-- **A key is read exactly from its renderings.** The parser accepts a text and returns a
key if and only if the text is a sign that may be left out, followed by twenty-eight digits
with separators anywhere, and the digits spell that key. -/
theorem parseDesKey_iff_renders (text : List UInt8) (key : DesKey) :
    dtvCamdParseDesKey text = some key ↔ Renders key text := by
  have start := @readDesKey_iff [] (behindHexSign text) key (by decide)
  rw [DesKey.ofDigits_nil] at start
  refine start.trans ?_
  constructor
  · rintro ⟨digits, spells, count, rfl⟩
    obtain ⟨sign, known, whole⟩ := exists_hexSign text
    exact ⟨sign, known, digits, _, whole, by simpa using count, spells, rfl⟩
  · rintro ⟨sign, known, digits, body, rfl, count, spells, rfl⟩
    rw [behindHexSign_append_sign known spells]
    exact ⟨digits, spells, by simpa using count, rfl⟩

end Grammar

/-- The digits of a key. -/
def DesKey.digits (key : DesKey) : List (Fin 16) :=
  List.ofFn fun place : Fin 28 =>
    if place.val % 2 = 0 then Fin.ofNat 16 (key[place.val / 2].toNat / 16)
    else Fin.ofNat 16 (key[place.val / 2].toNat % 16)

theorem DesKey.ofDigits_digits (key : DesKey) : DesKey.ofDigits key.digits = key := by
  apply Vector.ext
  intro pos inside
  have at_place : ∀ place, (room : place < 28) → key.digits.getD place 0 =
      if place % 2 = 0 then Fin.ofNat 16 (key[place / 2].toNat / 16)
      else Fin.ofNat 16 (key[place / 2].toNat % 16) := fun place room => by
    rw [List.getD_eq_getElem _ _ (by rw [digits, List.length_ofFn]; exact room)]
    exact List.getElem_ofFn _
  have small := key[pos].toNat_lt
  have upper : 2 * pos / 2 = pos := by omega
  have lower : (2 * pos + 1) / 2 = pos := by omega
  rw [ofDigits, Vector.getElem_ofFn, at_place _ (by omega), at_place _ (by omega),
    if_pos (by omega), if_neg (by omega)]
  simp only [upper, lower, Fin.ofNat]
  apply UInt8.toNat_inj.1
  rw [UInt8.toNat_ofNat']
  omega

/-- Every key has a rendering, in either case of the digits. -/
theorem renders_digits (key : DesKey) (upper : Bool) :
    Renders key (key.digits.map (hexDigit upper)) :=
  ⟨[], List.mem_cons_self, key.digits, _, rfl, List.length_ofFn, spells_map upper _,
    key.ofDigits_digits.symm⟩

end Camd
