import UsbDvbs2.Bytes.Entries

/-! # Texts of hexadecimal digits

The digits of either case, and texts in which they stand one after the other
with separators anywhere between, before or behind them.
-/

namespace Text

open Bytes (forall_byte)

/-- The digit for a value, in upper or in lower case. -/
def hexDigit (upper : Bool) (value : Fin 16) : UInt8 :=
  if value.val < 10 then 0x30 + value.val.toUInt8
  else (if upper then 0x41 else 0x61) + (value.val - 10).toUInt8

theorem hexDigit_inj {upper other : Bool} {value same : Fin 16}
    (equal : hexDigit upper value = hexDigit other same) : value = same := by
  have all : ∀ upper other : Bool, ∀ value same : Fin 16,
      hexDigit upper value = hexDigit other same → value = same := by
    decide
  exact all upper other value same equal

/-- A text spells the values of its digits. -/
inductive Spells (separator : UInt8 → Prop) : List (Fin 16) → List UInt8 → Prop where
  | done : Spells separator [] []
  | gap {digits : List (Fin 16)} {byte : UInt8} {text : List UInt8} (gap : separator byte)
      (rest : Spells separator digits text) : Spells separator digits (byte :: text)
  | digit {digits : List (Fin 16)} {text : List UInt8} (upper : Bool) (value : Fin 16)
      (rest : Spells separator digits text) :
      Spells separator (value :: digits) (hexDigit upper value :: text)

section Spells

variable {separator : UInt8 → Prop} {digits : List (Fin 16)} {byte : UInt8} {text : List UInt8}

theorem spells_nil_iff : Spells separator digits [] ↔ digits = [] := by
  constructor
  · intro spells
    cases spells
    rfl
  · rintro rfl
    exact .done

/-- Separators between digits do not count. -/
theorem spells_gap_iff (apart : ∀ upper value, ¬ separator (hexDigit upper value))
    (gap : separator byte) : Spells separator digits (byte :: text) ↔
      Spells separator digits text := by
  constructor
  · intro spells
    cases spells with
    | gap _ rest => exact rest
    | digit upper value rest => exact (apart upper value gap).elim
  · exact .gap gap

theorem spells_digit_iff (apart : ∀ upper value, ¬ separator (hexDigit upper value))
    (upper : Bool) (value : Fin 16) :
    Spells separator digits (hexDigit upper value :: text) ↔
      ∃ more, digits = value :: more ∧ Spells separator more text := by
  constructor
  · intro spells
    generalize first : hexDigit upper value = byte at spells
    cases spells with
    | gap gap rest => exact (apart upper value (first ▸ gap)).elim
    | digit other same rest =>
        obtain rfl := hexDigit_inj first
        exact ⟨_, rfl, rest⟩
  · rintro ⟨more, rfl, rest⟩
    exact .digit upper value rest

/-- Nothing else may stand in such a text. -/
theorem not_spells (plain : ¬ separator byte) (odd : ∀ upper value, byte ≠ hexDigit upper value) :
    ¬ Spells separator digits (byte :: text) := by
  intro spells
  cases spells with
  | gap gap rest => exact plain gap
  | digit upper value rest => exact odd upper value rfl

/-- Digits without separators. -/
theorem spells_map (upper : Bool) (digits : List (Fin 16)) :
    Spells separator digits (digits.map (hexDigit upper)) := by
  induction digits with
  | nil => exact .done
  | cons value digits ih => exact .digit upper value ih

end Spells
end Text
