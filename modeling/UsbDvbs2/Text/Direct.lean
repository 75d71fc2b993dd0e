import Mathlib.Tactic.ByContra
import Mathlib.Tactic.SplitIfs
import UsbDvbs2.Text.Glyphs

/-! # Bytes that stand for themselves

ASCII stands for itself in every character table, and so does every character of a text
that is UTF-8 already. The conversion only makes spaces of the control characters.
-/

namespace Text

open Bytes Utf8

/-- A control character becomes a space. -/
def printed (byte : UInt8) : UInt8 := if byte.toNat < 0x20 ∨ byte.toNat = 0x7f then 0x20 else byte

/-- A control character that is left out where controls are not shown; the ones that
separate words are not. -/
def omitted (byte : UInt8) : Bool :=
  byte.toNat < 0x20 && byte ≠ 0x09 && byte ≠ 0x0a && byte ≠ 0x0d

/-- The bytes of a text that are its characters. -/
def Direct (name text : List UInt8) : Prop :=
  match pickTable name with
  | (.utf8, start) => text = name.drop start ∧ WellFormed text
  | (.utf16be, start) =>
      name.drop start = text.flatMap (fun byte => [0, byte]) ∧ ∀ byte ∈ text, byte.toNat < 0x80
  | (_, start) =>
      text = name.drop start ∧ (∀ byte ∈ text, byte.toNat < 0x80) ∧
        ∀ byte ∈ (name.take start).tail, omitted byte = true

theorem printed_ne_zero (byte : UInt8) : printed byte ≠ 0 := by
  unfold printed
  split_ifs with control
  · decide
  · rintro rfl
    exact control (.inl (by decide))

theorem printed_high {byte : UInt8} (high : 0x80 ≤ byte.toNat) : printed byte = byte :=
  if_neg (by omega)

/-! ## One character after the other -/

theorem utf8Bytes_printed {byte : UInt8} (ascii : byte.toNat < 0x80) :
    utf8Bytes (printed byte).toNat = [printed byte] := by
  have low : (printed byte).toNat < 0x80 := by
    unfold printed
    split_ifs
    · decide
    · exact ascii
  rw [utf8Bytes, if_pos low, UInt8.ofNat_toNat]

theorem nextCodes_ascii (table : DvbTable) {byte : UInt8} (rest : List UInt8)
    (ascii : byte.toNat < 0x80) :
    nextCodes table byte rest = ([(printed byte).toNat], rest) := by
  have low : byte < highFirst := by
    rw [UInt8.lt_iff_toNat_lt]
    change byte.toNat < 0xa0
    omega
  have control : (byte < 0x20 ∨ 0x7f ≤ byte ∧ byte < highFirst) ↔
      byte.toNat < 0x20 ∨ byte.toNat = 0x7f := by
    rw [UInt8.lt_iff_toNat_lt, UInt8.le_iff_toNat_le]
    change (byte.toNat < 0x20 ∨ 0x7f ≤ byte.toNat ∧ byte < highFirst) ↔ _
    refine or_congr Iff.rfl ⟨fun both => by omega, fun delete => ⟨by omega, low⟩⟩
  unfold nextCodes printed
  by_cases is_control : byte.toNat < 0x20 ∨ byte.toNat = 0x7f
  · rw [if_pos (control.2 is_control), if_pos is_control]
    rfl
  · rw [if_neg fun both => is_control (control.1 both), if_pos low, if_neg is_control]

theorem codeGlyphs_ascii {byte : UInt8} (ascii : byte.toNat < 0x80) :
    spelled (codeGlyphs [(printed byte).toNat]) = [printed byte] := by
  have nonzero : (printed byte).toNat ≠ 0 := fun zero =>
    printed_ne_zero byte (UInt8.toNat_inj.1 zero)
  have single : codeGlyphs [(printed byte).toNat] = [.listed (printed byte).toNat] :=
    congrArg (List.map Glyph.listed) (List.filter_cons_of_pos (decide_eq_true nonzero))
  rw [single, spelled_cons, spelled_nil, List.append_nil, Glyph.bytes, utf8Bytes_printed ascii]

theorem spelled_tableGlyphs {table : DvbTable} {fuel : Nat} {text : List UInt8}
    (ascii : ∀ byte ∈ text, byte.toNat < 0x80) (enough : text.length ≤ fuel) :
    spelled (tableGlyphs table fuel text) = text.map printed := by
  induction text generalizing fuel with
  | nil => cases fuel <;> rfl
  | cons byte text ih =>
      rw [List.forall_mem_cons] at ascii
      rw [List.length_cons] at enough
      obtain ⟨fuel, rfl⟩ : ∃ more, fuel = more + 1 := ⟨fuel - 1, by omega⟩
      rw [tableGlyphs, nextCodes_ascii table text ascii.1, spelled_append,
        codeGlyphs_ascii ascii.1, ih ascii.2 (by omega), List.map_cons, List.singleton_append]

theorem spelled_utf16Glyphs {text : List UInt8} (ascii : ∀ byte ∈ text, byte.toNat < 0x80) :
    spelled (utf16Glyphs (text.flatMap fun byte => [0, byte])) = text.map printed := by
  induction text with
  | nil => rfl
  | cons byte text ih =>
      rw [List.forall_mem_cons] at ascii
      have code : (if (0 : UInt8).toNat * 256 + byte.toNat < 0x20 ∨
          (0 : UInt8).toNat * 256 + byte.toNat = 0x7f then 0x20
          else (0 : UInt8).toNat * 256 + byte.toNat) = (printed byte).toNat := by
        have same : (0 : UInt8).toNat * 256 + byte.toNat = byte.toNat := by
          change 0 * 256 + byte.toNat = byte.toNat
          omega
        rw [same, printed]
        split_ifs <;> rfl
      rw [List.flatMap_cons, List.cons_append, List.cons_append, List.nil_append, utf16Glyphs]
      simp only [code]
      rw [spelled_cons, Glyph.bytes, utf8Bytes_printed ascii.1, ih ascii.2, List.map_cons,
        List.singleton_append]

/-- A character of several bytes has no control byte. -/
theorem printed_char {lead : UInt8} {tail : List UInt8} (several : 1 < leadLength lead)
    (continues : ∀ byte ∈ tail, isTail byte = true) :
    (lead :: tail).map printed = lead :: tail := by
  have high : 0x80 ≤ lead.toNat := by
    by_contra low
    rw [leadLength, if_pos (by omega)] at several
    omega
  refine (List.map_congr_left fun byte mem => ?_).trans (List.map_id _)
  rcases List.mem_cons.1 mem with rfl | later
  · exact printed_high high
  · exact printed_high (isTail_iff.1 (continues byte later)).1

theorem spelled_utf8Glyphs {fuel : Nat} {text : List UInt8} (formed : WellFormed text)
    (enough : text.length ≤ fuel) : spelled (utf8Glyphs fuel text) = text.map printed := by
  obtain ⟨chars, rfl⟩ := formed
  induction chars generalizing fuel with
  | nil => cases fuel <;> rfl
  | cons char chars ih =>
      obtain ⟨lead, tail, bytes, length, continues⟩ := spell_lead char.toNat
      rw [← encode_eq_spell] at bytes
      rw [List.flatMap_cons, bytes, List.cons_append] at enough ⊢
      rw [List.length_cons, List.length_append] at enough
      obtain ⟨fuel, rfl⟩ : ∃ more, fuel = more + 1 := ⟨fuel - 1, by omega⟩
      have room : ¬(leadLength lead = 0 ∨
          (tail ++ chars.flatMap String.utf8EncodeChar).length + 1 < leadLength lead) := by
        rw [length, List.length_append]
        omega
      rw [utf8Glyphs]
      simp only [utf8Length_eq]
      rw [if_neg room]
      cases tail with
      | nil =>
          have step : [if lead < 0x20 ∨ lead = 0x7f then (0x20 : UInt8) else lead] =
              [printed lead] := by
            simp only [printed, UInt8.lt_iff_toNat_lt, ← UInt8.toNat_inj]
            rfl
          rw [if_pos (by exact length), step, List.nil_append, spelled_cons, Glyph.bytes,
            ih (by omega), List.map_cons, List.singleton_append]
      | cons next tail =>
          rw [List.length_cons] at enough length
          have group : (lead :: (next :: tail ++ chars.flatMap String.utf8EncodeChar)).take
              (leadLength lead) = lead :: next :: tail := by
            rw [length, ← List.cons_append]
            exact List.take_left' rfl
          have behind : (next :: tail ++ chars.flatMap String.utf8EncodeChar).drop
              (leadLength lead - 1) = chars.flatMap String.utf8EncodeChar := by
            rw [length]
            exact List.drop_left' rfl
          have same := printed_char (show 1 < leadLength lead by omega) continues
          rw [if_neg (by omega), group, behind, spelled_cons, Glyph.bytes, ih (by omega),
            ← List.cons_append, List.map_append, same]

/-- The characters of a text whose bytes are its characters. -/
theorem Direct.spelled {name text : List UInt8} (direct : Direct name text) :
    spelled (glyphs name) = text.map printed ∧ text.length ≤ name.length := by
  rcases picked : pickTable name with ⟨table, start⟩
  rw [Direct, picked] at direct
  rw [glyphs, picked]
  have shorter : (name.drop start).length ≤ name.length := by
    rw [List.length_drop]
    omega
  cases table with
  | utf8 =>
      obtain ⟨rfl, formed⟩ := direct
      exact ⟨spelled_utf8Glyphs formed (Nat.le_refl _), shorter⟩
  | utf16be =>
      obtain ⟨units, ascii⟩ := direct
      have twice : text.length ≤ (text.flatMap fun byte => [0, byte]).length := by
        rw [List.length_flatMap]
        simp only [List.length_cons, List.length_nil, List.map_const', List.sum_replicate_nat]
        omega
      rw [units] at shorter
      simp only [units]
      exact ⟨spelled_utf16Glyphs ascii, Nat.le_trans twice shorter⟩
  | iso6937 | latin1 | latin5 | latin9 | cyrillic | greek =>
      obtain ⟨rfl, ascii, -⟩ := direct
      exact ⟨spelled_tableGlyphs ascii (Nat.le_refl _), shorter⟩

/-- Its conversion. -/
theorem Direct.decoded {name text : List UInt8} (direct : Direct name text) {size : Nat}
    (fits : name.length < size) : dtvDvbTextToUtf8 size name = text.map printed := by
  obtain ⟨same, shorter⟩ := direct.spelled
  have length := length_spelled (glyphs name)
  rw [same, List.length_map] at length
  rw [dtvDvbTextToUtf8_eq (by omega), reached, fitting_all (by omega), same]

end Text
