import Mathlib.Init

/-! # UTF-8

Bytes that spell a text. The first byte of a character says how many there are, so
a text can be cut in front of a byte exactly if that byte begins a character.
-/

namespace Utf8

/-- The bytes of a character. -/
def IsChar (bytes : List UInt8) : Prop := ∃ char : Char, String.utf8EncodeChar char = bytes

/-- The bytes of a text. -/
def WellFormed (bytes : List UInt8) : Prop :=
  ∃ text : List Char, text.flatMap String.utf8EncodeChar = bytes

/-- The length of a character by its first byte; zero for a byte that begins none. -/
def leadLength (byte : UInt8) : Nat :=
  if byte.toNat < 0x80 then 1
  else if byte.toNat < 0xc0 then 0
  else if byte.toNat < 0xe0 then 2
  else if byte.toNat < 0xf0 then 3
  else if byte.toNat < 0xf8 then 4
  else 0

/-- A byte that continues a character. -/
def isTail (byte : UInt8) : Bool := 0x80 ≤ byte.toNat && byte.toNat < 0xc0

theorem isTail_iff {byte : UInt8} : isTail byte = true ↔ 0x80 ≤ byte.toNat ∧ byte.toNat < 0xc0 := by
  rw [isTail, Bool.and_eq_true, decide_eq_true_eq, decide_eq_true_eq]

theorem leadLength_tail {byte : UInt8} (tail : isTail byte = true) : leadLength byte = 0 := by
  obtain ⟨low, high⟩ := isTail_iff.1 tail
  rw [leadLength, if_neg (by omega), if_pos high]

/-! ## One character -/

theorem toNat_lead {base code : Nat} (fits : base + code < 0x100) :
    (UInt8.ofNat (code + base)).toNat = base + code := by
  rw [UInt8.toNat_ofNat', Nat.add_comm]
  exact Nat.mod_eq_of_lt fits

theorem isTail_ofNat (code : Nat) : isTail (UInt8.ofNat (code % 0x40 + 0x80)) = true := by
  have byte := @toNat_lead 0x80 (code % 0x40) (by omega)
  rw [isTail_iff, byte]
  omega

/-- The bytes of a code, a character or not. -/
def spell (code : Nat) : List UInt8 :=
  if code ≤ 0x7f then [UInt8.ofNat code]
  else if code ≤ 0x7ff then
    [UInt8.ofNat (code / 64 % 0x20 + 0xc0), UInt8.ofNat (code % 0x40 + 0x80)]
  else if code ≤ 0xffff then
    [UInt8.ofNat (code / 4096 % 0x10 + 0xe0), UInt8.ofNat (code / 64 % 0x40 + 0x80),
      UInt8.ofNat (code % 0x40 + 0x80)]
  else
    [UInt8.ofNat (code / 262144 % 0x08 + 0xf0), UInt8.ofNat (code / 4096 % 0x40 + 0x80),
      UInt8.ofNat (code / 64 % 0x40 + 0x80), UInt8.ofNat (code % 0x40 + 0x80)]

theorem encode_eq_spell (char : Char) : String.utf8EncodeChar char = spell char.toNat := rfl

/-- The first byte gives the length, the others continue it. -/
theorem spell_lead (code : Nat) : ∃ lead tail, spell code = lead :: tail ∧
    leadLength lead = tail.length + 1 ∧ ∀ byte ∈ tail, isTail byte = true := by
  have tails := isTail_ofNat
  unfold spell
  split
  · refine ⟨_, _, rfl, ?_, fun byte mem => (nomatch mem)⟩
    have byte := @toNat_lead 0 code (by omega)
    rw [Nat.add_zero] at byte
    rw [leadLength, byte, if_pos (by omega)]
    rfl
  · split
    · refine ⟨_, _, rfl, ?_, ?_⟩
      · have byte := @toNat_lead 0xc0 (code / 64 % 0x20) (by omega)
        rw [leadLength, byte, if_neg (by omega), if_neg (by omega), if_pos (by omega)]
        rfl
      · simp only [List.mem_cons, List.not_mem_nil, or_false, forall_eq, tails]
    · split
      · refine ⟨_, _, rfl, ?_, ?_⟩
        · have byte := @toNat_lead 0xe0 (code / 4096 % 0x10) (by omega)
          rw [leadLength, byte, if_neg (by omega), if_neg (by omega), if_neg (by omega),
            if_pos (by omega)]
          rfl
        · simp only [List.mem_cons, List.not_mem_nil, or_false, forall_eq_or_imp, forall_eq, tails,
            and_self]
      · refine ⟨_, _, rfl, ?_, ?_⟩
        · have byte := @toNat_lead 0xf0 (code / 262144 % 0x08) (by omega)
          rw [leadLength, byte, if_neg (by omega), if_neg (by omega), if_neg (by omega),
            if_neg (by omega), if_pos (by omega)]
          rfl
        · simp only [List.mem_cons, List.not_mem_nil, or_false, forall_eq_or_imp, forall_eq, tails,
            and_self]

theorem ofNat_inj {first second : Nat} (low : first < 0x100) (high : second < 0x100)
    (same : UInt8.ofNat first = UInt8.ofNat second) : first = second := by
  have numbers := congrArg UInt8.toNat same
  rwa [UInt8.toNat_ofNat', UInt8.toNat_ofNat', Nat.mod_eq_of_lt low, Nat.mod_eq_of_lt high]
    at numbers

/-- No two codes share their bytes. -/
theorem spell_inj {first second : Nat} (low : first < 0x110000) (high : second < 0x110000)
    (same : spell first = spell second) : first = second := by
  unfold spell at same
  repeat' split at same
  all_goals simp only [List.cons.injEq, reduceCtorEq, and_false, and_true] at same
  · exact ofNat_inj (by omega) (by omega) same
  · obtain ⟨lead, tail⟩ := same
    have lead := ofNat_inj (by omega) (by omega) lead
    have tail := ofNat_inj (by omega) (by omega) tail
    omega
  · obtain ⟨lead, middle, tail⟩ := same
    have lead := ofNat_inj (by omega) (by omega) lead
    have middle := ofNat_inj (by omega) (by omega) middle
    have tail := ofNat_inj (by omega) (by omega) tail
    omega
  · obtain ⟨lead, second, third, tail⟩ := same
    have lead := ofNat_inj (by omega) (by omega) lead
    have second := ofNat_inj (by omega) (by omega) second
    have third := ofNat_inj (by omega) (by omega) third
    have tail := ofNat_inj (by omega) (by omega) tail
    omega

theorem spell_ascii {code : Nat} (ascii : code ≤ 0x7f) : spell code = [UInt8.ofNat code] :=
  if_pos ascii

/-- All bytes of a longer character are high. -/
theorem spell_high {code : Nat} (high : 0x7f < code) : ∀ byte ∈ spell code, 0x80 ≤ byte.toNat := by
  obtain ⟨lead, tail, same, length, continues⟩ := spell_lead code
  have several : 0 < tail.length := by
    have total := congrArg List.length same
    rw [spell, if_neg (by omega), List.length_cons] at total
    split at total
    · exact Nat.pos_of_ne_zero fun none => by rw [none] at total; exact nomatch total
    · split at total <;>
        exact Nat.pos_of_ne_zero fun none => by rw [none] at total; exact nomatch total
  rw [same, List.forall_mem_cons]
  refine ⟨?_, fun byte mem => (isTail_iff.1 (continues byte mem)).1⟩
  rw [leadLength] at length
  split at length
  · omega
  · omega

/-- A code is spelled like a character if and only if it is one. -/
theorem isChar_spell {code : Nat} (small : code < 0x110000) :
    IsChar (spell code) ↔ code.isValidChar := by
  constructor
  · rintro ⟨char, same⟩
    rw [encode_eq_spell] at same
    have valid : char.toNat.isValidChar := char.valid
    have limit : char.toNat < 0x110000 := valid.elim (by omega) And.right
    exact spell_inj limit small same ▸ valid
  · intro valid
    refine ⟨Char.ofNatAux code valid, ?_⟩
    rw [encode_eq_spell]
    rfl

theorem IsChar.lead {bytes : List UInt8} (char : IsChar bytes) : ∃ lead tail,
    bytes = lead :: tail ∧ leadLength lead = tail.length + 1 ∧
      ∀ byte ∈ tail, isTail byte = true := by
  obtain ⟨char, rfl⟩ := char
  exact spell_lead char.toNat

theorem isChar_ascii {byte : UInt8} (ascii : byte.toNat < 0x80) : IsChar [byte] := by
  have code : spell byte.toNat = [byte] := by
    rw [spell_ascii (by omega), UInt8.ofNat_toNat]
  rw [← code, isChar_spell (by omega)]
  exact .inl (by omega)

/-! ## A text -/

theorem WellFormed.nil : WellFormed [] := ⟨[], rfl⟩

theorem IsChar.wellFormed {bytes : List UInt8} (char : IsChar bytes) : WellFormed bytes := by
  obtain ⟨char, rfl⟩ := char
  exact ⟨[char], List.flatMap_singleton ..⟩

theorem WellFormed.append {front back : List UInt8} (first : WellFormed front)
    (second : WellFormed back) : WellFormed (front ++ back) := by
  obtain ⟨first, rfl⟩ := first
  obtain ⟨second, rfl⟩ := second
  exact ⟨first ++ second, List.flatMap_append⟩

/-- What is as long as its first byte says is a character of the text it begins. -/
theorem wellFormed_cons_iff {lead : UInt8} {tail rest : List UInt8}
    (whole : leadLength lead = tail.length + 1) :
    WellFormed (lead :: tail ++ rest) ↔ IsChar (lead :: tail) ∧ WellFormed rest := by
  refine ⟨fun formed => ?_, fun parts => parts.1.wellFormed.append parts.2⟩
  obtain ⟨text, same⟩ := formed
  cases text with
  | nil => exact nomatch same
  | cons char text =>
      obtain ⟨first, others, spelled, length, -⟩ := spell_lead char.toNat
      rw [← encode_eq_spell] at spelled
      rw [List.flatMap_cons, spelled, List.cons_append, List.cons_append, List.cons.injEq] at same
      obtain ⟨rfl, same⟩ := same
      obtain ⟨rfl, rest⟩ := List.append_inj same (by omega)
      exact ⟨⟨char, spelled⟩, text, rest⟩

/-- The text is also read to its end. -/
theorem WellFormed.append_iff {front back : List UInt8} (first : WellFormed front) :
    WellFormed (front ++ back) ↔ WellFormed back := by
  obtain ⟨text, rfl⟩ := first
  induction text with
  | nil => exact Iff.rfl
  | cons char text ih =>
      obtain ⟨lead, tail, spelled, length, -⟩ := spell_lead char.toNat
      rw [List.flatMap_cons, List.append_assoc, encode_eq_spell, spelled,
        wellFormed_cons_iff length, ih]
      exact and_iff_right ⟨char, spelled⟩

/-- No text begins in the middle of a character. -/
theorem WellFormed.head {byte : UInt8} {rest : List UInt8} (formed : WellFormed (byte :: rest)) :
    isTail byte = false := by
  obtain ⟨text, same⟩ := formed
  cases text with
  | nil => exact nomatch same
  | cons char text =>
      obtain ⟨lead, tail, spelled, length, -⟩ := spell_lead char.toNat
      rw [List.flatMap_cons, encode_eq_spell, spelled, List.cons_append, List.cons.injEq] at same
      obtain ⟨rfl, -⟩ := same
      refine Bool.eq_false_iff.2 fun continues => ?_
      rw [leadLength_tail continues] at length
      exact nomatch length

/-- A text is cut in front of a byte exactly if that byte begins a character. -/
theorem WellFormed.take_iff {bytes : List UInt8} (formed : WellFormed bytes) (count : Nat) :
    WellFormed (bytes.take count) ↔ ∀ byte, bytes[count]? = some byte → isTail byte = false := by
  constructor
  · intro cut byte behind
    have rest : WellFormed (bytes.drop count) := by
      rwa [← cut.append_iff, List.take_append_drop]
    have inside : count < bytes.length := (List.getElem?_eq_some_iff.1 behind).1
    rw [List.drop_eq_getElem_cons inside] at rest
    rw [List.getElem?_eq_getElem inside] at behind
    exact Option.some.inj behind ▸ rest.head
  · intro begins
    obtain ⟨text, rfl⟩ := formed
    induction text generalizing count with
    | nil => rw [List.flatMap_nil, List.take_nil]; exact .nil
    | cons char text ih =>
        obtain ⟨lead, tail, spelled, length, continues⟩ := spell_lead char.toNat
        rw [← encode_eq_spell] at spelled
        have single : IsChar (String.utf8EncodeChar char) := ⟨char, rfl⟩
        rw [List.flatMap_cons] at begins ⊢
        rw [List.take_append]
        by_cases whole : (String.utf8EncodeChar char).length ≤ count
        · rw [List.take_of_length_le whole]
          refine single.wellFormed.append (ih _ fun byte behind => begins byte ?_)
          rwa [List.getElem?_append_right whole]
        · rw [Nat.sub_eq_zero_of_le (Nat.le_of_not_le whole), List.take_zero, List.append_nil]
          cases count with
          | zero => exact .nil
          | succ count =>
              rw [spelled, List.length_cons, Nat.not_le, Nat.add_lt_add_iff_right] at whole
              have behind : (String.utf8EncodeChar char ++
                  text.flatMap String.utf8EncodeChar)[count + 1]? = some tail[count] := by
                rw [spelled, List.cons_append, List.getElem?_cons_succ,
                  List.getElem?_append_left whole, List.getElem?_eq_getElem whole]
              have continued := continues _ (List.getElem_mem whole)
              exact nomatch (begins _ behind).symm.trans continued

theorem wellFormed_ascii {bytes : List UInt8} (ascii : ∀ byte ∈ bytes, byte.toNat < 0x80) :
    WellFormed bytes := by
  induction bytes with
  | nil => exact .nil
  | cons byte bytes ih =>
      rw [List.forall_mem_cons] at ascii
      exact (isChar_ascii ascii.1).wellFormed.append (ih ascii.2)

/-- A change to ASCII characters only. -/
theorem WellFormed.map_ascii {change : UInt8 → UInt8}
    (low : ∀ byte : UInt8, byte.toNat < 0x80 → (change byte).toNat < 0x80)
    (high : ∀ byte : UInt8, 0x80 ≤ byte.toNat → change byte = byte) {bytes : List UInt8}
    (formed : WellFormed bytes) : WellFormed (bytes.map change) := by
  obtain ⟨text, rfl⟩ := formed
  induction text with
  | nil => exact .nil
  | cons char text ih =>
      rw [List.flatMap_cons, List.map_append]
      refine WellFormed.append ?_ ih
      rw [encode_eq_spell]
      by_cases ascii : char.toNat ≤ 0x7f
      · have byte : (UInt8.ofNat char.toNat).toNat = char.toNat := by
          rw [UInt8.toNat_ofNat']
          exact Nat.mod_eq_of_lt (by omega)
        rw [spell_ascii ascii]
        exact (isChar_ascii (low _ (by omega))).wellFormed
      · have same : (spell char.toNat).map change = spell char.toNat := by
          have fixed := List.map_congr_left fun byte mem =>
            high byte (spell_high (Nat.lt_of_not_le ascii) byte mem)
          rw [fixed, List.map_id']
        rw [same, ← encode_eq_spell]
        exact IsChar.wellFormed ⟨char, rfl⟩

end Utf8
