import UsbDvbs2.Bytes.Entries
import UsbDvbs2.Bytes.Fitting
import UsbDvbs2.Text.DvbText
import UsbDvbs2.Text.Utf8

/-! # What a text is put together from

The conversion of a text puts out one character after the other, and ends with the
first that does not fit. So what it writes is the longest front of all its characters
for which there is room, and it is UTF-8 exactly if each of those is.
-/

namespace Text

open Bytes Utf8

/-! ## The characters of a text -/

/-- What is written at once. -/
inductive Glyph where
  /-- A character of a text that is UTF-8 already. -/
  | copied (group : List UInt8)
  /-- A unit of UTF-16. -/
  | unit (point : Nat)
  /-- A letter in front of a mark that it has no character with. -/
  | letter (point : Nat)
  /-- A character of a table. -/
  | listed (point : Nat)
  deriving DecidableEq

def Glyph.bytes : Glyph → List UInt8
  | .copied group => group
  | .unit point => utf8Bytes point
  | .letter point => utf8Bytes point
  | .listed point => utf8Bytes point

def Glyph.size (glyph : Glyph) : Nat := glyph.bytes.length

/-- The bytes of several. -/
def spelled (glyphs : List Glyph) : List UInt8 := glyphs.flatMap Glyph.bytes

def utf8Glyphs : Nat → List UInt8 → List Glyph
  | 0, _ => []
  | _ + 1, [] => []
  | fuel + 1, ch :: rest =>
      let length := utf8Length ch
      if length = 0 ∨ rest.length + 1 < length then []
      else if length = 1 then
        .copied [if ch < 0x20 ∨ ch = 0x7f then 0x20 else ch] :: utf8Glyphs fuel rest
      else .copied ((ch :: rest).take length) :: utf8Glyphs fuel (rest.drop (length - 1))

def utf16Glyphs : List UInt8 → List Glyph
  | high :: low :: rest =>
      let code := high.toNat * 256 + low.toNat
      .unit (if code < 0x20 ∨ code = 0x7f then 0x20 else code) :: utf16Glyphs rest
  | _ => []

/-- Codes of zero are not written. -/
def codeGlyphs : List Nat → List Glyph
  | [base, mark] => [.letter base, .listed mark]
  | codes => (codes.filter (· ≠ 0)).map .listed

def tableGlyphs (table : DvbTable) : Nat → List UInt8 → List Glyph
  | 0, _ => []
  | _ + 1, [] => []
  | fuel + 1, ch :: rest =>
      codeGlyphs (nextCodes table ch rest).1 ++ tableGlyphs table fuel (nextCodes table ch rest).2

/-- All the characters of a text. -/
def glyphs (source : List UInt8) : List Glyph :=
  let (table, start) := pickTable source
  let text := source.drop start
  match table with
  | .utf8 => utf8Glyphs text.length text
  | .utf16be => utf16Glyphs text
  | table => tableGlyphs table text.length text

/-- Those that there is room for. -/
def reached (size : Nat) (source : List UInt8) : List Glyph :=
  fitting Glyph.size (size - 1) (glyphs source)

@[simp] theorem spelled_nil : spelled [] = [] := rfl

@[simp] theorem spelled_cons (glyph : Glyph) (glyphs : List Glyph) :
    spelled (glyph :: glyphs) = glyph.bytes ++ spelled glyphs := List.flatMap_cons

theorem spelled_append (front back : List Glyph) :
    spelled (front ++ back) = spelled front ++ spelled back := List.flatMap_append

theorem length_spelled (glyphs : List Glyph) :
    (spelled glyphs).length = taken Glyph.size glyphs := by
  induction glyphs with
  | nil => rfl
  | cons glyph glyphs ih => rw [spelled_cons, List.length_append, ih, taken_cons, Glyph.size]

/-! ## The codes that are written -/

theorem utf8Tail_eq (code : Nat) : utf8Tail code = UInt8.ofNat (code % 0x40 + 0x80) := by
  have six : code &&& 0x3f = code % 0x40 := Nat.and_two_pow_sub_one_eq_mod code 6
  have small : code % 0x40 < 2 ^ 6 := Nat.mod_lt _ (by decide)
  have joined := Nat.shiftLeft_add_eq_or_of_lt small 2
  rw [utf8Tail, six, Nat.add_comm]
  exact congrArg UInt8.ofNat joined.symm

/-- The bits of a first byte. -/
theorem lead_eq (base : Nat) {code shift : Nat} (room : code < 2 ^ shift) :
    base <<< shift ||| code = code + base <<< shift := by
  rw [Nat.add_comm, Nat.shiftLeft_add_eq_or_of_lt room]

/-- `put_utf8` spells its code. -/
theorem utf8Bytes_eq {code : Nat} (small : code < 0x110000) : utf8Bytes code = spell code := by
  have third : code >>> 6 = code / 64 := Nat.shiftRight_eq_div_pow code 6
  have second : code >>> 12 = code / 4096 := Nat.shiftRight_eq_div_pow code 12
  have first : code >>> 18 = code / 262144 := Nat.shiftRight_eq_div_pow code 18
  rw [utf8Bytes, spell, utf8Tail_eq, utf8Tail_eq, utf8Tail_eq, third, second, first]
  by_cases one : code ≤ 0x7f
  · rw [if_pos (Nat.lt_succ_of_le one), if_pos one]
  · rw [if_neg (by omega), if_neg one]
    by_cases two : code ≤ 0x7ff
    · have bits : 0xc0 ||| code / 64 = code / 64 + 0xc0 := @lead_eq 3 _ 6 (by omega)
      rw [if_pos (Nat.lt_succ_of_le two), if_pos two, bits,
        Nat.mod_eq_of_lt (a := code / 64) (by omega)]
    · rw [if_neg (by omega), if_neg two]
      by_cases three : code ≤ 0xffff
      · have bits : 0xe0 ||| code / 4096 = code / 4096 + 0xe0 := @lead_eq 7 _ 5 (by omega)
        rw [if_pos (Nat.lt_succ_of_le three), if_pos three, bits,
          Nat.mod_eq_of_lt (a := code / 4096) (by omega)]
      · have bits : 0xf0 ||| code / 262144 = code / 262144 + 0xf0 := @lead_eq 15 _ 4 (by omega)
        rw [if_neg (by omega), if_neg three, bits, Nat.mod_eq_of_lt (a := code / 262144) (by omega)]

/-- A code that can be written, of a character that is printed. -/
def Printed (code : Nat) : Prop := 0x20 ≤ code ∧ code ≠ 0x7f ∧ code < 0xd800

instance (code : Nat) : Decidable (Printed code) := inferInstanceAs (Decidable (_ ∧ _ ∧ _))

/-- The codes of the tables are printed. -/
theorem tables_printed :
    (∀ byte : UInt8, 0xa0 ≤ byte →
      (∀ table ∈ [DvbTable.iso6937, .latin1, .latin5, .latin9, .cyrillic, .greek, .utf8, .utf16be],
        highByteCode table byte = 0 ∨ Printed (highByteCode table byte)) ∧
      (iso6937Code byte = 0 ∨ Printed (iso6937Code byte))) ∧
    (∀ entry ∈ iso6937Compose, Printed entry.2.2) ∧
      ∀ mark ∈ iso6937Marks, mark ≠ 0 → Printed mark := by
  refine ⟨?_, by decide +kernel⟩
  apply forall_byte
  decide +kernel

theorem highByteCode_printed (table : DvbTable) {byte : UInt8} (high : 0xa0 ≤ byte) :
    highByteCode table byte = 0 ∨ Printed (highByteCode table byte) :=
  (tables_printed.1 byte high).1 table (by cases table <;> decide)

theorem iso6937Code_printed (byte : UInt8) (high : 0xa0 ≤ byte) :
    iso6937Code byte = 0 ∨ Printed (iso6937Code byte) :=
  (tables_printed.1 byte high).2

theorem compose_printed (mark : Nat) (base : UInt8) :
    compose mark base = 0 ∨ Printed (compose mark base) := by
  rw [compose]
  cases found : iso6937Compose.find? fun entry => entry.1 = mark ∧ entry.2.1 = base with
  | none => exact .inl rfl
  | some entry => exact .inr (tables_printed.2.1 entry (List.mem_of_find?_eq_some found))

theorem marks_printed {mark : Nat} (listed : mark ∈ iso6937Marks) (some : mark ≠ 0) :
    Printed mark :=
  tables_printed.2.2 mark listed some

/-! ## Where the characters come from -/

/-- What is known of a character before it is looked at. -/
def Glyph.Fine : Glyph → Prop
  | .copied group => ∃ lead tail, group = lead :: tail ∧ leadLength lead = tail.length + 1 ∧
      (tail = [] → 0x20 ≤ lead.toNat ∧ lead.toNat ≠ 0x7f)
  | .unit point => 0x20 ≤ point ∧ point ≠ 0x7f ∧ point < 0x10000
  | .letter point => point ≠ 0 ∧ point < 0x100
  | .listed point => Printed point

theorem utf8Length_eq (byte : UInt8) : utf8Length byte = leadLength byte :=
  @forall_byte (fun byte => utf8Length byte = leadLength byte) _ (by decide +kernel) byte

theorem utf8Glyphs_fine {fuel : Nat} {text : List UInt8} :
    ∀ glyph ∈ utf8Glyphs fuel text, glyph.Fine := by
  induction fuel generalizing text with
  | zero => exact fun glyph mem => nomatch mem
  | succ fuel ih =>
      cases text with
      | nil => exact fun glyph mem => nomatch mem
      | cons ch rest =>
          have counts := utf8Length_eq ch
          rw [utf8Glyphs]
          split
          · exact fun glyph mem => nomatch mem
          · rename_i whole
            split
            · rename_i single
              refine List.forall_mem_cons.2 ⟨?_, ih⟩
              by_cases control : ch < 0x20 ∨ ch = 0x7f
              · rw [if_pos control]
                exact ⟨0x20, [], rfl, by decide, fun _ => by decide⟩
              · rw [if_neg control]
                refine ⟨ch, [], rfl, counts.symm.trans single, fun _ => ?_⟩
                rw [not_or, UInt8.not_lt, UInt8.le_iff_toNat_le, ← UInt8.toNat_inj] at control
                exact control
            · rename_i several
              obtain ⟨more, length⟩ : ∃ more, utf8Length ch = more + 2 :=
                ⟨utf8Length ch - 2, by omega⟩
              rw [length] at whole counts ⊢
              have tail : (rest.take (more + 1)).length = more + 1 := by
                rw [List.length_take]
                omega
              refine List.forall_mem_cons.2
                ⟨⟨ch, rest.take (more + 1), rfl, ?_, fun none => ?_⟩, ih⟩
              · rw [tail, counts]
              · rw [none] at tail
                exact nomatch tail

theorem utf16Glyphs_fine {text : List UInt8} : ∀ glyph ∈ utf16Glyphs text, glyph.Fine := by
  fun_induction utf16Glyphs text with
  | case1 high low rest code ih =>
      refine List.forall_mem_cons.2 ⟨?_, ih⟩
      have top := UInt8.toNat_lt high
      have bottom := UInt8.toNat_lt low
      split
      · exact ⟨by decide, by decide, by decide⟩
      · rename_i printed
        exact ⟨by omega, by omega, by omega⟩
  | case2 => exact fun glyph mem => nomatch mem

theorem codeGlyphs_one {code : Nat} (printed : code = 0 ∨ Printed code) :
    ∀ glyph ∈ codeGlyphs [code], glyph.Fine := by
  intro glyph mem
  obtain ⟨listed, inside, rfl⟩ := List.mem_map.1 mem
  obtain ⟨same, some⟩ := List.mem_filter.1 inside
  obtain rfl := List.mem_singleton.1 same
  exact printed.resolve_left (of_decide_eq_true some)

theorem nextCodes_fine {table : DvbTable} {ch : UInt8} {rest : List UInt8} :
    ∀ glyph ∈ codeGlyphs (nextCodes table ch rest).1, glyph.Fine := by
  unfold nextCodes
  split
  · exact codeGlyphs_one (by decide)
  · rename_i printed
    rw [not_or, UInt8.not_lt, UInt8.le_iff_toNat_le] at printed
    split
    · rename_i below
      have ascii : ch < 0x7f := UInt8.not_le.1 fun high => printed.2 ⟨high, below⟩
      rw [UInt8.lt_iff_toNat_lt] at ascii
      have limit : (0x7f : UInt8).toNat = 0x7f := rfl
      exact codeGlyphs_one (.inr ⟨printed.1, by omega, by omega⟩)
    · rename_i high
      rw [UInt8.not_lt] at high
      split
      · exact codeGlyphs_one (highByteCode_printed table high)
      · split
        · rename_i accent
          simp only
          split
          · exact fun glyph mem => nomatch mem
          · rename_i marked
            rw [not_or] at marked
            split
            · exact codeGlyphs_one (compose_printed _ _)
            · rintro glyph mem
              have base := UInt8.toNat_lt (rest.headD 0)
              simp only [codeGlyphs, List.mem_cons, List.not_mem_nil, or_false] at mem
              rcases mem with rfl | rfl
              · exact ⟨fun zero => marked.2 (UInt8.toNat_inj.1 zero), base⟩
              · refine marks_printed ?_ marked.1
                rw [List.getD_eq_getElem?_getD] at marked ⊢
                cases listed : iso6937Marks[ch.toNat - 0xc1]? with
                | none =>
                    rw [listed] at marked
                    exact absurd rfl marked.1
                | some mark => exact List.mem_of_getElem? listed
        · exact codeGlyphs_one (iso6937Code_printed ch high)

theorem tableGlyphs_fine {table : DvbTable} {fuel : Nat} {text : List UInt8} :
    ∀ glyph ∈ tableGlyphs table fuel text, glyph.Fine := by
  induction fuel generalizing text with
  | zero => exact fun glyph mem => nomatch mem
  | succ fuel ih =>
      cases text with
      | nil => exact fun glyph mem => nomatch mem
      | cons ch rest =>
          intro glyph mem
          rcases List.mem_append.1 mem with here | later
          · exact nextCodes_fine glyph here
          · exact ih glyph later

theorem glyphs_fine (source : List UInt8) : ∀ glyph ∈ glyphs source, glyph.Fine := by
  unfold glyphs
  simp only
  split
  · exact utf8Glyphs_fine
  · exact utf16Glyphs_fine
  · exact tableGlyphs_fine

theorem length_utf8Bytes (code : Nat) : 0 < (utf8Bytes code).length := by
  unfold utf8Bytes
  repeat' split
  all_goals exact Nat.succ_pos _

/-- Every character is written. -/
theorem Glyph.Fine.positive {glyph : Glyph} (fine : glyph.Fine) : 0 < glyph.size := by
  cases glyph with
  | copied group =>
      obtain ⟨lead, tail, rfl, -, -⟩ := fine
      exact Nat.succ_pos _
  | unit point => exact length_utf8Bytes point
  | letter point => exact length_utf8Bytes point
  | listed point => exact length_utf8Bytes point

/-! ## The loops -/

section Loops

variable {size : Nat}

/-- The room behind what is written, with the terminator. -/
def left (size : Nat) (out : List UInt8) : Nat := size - 1 - out.length

theorem left_append (out more : List UInt8) :
    left size (out ++ more) = left size out - more.length := by
  rw [left, left, List.length_append]
  omega

theorem putUtf8_eq {out : List UInt8} (short : out.length < size) {code : Nat}
    (written : code ≠ 0) :
    putUtf8 size out code =
      if (utf8Bytes code).length ≤ left size out then some (out ++ utf8Bytes code) else none := by
  rw [putUtf8, if_neg written, left]
  by_cases fits : (utf8Bytes code).length ≤ size - 1 - out.length
  · rw [if_pos fits, if_neg (by omega)]
  · rw [if_neg fits, if_pos (by omega)]

theorem copyUtf8_eq {fuel : Nat} {text out : List UInt8} (short : out.length < size) :
    copyUtf8 size fuel text out =
      out ++ spelled (fitting Glyph.size (left size out) (utf8Glyphs fuel text)) := by
  induction fuel generalizing text out with
  | zero => exact (List.append_nil out).symm
  | succ fuel ih =>
      cases text with
      | nil => exact (List.append_nil out).symm
      | cons ch rest =>
          by_cases full : size ≤ out.length + 1
          · have none : left size out = 0 := by
              rw [left]
              omega
            rw [none, fitting_zero fun glyph mem => (utf8Glyphs_fine glyph mem).positive,
              spelled_nil, List.append_nil, copyUtf8]
            exact if_pos (.inl full)
          · rw [copyUtf8, utf8Glyphs]
            by_cases ends : utf8Length ch = 0 ∨ rest.length + 1 < utf8Length ch
            · rw [if_pos (.inr ends), if_pos ends]
              exact (List.append_nil out).symm
            · rw [if_neg ends, if_neg fun either => either.elim full ends]
              by_cases single : utf8Length ch = 1
              · have one (byte : UInt8) : Glyph.size (.copied [byte]) = 1 := rfl
                have fits : 1 ≤ left size out := by
                  rw [left]
                  omega
                rw [if_pos single, if_pos single, fitting, one, if_pos fits,
                  ih (by rw [List.length_append, List.length_singleton]; omega), left_append,
                  spelled_cons, List.append_assoc]
                rfl
              · have length : ((ch :: rest).take (utf8Length ch)).length = utf8Length ch := by
                  rw [List.length_take, List.length_cons]
                  omega
                have group : Glyph.size (.copied ((ch :: rest).take (utf8Length ch))) =
                    utf8Length ch := length
                rw [if_neg single, if_neg single, fitting, group]
                by_cases long : size < out.length + utf8Length ch + 1
                · have outside : ¬ utf8Length ch ≤ left size out := by
                    rw [left]
                    omega
                  rw [if_pos long, if_neg outside]
                  exact (List.append_nil out).symm
                · have inside : utf8Length ch ≤ left size out := by
                    rw [left]
                    omega
                  rw [if_neg long, if_pos inside,
                    ih (by rw [List.length_append, length]; omega), left_append, length,
                    spelled_cons, List.append_assoc]
                  rfl

theorem readUtf16_eq {text out : List UInt8} (short : out.length < size) :
    readUtf16 size text out =
      out ++ spelled (fitting Glyph.size (left size out) (utf16Glyphs text)) := by
  induction text using utf16Glyphs.induct generalizing out with
  | case1 high low rest ih =>
      have written (code : Nat) : (if code < 0x20 ∨ code = 0x7f then 0x20 else code) ≠ 0 := by
        split <;> omega
      specialize written (high.toNat * 256 + low.toNat)
      rw [readUtf16, utf16Glyphs, fitting]
      generalize (if high.toNat * 256 + low.toNat < 0x20 ∨ high.toNat * 256 + low.toNat = 0x7f
        then 0x20 else high.toNat * 256 + low.toNat) = point at written ⊢
      have put := putUtf8_eq short written
      by_cases fits : Glyph.size (.unit point) ≤ left size out
      · rw [put.trans (if_pos fits), if_pos fits, spelled_cons]
        have room : (out ++ utf8Bytes point).length < size := putUtf8_length short
          (put.trans (if_pos fits))
        refine (ih room).trans ?_
        rw [left_append, List.append_assoc]
        rfl
      · rw [put.trans (if_neg fits), if_neg fits]
        exact (List.append_nil out).symm
  | case2 text none =>
      rw [readUtf16, utf16Glyphs, fitting_nil, spelled_nil, List.append_nil]
      · exact none
      · exact none

/-- What is written of some characters depends on their bytes only. -/
theorem spelled_fitting (room : Nat) (glyphs : List Glyph) :
    spelled (fitting Glyph.size room glyphs) =
      (fitting List.length room (glyphs.map Glyph.bytes)).flatten := by
  rw [fitting_map, spelled, List.flatMap_def]
  rfl

theorem taken_bytes (glyphs : List Glyph) :
    taken Glyph.size glyphs = taken List.length (glyphs.map Glyph.bytes) := by
  rw [taken, taken, List.map_map]
  rfl

theorem codeGlyphs_bytes {codes : List Nat} (fine : ∀ glyph ∈ codeGlyphs codes, glyph.Fine) :
    (codeGlyphs codes).map Glyph.bytes = (codes.filter (· ≠ 0)).map utf8Bytes := by
  unfold codeGlyphs at fine ⊢
  split at fine
  · rename_i base mark
    have letter : base ≠ 0 := (fine (.letter base) (List.mem_cons_self ..)).1
    have printed : 0x20 ≤ mark := (fine (.listed mark) (by simp)).1
    have accent : mark ≠ 0 := by omega
    simp [letter, accent, Glyph.bytes]
  · rw [List.map_map]
    rfl

theorem putCodes_bytes {codes : List Nat} {out : List UInt8} (short : out.length < size) :
    putCodes size codes out =
      (out ++ (fitting List.length (left size out)
          ((codes.filter (· ≠ 0)).map utf8Bytes)).flatten,
        decide (taken List.length ((codes.filter (· ≠ 0)).map utf8Bytes) ≤ left size out)) := by
  induction codes generalizing out with
  | nil =>
      rw [putCodes]
      simp
  | cons code codes ih =>
      rw [putCodes]
      by_cases written : code ≠ 0
      · have put := putUtf8_eq short written
        rw [List.filter_cons_of_pos (by simpa using written), List.map_cons, fitting, taken_cons]
        by_cases fits : (utf8Bytes code).length ≤ left size out
        · have more := put.trans (if_pos fits)
          rw [more, if_pos fits]
          refine (ih (putUtf8_length short more)).trans ?_
          rw [left_append, List.flatten_cons, List.append_assoc]
          refine congrArg _ (decide_eq_decide.2 ?_)
          omega
        · have outside : ¬ (utf8Bytes code).length +
              taken List.length ((codes.filter (· ≠ 0)).map utf8Bytes) ≤ left size out := by
            omega
          rw [put.trans (if_neg fits), if_neg fits, List.flatten_nil, List.append_nil,
            decide_eq_false outside]
      · rw [ne_eq, Decidable.not_not] at written
        rw [written, putUtf8, if_pos rfl, List.filter_cons_of_neg (by decide)]
        exact ih short

/-- The codes go out as their characters, as long as these fit. -/
theorem putCodes_eq {table : DvbTable} {ch : UInt8} {rest out : List UInt8}
    (short : out.length < size) :
    putCodes size (nextCodes table ch rest).1 out =
      (out ++ spelled (fitting Glyph.size (left size out)
          (codeGlyphs (nextCodes table ch rest).1)),
        decide (taken Glyph.size (codeGlyphs (nextCodes table ch rest).1) ≤ left size out)) := by
  rw [putCodes_bytes short, spelled_fitting, taken_bytes, codeGlyphs_bytes nextCodes_fine]

theorem readBytes_eq {table : DvbTable} {fuel : Nat} {text out : List UInt8}
    (short : out.length < size) : readBytes table size fuel text out =
      out ++ spelled (fitting Glyph.size (left size out) (tableGlyphs table fuel text)) := by
  induction fuel generalizing text out with
  | zero => exact (List.append_nil out).symm
  | succ fuel ih =>
      cases text with
      | nil => exact (List.append_nil out).symm
      | cons ch rest =>
          have fits : (putCodes size (nextCodes table ch rest).1 out).1.length < size :=
            putCodes_length short
          rw [putCodes_eq short] at fits
          rw [readBytes, tableGlyphs, fitting_append]
          simp only [putCodes_eq short, decide_eq_true_eq]
          by_cases whole : taken Glyph.size (codeGlyphs (nextCodes table ch rest).1) ≤ left size out
          · rw [if_pos whole, if_pos whole, fitting_all whole]
            rw [fitting_all whole] at fits
            rw [ih fits, left_append, length_spelled, spelled_append, List.append_assoc]
          · rw [if_neg whole, if_neg whole]

/-- What is written is the characters that there is room for. -/
theorem dtvDvbTextToUtf8_eq (room : 0 < size) (source : List UInt8) :
    dtvDvbTextToUtf8 size source = spelled (reached size source) := by
  have all : left size [] = size - 1 := Nat.sub_zero _
  have empty : ([] : List UInt8).length < size := room
  rw [dtvDvbTextToUtf8, if_neg (Nat.ne_of_gt room), reached, glyphs, ← all]
  generalize pickTable source = picked
  obtain ⟨table, start⟩ := picked
  cases table with
  | utf8 => exact copyUtf8_eq empty
  | utf16be => exact readUtf16_eq empty
  | _ => exact readBytes_eq empty

end Loops

end Text
