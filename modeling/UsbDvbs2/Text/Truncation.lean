import UsbDvbs2.Text.Glyphs

/-! # Texts that were cut

A text that does not fit is cut behind a whole character. Whether what is left is
printable UTF-8 depends on the characters that were reached.
-/

namespace Text

open Bytes Utf8

/-! ## Truncation -/

/-- A character of the text as the conversion counts them: the bytes of a code point, or a
group as long as its first byte says. -/
def Glyph.Whole (glyph : Glyph) : Prop :=
  (∃ code, code ≠ 0 ∧ glyph.bytes = utf8Bytes code) ∨
    ∃ lead tail, glyph.bytes = lead :: tail ∧ utf8Length lead = tail.length + 1

theorem Glyph.Fine.whole {glyph : Glyph} (fine : glyph.Fine) : glyph.Whole := by
  cases glyph with
  | copied group =>
      obtain ⟨lead, tail, same, length, -⟩ := fine
      exact .inr ⟨lead, tail, same, (utf8Length_eq lead).trans length⟩
  | unit point =>
      have low := fine.1
      exact .inl ⟨point, by omega, rfl⟩
  | letter point => exact .inl ⟨point, fine.1, rfl⟩
  | listed point =>
      have low := fine.1
      exact .inl ⟨point, by omega, rfl⟩

/-- The buffer once some bytes were put at its front, one behind the other, and the
terminator behind them. -/
def terminated (out bytes : List UInt8) : List UInt8 :=
  (bytes.zipIdx.foldl (fun out written => out.set written.2 written.1) (out.set 0 0)).set
    bytes.length 0

/-- `dtv_dvb_text_to_utf8` with the buffer it writes into: the buffer and what it returns. -/
def dtvDvbTextInto (out source : List UInt8) : List UInt8 × Nat :=
  if out = [] then (out, 0)
  else
    let text := dtvDvbTextToUtf8 out.length source
    (terminated out text, text.length)

theorem set_run (bytes out : List UInt8) {start : Nat}
    (fits : start + bytes.length ≤ out.length) :
    (bytes.zipIdx start).foldl (fun out written => out.set written.2 written.1) out =
      out.take start ++ bytes ++ out.drop (start + bytes.length) := by
  induction bytes generalizing start out with
  | nil => rw [List.zipIdx_nil, List.foldl_nil, List.append_nil, List.length_nil, Nat.add_zero,
      List.take_append_drop]
  | cons byte bytes ih =>
      rw [List.length_cons] at fits
      have inside : start < out.length := by omega
      have front : (out.take start).length = start := List.length_take_of_le (by omega)
      have here : (out.set start byte).take (start + 1) = out.take start ++ [byte] := by
        rw [List.set_eq_take_append_cons_drop, if_pos inside, List.take_append, front,
          List.take_of_length_le (by omega), Nat.add_sub_cancel_left]
        rfl
      rw [List.zipIdx_cons, List.foldl_cons, ih _ (by rw [List.length_set]; omega), here,
        List.drop_set_of_lt (by omega), List.length_cons, Nat.add_right_comm, Nat.add_assoc]
      simp only [List.append_assoc, List.cons_append, List.nil_append]

/-- The rest of the buffer is left alone. -/
theorem terminated_eq {out bytes : List UInt8} (fits : bytes.length < out.length) :
    terminated out bytes = bytes ++ 0 :: out.drop (bytes.length + 1) := by
  have run := @set_run bytes (out.set 0 0) 0 (by rw [List.length_set]; omega)
  rw [terminated, run, List.take_zero, List.nil_append, Nat.zero_add,
    List.set_append_right _ _ (Nat.le_refl _), Nat.sub_self]
  congr 1
  have inside : bytes.length < (out.set 0 0).length := by rwa [List.length_set]
  rw [List.drop_eq_getElem_cons inside, List.set_cons_zero, List.drop_set_of_lt (by omega)]

theorem dtvDvbTextToUtf8_begins {small large : Nat} (grows : small ≤ large)
    (source : List UInt8) : dtvDvbTextToUtf8 small source <+: dtvDvbTextToUtf8 large source := by
  by_cases room : 0 < small
  · obtain ⟨more, same⟩ := @fitting_mono _ Glyph.size (small - 1) (large - 1) (by omega)
      (glyphs source)
    rw [dtvDvbTextToUtf8_eq room, dtvDvbTextToUtf8_eq (by omega), reached, reached, ← same,
      spelled_append]
    exact List.prefix_append _ _
  · have none : dtvDvbTextToUtf8 small source = [] := if_pos (by omega)
    rw [none]
    exact List.nil_prefix

/-- **A text is cut behind a whole character.** What is written into a smaller buffer is the
front of what is written into a larger one: the longest that is made of whole
characters of the text and leaves room for the terminator. -/
theorem truncation_is_clean_prefix (source : List UInt8) :
    (∀ small large, small ≤ large →
      dtvDvbTextToUtf8 small source <+: dtvDvbTextToUtf8 large source) ∧
    (∀ glyph ∈ glyphs source, glyph.Whole) ∧
    (∀ size, (spelled (glyphs source)).length < size →
      dtvDvbTextToUtf8 size source = spelled (glyphs source)) ∧
    (∀ size, 0 < size → ∃ kept, kept <+: glyphs source ∧
      dtvDvbTextToUtf8 size source = spelled kept ∧ (spelled kept).length ≤ size - 1 ∧
        ∀ front, front <+: glyphs source → (spelled front).length ≤ size - 1 → front <+: kept) ∧
    ∀ out, 0 < out.length →
      (dtvDvbTextInto out source).2 < out.length ∧
        (dtvDvbTextInto out source).1.length = out.length ∧
        (dtvDvbTextInto out source).1.take (dtvDvbTextInto out source).2 =
          dtvDvbTextToUtf8 out.length source ∧
        (dtvDvbTextInto out source).1[(dtvDvbTextInto out source).2]? = some 0 := by
  refine ⟨fun small large grows => dtvDvbTextToUtf8_begins grows source,
    fun glyph mem => (glyphs_fine source glyph mem).whole, fun size fits => ?_,
    fun size room => ?_, fun out room => ?_⟩
  · rw [length_spelled] at fits
    rw [dtvDvbTextToUtf8_eq (by omega), reached, fitting_all (by omega)]
  · refine ⟨reached size source, fitting_begins _ _, dtvDvbTextToUtf8_eq room source, ?_, ?_⟩
    · rw [length_spelled]
      exact taken_fitting _ _
    · intro front begins fits
      rw [length_spelled] at fits
      exact prefix_fitting begins fits
  · have short := dtvDvbTextToUtf8_length room source
    have buffer : out ≠ [] := fun empty => by simp [empty] at room
    rw [dtvDvbTextInto, if_neg buffer]
    simp only [terminated_eq short]
    refine ⟨short, ?_, List.take_left' rfl, ?_⟩
    · rw [List.length_append, List.length_cons, List.length_drop]
      omega
    · rw [List.getElem?_append_right (Nat.le_refl _), Nat.sub_self]
      rfl

/-! ## Clean text -/

/-- No control code and no DEL. -/
def Printable (bytes : List UInt8) : Prop := ∀ byte ∈ bytes, 0x20 ≤ byte.toNat ∧ byte.toNat ≠ 0x7f

/-- UTF-8 without control codes. -/
structure Clean (bytes : List UInt8) : Prop where
  formed : WellFormed bytes
  printable : Printable bytes

/-- A character that comes out as one: a group of a text in UTF-8 has to be a character, a
unit of UTF-16 no half of a pair, and a letter that keeps its mark apart no control code. -/
def Glyph.Sound : Glyph → Prop
  | .copied group => IsChar group
  | .unit point => ¬ (0xd800 ≤ point ∧ point < 0xe000)
  | .letter point => 0x20 ≤ point ∧ point ≠ 0x7f
  | .listed _ => True

theorem printable_spell {code : Nat} (small : code < 0x110000) :
    Printable (spell code) ↔ 0x20 ≤ code ∧ code ≠ 0x7f := by
  unfold Printable
  by_cases ascii : code ≤ 0x7f
  · have byte : (UInt8.ofNat code).toNat = code := by
      rw [UInt8.toNat_ofNat']
      exact Nat.mod_eq_of_lt (by omega)
    rw [spell, if_pos ascii, List.forall_mem_singleton, byte]
  · have high := spell_high (Nat.lt_of_not_le ascii)
    refine iff_of_true (fun byte mem => ?_) ⟨by omega, by omega⟩
    have bits := high byte mem
    exact ⟨by omega, by omega⟩

theorem utf8Bytes_sound {code : Nat} (small : code < 0x110000) :
    IsChar (utf8Bytes code) ∧ Printable (utf8Bytes code) ↔
      code.isValidChar ∧ 0x20 ≤ code ∧ code ≠ 0x7f := by
  rw [utf8Bytes_eq small, isChar_spell small, printable_spell small]

theorem IsChar.printable {lead : UInt8} {tail : List UInt8} (char : IsChar (lead :: tail))
    (single : tail = [] → 0x20 ≤ lead.toNat ∧ lead.toNat ≠ 0x7f) : Printable (lead :: tail) := by
  obtain ⟨char, same⟩ := char
  rw [encode_eq_spell] at same
  have limit : char.toNat < 0x110000 := char.valid.elim (fun low => by
    have below : char.toNat < 0xd800 := low
    omega) And.right
  rw [← same, printable_spell limit]
  by_cases ascii : char.toNat ≤ 0x7f
  · have byte : (UInt8.ofNat char.toNat).toNat = char.toNat := by
      rw [UInt8.toNat_ofNat']
      exact Nat.mod_eq_of_lt (by omega)
    rw [spell, if_pos ascii, List.cons.injEq] at same
    rw [← byte, same.1]
    exact single same.2.symm
  · omega

/-- What a character needs to come out as one. -/
theorem Glyph.Fine.sound_iff {glyph : Glyph} (fine : glyph.Fine) :
    glyph.Sound ↔ IsChar glyph.bytes ∧ Printable glyph.bytes := by
  cases glyph with
  | copied group =>
      obtain ⟨lead, tail, rfl, -, single⟩ := fine
      exact ⟨fun char => ⟨char, IsChar.printable char single⟩, And.left⟩
  | unit point =>
      obtain ⟨low, del, small⟩ := fine
      have same := @utf8Bytes_sound point (by omega)
      simp only [Glyph.Sound, Glyph.bytes, same, Nat.isValidChar]
      omega
  | letter point =>
      have small := fine.2
      have same := @utf8Bytes_sound point (by omega)
      simp only [Glyph.Sound, Glyph.bytes, same, Nat.isValidChar]
      omega
  | listed point =>
      obtain ⟨low, del, small⟩ := fine
      exact iff_of_true trivial ((utf8Bytes_sound (by omega)).2 ⟨.inl small, low, del⟩)

theorem Glyph.Fine.lead {glyph : Glyph} (fine : glyph.Fine) : ∃ lead tail,
    glyph.bytes = lead :: tail ∧ leadLength lead = tail.length + 1 := by
  have point {code : Nat} (small : code < 0x110000) : ∃ lead tail,
      utf8Bytes code = lead :: tail ∧ leadLength lead = tail.length + 1 := by
    obtain ⟨lead, tail, same, length, -⟩ := spell_lead code
    exact ⟨lead, tail, (utf8Bytes_eq small).trans same, length⟩
  cases glyph with
  | copied group =>
      obtain ⟨lead, tail, same, length, -⟩ := fine
      exact ⟨lead, tail, same, length⟩
  | unit code =>
      have small := fine.2.2
      exact point (by omega)
  | letter code =>
      have small := fine.2
      exact point (by omega)
  | listed code =>
      have small := fine.2.2
      exact point (by omega)

/-- Characters end where their first bytes say, so together they are UTF-8 if and only if
each of them is. -/
theorem clean_spelled_iff {glyphs : List Glyph} (fine : ∀ glyph ∈ glyphs, glyph.Fine) :
    Clean (spelled glyphs) ↔ ∀ glyph ∈ glyphs, glyph.Sound := by
  induction glyphs with
  | nil => exact iff_of_true ⟨.nil, fun byte mem => nomatch mem⟩ fun glyph mem => nomatch mem
  | cons glyph glyphs ih =>
      have here := fine glyph (List.mem_cons_self ..)
      have rest := ih fun other mem => fine other (List.mem_cons_of_mem _ mem)
      obtain ⟨lead, tail, same, length⟩ : ∃ lead tail, glyph.bytes = lead :: tail ∧
          leadLength lead = tail.length + 1 := here.lead
      have formed : WellFormed (spelled (glyph :: glyphs)) ↔
          IsChar glyph.bytes ∧ WellFormed (spelled glyphs) := by
        rw [spelled_cons, same]
        exact wellFormed_cons_iff length
      have printable : Printable (spelled (glyph :: glyphs)) ↔
          Printable glyph.bytes ∧ Printable (spelled glyphs) := by
        rw [spelled_cons]
        exact List.forall_mem_append
      rw [List.forall_mem_cons, ← rest, here.sound_iff]
      constructor
      · rintro ⟨text, prints⟩
        exact ⟨⟨(formed.1 text).1, (printable.1 prints).1⟩, (formed.1 text).2,
          (printable.1 prints).2⟩
      · rintro ⟨⟨char, prints⟩, text, others⟩
        exact ⟨formed.2 ⟨char, text⟩, printable.2 ⟨prints, others⟩⟩

theorem reached_fine (size : Nat) (source : List UInt8) :
    ∀ glyph ∈ reached size source, glyph.Fine := fun glyph mem =>
  glyphs_fine source glyph ((fitting_begins _ _).subset mem)

/-- What is written leaves room for the terminator and is printable UTF-8 exactly if all
characters that were reached are sound. -/
theorem text_clean_iff {size : Nat} (room : 0 < size) (source : List UInt8) :
    (dtvDvbTextToUtf8 size source).length < size ∧ Clean (dtvDvbTextToUtf8 size source) ↔
      ∀ glyph ∈ reached size source, glyph.Sound := by
  rw [and_iff_right (dtvDvbTextToUtf8_length room source), dtvDvbTextToUtf8_eq room]
  exact clean_spelled_iff (reached_fine size source)

/-- A Turkish letter. -/
theorem text_clean_iff_turkish : Clean (dtvDvbTextToUtf8 512 [0x05, 0x41, 0xdd]) := by
  have listed : reached 512 [0x05, 0x41, 0xdd] = [.listed 0x41, .listed 0x130] := by decide +kernel
  refine ((text_clean_iff (by decide) _).2 fun glyph mem => ?_).2
  rw [listed] at mem
  simp only [List.mem_cons, List.not_mem_nil, or_false] at mem
  rcases mem with rfl | rfl <;> trivial

/-- A mark in front of a line feed; half a character in a text that is UTF-8; and a pair of
UTF-16. -/
theorem text_not_clean :
    ¬ Printable (dtvDvbTextToUtf8 512 [0xc2, 0x0a]) ∧
      ¬ WellFormed (dtvDvbTextToUtf8 512 [0x15, 0xc3, 0x41]) ∧
      ¬ WellFormed (dtvDvbTextToUtf8 512 [0x11, 0xd8, 0x3d, 0xde, 0x00]) := by
  refine ⟨fun printable => ?_, fun formed => ?_, fun formed => ?_⟩
  · have text : dtvDvbTextToUtf8 512 [0xc2, 0x0a] = [0x0a, 0xcc, 0x81] := by decide +kernel
    rw [text] at printable
    exact absurd (printable 0x0a (by decide)).1 (by decide)
  · have text : dtvDvbTextToUtf8 512 [0x15, 0xc3, 0x41] = [0xc3, 0x41] ++ [] := by decide +kernel
    rw [text] at formed
    obtain ⟨lead, tail, same, -, continues⟩ := ((wellFormed_cons_iff (by decide)).1 formed).1.lead
    rw [List.cons.injEq] at same
    obtain ⟨rfl, rfl⟩ := same
    exact absurd (continues 0x41 (by decide)) (by decide)
  · have text : dtvDvbTextToUtf8 512 [0x11, 0xd8, 0x3d, 0xde, 0x00] =
        [0xed, 0xa0, 0xbd] ++ [0xed, 0xb8, 0x80] := by decide +kernel
    have half : [0xed, 0xa0, 0xbd] = spell 0xd83d := by decide +kernel
    rw [text] at formed
    have char := ((wellFormed_cons_iff (by decide)).1 formed).1
    rw [half, isChar_spell (by decide)] at char
    exact absurd char (by decide)

/-! ## No terminator inside -/

theorem utf8Bytes_nonzero {code : Nat} (small : code < 0x110000) (some : code ≠ 0) :
    ∀ byte ∈ utf8Bytes code, byte ≠ 0 := by
  intro byte mem zero
  rw [utf8Bytes_eq small] at mem
  by_cases ascii : code ≤ 0x7f
  · rw [spell_ascii ascii, List.mem_singleton] at mem
    have number : (UInt8.ofNat code).toNat = code := by
      rw [UInt8.toNat_ofNat']
      exact Nat.mod_eq_of_lt (by omega)
    rw [← mem, zero] at number
    exact some number.symm
  · have high := spell_high (Nat.lt_of_not_le ascii) byte mem
    rw [zero] at high
    exact absurd high (by decide)

theorem Glyph.Fine.nonzero {glyph : Glyph} (fine : glyph.Fine) (char : IsChar glyph.bytes) :
    ∀ byte ∈ glyph.bytes, byte ≠ 0 := by
  cases glyph with
  | copied group =>
      obtain ⟨lead, tail, rfl, -, single⟩ := fine
      intro byte mem zero
      have printable := (IsChar.printable char single byte mem).1
      rw [zero] at printable
      exact absurd printable (by decide)
  | unit point =>
      obtain ⟨low, -, small⟩ := fine
      exact utf8Bytes_nonzero (by omega) (by omega)
  | letter point =>
      have small := fine.2
      exact utf8Bytes_nonzero (by omega) fine.1
  | listed point =>
      obtain ⟨low, -, small⟩ := fine
      exact utf8Bytes_nonzero (by omega) (by omega)

/-- A text that is UTF-8 has no terminator in it. -/
theorem text_nonzero {size : Nat} {source : List UInt8}
    (formed : WellFormed (dtvDvbTextToUtf8 size source)) :
    ∀ byte ∈ dtvDvbTextToUtf8 size source, byte ≠ 0 := by
  by_cases room : 0 < size
  · rw [dtvDvbTextToUtf8_eq room] at formed ⊢
    have fine := reached_fine size source
    generalize reached size source = glyphs at fine formed
    induction glyphs with
    | nil => exact fun byte mem => nomatch mem
    | cons glyph glyphs ih =>
        rw [List.forall_mem_cons] at fine
        obtain ⟨lead, tail, same, length⟩ := fine.1.lead
        rw [spelled_cons] at formed ⊢
        rw [same, wellFormed_cons_iff length, ← same] at formed
        exact List.forall_mem_append.2 ⟨fine.1.nonzero formed.1, ih fine.2 formed.2⟩
  · have none : dtvDvbTextToUtf8 size source = [] := if_pos (by omega)
    rw [none]
    exact fun byte mem => nomatch mem

end Text
