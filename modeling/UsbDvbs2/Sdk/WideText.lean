import UsbDvbs2.Bytes.Entries
import UsbDvbs2.Bytes.Fitting
import UsbDvbs2.Text.Utf8

/-! # Daemon text in wide characters and back

`utf8_to_wide` reads the bytes of the daemon up to their NUL and writes wide characters,
which `print_wide` of the command line reads up to theirs and writes as bytes again. Both
fail here where they would read behind the end of their text.
-/

namespace Sdk

open Utf8 Bytes

/-- A `wchar_t` of UTF-16 or of UTF-32. -/
inductive Wchar where
  | utf16
  | utf32
deriving DecidableEq

/-- `sizeof(wchar_t)`. -/
def Wchar.sizeof : Wchar → Nat
  | utf16 => 2
  | utf32 => 4

/-- `(wchar_t)value`. -/
def Wchar.cast (wchar : Wchar) (value : Nat) : Nat := value % 2 ^ (8 * wchar.sizeof)

/-! ## From bytes to wide characters -/

/-- `extra` of a first byte. -/
def extraBytes (lead : UInt8) : Nat :=
  if 0xf0 ≤ lead.toNat then 3
  else if 0xe0 ≤ lead.toNat then 2
  else if 0xc0 ≤ lead.toNat then 1
  else 0

/-- The loop over `in[i]` that is left at the first byte that does not continue a character. -/
def continues? : Nat → List UInt8 → Option Bool
  | 0, _ => some true
  | _ + 1, [] => none
  | extra + 1, byte :: rest =>
      if byte.toNat &&& 0xc0 = 0x80 then continues? extra rest else some false

/-- Whether a byte may come first. -/
def leads (lead : UInt8) : Bool :=
  lead.toNat < 0x80 || (0xc2 ≤ lead.toNat && lead.toNat ≤ 0xf4)

/-- `valid`, with the bytes behind the first one. -/
def valid? (lead : UInt8) (rest : List UInt8) : Option Bool :=
  if leads lead then continues? (extraBytes lead) rest else some false

/-- `code` of a valid character. -/
def codeOf (lead : UInt8) (rest : List UInt8) : Nat :=
  if extraBytes lead = 0 then lead.toNat
  else (rest.take (extraBytes lead)).foldl (fun code byte => code <<< 6 ||| (byte.toNat &&& 0x3f))
    (lead.toNat &&& 0x3f >>> extraBytes lead)

/-- The two units of a code behind 0xffff. -/
def surrogates (wchar : Wchar) (code : Nat) : List Nat :=
  [wchar.cast (0xd800 + (code - 0x10000) >>> 10),
    wchar.cast (0xdc00 + ((code - 0x10000) &&& 0x3ff))]

/-- The loop of `utf8_to_wide` with the bytes from `in` on and the units written so far. -/
def utf8ToWideLoop (wchar : Wchar) (capacity : Nat) : List UInt8 → List Nat → Option (List Nat)
  | [], _ => none
  | lead :: rest, out =>
      if lead = 0 ∨ ¬ out.length + 1 < capacity then some (out ++ [0])
      else
        match valid? lead rest with
        | none => none
        | some false => utf8ToWideLoop wchar capacity rest (out ++ [wchar.cast lead.toNat])
        | some true =>
            if wchar.sizeof = 2 ∧ codeOf lead rest > 0xffff then
              if out.length + 2 ≥ capacity then some (out ++ [0])
              else
                utf8ToWideLoop wchar capacity (rest.drop (extraBytes lead))
                  (out ++ surrogates wchar (codeOf lead rest))
            else
              utf8ToWideLoop wchar capacity (rest.drop (extraBytes lead))
                (out ++ [wchar.cast (codeOf lead rest)])
termination_by bytes => bytes.length
decreasing_by
  · exact Nat.lt_succ_self _
  · exact Nat.lt_succ_of_le (List.length_drop ▸ Nat.sub_le ..)
  · exact Nat.lt_succ_of_le (List.length_drop ▸ Nat.sub_le ..)

/-- What is written to `out`; a null `text` is an empty one. -/
def utf8ToWide (wchar : Wchar) (capacity : Nat) (text : Option (List UInt8)) : Option (List Nat) :=
  if capacity = 0 then some [] else utf8ToWideLoop wchar capacity (text.getD [0]) []

/-! ## From wide characters to bytes -/

/-- `sizeof(utf8)`. -/
def utf8Size : Nat := 512

/-- The bytes that one code adds to `utf8`. -/
def utf8Bytes (code : Nat) : List UInt8 :=
  if code < 0x80 then [UInt8.ofNat code]
  else if code < 0x800 then
    [UInt8.ofNat (0xc0 ||| code >>> 6), UInt8.ofNat (0x80 ||| (code &&& 0x3f))]
  else if code < 0x10000 then
    [UInt8.ofNat (0xe0 ||| code >>> 12), UInt8.ofNat (0x80 ||| (code >>> 6 &&& 0x3f)),
      UInt8.ofNat (0x80 ||| (code &&& 0x3f))]
  else
    [UInt8.ofNat (0xf0 ||| code >>> 18), UInt8.ofNat (0x80 ||| (code >>> 12 &&& 0x3f)),
      UInt8.ofNat (0x80 ||| (code >>> 6 &&& 0x3f)), UInt8.ofNat (0x80 ||| (code &&& 0x3f))]

/-- The loop of `print_wide` with the units from `in` on and the bytes written so far. -/
def printWideLoop (wchar : Wchar) : List Nat → List UInt8 → Option (List UInt8)
  | [], _ => none
  | code :: rest, utf8 =>
      if code = 0 ∨ ¬ utf8.length + 5 < utf8Size then some (utf8 ++ [0])
      else if wchar.sizeof = 2 ∧ 0xd800 ≤ code ∧ code < 0xdc00 then
        match rest with
        | [] => none
        | low :: later =>
            if 0xdc00 ≤ low ∧ low < 0xe000 then
              printWideLoop wchar later
                (utf8 ++ utf8Bytes (0x10000 + (code - 0xd800) <<< 10 + (low - 0xdc00)))
            else printWideLoop wchar (low :: later) (utf8 ++ utf8Bytes code)
      else printWideLoop wchar rest (utf8 ++ utf8Bytes code)
termination_by wide => wide.length
decreasing_by
  · exact Nat.lt_succ_of_lt (Nat.lt_succ_self _)
  · exact Nat.lt_succ_self _
  · exact Nat.lt_succ_self _

/-- `"%s%s\n"` of the text in front and of `utf8`; a null `text` is an empty one. -/
def printWide (wchar : Wchar) (front : List UInt8) (text : Option (List Nat)) :
    Option (List UInt8) :=
  (printWideLoop wchar (text.getD [0]) []).map fun utf8 =>
    front ++ utf8.takeWhile (· ≠ 0) ++ [0x0a]

/-! ## What is read

Behind the content of a text comes its NUL, and whatever may be `beyond` is not read.
-/

/-- Enough bytes that continue a character. -/
def continued (extra : Nat) (content : List UInt8) : Bool :=
  extra ≤ content.length && (content.take extra).all isTail

theorem isTail_and (byte : UInt8) : byte.toNat &&& 0xc0 = 0x80 ↔ isTail byte = true := by
  revert byte
  apply forall_byte
  decide +kernel

theorem continues?_eq (extra : Nat) (content beyond : List UInt8) :
    continues? extra (content ++ 0 :: beyond) = some (continued extra content) := by
  induction content generalizing extra with
  | nil =>
      cases extra with
      | zero => rfl
      | succ extra => rfl
  | cons byte content ih =>
      cases extra with
      | zero => rfl
      | succ extra =>
          rw [List.cons_append, continues?, ih]
          by_cases tail : isTail byte = true
          · rw [if_pos ((isTail_and byte).2 tail)]
            simp only [continued, List.length_cons, Nat.add_le_add_iff_right, List.take_succ_cons,
              List.all_cons, tail, Bool.true_and]
          · rw [if_neg (mt (isTail_and byte).1 tail)]
            simp only [continued, List.take_succ_cons, List.all_cons, tail, Bool.false_and,
              Bool.and_false]

/-- Whether a byte and the content behind it begin with a character. -/
def valid (lead : UInt8) (content : List UInt8) : Bool :=
  leads lead && continued (extraBytes lead) content

theorem valid?_eq (lead : UInt8) (content beyond : List UInt8) :
    valid? lead (content ++ 0 :: beyond) = some (valid lead content) := by
  rw [valid?, valid, continues?_eq]
  cases leads lead with
  | false => rfl
  | true => rfl

theorem valid_length {lead : UInt8} {content : List UInt8} (whole : valid lead content = true) :
    extraBytes lead ≤ content.length := by
  rw [valid, continued, Bool.and_eq_true, Bool.and_eq_true, decide_eq_true_eq] at whole
  exact whole.2.1

theorem codeOf_append {lead : UInt8} {content : List UInt8}
    (whole : extraBytes lead ≤ content.length) (beyond : List UInt8) :
    codeOf lead (content ++ beyond) = codeOf lead content := by
  rw [codeOf, codeOf, List.take_append_of_le_length whole]

/-- The codes of a text: of its characters, and of every byte that begins none. -/
def wideCodes : List UInt8 → List Nat
  | [] => []
  | lead :: rest =>
      if lead = 0 then []
      else if valid lead rest then codeOf lead rest :: wideCodes (rest.drop (extraBytes lead))
      else lead.toNat :: wideCodes rest
termination_by content => content.length

/-! ## What is written -/

/-- The units of a code. -/
def units (wchar : Wchar) (code : Nat) : List Nat :=
  if wchar.sizeof = 2 ∧ code > 0xffff then surrogates wchar code else [wchar.cast code]

def unitCount (wchar : Wchar) (code : Nat) : Nat := (units wchar code).length

theorem unitCount_pos (wchar : Wchar) (code : Nat) : 0 < unitCount wchar code := by
  rw [unitCount, units]
  split
  · exact Nat.succ_pos _
  · exact Nat.succ_pos _

theorem units_byte (wchar : Wchar) (byte : UInt8) :
    units wchar byte.toNat = [wchar.cast byte.toNat] := by
  have small := byte.toNat_lt
  exact if_neg fun pair => by omega

/-- The loop writes the codes that fit, and of a code all units or none. -/
theorem utf8ToWideLoop_eq (wchar : Wchar) {capacity : Nat} (content beyond : List UInt8)
    {out : List Nat} (room : out.length < capacity) :
    utf8ToWideLoop wchar capacity (content ++ 0 :: beyond) out =
      some (out ++ (fitting (unitCount wchar) (capacity - 1 - out.length)
        (wideCodes content)).flatMap (units wchar) ++ [0]) := by
  induction size : content.length using Nat.strongRecOn generalizing content out with
  | ind size ih =>
      subst size
      cases content with
      | nil =>
          rw [List.nil_append, utf8ToWideLoop, if_pos (.inl rfl), wideCodes, fitting_nil,
            List.flatMap_nil, List.append_nil]
      | cons lead content =>
          rw [List.cons_append, utf8ToWideLoop, wideCodes]
          by_cases ends : lead = 0
          · rw [if_pos (.inl ends), if_pos ends, fitting_nil, List.flatMap_nil, List.append_nil]
          rcases Nat.lt_or_ge (out.length + 1) capacity with more | full
          case inr =>
            have none : capacity - 1 - out.length = 0 := by omega
            rw [if_pos (.inr (Nat.not_lt.2 full)), none,
              fitting_zero fun code _ => unitCount_pos wchar code, List.flatMap_nil,
              List.append_nil]
          rw [if_neg (not_or.2 ⟨ends, fun full => full more⟩), if_neg ends, valid?_eq]
          -- one code that fits, and the rest of the content behind it
          have turn (code : Nat) (rest : List UInt8) (shorter : rest.length ≤ content.length)
              (fits : out.length + unitCount wchar code < capacity) :
              utf8ToWideLoop wchar capacity (rest ++ 0 :: beyond) (out ++ units wchar code) =
                some (out ++ (fitting (unitCount wchar) (capacity - 1 - out.length)
                  (code :: wideCodes rest)).flatMap (units wchar) ++ [0]) := by
            have length : (out ++ units wchar code).length = out.length + unitCount wchar code :=
              List.length_append
            rw [ih rest.length (Nat.lt_succ_of_le shorter) rest (length ▸ fits) rfl, fitting,
              if_pos (by omega), List.flatMap_cons, length, List.append_assoc out,
              Nat.sub_sub (capacity - 1)]
          cases whole : valid lead content with
          | false =>
              have one : unitCount wchar lead.toNat = 1 := by rw [unitCount, units_byte]; rfl
              rw [if_neg Bool.false_ne_true, ← units_byte]
              exact turn lead.toNat content (Nat.le_refl _) (one ▸ more)
          | true =>
              have inside := valid_length whole
              have next := turn (codeOf lead content) (content.drop (extraBytes lead))
                (List.length_drop ▸ Nat.sub_le ..)
              rw [if_pos rfl, codeOf_append inside, List.drop_append_of_le_length inside]
              by_cases pair : wchar.sizeof = 2 ∧ codeOf lead content > 0xffff
              · have both : units wchar (codeOf lead content) =
                    surrogates wchar (codeOf lead content) := if_pos pair
                have two : unitCount wchar (codeOf lead content) = 2 := congrArg _ both
                rw [if_pos pair]
                rcases Nat.lt_or_ge (out.length + 2) capacity with fits | splits
                · rw [if_neg (Nat.not_le.2 fits), ← both]
                  exact next (two ▸ fits)
                · rw [if_pos splits, fitting, if_neg (by omega), List.flatMap_nil, List.append_nil]
              · have single : units wchar (codeOf lead content) =
                    [wchar.cast (codeOf lead content)] := if_neg pair
                have one : unitCount wchar (codeOf lead content) = 1 := congrArg _ single
                rw [if_neg pair, ← single]
                exact next (one ▸ more)

/-! ## Characters -/

theorem extraBytes_eq {lead : UInt8} {extra : Nat} (length : leadLength lead = extra + 1) :
    extraBytes lead = extra := by
  rw [leadLength] at length
  rw [extraBytes]
  repeat' split at length
  all_goals repeat' split
  all_goals omega

/-- Six more bits of a code. -/
theorem fold_step (code byte : Nat) : code <<< 6 ||| (byte &&& 0x3f) = code * 64 + byte % 64 := by
  have low : byte &&& 0x3f = byte % 64 := Nat.and_two_pow_sub_one_eq_mod byte 6
  have small : byte % 64 < 2 ^ 6 := Nat.mod_lt _ (by decide)
  rw [low, ← Nat.shiftLeft_add_eq_or_of_lt small, Nat.shiftLeft_eq]

theorem codeOf_one {lead : UInt8} {rest : List UInt8} (extra : extraBytes lead = 0) :
    codeOf lead rest = lead.toNat := if_pos extra

/-- Behind the bits that a first byte has left, six from every other. -/
theorem codeOf_tail {lead : UInt8} {tail : List UInt8} (extra : extraBytes lead = tail.length)
    (more : tail ≠ []) : codeOf lead tail =
      tail.foldl (fun code byte => code * 64 + byte.toNat % 64)
        (lead.toNat % 2 ^ (6 - tail.length)) := by
  have few : tail.length ≤ 3 := by
    rw [← extra, extraBytes]
    repeat' split
    all_goals decide
  have mask : ∀ count ≤ 3, 0x3f >>> count = 2 ^ (6 - count) - 1 := by decide
  have steps : (fun (code : Nat) (byte : UInt8) => code <<< 6 ||| (byte.toNat &&& 0x3f)) =
      fun code byte => code * 64 + byte.toNat % 64 :=
    funext fun code => funext fun byte => fold_step code byte.toNat
  rw [codeOf, extra, if_neg (mt List.eq_nil_of_length_eq_zero more), List.take_length, mask _ few,
    Nat.and_two_pow_sub_one_eq_mod, steps]

/-- The first byte of a character may come first. -/
theorem leads_spell {code : Nat} {lead : UInt8} {tail : List UInt8} (small : code < 0x110000)
    (spelled : spell code = lead :: tail) : leads lead = true := by
  have range : lead.toNat < 0x80 ∨ 0xc2 ≤ lead.toNat ∧ lead.toNat ≤ 0xf4 := by
    unfold spell at spelled
    repeat' split at spelled
    all_goals
      obtain ⟨rfl, -⟩ := List.cons.inj spelled
      rw [UInt8.toNat_ofNat']
      omega
  rw [leads, Bool.or_eq_true, Bool.and_eq_true, decide_eq_true_eq, decide_eq_true_eq,
    decide_eq_true_eq]
  exact range

theorem codeOf_spell {code : Nat} {lead : UInt8} {tail : List UInt8} (small : code < 0x110000)
    (spelled : spell code = lead :: tail) : codeOf lead tail = code := by
  obtain ⟨head, rest, same, length, -⟩ := spell_lead code
  obtain ⟨rfl, rfl⟩ := List.cons.inj (spelled.symm.trans same)
  have extra := extraBytes_eq length
  unfold spell at spelled
  repeat' split at spelled
  all_goals obtain ⟨rfl, rfl⟩ := List.cons.inj spelled
  · rw [codeOf_one extra, UInt8.toNat_ofNat']
    omega
  all_goals
    rw [codeOf_tail extra (List.cons_ne_nil _ _)]
    simp only [List.foldl_cons, List.foldl_nil, List.length_cons, List.length_nil,
      UInt8.toNat_ofNat']
    omega

theorem continued_append {tail : List UInt8} (tails : ∀ byte ∈ tail, isTail byte = true)
    (rest : List UInt8) : continued tail.length (tail ++ rest) = true := by
  rw [continued, List.take_left, Bool.and_eq_true, decide_eq_true_eq, List.all_eq_true,
    List.length_append]
  exact ⟨Nat.le_add_right .., tails⟩

theorem spell_head_ne_zero {code : Nat} {lead : UInt8} {tail : List UInt8}
    (nonzero : code ≠ 0) (spelled : spell code = lead :: tail) : lead ≠ 0 := by
  rintro rfl
  rcases Nat.lt_or_ge 0x7f code with high | ascii
  · have byte := spell_high high 0 (spelled ▸ List.mem_cons_self ..)
    exact absurd byte (by decide)
  · rw [spell_ascii ascii] at spelled
    have byte := congrArg UInt8.toNat (List.cons.inj spelled).1
    rw [UInt8.toNat_ofNat', UInt8.toNat_zero] at byte
    omega

theorem toNat_lt (char : Char) : char.toNat < 0x110000 := by
  have valid : char.toNat.isValidChar := char.valid
  exact valid.elim (by omega) And.right

/-- A text is read character by character. -/
theorem wideCodes_encode {text : List Char} (visible : '\x00' ∉ text) :
    wideCodes (text.flatMap String.utf8EncodeChar) = text.map Char.toNat := by
  induction text with
  | nil => rw [List.flatMap_nil, wideCodes, List.map_nil]
  | cons char text ih =>
      rw [List.mem_cons, not_or] at visible
      have nonzero : char.toNat ≠ 0 := fun zero => visible.1 (Char.toNat_inj.1 zero.symm)
      have small := toNat_lt char
      obtain ⟨lead, tail, spelled, length, tails⟩ := spell_lead char.toNat
      have extra := extraBytes_eq length
      have whole : valid lead (tail ++ text.flatMap String.utf8EncodeChar) = true := by
        rw [valid, leads_spell small spelled, extra, continued_append tails, Bool.and_self]
      rw [List.flatMap_cons, encode_eq_spell, spelled, List.cons_append, wideCodes,
        if_neg (spell_head_ne_zero nonzero spelled), if_pos whole,
        codeOf_append (Nat.le_of_eq extra), codeOf_spell small spelled, extra, List.drop_left,
        ih visible.2, List.map_cons]

/-! ## Bytes again -/

/-- Bits behind the mark of a byte. -/
theorem mark_or (mark : Nat) {size bits : Nat} (small : bits < 2 ^ size) :
    mark <<< size ||| bits = bits + mark <<< size := by
  rw [← Nat.shiftLeft_add_eq_or_of_lt small, Nat.add_comm]

theorem mark_tail (bits : Nat) : 0x80 ||| (bits &&& 0x3f) = bits % 0x40 + 0x80 := by
  have low : bits &&& 0x3f = bits % 0x40 := Nat.and_two_pow_sub_one_eq_mod bits 6
  rw [low]
  exact mark_or 2 (Nat.mod_lt bits (Nat.two_pow_pos 6))

/-- The encoder spells a code. -/
theorem utf8Bytes_eq {code : Nat} (small : code < 0x110000) : utf8Bytes code = spell code := by
  rw [utf8Bytes, spell]
  by_cases one : code < 0x80
  · rw [if_pos one, if_pos (Nat.le_of_lt_succ one)]
  rw [if_neg one, if_neg fun ascii => one (Nat.lt_succ_of_le ascii)]
  by_cases two : code < 0x800
  · have lead : 0xc0 ||| code >>> 6 = code / 64 % 0x20 + 0xc0 := by
      rw [Nat.shiftRight_eq_div_pow, Nat.mod_eq_of_lt (by omega)]
      exact @mark_or 6 5 (code / 64) (by omega)
    rw [if_pos two, if_pos (Nat.le_of_lt_succ two), lead, mark_tail]
  rw [if_neg two, if_neg fun short => two (Nat.lt_succ_of_le short)]
  by_cases three : code < 0x10000
  · have lead : 0xe0 ||| code >>> 12 = code / 4096 % 0x10 + 0xe0 := by
      rw [Nat.shiftRight_eq_div_pow, Nat.mod_eq_of_lt (by omega)]
      exact @mark_or 14 4 (code / 4096) (by omega)
    rw [if_pos three, if_pos (Nat.le_of_lt_succ three), lead, mark_tail, mark_tail,
      Nat.shiftRight_eq_div_pow]
  · have lead : 0xf0 ||| code >>> 18 = code / 262144 % 0x08 + 0xf0 := by
      rw [Nat.shiftRight_eq_div_pow, Nat.mod_eq_of_lt (by omega)]
      exact @mark_or 30 3 (code / 262144) (by omega)
    rw [if_neg three, if_neg fun short => three (Nat.lt_succ_of_le short), lead, mark_tail,
      mark_tail, mark_tail, Nat.shiftRight_eq_div_pow, Nat.shiftRight_eq_div_pow]

/-! ## Units again -/

theorem cast_small (wchar : Wchar) {value : Nat} (small : value < 0x10000) :
    wchar.cast value = value := by
  cases wchar with
  | utf16 => exact Nat.mod_eq_of_lt small
  | utf32 => exact Nat.mod_eq_of_lt (Nat.lt_trans small (by decide))

theorem cast_utf32 {value : Nat} (small : value < 0x110000) : Wchar.utf32.cast value = value :=
  Nat.mod_eq_of_lt (Nat.lt_trans small (by decide))

/-- A pair is the code it was made of. -/
theorem surrogates_eq {code : Nat} (high : 0xffff < code) (small : code < 0x110000) :
    ∃ first second, surrogates .utf16 code = [first, second] ∧
      (0xd800 ≤ first ∧ first < 0xdc00) ∧ (0xdc00 ≤ second ∧ second < 0xe000) ∧
        0x10000 + (first - 0xd800) <<< 10 + (second - 0xdc00) = code := by
  have low : (code - 0x10000) &&& 0x3ff = (code - 0x10000) % 0x400 :=
    Nat.and_two_pow_sub_one_eq_mod _ 10
  refine ⟨0xd800 + (code - 0x10000) / 0x400, 0xdc00 + (code - 0x10000) % 0x400, ?_, ?_, ?_, ?_⟩
  · rw [surrogates, low, Nat.shiftRight_eq_div_pow, cast_small _ (by omega),
      cast_small _ (by omega)]
  · omega
  · omega
  · rw [Nat.shiftLeft_eq]
    omega

section Turn

variable {wchar : Wchar} {code : Nat} {rest : List Nat} {utf8 : List UInt8}

theorem printWideLoop_stop (stop : code = 0 ∨ ¬ utf8.length + 5 < utf8Size) :
    printWideLoop wchar (code :: rest) utf8 = some (utf8 ++ [0]) := by
  rw [printWideLoop.eq_def]
  exact if_pos stop

theorem printWideLoop_single (go : ¬(code = 0 ∨ ¬ utf8.length + 5 < utf8Size))
    (single : ¬(wchar.sizeof = 2 ∧ 0xd800 ≤ code ∧ code < 0xdc00)) :
    printWideLoop wchar (code :: rest) utf8 =
      printWideLoop wchar rest (utf8 ++ utf8Bytes code) := by
  rw [printWideLoop.eq_def]
  dsimp only
  rw [if_neg go, if_neg single]

end Turn

/-- The loop reads the units of a character. -/
theorem printWideLoop_units (wchar : Wchar) {char : Char} (visible : char ≠ '\x00')
    (rest : List Nat) {utf8 : List UInt8} (room : utf8.length + 5 < utf8Size) :
    printWideLoop wchar (units wchar char.toNat ++ rest) utf8 =
      printWideLoop wchar rest (utf8 ++ String.utf8EncodeChar char) := by
  have small := toNat_lt char
  have valid : char.toNat < 0xd800 ∨ 0xdfff < char.toNat :=
    (char.valid : char.toNat.isValidChar).imp_right And.left
  have nonzero : char.toNat ≠ 0 := fun zero => visible (Char.toNat_inj.1 zero)
  rw [encode_eq_spell, ← utf8Bytes_eq small, units]
  split
  case isTrue pair =>
    cases wchar with
    | utf32 => exact absurd pair.1 (by decide)
    | utf16 =>
        obtain ⟨first, second, same, high, low, joined⟩ := surrogates_eq pair.2 small
        have go : ¬(first = 0 ∨ ¬ utf8.length + 5 < utf8Size) := by omega
        rw [same, List.cons_append, List.cons_append, List.nil_append, printWideLoop, if_neg go,
          if_pos ⟨rfl, high⟩, if_pos low, joined]
  case isFalse single =>
    have same : wchar.cast char.toNat = char.toNat := by
      cases wchar with
      | utf16 => exact cast_small _ (Nat.lt_of_not_le fun high => single ⟨rfl, high⟩)
      | utf32 => exact cast_utf32 small
    have go : ¬(char.toNat = 0 ∨ ¬ utf8.length + 5 < utf8Size) := by omega
    rw [same, List.singleton_append]
    exact printWideLoop_single go (by omega)

/-- The characters that begin while there is room for any. -/
def begun : Nat → List Char → List Char
  | _, [] => []
  | used, char :: text =>
      if used + 5 < utf8Size then char :: begun (used + (String.utf8EncodeChar char).length) text
      else []

theorem printWideLoop_eq (wchar : Wchar) {text : List Char} (visible : '\x00' ∉ text)
    (utf8 : List UInt8) :
    printWideLoop wchar (text.flatMap (fun char => units wchar char.toNat) ++ [0]) utf8 =
      some (utf8 ++ (begun utf8.length text).flatMap String.utf8EncodeChar ++ [0]) := by
  induction text generalizing utf8 with
  | nil =>
      rw [List.flatMap_nil, List.nil_append, printWideLoop_stop (.inl rfl), begun,
        List.flatMap_nil, List.append_nil]
  | cons char text ih =>
      rw [List.mem_cons, not_or] at visible
      rw [List.flatMap_cons, List.append_assoc, begun]
      split
      · rename_i room
        rw [printWideLoop_units wchar (Ne.symm visible.1) _ room, ih visible.2, List.length_append,
          List.flatMap_cons, List.append_assoc utf8]
      · rename_i full
        obtain ⟨unit, others, same⟩ :=
          List.exists_cons_of_length_pos (unitCount_pos wchar char.toNat)
        rw [same, List.cons_append, printWideLoop_stop (.inr full), List.flatMap_nil,
          List.append_nil]

/-- All characters begin in time if the last one does. -/
theorem begun_eq_iff {used : Nat} (begins : used + 5 < utf8Size) (text : List Char) :
    begun used text = text ↔
      used + (text.dropLast.flatMap String.utf8EncodeChar).length + 5 < utf8Size := by
  induction text generalizing used with
  | nil => exact iff_of_true rfl begins
  | cons char text ih =>
      rw [begun, if_pos begins, List.cons.injEq, and_iff_right rfl]
      cases text with
      | nil => exact iff_of_true rfl begins
      | cons second text =>
          rw [List.dropLast_cons_cons, List.flatMap_cons, List.length_append, ← Nat.add_assoc]
          by_cases next : used + (String.utf8EncodeChar char).length + 5 < utf8Size
          · exact ih next
          · rw [begun, if_neg next]
            exact iff_of_false nofun (by omega)

theorem begun_subset (used : Nat) (text : List Char) : begun used text ⊆ text := by
  induction text generalizing used with
  | nil => exact List.Subset.refl _
  | cons char text ih =>
      rw [begun]
      split
      · exact List.cons_subset_cons char (ih _)
      · exact List.nil_subset _

/-! ## There and back -/

/-- The bytes of a text. -/
def utf8Of (text : List Char) : List UInt8 := text.flatMap String.utf8EncodeChar

/-- The wide characters of a text. -/
def wideOf (wchar : Wchar) (text : List Char) : List Nat :=
  text.flatMap fun char => units wchar char.toNat

theorem utf8Of_ne_zero {text : List Char} (visible : '\x00' ∉ text) :
    ∀ byte ∈ utf8Of text, byte ≠ 0 := by
  intro byte mem zero
  obtain ⟨char, present, mem⟩ := List.mem_flatMap.1 mem
  rw [encode_eq_spell] at mem
  rcases Nat.lt_or_ge 0x7f char.toNat with high | ascii
  · have large := spell_high high byte mem
    rw [zero] at large
    exact absurd large (by decide)
  · rw [spell_ascii ascii, List.mem_singleton, zero] at mem
    have code := congrArg UInt8.toNat mem
    rw [UInt8.toNat_zero, UInt8.toNat_ofNat', Nat.mod_eq_of_lt (by omega)] at code
    exact visible ((Char.toNat_inj.1 code : '\x00' = char) ▸ present)

theorem taken_units (wchar : Wchar) (text : List Char) :
    taken (unitCount wchar) (text.map Char.toNat) = (wideOf wchar text).length := by
  rw [taken, wideOf, List.length_flatMap, List.map_map]
  rfl

/-- A text with room for all its wide characters is written to its end. -/
theorem utf8ToWide_text (wchar : Wchar) {capacity : Nat} {text : List Char}
    (visible : '\x00' ∉ text) (fits : (wideOf wchar text).length + 1 ≤ capacity)
    (beyond : List UInt8) :
    utf8ToWide wchar capacity (some (utf8Of text ++ 0 :: beyond)) =
      some (wideOf wchar text ++ [0]) := by
  have room : taken (unitCount wchar) (text.map Char.toNat) ≤ capacity - 1 - 0 := by
    rw [taken_units]
    omega
  have some : 0 < capacity := Nat.lt_of_lt_of_le (Nat.succ_pos _) fits
  rw [utf8ToWide, if_neg (Nat.ne_of_gt some), Option.getD_some, utf8ToWideLoop_eq wchar _ _ some,
    utf8Of, wideCodes_encode visible, List.length_nil, fitting_all room, List.flatMap_map]
  rfl

/-- The characters of a text that begin in time are printed. -/
theorem printWide_text (wchar : Wchar) (front : List UInt8) {text : List Char}
    (visible : '\x00' ∉ text) :
    printWide wchar front (some (wideOf wchar text ++ [0])) =
      some (front ++ utf8Of (begun 0 text) ++ [0x0a]) := by
  have bytes := utf8Of_ne_zero (mt (fun mem => begun_subset 0 text mem) visible)
  have shown : (utf8Of (begun 0 text) ++ [0]).takeWhile (· ≠ 0) = utf8Of (begun 0 text) := by
    rw [List.takeWhile_append_of_pos fun byte mem => decide_eq_true (bytes byte mem)]
    exact List.append_nil _
  rw [printWide, Option.getD_some, wideOf, printWideLoop_eq wchar visible, List.nil_append,
    Option.map_some, List.length_nil]
  exact congrArg (fun shown => some (front ++ shown ++ [0x0a])) shown

/-- The line of the command line for a text of the daemon. -/
def printed (wchar : Wchar) (capacity : Nat) (front text : List UInt8) : Option (List UInt8) :=
  (utf8ToWide wchar capacity (some text)).bind fun wide => printWide wchar front (some wide)

theorem utf8Of_inj {first second : List Char} (one : '\x00' ∉ first) (other : '\x00' ∉ second)
    (same : utf8Of first = utf8Of second) : first = second := by
  have codes := congrArg wideCodes same
  rw [utf8Of, utf8Of, wideCodes_encode one, wideCodes_encode other] at codes
  exact List.map_inj_right (fun _ _ => Char.toNat_inj.1) |>.1 codes

/-- The line is the text again exactly if the last character begins in time. -/
theorem printed_text (wchar : Wchar) (front : List UInt8) {capacity : Nat} {text : List Char}
    (visible : '\x00' ∉ text) (fits : (wideOf wchar text).length + 1 ≤ capacity)
    (beyond : List UInt8) :
    printed wchar capacity front (utf8Of text ++ 0 :: beyond) =
        some (front ++ utf8Of text ++ [0x0a]) ↔
      (utf8Of text.dropLast).length + 5 < utf8Size := by
  have begins : 0 + 5 < utf8Size := by decide
  have whole := begun_eq_iff begins text
  rw [Nat.zero_add] at whole
  rw [printed, utf8ToWide_text wchar visible fits, Option.bind_some,
    printWide_text wchar front visible, Option.some_inj, List.append_left_inj,
    List.append_right_inj]
  have still := mt (fun mem => begun_subset 0 text mem) visible
  exact Iff.trans ⟨utf8Of_inj still visible, congrArg utf8Of⟩ whole

theorem length_replicate_encode (count : Nat) (char : Char) :
    (utf8Of (List.replicate count char)).length = count * (String.utf8EncodeChar char).length := by
  rw [utf8Of, List.length_flatMap, List.map_replicate, List.sum_replicate_nat]

/-- 508 bytes, of which the last one is not printed. -/
def reservedText : List Char := List.replicate 169 '€' ++ ['a']

end Sdk
