import UsbDvbs2.Bytes.Checked
import UsbDvbs2.Text.DvbText

/-! # The conversion stays in its text

`dtv_dvb_text_to_utf8` with every read of the text where the code has it: the reads behind a
selector, the bytes of a character that is copied, and the letter behind a mark.
-/

namespace Text

open Bytes

variable {source : List UInt8}

/-! ## The selector -/

/-- `pick_table`. -/
def pickTable? (source : List UInt8) : Option (DvbTable × Nat) :=
  if source.length = 0 then some (.iso6937, 0)
  else do
    let selector ← source[0]?
    if 0x20 ≤ selector then return (.iso6937, 0)
    else if selector = 0x01 then return (.cyrillic, 1)
    else if selector = 0x03 then return (.greek, 1)
    else if selector = 0x05 then return (.latin5, 1)
    else if selector = 0x0b then return (.latin9, 1)
    else if selector = 0x10 then
      if 3 ≤ source.length then
        let part ← source[2]?
        return (if part = 0x05 then .cyrillic
          else if part = 0x07 then .greek
          else if part = 0x09 then .latin5
          else if part = 0x0f then .latin9
          else .latin1, 3)
      else return (.latin1, 1)
    else if selector = 0x11 then return (.utf16be, 1)
    else if selector = 0x15 then return (.utf8, 1)
    else if selector = 0x1f then return (.latin1, if 2 ≤ source.length then 2 else 1)
    else return (.latin1, 1)

theorem pickTable?_eq (source : List UInt8) : pickTable? source = some (pickTable source) := by
  unfold pickTable? pickTable
  by_cases blank : source.length = 0
  · rw [if_pos blank, if_pos (.inl (List.eq_nil_of_length_eq_zero blank))]
  · have text : source ≠ [] := fun none => blank (congrArg List.length none)
    have first := @getElem?_of_inside source 0 (Nat.pos_of_ne_zero blank)
    simp only [if_neg blank, first, Option.bind_eq_bind, Option.bind_some, text, false_or]
    by_cases long : 3 ≤ source.length
    · have part := @getElem?_of_inside source 2 long
      simp only [if_pos long, part, Option.bind_some, Option.pure_def, apply_ite some]
    · simp only [if_neg long, Option.pure_def, apply_ite some]

/-! ## The loops -/

/-- A turn of the loop over a text that is UTF-8 already. -/
def copyTurn? (size : Nat) (source : List UInt8) (pos : Nat) (out : List UInt8) :
    Option (Option Nat × List UInt8) :=
  if size ≤ out.length + 1 then some (none, out)
  else do
    let ch ← source[pos]?
    let length := utf8Length ch
    if length = 0 ∨ source.length < pos + length then return (none, out)
    else if length = 1 then
      return (some (pos + 1), out ++ [if ch < 0x20 ∨ ch = 0x7f then 0x20 else ch])
    else if size < out.length + length + 1 then return (none, out)
    else
      let copied ← slice? source pos length
      return (some (pos + length), out ++ copied)

/-- A turn of the loop over UTF-16. -/
def utf16Turn? (size : Nat) (source : List UInt8) (pos : Nat) (out : List UInt8) :
    Option (Option Nat × List UInt8) := do
  let high ← source[pos]?
  let low ← source[pos + 1]?
  let code := high.toNat * 256 + low.toNat
  match putUtf8 size out (if code < 0x20 ∨ code = 0x7f then 0x20 else code) with
  | some out => return (some (pos + 2), out)
  | none => return (none, out)

/-- What a byte stands for, and the position behind it. -/
def nextCodes? (table : DvbTable) (source : List UInt8) (ch : UInt8) (pos : Nat) :
    Option (List Nat × Nat) :=
  if ch < 0x20 ∨ 0x7f ≤ ch ∧ ch < highFirst then some ([0x20], pos)
  else if ch < highFirst then some ([ch.toNat], pos)
  else if table ≠ .iso6937 then some ([highByteCode table ch], pos)
  else if 0xc1 ≤ ch ∧ ch ≤ 0xcf then do
    let mark := iso6937Marks.getD (ch.toNat - 0xc1) 0
    let (base, later) ←
      if pos < source.length then source[pos]?.map fun base => (base, pos + 1) else some (0, pos)
    if mark = 0 ∨ base = 0 then return ([], later)
    else if compose mark base ≠ 0 then return ([compose mark base], later)
    else return ([base.toNat, mark], later)
  else some ([iso6937Code ch], pos)

/-- A turn of the loop over the tables of one byte a character, and the default one. -/
def byteTurn? (table : DvbTable) (size : Nat) (source : List UInt8) (pos : Nat)
    (out : List UInt8) : Option (Option Nat × List UInt8) := do
  let ch ← source[pos]?
  let (codes, later) ← nextCodes? table source ch (pos + 1)
  let (out, fits) := putCodes size codes out
  return (if fits then some later else none, out)

def dtvDvbTextToUtf8? (size : Nat) (source : List UInt8) : Option (List UInt8) :=
  if size = 0 then some []
  else do
    let (table, start) ← pickTable? source
    match table with
    | .utf8 => scan? 1 source.length (copyTurn? size source) start []
    | .utf16be => scan? 2 source.length (utf16Turn? size source) start []
    | table => scan? 1 source.length (byteTurn? table size source) start []

/-! ## What is left of the text -/

theorem drop_cons {pos : Nat} (inside : pos < source.length) :
    source.drop pos = source.getD pos 0 :: source.drop (pos + 1) := by
  rw [List.drop_eq_getElem_cons inside, List.getD_eq_getElem?_getD,
    List.getElem?_eq_getElem inside, Option.getD_some]

/-- More fuel than there are bytes changes nothing. -/
theorem copyUtf8_fuel {size : Nat} {fuel more : Nat} {text out : List UInt8}
    (enough : text.length ≤ fuel) (also : text.length ≤ more) :
    copyUtf8 size fuel text out = copyUtf8 size more text out := by
  induction fuel generalizing more text out with
  | zero =>
      obtain rfl := List.eq_nil_of_length_eq_zero (Nat.le_zero.mp enough)
      cases more <;> rfl
  | succ fuel ih =>
      cases text with
      | nil => cases more <;> rfl
      | cons ch rest =>
          cases more with
          | zero => exact absurd also (Nat.not_succ_le_zero _)
          | succ more =>
              have less : rest.length ≤ fuel := Nat.le_of_succ_le_succ enough
              have least : rest.length ≤ more := Nat.le_of_succ_le_succ also
              have behind : (rest.drop (utf8Length ch - 1)).length ≤ rest.length := by
                rw [List.length_drop]
                exact Nat.sub_le _ _
              rw [copyUtf8, copyUtf8]
              simp only [ih less least, ih (Nat.le_trans behind less) (Nat.le_trans behind least)]

theorem nextCodes_short (table : DvbTable) (ch : UInt8) (rest : List UInt8) :
    (nextCodes table ch rest).2.length ≤ rest.length := by
  have tail : rest.tail.length ≤ rest.length := by
    rw [List.length_tail]
    exact Nat.sub_le _ _
  unfold nextCodes
  grind

theorem readBytes_fuel {table : DvbTable} {size fuel more : Nat} {text out : List UInt8}
    (enough : text.length ≤ fuel) (also : text.length ≤ more) :
    readBytes table size fuel text out = readBytes table size more text out := by
  induction fuel generalizing more text out with
  | zero =>
      obtain rfl := List.eq_nil_of_length_eq_zero (Nat.le_zero.mp enough)
      cases more <;> rfl
  | succ fuel ih =>
      cases text with
      | nil => cases more <;> rfl
      | cons ch rest =>
          cases more with
          | zero => exact absurd also (Nat.not_succ_le_zero _)
          | succ more =>
              have shorter := nextCodes_short table ch rest
              have less : rest.length ≤ fuel := Nat.le_of_succ_le_succ enough
              have least : rest.length ≤ more := Nat.le_of_succ_le_succ also
              rw [readBytes, readBytes]
              simp only [ih (Nat.le_trans shorter less) (Nat.le_trans shorter least)]

/-! ## No read outside -/

theorem copyTurn_solves (size : Nat) :
    Solves 1 source.length (copyTurn? size source)
      (fun pos out => copyUtf8 size (source.length - pos) (source.drop pos) out) where
  positive := by decide
  ends := by
    intro pos out last
    rw [List.drop_eq_nil_of_le (Nat.le_of_lt_succ last)]
    cases source.length - pos <;> rfl
  turns := by
    intro pos out inside
    have here := @getElem?_of_inside source pos inside
    have whole := drop_cons inside
    have left : source.length - pos = source.length - (pos + 1) + 1 := by omega
    have rest : (source.drop (pos + 1)).length = source.length - (pos + 1) := List.length_drop
    rw [left, whole, copyUtf8]
    generalize source.getD pos 0 = ch at here whole
    by_cases full : size ≤ out.length + 1
    · exact ⟨none, out, if_pos full, if_pos (.inl full)⟩
    · by_cases cut : utf8Length ch = 0 ∨ source.length < pos + utf8Length ch
      · refine ⟨none, out, ?_, if_pos (.inr (by omega))⟩
        simp only [copyTurn?, if_neg full, here, Option.bind_eq_bind, Option.bind_some, if_pos cut]
        rfl
      · have goes : ¬ (size ≤ out.length + 1 ∨ utf8Length ch = 0 ∨
            (source.drop (pos + 1)).length + 1 < utf8Length ch) := by omega
        simp only [copyTurn?, if_neg full, here, Option.bind_eq_bind, Option.bind_some, if_neg cut,
          if_neg goes]
        by_cases single : utf8Length ch = 1
        · refine ⟨_, _, if_pos single, Nat.lt_succ_self pos, if_pos single⟩
        · by_cases long : size < out.length + utf8Length ch + 1
          · simp only [if_neg single, if_pos long]
            exact ⟨none, out, rfl, rfl⟩
          · have copied : slice? source pos (utf8Length ch) =
                some (slice source pos (utf8Length ch)) := slice?_eq (by omega)
            have behind : (source.drop (pos + 1)).drop (utf8Length ch - 1) =
                source.drop (pos + utf8Length ch) := by
              rw [List.drop_drop]
              congr 1
              omega
            simp only [if_neg single, if_neg long, copied, Option.bind_some]
            refine ⟨some (pos + utf8Length ch), _, rfl, by omega, ?_⟩
            rw [behind, slice, whole]
            apply copyUtf8_fuel
            · rw [List.length_drop]
              omega
            · rw [List.length_drop]

theorem utf16Turn_solves (size : Nat) :
    Solves 2 source.length (utf16Turn? size source)
      (fun pos out => readUtf16 size (source.drop pos) out) where
  positive := by decide
  ends := by
    intro pos out last
    have few : (source.drop pos).length < 2 := by
      rw [List.length_drop]
      omega
    cases ends : source.drop pos with
    | nil => rfl
    | cons high rest =>
        rw [ends, List.length_cons] at few
        obtain rfl := List.eq_nil_of_length_eq_zero (show rest.length = 0 by omega)
        rfl
  turns := by
    intro pos out inside
    have high := @getElem?_of_inside source pos (by omega)
    have low := @getElem?_of_inside source (pos + 1) inside
    have split : source.drop pos = source.getD pos 0 :: source.getD (pos + 1) 0 ::
        source.drop (pos + 2) := by
      rw [drop_cons (Nat.lt_of_succ_lt inside), drop_cons inside]
    simp only [utf16Turn?, high, low, split, readUtf16, Option.bind_eq_bind, Option.bind_some]
    generalize putUtf8 size out _ = put
    cases put with
    | some more => exact ⟨some (pos + 2), more, rfl, by omega, rfl⟩
    | none => exact ⟨none, out, rfl, rfl⟩

/-- The letter behind a mark is read only where there is one. -/
theorem nextCodes?_eq (table : DvbTable) (ch : UInt8) (pos : Nat) :
    ∃ later, pos ≤ later ∧
      nextCodes? table source ch pos =
        some ((nextCodes table ch (source.drop pos)).1, later) ∧
      (nextCodes table ch (source.drop pos)).2 = source.drop later := by
  unfold nextCodes? nextCodes
  by_cases control : ch < 0x20 ∨ 0x7f ≤ ch ∧ ch < highFirst
  · exact ⟨pos, Nat.le_refl pos, by rw [if_pos control, if_pos control], by rw [if_pos control]⟩
  rw [if_neg control, if_neg control]
  by_cases plain : ch < highFirst
  · exact ⟨pos, Nat.le_refl pos, by rw [if_pos plain, if_pos plain], by rw [if_pos plain]⟩
  rw [if_neg plain, if_neg plain]
  by_cases single : table ≠ .iso6937
  · exact ⟨pos, Nat.le_refl pos, by rw [if_pos single, if_pos single], by rw [if_pos single]⟩
  rw [if_neg single, if_neg single]
  by_cases marks : 0xc1 ≤ ch ∧ ch ≤ 0xcf
  · rw [if_pos marks, if_pos marks]
    generalize iso6937Marks.getD (ch.toNat - 0xc1) 0 = mark
    by_cases inside : pos < source.length
    · have letter := @getElem?_of_inside source pos inside
      rw [drop_cons inside, if_pos inside, letter]
      generalize source.getD pos 0 = base
      simp only [Option.map_some, Option.bind_eq_bind, Option.bind_some, List.headD_cons,
        List.tail_cons]
      refine ⟨pos + 1, Nat.le_succ pos, ?_⟩
      by_cases skips : mark = 0 ∨ base = 0
      · simp [skips]
      · by_cases known : compose mark base = 0 <;> simp [skips, known]
    · have nothing : source.drop pos = [] := List.drop_eq_nil_of_le (Nat.not_lt.mp inside)
      exact ⟨pos, Nat.le_refl pos, by simp [nothing, inside], by simp [nothing]⟩
  · rw [if_neg marks, if_neg marks]
    exact ⟨pos, Nat.le_refl pos, rfl, rfl⟩

theorem byteTurn_solves (table : DvbTable) (size : Nat) :
    Solves 1 source.length (byteTurn? table size source)
      (fun pos out => readBytes table size (source.length - pos) (source.drop pos) out) where
  positive := by decide
  ends := by
    intro pos out last
    rw [List.drop_eq_nil_of_le (Nat.le_of_lt_succ last)]
    cases source.length - pos <;> rfl
  turns := by
    intro pos out inside
    have here := @getElem?_of_inside source pos inside
    have left : source.length - pos = source.length - (pos + 1) + 1 := by omega
    obtain ⟨later, further, codes, behind⟩ :=
      @nextCodes?_eq source table (source.getD pos 0) (pos + 1)
    rw [left, drop_cons inside, readBytes]
    simp only [byteTurn?, here, codes, Option.bind_eq_bind, Option.bind_some, behind]
    generalize putCodes size _ out = put
    obtain ⟨more, fits⟩ := put
    cases fits with
    | true =>
        refine ⟨some later, more, rfl, further, ?_⟩
        apply readBytes_fuel
        · rw [List.length_drop]
          omega
        · rw [List.length_drop]
    | false => exact ⟨none, more, rfl, rfl⟩

theorem dtvDvbTextToUtf8?_eq (size : Nat) (source : List UInt8) :
    dtvDvbTextToUtf8? size source = some (dtvDvbTextToUtf8 size source) := by
  unfold dtvDvbTextToUtf8? dtvDvbTextToUtf8
  by_cases noRoom : size = 0
  · rw [if_pos noRoom, if_pos noRoom]
  · rw [if_neg noRoom, if_neg noRoom, pickTable?_eq]
    simp only [Option.bind_eq_bind, Option.bind_some, List.length_drop]
    generalize pickTable source = picked
    obtain ⟨table, start⟩ := picked
    cases table with
    | utf8 => exact (copyTurn_solves size).scan start []
    | utf16be => exact (utf16Turn_solves size).scan start []
    | _ => exact (byteTurn_solves _ size).scan start []

end Text
