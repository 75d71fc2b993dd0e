import Mathlib.Data.List.DropRight
import Mathlib.Data.List.TakeWhile
import UsbDvbs2.Stream.EventTable
import UsbDvbs2.Text.Truncation

/-! # The texts of an event

A text is decoded, freed of its separators and of the spaces at its ends, and cut to the
field it is for. What the cut leaves depends on the byte that the field already holds
behind the copy: it is taken for the byte that was cut off.
-/

namespace Stream

open Bytes Text Utf8

/-! ## The text that is wanted -/

/-- The separator becomes a space. -/
def unbar (ch : UInt8) : UInt8 := if ch = 0x7c then 0x20 else ch

/-- Without separators, and without spaces in front. -/
def spaced (decoded : List UInt8) : List UInt8 := (decoded.map unbar).dropWhile (· = 0x20)

/-- And without spaces behind. -/
def tidied (decoded : List UInt8) : List UInt8 := trimEnd (· = 0x20) (spaced decoded)

/-- A text as it is shown. -/
structure Tidy (source shown : List UInt8) : Prop where
  formed : WellFormed shown
  noBar : ∀ byte ∈ shown, byte ≠ 0x7c
  noLeading : shown.head? ≠ some 0x20
  noTrailing : shown.getLast? ≠ some 0x20
  begins : ∀ size, 512 ≤ size → shown <+: tidied (dtvDvbTextToUtf8 size source)

/-- What `copy_text` copies. -/
def copied (room : Nat) (source : List UInt8) : List UInt8 :=
  (spaced (dtvDvbTextToUtf8 512 source)).take (room - 1)

/-- A text without its last character. -/
def beforeLast (text : List UInt8) : List UInt8 := (trimEnd isTail text).dropLast

theorem trimEnd_eq (test : UInt8 → Bool) (text : List UInt8) :
    trimEnd test text = text.rdropWhile test := rfl

theorem trimEnd_begins (test : UInt8 → Bool) (text : List UInt8) : trimEnd test text <+: text :=
  List.rdropWhile_prefix test text

theorem beforeLast_begins (text : List UInt8) : beforeLast text <+: text :=
  (List.dropLast_prefix _).trans (trimEnd_begins _ _)

theorem isTail_eq (byte : UInt8) : isTail byte = decide (byte &&& 0xc0 = 0x80) :=
  @forall_byte (fun byte => isTail byte = decide (byte &&& 0xc0 = 0x80)) _ (by decide +kernel) byte

/-! ## Where the terminator goes -/

/-- Behind a byte that continues nothing the terminator stays. -/
theorem backUp_stays {field : List UInt8} {out : Nat} (begins : isTail (field.getD out 0) = false) :
    backUp field out = out := by
  cases out with
  | zero => rfl
  | succ out =>
      rw [isTail_eq, decide_eq_false_iff_not] at begins
      exact if_neg begins

/-- In front of one that continues a character it goes back to that character. -/
theorem backUp_goes {text rest : List UInt8}
    (continues : isTail ((text ++ rest).getD text.length 0) = true) :
    (text ++ rest).take (backUp (text ++ rest) text.length) = beforeLast text := by
  induction text using List.reverseRecOn generalizing rest with
  | nil => rfl
  | append_singleton text last ih =>
      have length : (text ++ [last]).length = text.length + 1 := List.length_append
      rw [length] at continues ⊢
      rw [isTail_eq, decide_eq_true_eq] at continues
      rw [backUp, if_pos continues, List.append_assoc, List.singleton_append]
      have here : (text ++ last :: rest).getD text.length 0 = last := by
        rw [List.getD_eq_getElem?_getD, List.getElem?_append_right (Nat.le_refl _), Nat.sub_self]
        rfl
      cases tail : isTail last with
      | true =>
          rw [ih (here.symm ▸ tail), beforeLast, beforeLast, trimEnd_eq, trimEnd_eq,
            List.rdropWhile_concat_pos _ _ _ tail]
      | false =>
          rw [backUp_stays (here.symm ▸ tail), List.take_left' rfl, beforeLast, trimEnd_eq,
            List.rdropWhile_concat_neg _ _ _ (Bool.eq_false_iff.1 tail), List.dropLast_concat]

theorem backUp_le (field : List UInt8) (out : Nat) : backUp field out ≤ out := by
  induction out with
  | zero => exact Nat.le_refl _
  | succ out ih =>
      rw [backUp]
      split
      · exact Nat.le_succ_of_le ih
      · exact Nat.le_refl _

/-! ## Trimming -/

/-- A text that does not end in a space. -/
def Ends (text : List UInt8) : Prop := text.getLast? ≠ some 0x20

instance (text : List UInt8) : Decidable (Ends text) :=
  inferInstanceAs (Decidable (text.getLast? ≠ some 0x20))

theorem trimEnd_space_concat (text : List UInt8) :
    trimEnd (· = 0x20) (text ++ [0x20]) = trimEnd (· = 0x20) text :=
  List.rdropWhile_concat_pos (fun ch : UInt8 => decide (ch = 0x20)) _ _ rfl

theorem trimEnd_other {text : List UInt8} {last : UInt8} (other : last ≠ 0x20) :
    trimEnd (· = 0x20) (text ++ [last]) = text ++ [last] :=
  List.rdropWhile_concat_neg (fun ch : UInt8 => decide (ch = 0x20)) _ _ (by simpa using other)

theorem trimEnd_ends (text : List UInt8) : Ends (trimEnd (· = 0x20) text) := by
  induction text using List.reverseRecOn with
  | nil => exact nofun
  | append_singleton text last ih =>
      by_cases space : last = 0x20
      · rwa [space, trimEnd_space_concat]
      · rw [trimEnd_other space, Ends, List.getLast?_concat]
        exact fun same => space (Option.some.inj same)

theorem trimEnd_self {text : List UInt8} (ends : Ends text) : trimEnd (· = 0x20) text = text := by
  induction text using List.reverseRecOn with
  | nil => rfl
  | append_singleton text last _ =>
      rw [Ends, List.getLast?_concat] at ends
      exact trimEnd_other fun space => ends (congrArg some space)

/-- Where a text is trimmed there was a space. -/
theorem trimEnd_space {text : List UInt8} (space : ¬ Ends text) :
    text[(trimEnd (· = 0x20) text).length]? = some 0x20 := by
  induction text using List.reverseRecOn with
  | nil => exact absurd nofun space
  | append_singleton text last ih =>
      rw [Ends, ne_eq, Decidable.not_not, List.getLast?_concat, Option.some.injEq] at space
      rw [space, trimEnd_space_concat]
      by_cases ends : Ends text
      · rw [trimEnd_self ends, List.getElem?_concat_length]
      · have before := ih ends
        have inside := (List.getElem?_eq_some_iff.1 before).1
        rw [List.getElem?_append_left inside, before]

/-- Every front that does not end in a space outlasts the trimming. -/
theorem prefix_trimEnd {front text : List UInt8} (begins : front <+: text) (ends : Ends front) :
    front <+: trimEnd (· = 0x20) text := by
  induction text using List.reverseRecOn with
  | nil => exact begins
  | append_singleton text last ih =>
      by_cases space : last = 0x20
      · rw [space] at begins ⊢
        rw [trimEnd_space_concat]
        rcases List.prefix_concat_iff.1 begins with rfl | earlier
        · rw [Ends, List.getLast?_concat] at ends
          exact absurd rfl ends
        · exact ih earlier
      · rwa [trimEnd_other space]

/-! ## What is shown -/

theorem cString_set {field : List UInt8} {out : Nat} (inside : out < field.length) :
    cString (field.set out 0) = cString (field.take out) := by
  rw [List.set_eq_take_append_cons_drop, if_pos inside, cString, List.takeWhile_append, cString]
  split_ifs with whole
  · rw [List.takeWhile_cons_of_neg (by decide), List.append_nil,
      (List.takeWhile_prefix _).eq_of_length whole]
  · rfl

theorem cString_self {text : List UInt8} (nonzero : ∀ byte ∈ text, byte ≠ 0) :
    cString text = text :=
  List.takeWhile_eq_self_iff.2 fun byte mem => decide_eq_true (nonzero byte mem)

/-- The field holds a byte behind the copy that looks like the rest of a character. -/
def Stale (target source : List UInt8) : Prop :=
  isTail (target.getD (copied target.length source).length 0) = true ∧
    Ends (copied target.length source)

instance (target source : List UInt8) : Decidable (Stale target source) :=
  inferInstanceAs (Decidable (_ ∧ _))

theorem not_stale_nil (source : List UInt8) : ¬ Stale [] source := by
  rintro ⟨continues, -⟩
  rw [List.getD_nil] at continues
  exact absurd continues (by decide)

/-- The terminator goes behind a text that was put into a field, and in front of its
trailing spaces; or one character is lost. -/
theorem terminated_text {target text : List UInt8} (room : text.length < target.length) :
    cString ((text ++ target.drop text.length).set
      (backUp (text ++ target.drop text.length) (trimEnd (· = 0x20) text).length) 0) =
    cString (if isTail (target.getD text.length 0) = true ∧ Ends text then beforeLast text
      else trimEnd (· = 0x20) text) := by
  have trims := (trimEnd_begins (· = 0x20) text).length_le
  have back := backUp_le (text ++ target.drop text.length) (trimEnd (· = 0x20) text).length
  have inside : backUp (text ++ target.drop text.length) (trimEnd (· = 0x20) text).length <
      (text ++ target.drop text.length).length := by
    rw [List.length_append, List.length_drop]
    omega
  have behind : (text ++ target.drop text.length).getD text.length 0 =
      target.getD text.length 0 := by
    rw [List.getD_eq_getElem?_getD, List.getElem?_append_right (Nat.le_refl _), Nat.sub_self,
      List.getElem?_drop, Nat.add_zero, List.getD_eq_getElem?_getD]
  rw [cString_set inside]
  by_cases ends : Ends text
  · rw [trimEnd_self ends]
    cases tail : isTail (target.getD text.length 0) with
    | true => rw [if_pos ⟨rfl, ends⟩, backUp_goes (behind ▸ tail)]
    | false =>
        rw [if_neg fun both => Bool.false_ne_true both.1, backUp_stays (behind ▸ tail),
          List.take_left' rfl]
  · have space := trimEnd_space ends
    have within := (List.getElem?_eq_some_iff.1 space).1
    have stays : isTail ((text ++ target.drop text.length).getD
        (trimEnd (· = 0x20) text).length 0) = false := by
      rw [List.getD_eq_getElem?_getD, List.getElem?_append_left within, space]
      rfl
    rw [if_neg fun both => ends both.2, backUp_stays stays,
      List.take_append_of_le_length (by omega), ← List.prefix_iff_eq_take.1 (trimEnd_begins _ text)]

/-- What `copy_text` leaves in a field. -/
theorem copyText_field (target source : List UInt8) :
    cString (copyText target source) =
      cString (if Stale target source then beforeLast (copied target.length source)
        else trimEnd (· = 0x20) (copied target.length source)) := by
  by_cases none : target = []
  · subst none
    have nothing : copied ([] : List UInt8).length source = [] := List.take_zero
    rw [copyText, if_pos rfl, if_neg (not_stale_nil source), nothing]
    rfl
  · have room : 0 < target.length := List.length_pos_iff.2 none
    have short : (copied target.length source).length ≤ target.length - 1 := List.length_take_le _ _
    have same : copyText target source =
        (copied target.length source ++ target.drop (copied target.length source).length).set
          (backUp (copied target.length source ++
            target.drop (copied target.length source).length)
            (trimEnd (· = 0x20) (copied target.length source)).length) 0 := if_neg none
    rw [same]
    exact terminated_text (by omega)

/-- Without zero bytes all of it is shown. -/
theorem copyText_shown {target source : List UInt8}
    (nonzero : ∀ byte ∈ copied target.length source, byte ≠ 0) :
    cString (copyText target source) =
      if Stale target source then beforeLast (copied target.length source)
      else trimEnd (· = 0x20) (copied target.length source) := by
  rw [copyText_field, cString_self]
  intro byte mem
  have begins : (if Stale target source then beforeLast (copied target.length source)
      else trimEnd (· = 0x20) (copied target.length source)) <+: copied target.length source := by
    split_ifs
    · exact beforeLast_begins _
    · exact trimEnd_begins _ _
  exact nonzero byte (begins.subset mem)

/-! ## The text that is wanted -/

theorem dropWhile_begins {α : Type} {front text : List α} (begins : front <+: text)
    (test : α → Bool) : front.dropWhile test <+: text.dropWhile test := by
  induction front generalizing text with
  | nil => exact List.nil_prefix
  | cons item front ih =>
      obtain ⟨rest, rfl, later⟩ := List.cons_prefix_iff.1 begins
      rw [List.dropWhile_cons, List.dropWhile_cons]
      split
      · exact ih later
      · exact begins

theorem spaced_begins {front text : List UInt8} (begins : front <+: text) :
    spaced front <+: spaced text := by
  obtain ⟨more, rfl⟩ := begins
  refine dropWhile_begins ?_ _
  rw [List.map_append]
  exact List.prefix_append _ _

theorem spaced_formed {decoded : List UInt8} (formed : WellFormed decoded) :
    WellFormed (spaced decoded) := by
  have mapped : WellFormed (decoded.map unbar) := by
    refine formed.map_ascii (fun byte low => ?_) fun byte high => ?_
    · unfold unbar
      split
      · decide
      · exact low
    · refine if_neg fun bar => ?_
      rw [bar] at high
      exact absurd high (by decide)
  have spaces : WellFormed ((decoded.map unbar).takeWhile (· = 0x20)) := by
    refine wellFormed_ascii fun byte mem => ?_
    have space := List.mem_takeWhile_imp mem
    rw [of_decide_eq_true space]
    decide
  rwa [← List.takeWhile_append_dropWhile (p := (· = 0x20)) (l := decoded.map unbar),
    spaces.append_iff] at mapped

theorem mem_spaced {decoded : List UInt8} {byte : UInt8} (mem : byte ∈ spaced decoded) :
    ∃ ch ∈ decoded, unbar ch = byte :=
  List.mem_map.1 ((List.dropWhile_sublist _).subset mem)

theorem spaced_noBar {decoded : List UInt8} : ∀ byte ∈ spaced decoded, byte ≠ 0x7c := by
  intro byte mem
  obtain ⟨ch, -, rfl⟩ := mem_spaced mem
  unfold unbar
  split
  · decide
  · assumption

theorem spaced_nonzero {decoded : List UInt8} (nonzero : ∀ byte ∈ decoded, byte ≠ 0) :
    ∀ byte ∈ spaced decoded, byte ≠ 0 := by
  intro byte mem
  obtain ⟨ch, inside, rfl⟩ := mem_spaced mem
  unfold unbar
  split
  · decide
  · exact nonzero ch inside

theorem spaced_head (decoded : List UInt8) : (spaced decoded).head? ≠ some 0x20 := by
  intro space
  have first := List.head?_dropWhile_not (fun ch : UInt8 => decide (ch = 0x20)) (decoded.map unbar)
  rw [spaced] at space
  rw [space] at first
  exact nomatch first

/-- Every front of the text that does not end in a space is as it should be, once it
is cut between two characters. -/
theorem tidy_front {source front : List UInt8}
    (begins : front <+: spaced (dtvDvbTextToUtf8 512 source)) (formed : WellFormed front)
    (ends : Ends front) : Tidy source front where
  formed := formed
  noBar byte mem := spaced_noBar byte (begins.subset mem)
  noLeading space := by
    obtain ⟨more, same⟩ := begins
    refine spaced_head (dtvDvbTextToUtf8 512 source) ?_
    rw [← same, List.head?_append, space]
    rfl
  noTrailing := ends
  begins size large := by
    exact prefix_trimEnd (begins.trans (spaced_begins (dtvDvbTextToUtf8_begins large source))) ends

/-- The byte in front of which a text without its last character ends begins that character. -/
theorem beforeLast_lead (text : List UInt8) :
    beforeLast text = [] ∨ ∃ lead, beforeLast text ++ [lead] <+: text ∧ isTail lead = false := by
  induction text using List.reverseRecOn with
  | nil => exact .inl rfl
  | append_singleton text last ih =>
      cases tail : isTail last with
      | true =>
          have shorter : beforeLast (text ++ [last]) = beforeLast text := by
            rw [beforeLast, trimEnd_eq, List.rdropWhile_concat_pos _ _ _ tail, beforeLast,
              trimEnd_eq]
          rw [shorter]
          exact ih.imp_right fun ⟨lead, begins, leads⟩ =>
            ⟨lead, begins.trans (List.prefix_append _ _), leads⟩
      | false =>
          have same : beforeLast (text ++ [last]) = text := by
            rw [beforeLast, trimEnd_eq,
              List.rdropWhile_concat_neg _ _ _ (Bool.eq_false_iff.1 tail), List.dropLast_concat]
          rw [same]
          exact .inr ⟨last, List.prefix_refl _, tail⟩

/-- A text that ends in front of a character is one. -/
theorem front_formed {front text : List UInt8} {lead : UInt8} (formed : WellFormed text)
    (begins : front ++ [lead] <+: text) (leads : isTail lead = false) : WellFormed front := by
  obtain ⟨more, rfl⟩ := begins
  have cut : (front ++ [lead] ++ more).take front.length = front := by
    rw [List.append_assoc, List.take_left' rfl]
  rw [← cut, formed.take_iff]
  intro byte behind
  rw [List.append_assoc, List.getElem?_append_right (Nat.le_refl _), Nat.sub_self,
    List.singleton_append, List.getElem?_cons_zero] at behind
  exact Option.some.inj behind ▸ leads

/-- The spaces behind a text do not matter. -/
theorem trimEnd_formed (text : List UInt8) :
    WellFormed (trimEnd (· = 0x20) text) ↔ WellFormed text := by
  induction text using List.reverseRecOn with
  | nil => exact Iff.rfl
  | append_singleton text last ih =>
      by_cases space : last = 0x20
      · rw [space, trimEnd_space_concat, ih]
        have single : WellFormed [0x20] := (isChar_ascii (by decide)).wellFormed
        refine ⟨fun formed => formed.append single, fun formed => ?_⟩
        exact front_formed formed (List.prefix_refl _) (by decide)
      · rw [trimEnd_other space]

/-- The cut falls between two characters; or the byte that the field held behind the copy
takes a character back, and there was no space in front of it. -/
def CutClean (target source : List UInt8) : Prop :=
  if Stale target source then Ends (beforeLast (copied target.length source))
  else ∀ byte, (spaced (dtvDvbTextToUtf8 512 source))[target.length - 1]? = some byte →
    isTail byte = false

/-- A text is as it should be in its field exactly if it was cut so. -/
theorem copyText_tidy_iff {source : List UInt8} (formed : WellFormed (dtvDvbTextToUtf8 512 source))
    (target : List UInt8) :
    Tidy source (cString (copyText target source)) ↔ CutClean target source := by
  have wanted := spaced_formed formed
  have begins : copied target.length source <+: spaced (dtvDvbTextToUtf8 512 source) :=
    List.take_prefix _ _
  have nonzero : ∀ byte ∈ copied target.length source, byte ≠ 0 := fun byte mem =>
    spaced_nonzero (text_nonzero formed) byte (begins.subset mem)
  rw [copyText_shown nonzero, CutClean]
  by_cases stale : Stale target source
  · rw [if_pos stale, if_pos stale]
    refine ⟨Tidy.noTrailing, fun ends => tidy_front ((beforeLast_begins _).trans begins) ?_ ends⟩
    rcases beforeLast_lead (copied target.length source) with none | ⟨lead, front, leads⟩
    · rw [none]
      exact .nil
    · exact front_formed wanted (front.trans begins) leads
  · rw [if_neg stale, if_neg stale, ← wanted.take_iff]
    have trims := trimEnd_begins (· = 0x20) (copied target.length source)
    refine ⟨fun tidy => (trimEnd_formed _).1 tidy.formed, fun cut => ?_⟩
    exact tidy_front (trims.trans begins) ((trimEnd_formed _).2 cut) (trimEnd_ends _)

/-! ## Titles -/

/-- `title`, cleared. -/
def titleField : List UInt8 := List.replicate titleSize 0

/-- A short title with an accent. -/
theorem copyText_tidy_iff_short : Tidy [0x05, 0x41, 0xe9] (cString (copyText titleField
    [0x05, 0x41, 0xe9])) := by
  have text : dtvDvbTextToUtf8 512 [0x05, 0x41, 0xe9] =
      ['A', 'é'].flatMap String.utf8EncodeChar := by
    decide +kernel
  have formed : WellFormed (dtvDvbTextToUtf8 512 [0x05, 0x41, 0xe9]) := ⟨['A', 'é'], text.symm⟩
  have fresh : ¬ Stale titleField [0x05, 0x41, 0xe9] := by decide +kernel
  have short :
      (spaced (dtvDvbTextToUtf8 512 [0x05, 0x41, 0xe9]))[titleField.length - 1]? = none := by
    decide +kernel
  refine (copyText_tidy_iff formed titleField).2 ?_
  rw [CutClean, if_neg fresh]
  exact fun byte behind => nomatch short.symm.trans behind

/-- 96 letters of two bytes each, in one byte each. -/
def longTitle : List UInt8 := 0x05 :: List.replicate 96 0xe9

/-- A field that held three such letters. -/
def usedField : List UInt8 := [0xc3, 0xa9, 0xc3, 0xa9, 0xc3, 0xa9] ++ List.replicate 186 0

/-- The title is cut inside its last letter; and in a field that was used, the letter behind
the space gets lost. -/
theorem copyText_cuts :
    WellFormed (dtvDvbTextToUtf8 512 longTitle) ∧
      ¬ WellFormed (cString (copyText titleField longTitle)) ∧
      WellFormed (dtvDvbTextToUtf8 512 [0x61, 0x20, 0x62]) ∧
      cString (copyText usedField [0x61, 0x20, 0x62]) = [0x61, 0x20] := by
  have text : dtvDvbTextToUtf8 512 longTitle =
      (List.replicate 96 'é').flatMap String.utf8EncodeChar := by decide +kernel
  have whole : WellFormed (dtvDvbTextToUtf8 512 longTitle) := ⟨List.replicate 96 'é', text.symm⟩
  have shown : cString (copyText titleField longTitle) =
      (dtvDvbTextToUtf8 512 longTitle).take 191 := by decide +kernel
  have behind : (dtvDvbTextToUtf8 512 longTitle)[191]? = some 0xa9 := by decide +kernel
  refine ⟨whole, fun formed => ?_, ⟨['a', ' ', 'b'], by decide +kernel⟩, by decide +kernel⟩
  rw [shown, whole.take_iff] at formed
  exact absurd (formed 0xa9 behind) (by decide)

end Stream
