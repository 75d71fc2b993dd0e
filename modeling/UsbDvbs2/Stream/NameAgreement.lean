import UsbDvbs2.Stream.DirectNames

/-! # The names of the display and of the guide

The display copies the name of an event as it was sent. It shows the title that the guide
has exactly for names that need no conversion, and by accident for names whose bytes
happen to be what they are converted to.
-/

namespace Stream

open Text Utf8

namespace NowNext

/-- The title of an event by its last name. -/
def displayed (name : List UInt8) : List UInt8 :=
  if copyEpgText titleSize name = [] then waiting else copyEpgText titleSize name

/-- A title that is as it should be, where the guide reports the event under a heading. -/
def Alike (started : Bool) (heading title : List UInt8) : Prop :=
  WellFormed title ∧ (started = true → heading = [] ∨ heading = title)

/-- What the display keeps of a name. -/
def seen (name : List UInt8) : List UInt8 := (kept (body name)).take (titleSize - 1)

/-- What the guide makes of a name: it is converted, tidied and cut to the field. -/
def converted (field name : List UInt8) : List UInt8 :=
  cString (if Stale field name then beforeLast (copied titleSize name)
    else trimEnd (· = 0x20) (copied titleSize name))

/-- The bytes of a name are its own conversion. -/
def SpellsItself (started : Bool) (field name : List UInt8) : Prop :=
  WellFormed (seen name) ∧ (started = true → converted field name = [] ∨
    converted field name = if seen name = [] then waiting else seen name)

/-- A name that needs no conversion, for a field that earlier names left: nothing of it is
seen, or it is neat and the field does not take a character back. A name in bytes of another
kind is legible where these happen to be their own conversion. -/
def Legible (started : Bool) (field name : List UInt8) : Prop :=
  (∃ text, Direct name text ∧ WellFormed ((kept text).take (titleSize - 1)) ∧
    (started = true → Blank text ∨
      if Stale field name then beforeLast (headed (titleSize - 1) text) = []
      else Neat (titleSize - 1) text)) ∨
  (¬∃ text, Direct name text) ∧ SpellsItself started field name

/-- A table behind its selector, which is of one byte for UTF-8 and UTF-16. -/
def Selected (picked : DvbTable × Nat) : Prop :=
  0 < picked.2 ∧ (picked.1 = .utf8 ∨ picked.1 = .utf16be → picked.2 = 1)

instance (picked : DvbTable × Nat) : Decidable (Selected picked) :=
  inferInstanceAs (Decidable (_ ∧ _))

theorem selected_ite {holds : Prop} [Decidable holds] {first second : DvbTable × Nat}
    (one : Selected first) (other : Selected second) :
    Selected (if holds then first else second) := by
  split
  · exact one
  · exact other

theorem selected {name : List UInt8} (selector : ¬(name = [] ∨ 0x20 ≤ name.getD 0 0)) :
    Selected (pickTable name) := by
  unfold pickTable
  dsimp only
  rw [if_neg selector]
  repeat' apply selected_ite
  all_goals first | decide | (split_ifs <;> decide)

theorem pickTable_start (name : List UInt8) :
    pickTable name = (.iso6937, 0) ∧ body name = name ∨
      0 < (pickTable name).2 ∧ body name = name.tail ∧
        ((pickTable name).1 = .utf8 ∨ (pickTable name).1 = .utf16be → (pickTable name).2 = 1) := by
  by_cases plain : name = [] ∨ 0x20 ≤ name.getD 0 0
  · refine .inl ⟨if_pos plain, if_neg fun both => ?_⟩
    rcases plain with none | high
    · exact both.1 none
    · rw [UInt8.le_iff_toNat_le] at high
      have low := UInt8.lt_iff_toNat_lt.1 both.2
      omega
  · have low : name ≠ [] ∧ name.getD 0 0 < 0x20 := by
      rw [not_or, UInt8.not_le] at plain
      exact plain
    exact .inr ⟨(selected plain).1, if_pos low, (selected plain).2⟩

theorem kept_units (text : List UInt8) : kept (text.flatMap fun byte => [0, byte]) = kept text := by
  induction text with
  | nil => rfl
  | cons byte text ih =>
      rw [List.flatMap_cons, List.cons_append, List.cons_append, List.nil_append, kept_cons,
        if_pos (by decide), kept_cons, kept_cons, ih]

section Name

variable {name text : List UInt8}

/-- The display keeps the bytes that the guide decodes. -/
theorem kept_body (direct : Direct name text) : kept (body name) = kept text := by
  rcases pickTable_start name with ⟨picked, whole⟩ | ⟨positive, tail, single⟩
  · rw [Direct, picked] at direct
    rw [whole, direct.1]
    rfl
  · rw [tail]
    rcases picked : pickTable name with ⟨table, start⟩
    rw [Direct, picked] at direct
    rw [picked] at positive single
    have selector : name.tail = (name.take start).tail ++ name.drop start := by
      cases name with
      | nil => rw [List.take_nil, List.drop_nil]; rfl
      | cons first rest =>
          rw [show start = start - 1 + 1 by simp only at positive; omega, List.take_succ_cons,
            List.drop_succ_cons, List.tail_cons, List.tail_cons, List.take_append_drop]
    cases table with
    | utf8 =>
        obtain rfl : start = 1 := single (.inl rfl)
        rw [direct.1, List.drop_one]
    | utf16be =>
        obtain rfl : start = 1 := single (.inr rfl)
        rw [← List.drop_one, direct.1, kept_units]
    | iso6937 | latin1 | latin5 | latin9 | cyrillic | greek =>
        rw [selector, kept_append, kept_omitted direct.2.2, List.nil_append, ← direct.1]

/-- What the guide copies. -/
theorem copied_eq (direct : Direct name text) (short : name.length < 512) (size : Nat) :
    copied size name = headed (size - 1) text := by
  have same : spaced (text.map printed) = (shown text).dropWhile (· = 0x20) := by
    rw [spaced, List.map_map]
    rfl
  rw [copied, direct.decoded short, same, headed]

theorem headed_blank {room : Nat} (blank : Blank text) : headed room text = [] := by
  have none : (shown text).dropWhile (· = 0x20) = [] := by
    refine List.dropWhile_eq_nil_iff.2 fun byte mem => ?_
    obtain ⟨ch, inside, rfl⟩ := List.mem_map.1 mem
    exact decide_eq_true (blank ch inside)
  rw [headed, none, List.take_nil]

/-- What is seen begins the heading. -/
theorem headed_ne_nil {room : Nat} (positive : 0 < room) (seen : ¬Blank text) :
    trimEnd (· = 0x20) (headed room text) ≠ [] := by
  have some : (shown text).dropWhile (· = 0x20) ≠ [] := by
    intro nothing
    refine seen fun byte mem => ?_
    have space := List.dropWhile_eq_nil_iff.1 nothing _ (List.mem_map_of_mem mem)
    exact of_decide_eq_true space
  obtain ⟨first, rest, begins⟩ := List.exists_cons_of_ne_nil some
  have letter : first ≠ 0x20 := by
    rintro rfl
    exact headed_head text (by rw [begins]; rfl)
  have front : [first] <+: headed room text := by
    rw [headed, begins, show room = room - 1 + 1 by omega, List.take_succ_cons]
    exact List.prefix_append [first] _
  have kept := prefix_trimEnd front fun space => letter (Option.some.inj space)
  intro nothing
  rw [nothing] at kept
  exact absurd (List.prefix_nil.1 kept) (List.cons_ne_nil _ _)

theorem kept_ne_nil (seen : ¬Blank text) : kept text ≠ [] := by
  intro nothing
  refine seen fun byte mem => ?_
  rw [kept, List.map_eq_nil_iff, List.filter_eq_nil_iff] at nothing
  have control := nothing byte mem
  rw [Bool.not_eq_true', Bool.not_eq_false] at control
  exact shown_omitted control

theorem waiting_formed : WellFormed waiting := wellFormed_ascii (all_bytes (by decide))

variable {field : List UInt8} (sized : field.length = titleSize)

theorem displayed_eq (name : List UInt8) :
    displayed name = if seen name = [] then waiting else seen name := by
  rw [displayed, copyEpgText_eq]
  rfl

theorem displayed_formed : WellFormed (displayed name) ↔ WellFormed (seen name) := by
  rw [displayed_eq]
  split_ifs with nothing
  · rw [nothing]
    exact iff_of_true waiting_formed .nil
  · rfl

include sized in
theorem converted_eq : cString (copyText field name) = converted field name := by
  rw [copyText_field, sized]
  rfl

include sized in
theorem alike_spells (started : Bool) :
    Alike started (cString (copyText field name)) (displayed name) ↔
      SpellsItself started field name := by
  rw [Alike, displayed_formed, converted_eq sized, displayed_eq]
  rfl

section Text

variable (direct : Direct name text) (short : name.length < 512)

include direct sized short in
/-- The heading in the field. -/
theorem converted_direct : converted field name =
    if Stale field name then beforeLast (headed (titleSize - 1) text)
    else trimEnd (· = 0x20) (headed (titleSize - 1) text) := by
  have copy := copied_eq direct short field.length
  rw [sized] at copy
  have nonzero : ∀ byte ∈ copied field.length name, byte ≠ 0 := by
    intro byte mem
    rw [sized, copy] at mem
    obtain ⟨ch, -, rfl⟩ := mem_headed mem
    exact shown_ne_zero ch
  rw [← converted_eq sized, copyText_shown nonzero, sized, copy]

theorem titleSize_pos : 0 < titleSize - 1 := by decide

include direct sized short in
/-- The two titles of characters that stand for themselves. -/
theorem spells_direct_iff (started : Bool) : SpellsItself started field name ↔
    WellFormed ((kept text).take (titleSize - 1)) ∧
      (started = true → Blank text ∨
        if Stale field name then beforeLast (headed (titleSize - 1) text) = []
        else Neat (titleSize - 1) text) := by
  rw [SpellsItself, seen, kept_body direct, converted_direct sized direct short]
  refine and_congr_right fun _ => forall_congr' fun _ => ?_
  by_cases blank : Blank text
  · refine iff_of_true (.inl ?_) (.inl blank)
    rw [headed_blank blank]
    split_ifs <;> rfl
  · have some : (kept text).take (titleSize - 1) ≠ [] := by
      rw [Ne, List.take_eq_nil_iff, not_or]
      exact ⟨titleSize_pos.ne', kept_ne_nil blank⟩
    rw [if_neg some, or_iff_right blank]
    by_cases stale : Stale field name
    · have ends : Ends (headed (titleSize - 1) text) := by
        have last := stale.2
        rwa [sized, copied_eq direct short] at last
      rw [if_pos stale, if_pos stale]
      refine ⟨fun alike => ?_, .inl⟩
      by_contra letters
      exact beforeLast_ne_kept ends letters (alike.resolve_left letters)
    · rw [if_neg stale, if_neg stale, or_iff_right (headed_ne_nil titleSize_pos blank)]
      exact ⟨neat_of_same titleSize_pos, fun neat => neat.same titleSize_pos blank⟩

end Text

include sized in
/-- The display and the guide show the same exactly for a legible name. -/
theorem alike_iff (started : Bool) (short : name.length < 512) :
    Alike started (cString (copyText field name)) (displayed name) ↔
      Legible started field name := by
  rw [alike_spells sized]
  constructor
  · intro spells
    by_cases direct : ∃ text, Direct name text
    · obtain ⟨text, is⟩ := direct
      exact .inl ⟨text, is, (spells_direct_iff sized is short started).1 spells⟩
    · exact .inr ⟨direct, spells⟩
  · rintro (⟨text, is, legible⟩ | ⟨-, spells⟩)
    · exact (spells_direct_iff sized is short started).2 legible
    · exact spells

end Name

end NowNext

end Stream
