import UsbDvbs2.Stream.EventText
import UsbDvbs2.Stream.NowNext
import UsbDvbs2.Text.Direct

/-! # Names that need no conversion

Of the bytes that stand for themselves the display leaves out the control characters,
where the guide makes spaces of them, and keeps the spaces at the ends, which the guide
takes off. The two texts are compared byte by byte.
-/

namespace Stream

open Bytes Text Utf8

namespace NowNext

/-- The bytes between the words become spaces. -/
def blanked (byte : UInt8) : UInt8 :=
  if byte = 0x09 ∨ byte = 0x0d ∨ byte = 0x0a ∨ byte = 0x7c then 0x20 else byte

/-- What the display keeps of a text. -/
def kept (text : List UInt8) : List UInt8 := (text.filter fun byte => !omitted byte).map blanked

/-- What the guide makes of its characters. -/
def shown (text : List UInt8) : List UInt8 := text.map fun byte => unbar (printed byte)

/-- The bytes behind those that are omitted, up to the next of them. -/
def core (text : List UInt8) : List UInt8 :=
  (text.dropWhile omitted).takeWhile fun byte => !omitted byte

def behind (text : List UInt8) : List UInt8 :=
  (text.dropWhile omitted).dropWhile fun byte => !omitted byte

/-- A text of which nothing is seen. -/
def Blank (text : List UInt8) : Prop := ∀ byte ∈ text, unbar (printed byte) = 0x20

/-- A text that is the same for both: no control character between its letters, and
neither at its ends nor at the cut a space. -/
structure Neat (room : Nat) (text : List UInt8) : Prop where
  whole : (∀ byte ∈ behind text, omitted byte = true) ∨ room ≤ (core text).length
  noDelete : ∀ byte ∈ (core text).take room, byte ≠ 0x7f
  noLeading : ((core text).map blanked).head? ≠ some 0x20
  noTrailing : Ends (((core text).map blanked).take room)

/-! ## One byte -/

theorem omitted_iff {byte : UInt8} : omitted byte = true ↔
    byte.toNat < 0x20 ∧ byte ≠ 0x09 ∧ byte ≠ 0x0a ∧ byte ≠ 0x0d := by
  simp only [omitted, Bool.and_eq_true, decide_eq_true_eq, and_assoc]

theorem shown_omitted {byte : UInt8} (control : omitted byte = true) :
    unbar (printed byte) = 0x20 := by
  have low := (omitted_iff.1 control).1
  rw [printed, if_pos (.inl low)]
  rfl

/-- What the two conversions make of every byte. -/
theorem shown_table (byte : UInt8) :
    (omitted byte = false → byte ≠ 0x7f → unbar (printed byte) = blanked byte) ∧
      unbar (printed byte) ≠ 0x7f ∧ unbar (printed byte) ≠ 0 ∧
      (0x20 ≤ blanked byte ↔ omitted byte = false) := by
  revert byte
  apply forall_byte
  decide +kernel

theorem shown_kept {byte : UInt8} (visible : omitted byte = false) (written : byte ≠ 0x7f) :
    unbar (printed byte) = blanked byte :=
  (shown_table byte).1 visible written

theorem shown_ne_delete (byte : UInt8) : unbar (printed byte) ≠ 0x7f := (shown_table byte).2.1

theorem shown_ne_zero (byte : UInt8) : unbar (printed byte) ≠ 0 := (shown_table byte).2.2.1

theorem blanked_delete : blanked 0x7f = 0x7f := by decide

/-- The byte the loop writes, unless it is omitted. -/
theorem le_blanked_iff (byte : UInt8) : 0x20 ≤ blanked byte ↔ omitted byte = false :=
  (shown_table byte).2.2.2

/-! ## The copy -/

theorem kept_nil : kept [] = [] := rfl

theorem kept_cons (byte : UInt8) (text : List UInt8) :
    kept (byte :: text) = if omitted byte = true then kept text else blanked byte :: kept text := by
  unfold kept
  cases control : omitted byte with
  | true => rw [List.filter_cons_of_neg (by rw [control]; decide), if_pos rfl]
  | false =>
      rw [List.filter_cons_of_pos (by rw [control]; rfl), List.map_cons, if_neg (by decide)]

theorem kept_append (front back : List UInt8) : kept (front ++ back) = kept front ++ kept back := by
  rw [kept, List.filter_append, List.map_append]
  rfl

theorem kept_omitted {text : List UInt8} (control : ∀ byte ∈ text, omitted byte = true) :
    kept text = [] := by
  rw [kept, List.filter_eq_nil_iff.2 fun byte mem => by rw [control byte mem]; decide]
  rfl

theorem kept_visible {text : List UInt8} (visible : ∀ byte ∈ text, omitted byte = false) :
    kept text = text.map blanked := by
  rw [kept, List.filter_eq_self.2 fun byte mem => by rw [visible byte mem]; rfl]

theorem copyBytes_eq {size : Nat} {text out : List UInt8} :
    copyBytes size text out = out ++ (kept text).take (size - 1 - out.length) := by
  induction text generalizing out with
  | nil =>
      rw [copyBytes, kept_nil, List.take_nil, List.append_nil]
  | cons byte text ih =>
      rw [copyBytes, kept_cons]
      by_cases room : out.length + 1 < size
      · rw [if_pos room]
        change copyBytes size text (if 0x20 ≤ blanked byte then out ++ [blanked byte] else out) = _
        cases control : omitted byte with
        | true =>
            have left : ¬0x20 ≤ blanked byte := fun written =>
              nomatch control.symm.trans ((le_blanked_iff byte).1 written)
            rw [if_neg left, if_pos rfl, ih]
        | false =>
            have next : size - 1 - out.length = size - 1 - (out ++ [blanked byte]).length + 1 := by
              rw [List.length_append, List.length_singleton]
              omega
            rw [if_pos ((le_blanked_iff byte).2 control), if_neg (by decide), ih, next,
              List.take_succ_cons, List.append_assoc]
            rfl
      · rw [if_neg room, show size - 1 - out.length = 0 by omega, List.take_zero, List.append_nil]

/-- A name without its selector byte, as far as the display knows of it. -/
def body (name : List UInt8) : List UInt8 :=
  if name ≠ [] ∧ name.getD 0 0 < 0x20 then name.tail else name

theorem copyEpgText_eq (size : Nat) (name : List UInt8) :
    copyEpgText size name = (kept (body name)).take (size - 1) := by
  rw [copyEpgText, copyBytes_eq]
  rfl

/-! ## The two texts of the same characters -/

theorem shown_append (front back : List UInt8) :
    shown (front ++ back) = shown front ++ shown back := List.map_append

theorem core_visible {text : List UInt8} {byte : UInt8} (mem : byte ∈ core text) :
    omitted byte = false := by
  have visible := List.mem_takeWhile_imp mem
  rwa [Bool.not_eq_true'] at visible

theorem core_append_behind (text : List UInt8) :
    text = text.takeWhile omitted ++ (core text ++ behind text) := by
  rw [core, behind, List.takeWhile_append_dropWhile, List.takeWhile_append_dropWhile]

theorem kept_eq (text : List UInt8) :
    kept text = (core text).map blanked ++ kept (behind text) := by
  conv_lhs => rw [core_append_behind text]
  rw [kept_append, kept_append, kept_omitted fun byte mem => List.mem_takeWhile_imp mem,
    kept_visible fun byte mem => core_visible mem, List.nil_append]

/-- What is omitted in front is shown as space, which is taken off. -/
theorem dropWhile_shown (text : List UInt8) : (shown text).dropWhile (· = 0x20) =
    (shown (core text) ++ shown (behind text)).dropWhile (· = 0x20) := by
  conv_lhs => rw [core_append_behind text]
  rw [shown_append, shown_append]
  refine List.dropWhile_append_of_pos fun byte mem => ?_
  obtain ⟨control, inside, rfl⟩ := List.mem_map.1 mem
  exact decide_eq_true (shown_omitted (List.mem_takeWhile_imp inside))

theorem behind_cons {text rest : List UInt8} {byte : UInt8} (first : behind text = byte :: rest) :
    omitted byte = true := by
  have stops := List.head?_dropWhile_not (fun byte => !omitted byte) (text.dropWhile omitted)
  rw [← behind, first] at stops
  simpa using stops

/-- Nothing is behind the core unless it begins. -/
theorem core_ne_nil {text : List UInt8} (more : behind text ≠ []) : core text ≠ [] := by
  intro nothing
  obtain ⟨byte, rest, first⟩ := List.exists_cons_of_ne_nil more
  have control := behind_cons first
  have whole : text.dropWhile omitted = byte :: rest := by
    rw [← List.takeWhile_append_dropWhile (p := fun byte => !omitted byte)
      (l := text.dropWhile omitted)]
    change core text ++ behind text = _
    rw [nothing, first, List.nil_append]
  have stops := List.head?_dropWhile_not omitted text
  rw [whole] at stops
  simp [control] at stops

/-- A text that keeps up with another one in front of which a space stands is all spaces. -/
theorem kept_spaces {rest : List UInt8} {count spaces : Nat}
    (begins : (kept rest).take count <+: List.replicate (spaces + 1) 0x20 ++ shown rest) :
    ∀ byte ∈ (kept rest).take count, byte = 0x20 := by
  induction rest generalizing count spaces with
  | nil =>
      rw [kept_nil, List.take_nil]
      exact fun byte mem => nomatch mem
  | cons byte rest ih =>
      rw [kept_cons] at begins ⊢
      cases control : omitted byte with
      | true =>
          rw [control, if_pos rfl] at begins
          rw [if_pos rfl]
          refine @ih count (spaces + 1) ?_
          rw [List.replicate_succ', List.append_assoc]
          rwa [shown, List.map_cons, shown_omitted control] at begins
      | false =>
          rw [control, if_neg (by decide)] at begins
          rw [if_neg (by decide)]
          cases count with
          | zero => exact fun byte mem => nomatch mem
          | succ count =>
              rw [List.take_succ_cons, List.replicate_succ, List.cons_append,
                List.cons_prefix_cons] at begins
              obtain ⟨space, begins⟩ := begins
              have written : byte ≠ 0x7f := by
                rintro rfl
                exact absurd space (by decide)
              rw [List.take_succ_cons, List.forall_mem_cons]
              refine ⟨space, @ih count spaces ?_⟩
              rw [List.replicate_succ', List.append_assoc]
              rwa [shown, List.map_cons, shown_kept control written, space] at begins

section Room

variable {room : Nat} {text : List UInt8}

/-- The heading that the guide makes of the characters, before its end is trimmed. -/
def headed (room : Nat) (text : List UInt8) : List UInt8 :=
  ((shown text).dropWhile (· = 0x20)).take room

theorem headed_head (text : List UInt8) :
    ((shown text).dropWhile (· = 0x20)).head? ≠ some 0x20 := by
  intro space
  have first := List.head?_dropWhile_not (fun ch : UInt8 => decide (ch = 0x20)) (shown text)
  rw [space] at first
  exact nomatch first

theorem mem_headed {byte : UInt8} (mem : byte ∈ headed room text) :
    ∃ ch ∈ text, unbar (printed ch) = byte :=
  List.mem_map.1 ((List.dropWhile_sublist _).subset (List.mem_of_mem_take mem))

theorem shown_core {front : List UInt8} (visible : ∀ byte ∈ front, omitted byte = false)
    (written : ∀ byte ∈ front, byte ≠ 0x7f) : shown front = front.map blanked :=
  List.map_congr_left fun byte mem => shown_kept (visible byte mem) (written byte mem)

/-- Where the core begins with a letter, so does the heading. -/
theorem headed_core (positive : 0 < room) (seen : core text ≠ [])
    (written : ∀ byte ∈ (core text).take room, byte ≠ 0x7f)
    (letter : ((core text).map blanked).head? ≠ some 0x20) :
    (shown text).dropWhile (· = 0x20) = shown (core text) ++ shown (behind text) := by
  obtain ⟨first, rest, begins⟩ := List.exists_cons_of_ne_nil seen
  have inside : first ∈ (core text).take room := by
    rw [begins, show room = room - 1 + 1 by omega, List.take_succ_cons]
    exact List.mem_cons_self ..
  have visible : omitted first = false := core_visible (List.mem_of_mem_take inside)
  rw [dropWhile_shown]
  rw [begins] at letter ⊢
  refine List.dropWhile_cons_of_neg fun space => letter ?_
  rw [List.map_cons, List.head?_cons, ← shown_kept visible (written first inside)]
  exact congrArg Option.some (of_decide_eq_true space)

theorem blank_of_nil (nothing : core text = []) : Blank text := by
  have last : behind text = [] := by
    by_contra more
    exact core_ne_nil more nothing
  intro byte mem
  rw [core_append_behind text, nothing, last, List.append_nil, List.append_nil] at mem
  exact shown_omitted (List.mem_takeWhile_imp mem)

theorem trimEnd_spaces {front spaces : List UInt8} (all : ∀ byte ∈ spaces, byte = 0x20) :
    trimEnd (· = 0x20) (front ++ spaces) = trimEnd (· = 0x20) front := by
  induction spaces using List.reverseRecOn with
  | nil => rw [List.append_nil]
  | append_singleton spaces last ih =>
      have space : last = 0x20 := all last (List.mem_append_right _ (List.mem_singleton.2 rfl))
      rw [space, ← List.append_assoc, trimEnd_space_concat,
        ih fun byte mem => all byte (List.mem_append_left _ mem)]

/-- A neat text is the same for both. -/
theorem Neat.same (positive : 0 < room) (neat : Neat room text) (seen : ¬Blank text) :
    trimEnd (· = 0x20) (headed room text) = (kept text).take room := by
  have begins := headed_core positive (fun nothing => seen (blank_of_nil nothing)) neat.noDelete
    neat.noLeading
  have front : (shown (core text)).take room = ((core text).map blanked).take room := by
    have taken := shown_core (fun byte mem => core_visible (List.mem_of_mem_take mem)) neat.noDelete
    rwa [shown, List.map_take, List.map_take] at taken
  have length : (shown (core text)).length = (core text).length := List.length_map _
  have length' : ((core text).map blanked).length = (core text).length := List.length_map _
  rw [headed, begins, kept_eq]
  rcases neat.whole with control | cut
  · have spaces : ∀ byte ∈ (shown (behind text)).take (room - (shown (core text)).length),
        byte = 0x20 := by
      intro byte mem
      obtain ⟨ch, inside, rfl⟩ := List.mem_map.1 (List.mem_of_mem_take mem)
      exact shown_omitted (control ch inside)
    rw [kept_omitted control, List.append_nil, List.take_append, trimEnd_spaces spaces, front]
    exact trimEnd_self neat.noTrailing
  · rw [List.take_append_of_le_length (by omega), List.take_append_of_le_length (by omega), front]
    exact trimEnd_self neat.noTrailing

section Same

variable (positive : 0 < room)
  (same : trimEnd (· = 0x20) (headed room text) = (kept text).take room)

include same in
/-- What the display keeps begins the heading. -/
theorem kept_begins : (kept text).take room <+: (shown text).dropWhile (· = 0x20) := by
  rw [← same]
  exact (trimEnd_begins _ _).trans (List.take_prefix _ _)

include same in
theorem noDelete_of_same : ∀ byte ∈ (core text).take room, byte ≠ 0x7f := by
  rintro byte mem rfl
  have inside : blanked 0x7f ∈ (kept text).take room := by
    rw [kept_eq, List.take_append]
    refine List.mem_append_left _ ?_
    rw [← List.map_take]
    exact List.mem_map_of_mem mem
  obtain ⟨ch, -, delete⟩ :=
    List.mem_map.1 ((List.dropWhile_sublist _).subset ((kept_begins same).subset inside))
  exact shown_ne_delete ch (delete.trans blanked_delete)

include positive same in
theorem noLeading_of_same : ((core text).map blanked).head? ≠ some 0x20 := by
  intro space
  obtain ⟨rest, begins⟩ := List.head?_eq_some_iff.1 space
  obtain ⟨more, whole⟩ := kept_begins same
  refine headed_head text ?_
  rw [← whole, kept_eq, begins, show room = room - 1 + 1 by omega]
  rfl

include positive same in
theorem whole_of_same :
    (∀ byte ∈ behind text, omitted byte = true) ∨ room ≤ (core text).length := by
  rw [or_iff_not_imp_right, not_le]
  intro short
  by_contra visible
  push Not at visible
  obtain ⟨letter, inside, written⟩ := visible
  obtain ⟨first, rest, begins⟩ := List.exists_cons_of_ne_nil (List.ne_nil_of_mem inside)
  have control := behind_cons begins
  have noDelete := noDelete_of_same same
  have front := headed_core positive (core_ne_nil (List.ne_nil_of_mem inside)) noDelete
    (noLeading_of_same positive same)
  have starts := kept_begins same
  have length : ((core text).map blanked).length = (core text).length := List.length_map _
  rw [List.take_of_length_le short.le] at noDelete
  rw [front, shown_core (fun byte mem => core_visible mem) noDelete, kept_eq, List.take_append,
    List.take_of_length_le (by omega), List.prefix_append_right_inj, begins, kept_cons,
    if_pos control, shown, List.map_cons, shown_omitted control] at starts
  have spaces := @kept_spaces rest _ 0 starts
  have later : letter ∈ rest := by
    rw [begins] at inside
    rcases List.mem_cons.1 inside with rfl | later
    · exact absurd control written
    · exact later
  have more : blanked letter ∈ kept rest :=
    List.mem_map_of_mem (List.mem_filter.2 ⟨later, by simpa using written⟩)
  have positive' : 0 < (kept rest).length := List.length_pos_of_mem more
  -- The text would end in a space, which the guide takes off.
  have ends := trimEnd_ends (headed room text)
  rw [same, kept_eq, begins, kept_cons, if_pos control, List.take_append,
    List.take_of_length_le (by omega)] at ends
  generalize hspaces : (kept rest).take (room - ((core text).map blanked).length) = last
    at spaces ends
  have size : 0 < last.length := by
    rw [← hspaces, List.length_take]
    omega
  obtain ⟨final, final_eq⟩ :=
    Option.isSome_iff_exists.1 (List.getLast?_isSome.2 (List.ne_nil_of_length_pos size))
  refine ends ?_
  rw [List.getLast?_append, final_eq, Option.some_or, spaces final (List.mem_of_getLast? final_eq)]

end Same

/-- And only a neat one. -/
theorem neat_of_same (positive : 0 < room)
    (same : trimEnd (· = 0x20) (headed room text) = (kept text).take room) : Neat room text where
  whole := whole_of_same positive same
  noDelete := noDelete_of_same same
  noLeading := noLeading_of_same positive same
  noTrailing := by
    have ends := trimEnd_ends (headed room text)
    have length : ((core text).map blanked).length = (core text).length := List.length_map _
    rw [same, kept_eq] at ends
    rcases whole_of_same positive same with control | cut
    · rwa [kept_omitted control, List.append_nil] at ends
    · rwa [List.take_append_of_le_length (by omega)] at ends

/-! ## A heading without its last character -/

/-- The letters of a text. -/
def letters (text : List UInt8) : Nat := text.countP (· ≠ 0x20)

theorem letters_cons (byte : UInt8) (text : List UInt8) :
    letters (byte :: text) = letters text + if byte ≠ 0x20 then 1 else 0 := by
  simp only [letters, List.countP_cons, decide_eq_true_eq]

/-- The display loses no letter. -/
theorem letters_shown_le (text : List UInt8) : letters (shown text) ≤ letters (kept text) := by
  induction text with
  | nil => exact Nat.le_refl _
  | cons byte text ih =>
      have first : letters (shown (byte :: text)) =
          letters (shown text) + if unbar (printed byte) ≠ 0x20 then 1 else 0 := letters_cons _ _
      rw [kept_cons, first]
      cases control : omitted byte with
      | true =>
          rw [shown_omitted control, if_neg (by decide), if_pos rfl]
          exact ih
      | false =>
          rw [if_neg (show ¬false = true by decide), letters_cons]
          by_cases delete : byte = 0x7f
          · rw [delete]
            exact Nat.add_le_add ih (by decide)
          · rw [shown_kept control delete]
            exact Nat.add_le_add_right ih _

theorem length_beforeLast {text : List UInt8} (seen : beforeLast text ≠ []) :
    (beforeLast text).length < text.length := by
  have front := (trimEnd_begins isTail text).length_le
  have some : 0 < (trimEnd isTail text).length := by
    refine List.length_pos_of_ne_nil fun nothing => seen ?_
    rw [beforeLast, nothing]
    rfl
  rw [beforeLast, List.length_dropLast]
  omega

/-- So it is no heading that lost its last one. -/
theorem beforeLast_ne_kept (ends : Ends (headed room text))
    (seen : beforeLast (headed room text) ≠ []) :
    beforeLast (headed room text) ≠ (kept text).take room := by
  intro same
  have shorter := length_beforeLast seen
  have most : (headed room text).length ≤ room := List.length_take_le _ _
  have whole : (kept text).take room = kept text := by
    have length := congrArg List.length same
    rw [List.length_take] at length
    exact List.take_of_length_le (by omega)
  obtain ⟨lost, parts⟩ := beforeLast_begins (headed room text)
  have some : lost ≠ [] := by
    rintro rfl
    rw [List.append_nil] at parts
    rw [parts] at shorter
    exact Nat.lt_irrefl _ shorter
  have counted : letters (headed room text) = letters (kept text) + letters lost := by
    rw [letters, ← parts, List.countP_append, same, whole]
    rfl
  have fewer : letters (headed room text) ≤ letters (shown text) :=
    ((List.take_sublist _ _).trans (List.dropWhile_sublist _)).countP_le
  have kept_more := letters_shown_le text
  obtain ⟨final, final_eq⟩ := Option.isSome_iff_exists.1 (List.getLast?_isSome.2 some)
  have letter : final ≠ 0x20 := by
    rintro rfl
    rw [Ends, ← parts, List.getLast?_append, final_eq] at ends
    exact ends rfl
  have one : 0 < letters lost :=
    List.countP_pos_iff.2 ⟨final, List.mem_of_getLast? final_eq, decide_eq_true letter⟩
  omega

end Room

end NowNext

end Stream
