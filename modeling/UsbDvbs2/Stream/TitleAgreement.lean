import UsbDvbs2.Stream.EventRoundTrip
import UsbDvbs2.Stream.NameAgreement

/-! # The titles of the display and of the guide

Both read the name of an event from the last of its short event descriptors. The titles
that a section leaves in the display are those of the guide exactly if these names are
legible.
-/

namespace Stream

open Bytes Mpeg Text Utf8

namespace NowNext

/-! ## One event -/

section Event

variable (sec : List UInt8) (pos : Nat)

/-- The names among the descriptors of an event. -/
def names : List (List UInt8) :=
  (descriptorSlices sec (pos + 12) (pos + 12 + be12 sec (pos + 10))).filterMap descriptorName

/-- What the names leave in the field for the heading. -/
def field (names : List (List UInt8)) : List UInt8 := names.foldl copyText EventTexts.cleared.title

theorem length_copyText (target source : List UInt8) :
    (copyText target source).length = target.length := by
  unfold copyText
  split_ifs with none
  · rfl
  · have room : 0 < target.length := List.length_pos_iff.2 none
    simp only [List.length_set, List.length_append, List.length_drop, List.length_take]
    omega

theorem length_field (names : List (List UInt8)) : (field names).length = titleSize := by
  unfold field
  induction names using List.reverseRecOn with
  | nil => exact List.length_replicate
  | append_singleton names name ih => rw [List.foldl_concat, length_copyText, ih]

theorem descriptorName_short {raw name : List UInt8} (read : descriptorName raw = some name) :
    name.length < 512 := by
  unfold descriptorName at read
  dsimp only at read
  split_ifs at read
  obtain rfl := Option.some.inj read
  have small := octet_lt (raw.drop 2) 3
  have size : (slice (raw.drop 2) 4 (octet (raw.drop 2) 3)).length ≤ octet (raw.drop 2) 3 :=
    List.length_take_le _ _
  omega

/-- Both read the same names. -/
theorem readShortEvent_title (texts : EventTexts) (raw : List UInt8) :
    (readShortEvent texts raw).title =
      match descriptorName raw with
      | some name => copyText texts.title name
      | none => texts.title := by
  unfold readShortEvent descriptorName
  dsimp only
  generalize raw.drop 2 = data
  by_cases named : octet raw 0 = 0x4d ∧ 5 ≤ data.length
  · rw [if_pos named]
    by_cases fits : 4 + octet data 3 ≤ data.length
    · rw [if_pos (show octet raw 0 = 0x4d ∧ _ from ⟨named.1, named.2, fits⟩)]
      split_ifs <;> rfl
    · rw [if_neg (show ¬4 + octet data 3 + 1 ≤ data.length by omega), if_neg fits,
        if_neg fun all => fits all.2.2]
  · rw [if_neg named, if_neg fun all => named ⟨all.1, all.2.1⟩]

theorem foldl_readShortEvent_title (slices : List (List UInt8)) (texts : EventTexts) :
    (slices.foldl readShortEvent texts).title =
      (slices.filterMap descriptorName).foldl copyText texts.title := by
  induction slices generalizing texts with
  | nil => rfl
  | cons raw slices ih =>
      have here := readShortEvent_title texts raw
      rw [List.foldl_cons, ih]
      cases read : descriptorName raw with
      | none =>
          rw [read] at here
          rw [List.filterMap_cons_none read, here]
      | some name =>
          rw [read] at here
          rw [List.filterMap_cons_some read, List.foldl_cons, here]

theorem foldl_readTitle (slices : List (List UInt8)) (title : List UInt8) :
    slices.foldl readTitle title =
      match (slices.filterMap descriptorName).getLast? with
      | some name => copyEpgText titleSize name
      | none => title := by
  induction slices using List.reverseRecOn with
  | nil => rfl
  | append_singleton slices raw ih =>
      rw [List.foldl_concat, ih, List.filterMap_append]
      cases read : descriptorName raw with
      | none =>
          rw [List.filterMap_cons_none read, List.filterMap_nil, List.append_nil, readTitle, read]
      | some name =>
          rw [List.filterMap_cons_some read, List.filterMap_nil, List.getLast?_concat, readTitle,
            read]

/-- The heading under which the guide reports the event. -/
theorem heading_eq : (eventTexts sec pos).title = field (names sec pos) :=
  foldl_readShortEvent_title _ _

theorem title_eq : title sec pos =
    match (names sec pos).getLast? with
    | some name => displayed name
    | none => waiting := by
  have read := foldl_readTitle
    (descriptorSlices sec (pos + 12) (pos + 12 + be12 sec (pos + 10))) []
  change _ = match (names sec pos).getLast? with
    | some name => copyEpgText titleSize name
    | none => [] at read
  rw [title, read]
  cases (names sec pos).getLast? with
  | none => rfl
  | some name => rfl

/-- A title as the display and the guide should have it. -/
def Agrees (title : List UInt8) : Prop :=
  WellFormed title ∧ ∀ event, readEvent sec pos = some event → event.title = title

/-- The last name of the event is legible. -/
def LegibleEvent : Prop :=
  ∀ name ∈ (names sec pos).getLast?,
    Legible (eventStartUtc sec (pos + 2)).isSome (field (names sec pos).dropLast) name

variable {sec pos}

/-- The guide reports an event that has a start and a heading. -/
theorem agrees_iff (title : List UInt8) : Agrees sec pos title ↔
    Alike (eventStartUtc sec (pos + 2)).isSome (cString (eventTexts sec pos).title) title := by
  refine and_congr_right fun _ => ?_
  unfold readEvent
  cases eventStartUtc sec (pos + 2) with
  | none => exact iff_of_true (fun event read => by contradiction) fun started => by contradiction
  | some startUtc =>
      dsimp only
      by_cases untitled : (eventTexts sec pos).title.getD 0 0 = 0
      · have none : cString (eventTexts sec pos).title = [] := by
          by_contra seen
          exact getD_of_cString seen untitled
        rw [if_pos untitled]
        exact iff_of_true (fun event read => by contradiction) fun _ => .inl none
      · have seen : cString (eventTexts sec pos).title ≠ [] := by
          intro none
          cases texts : (eventTexts sec pos).title with
          | nil =>
              rw [texts] at untitled
              exact untitled rfl
          | cons first rest =>
              rw [texts] at none untitled
              have letter : first ≠ 0 := untitled
              rw [cString, List.takeWhile_cons_of_pos (by simpa using letter)] at none
              contradiction
        rw [if_neg untitled]
        constructor
        · exact fun same _ => .inr (same _ rfl)
        · intro same event read
          obtain rfl := Option.some.inj read
          exact (same rfl).resolve_left seen

/-- The guide reports what it reads of the events, where there is room for them. -/
theorem epgParseSection_reports {service : UInt16} {event : EpgEvent} {maxEvents : Nat}
    (watched : isOf service sec = true) (entry : pos ∈ eventEntries sec)
    (read : readEvent sec pos = some event) (room : (eventEntries sec).length ≤ maxEvents) :
    event ∈ epgParseSection sec maxEvents := by
  simp only [isOf, Bool.and_eq_true, beq_iff_eq, decide_eq_true_eq] at watched
  obtain ⟨⟨⟨size, table⟩, -⟩, -⟩ := watched
  have guide : isEventSection sec = true := by
    rw [isEventSection, table, Bool.and_eq_true, decide_eq_true_eq]
    exact ⟨size, rfl⟩
  have fits : ((eventEntries sec).filterMap (readEvent sec)).length ≤ maxEvents :=
    (List.length_filterMap_le _ _).trans room
  rw [epgParseSection, if_pos guide, List.take_of_length_le fits]
  exact List.mem_filterMap.2 ⟨pos, entry, read⟩

theorem agrees_title_iff : Agrees sec pos (title sec pos) ↔ LegibleEvent sec pos := by
  rw [agrees_iff, heading_eq, title_eq, LegibleEvent]
  cases last : (names sec pos).getLast? with
  | none =>
      have none : names sec pos = [] := List.getLast?_eq_none_iff.1 last
      rw [none]
      refine iff_of_true ⟨waiting_formed, fun _ => .inl ?_⟩ fun name mem => nomatch mem
      decide
  | some name =>
      obtain ⟨earlier, same⟩ := List.getLast?_eq_some_iff.1 last
      have mem : name ∈ names sec pos := List.mem_of_getLast? last
      obtain ⟨raw, -, read⟩ := List.mem_filterMap.1 mem
      have left : field (names sec pos) = copyText (field (names sec pos).dropLast) name := by
        rw [same, List.dropLast_concat, field, List.foldl_concat]
        rfl
      rw [left]
      refine (alike_iff (length_field _) _ (descriptorName_short read)).trans ?_
      exact ⟨fun legible other is => Option.some.inj is ▸ legible, fun legible => legible name rfl⟩

end Event

/-! ## One section -/

/-- The events that were chosen are events of the section, under their titles. -/
structure Choice.Named (sec : List UInt8) (choice : Choice) : Prop where
  now : ∀ pos ∈ choice.haveNow, pos ∈ eventEntries sec ∧ choice.nowTitle = title sec pos
  next : ∀ pos ∈ choice.haveNext, pos ∈ eventEntries sec ∧ choice.nextTitle = title sec pos

namespace Choice.Named

variable {sec : List UInt8} {choice : Choice}

theorem none : Choice.none.Named sec := ⟨nofun, nofun⟩

theorem event (named : choice.Named sec) (clock : UInt64) {pos : Nat}
    (entry : pos ∈ eventEntries sec) : (choice.event clock sec pos).Named sec := by
  have here : ∀ other ∈ Option.some pos,
      other ∈ eventEntries sec ∧ title sec pos = title sec other := by
    rintro other ⟨⟩
    exact ⟨entry, rfl⟩
  unfold Choice.event
  split_ifs with present
  · exact ⟨here, named.next⟩
  · split
    · split_ifs with following
      · exact ⟨named.now, here⟩
      · exact named
    · exact named

theorem choose (clock : UInt64) (sec : List UInt8) : (NowNext.choose clock sec).Named sec := by
  have run : ∀ (entries : List Nat) (choice : Choice), (∀ pos ∈ entries, pos ∈ eventEntries sec) →
      choice.Named sec → (entries.foldl (Choice.event clock sec) choice).Named sec := by
    intro entries
    induction entries with
    | nil => exact fun choice _ named => named
    | cons pos entries ih =>
        intro choice inside named
        rw [List.forall_mem_cons] at inside
        exact ih _ inside.2 (named.event clock inside.1)
  exact run _ _ (fun pos entry => entry) none

end Choice.Named

section Section

variable (service serviceThen : UInt16) (clock : UInt64) (sec : List UInt8) (display : Display)

/-- The event whose title becomes the present one. -/
def toldNow : Option Nat :=
  if (isOf service sec = true ∧ be16 sec 3 = serviceThen) ∧ octet sec 6 = 0 then
    (choose clock sec).haveNow
  else none

/-- The event whose title becomes the following one. -/
def toldNext : Option Nat :=
  if isOf service sec = true ∧ be16 sec 3 = serviceThen then (choose clock sec).haveNext else none

variable {service serviceThen clock sec}

theorem parseEitSection_now {pos : Nat} (told : pos ∈ toldNow service serviceThen clock sec) :
    pos ∈ eventEntries sec ∧
      (parseEitSection service serviceThen clock sec display).epgNow = title sec pos := by
  rw [toldNow, Option.mem_def, Option.ite_none_right_eq_some] at told
  obtain ⟨⟨watched, present⟩, chosen⟩ := told
  have some : (choose clock sec).haveNow.isSome = true := by
    rw [chosen]
    rfl
  obtain ⟨entry, named⟩ := (Choice.Named.choose clock sec).now pos chosen
  refine ⟨entry, named ▸ ?_⟩
  rw [parseEitSection, if_pos watched]
  simp only [if_pos (show octet sec 6 = 0 ∧ (choose clock sec).haveNow.isSome = true from
    ⟨present, some⟩)]
  split_ifs <;> rfl

theorem parseEitSection_next {pos : Nat} (told : pos ∈ toldNext service serviceThen clock sec) :
    pos ∈ eventEntries sec ∧
      (parseEitSection service serviceThen clock sec display).epgNext = title sec pos := by
  rw [toldNext, Option.mem_def, Option.ite_none_right_eq_some] at told
  obtain ⟨watched, chosen⟩ := told
  have some : (choose clock sec).haveNext.isSome = true := by
    rw [chosen]
    rfl
  obtain ⟨entry, named⟩ := (Choice.Named.choose clock sec).next pos chosen
  refine ⟨entry, named ▸ ?_⟩
  rw [parseEitSection, if_pos watched, if_pos some]

/-- Without an event the display stays. -/
theorem parseEitSection_keepsNow (untold : toldNow service serviceThen clock sec = none) :
    (parseEitSection service serviceThen clock sec display).epgNow = display.epgNow := by
  unfold parseEitSection
  split_ifs with watched
  · have absent : ¬(octet sec 6 = 0 ∧ (choose clock sec).haveNow.isSome = true) := by
      rintro ⟨present, some⟩
      rw [toldNow, if_pos ⟨watched, present⟩] at untold
      rw [untold] at some
      exact nomatch some
    simp only [if_neg absent]
    split_ifs <;> rfl
  · rfl

theorem parseEitSection_keepsNext (untold : toldNext service serviceThen clock sec = none) :
    (parseEitSection service serviceThen clock sec display).epgNext = display.epgNext := by
  unfold parseEitSection
  split_ifs with watched
  · have absent : ¬(choose clock sec).haveNext.isSome = true := by
      rw [toldNext, if_pos watched] at untold
      rw [untold]
      exact fun some => nomatch some
    simp only [if_neg absent]
    split_ifs <;> rfl
  · rfl

variable (service serviceThen clock sec)

/-- The titles that a section leaves in the display are those of the guide. -/
def TitlesAgree : Prop :=
  (∀ pos ∈ toldNow service serviceThen clock sec,
    Agrees sec pos (parseEitSection service serviceThen clock sec display).epgNow) ∧
  ∀ pos ∈ toldNext service serviceThen clock sec,
    Agrees sec pos (parseEitSection service serviceThen clock sec display).epgNext

theorem agrees_now {pos : Nat} (told : pos ∈ toldNow service serviceThen clock sec) :
    Agrees sec pos (parseEitSection service serviceThen clock sec display).epgNow ↔
      LegibleEvent sec pos := by
  rw [(parseEitSection_now display told).2]
  exact agrees_title_iff

theorem agrees_next {pos : Nat} (told : pos ∈ toldNext service serviceThen clock sec) :
    Agrees sec pos (parseEitSection service serviceThen clock sec display).epgNext ↔
      LegibleEvent sec pos := by
  rw [(parseEitSection_next display told).2]
  exact agrees_title_iff

end Section

/-- A section with one event that is running, for service 1. -/
def namedSection (name : List UInt8) : List UInt8 :=
  [0x4e, 0xf0, UInt8.ofNat (34 + name.length), 0, 1, 0xc1, 0, 0, 0, 1, 0, 1, 0, 0x4e] ++
    [0, 1, 0xec, 0x7f, 0x20, 0, 0, 1, 0x30, 0, 0x80, UInt8.ofNat (7 + name.length)] ++
    [0x4d, UInt8.ofNat (5 + name.length), 0x74, 0x75, 0x72, UInt8.ofNat name.length] ++ name ++
    [0, 0, 0, 0, 0]

def emptyDisplay : Display := ⟨[], [], [], [], []⟩

theorem neat_plain {name : List UInt8} (plain : PlainText name) {room : Nat}
    (short : name.length ≤ room) : Neat room name := by
  have visible : ∀ byte ∈ name, omitted byte = false := by
    intro byte mem
    have printable := plain.printable byte mem
    rw [Bool.eq_false_iff, Ne, omitted_iff]
    omega
  have front : name.dropWhile omitted = name := by
    refine List.dropWhile_eq_self_iff.2 fun nonempty => ?_
    rw [visible _ (List.getElem_mem nonempty)]
    exact Bool.false_ne_true
  have whole : core name = name := by
    rw [core, front]
    exact List.takeWhile_eq_self_iff.2 fun byte mem => by rw [visible byte mem]; rfl
  have nothing : behind name = [] := by
    rw [behind, front]
    exact List.dropWhile_eq_nil_iff.2 fun byte mem => by rw [visible byte mem]; rfl
  have same : name.map blanked = name := by
    refine (List.map_congr_left fun byte mem => ?_).trans (List.map_id name)
    have printable := plain.printable byte mem
    refine if_neg ?_
    rintro (rfl | rfl | rfl | rfl)
    · exact absurd printable.1 (by decide)
    · exact absurd printable.1 (by decide)
    · exact absurd printable.1 (by decide)
    · exact plain.noBar _ mem rfl
  refine ⟨.inl fun byte mem => ?_, fun byte mem => ?_, ?_, ?_⟩
  · rw [nothing] at mem
    contradiction
  · rintro rfl
    rw [whole] at mem
    exact absurd (plain.printable _ (List.mem_of_mem_take mem)).2 (by decide)
  · rw [whole, same]
    exact plain.noLeading
  · rw [whole, same, List.take_of_length_le short]
    exact plain.noTrailing

/-- A plain name that fits is legible in a field that was cleared. -/
theorem legible_plain {name : List UInt8} (plain : PlainText name)
    (fits : name.length < titleSize) (started : Bool) :
    Legible started EventTexts.cleared.title name := by
  have short : name.length ≤ titleSize - 1 := Nat.le_sub_one_of_lt fits
  have ascii : ∀ byte ∈ kept name, byte.toNat < 0x80 := by
    intro byte mem
    obtain ⟨ch, inside, rfl⟩ := List.mem_map.1 mem
    have printable := plain.printable ch (List.mem_of_mem_filter inside)
    unfold blanked
    split_ifs
    · decide
    · omega
  have fresh : ¬Stale EventTexts.cleared.title name := by
    rintro ⟨continues, -⟩
    rw [EventTexts.cleared, List.getD_eq_getElem?_getD, List.getElem?_replicate] at continues
    split_ifs at continues
    · exact absurd continues (by decide)
    · exact absurd continues (by decide)
  refine .inl ⟨name, plain.direct, wellFormed_ascii fun byte mem => ?_, fun _ => .inr ?_⟩
  · exact ascii byte (List.mem_of_mem_take mem)
  · rw [if_neg fresh]
    exact neat_plain plain short

section Written

variable {programme : Programme} {sec front back : List UInt8}

/-- A descriptor of another kind has no name. -/
theorem descriptorName_other {descriptor : Descriptor} (other : descriptor.tag ≠ 0x4d) :
    descriptorName descriptor.bytes = none := by
  refine if_neg fun named => other ?_
  rw [← UInt8.toNat_inj]
  exact named.1

theorem names_others {descriptors : List Descriptor}
    (others : ∀ descriptor ∈ descriptors, descriptor.tag ≠ 0x4d) :
    (descriptors.map Descriptor.bytes).filterMap descriptorName = [] := by
  rw [List.filterMap_map, List.filterMap_eq_nil_iff]
  exact fun descriptor mem => descriptorName_other (others descriptor mem)

theorem descriptorName_shortEvent (programme : Programme) :
    descriptorName programme.shortEvent.bytes = some programme.title := by
  have data : programme.shortEvent.bytes.drop 2 = programme.shortEventBody := rfl
  have tag : octet programme.shortEvent.bytes 0 = 0x4d := rfl
  have size := programme.length_shortEventBody
  rw [descriptorName]
  simp only [data, programme.octet_nameLength, programme.slice_name, tag]
  exact if_pos ⟨trivial, by omega, by omega⟩

/-- An event that was written has the name it was written with. -/
theorem names_eq (laid : sec = front ++ (programme.bytes ++ back)) :
    names sec front.length = [programme.title] := by
  rw [names, Programme.descriptorSlices_eq laid, Programme.descriptors, List.map_append,
    List.filterMap_append, names_others Programme.others_before, List.nil_append, List.map_cons,
    List.filterMap_cons_some (descriptorName_shortEvent programme),
    names_others Programme.others_behind]

theorem legibleEvent_written (laid : sec = front ++ (programme.bytes ++ back)) :
    LegibleEvent sec front.length := by
  rw [LegibleEvent, names_eq laid]
  rintro name ⟨⟩
  exact legible_plain programme.title_plain programme.title_fits _

end Written

/-- What is written as plain events is shown as the guide has it. -/
theorem written_titles_agree (table : EventSection) (service serviceThen : UInt16)
    (clock : UInt64) (display : Display) :
    TitlesAgree service serviceThen clock table.bytes display := by
  have legible : ∀ pos ∈ eventEntries table.bytes, LegibleEvent table.bytes pos := by
    rw [table.eventEntries_eq]
    exact forall_offsets table.bytes_eq fun {front item more} _ laid => legibleEvent_written laid
  refine ⟨fun pos told => ?_, fun pos told => ?_⟩
  · rw [agrees_now _ _ _ _ _ told]
    exact legible pos (parseEitSection_now display told).1
  · rw [agrees_next _ _ _ _ _ told]
    exact legible pos (parseEitSection_next display told).1

end NowNext

end Stream
