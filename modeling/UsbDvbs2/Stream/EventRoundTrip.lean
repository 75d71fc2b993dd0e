import UsbDvbs2.Stream.EventClock
import UsbDvbs2.Stream.EventText
import UsbDvbs2.Text.Direct
import UsbDvbs2.Text.Lines

/-! # Events written and read

A section written event by event, each with one short event descriptor among its
descriptors, is read back into the events.
-/

namespace Stream

open Bytes Mpeg Text

/-! ## Texts that are plain -/

/-- A text that is shown as it is sent. -/
structure PlainText (text : List UInt8) : Prop where
  written : text ≠ []
  printable : ∀ byte ∈ text, 0x20 ≤ byte.toNat ∧ byte.toNat < 0x7f
  noBar : ∀ byte ∈ text, byte ≠ 0x7c
  noLeading : text.head? ≠ some 0x20
  noTrailing : Ends text

namespace PlainText

variable {text : List UInt8}

theorem direct (plain : PlainText text) : Direct text text := by
  obtain ⟨first, rest, rfl⟩ := List.exists_cons_of_ne_nil plain.written
  have low := plain.printable first (List.mem_cons_self ..)
  have table : pickTable (first :: rest) = (.iso6937, 0) := by
    refine if_pos (.inr ?_)
    rw [UInt8.le_iff_toNat_le]
    exact low.1
  rw [Direct, table]
  refine ⟨rfl, fun byte mem => ?_, fun byte mem => absurd mem List.not_mem_nil⟩
  have inside := plain.printable byte mem
  omega

theorem decoded (plain : PlainText text) {size : Nat} (fits : text.length < size) :
    dtvDvbTextToUtf8 size text = text := by
  rw [plain.direct.decoded fits]
  refine (List.map_congr_left fun byte mem => ?_).trans (List.map_id text)
  have inside := plain.printable byte mem
  exact if_neg (by omega)

theorem spaced_eq (plain : PlainText text) : spaced text = text := by
  have same : text.map unbar = text := by
    refine (List.map_congr_left fun byte mem => ?_).trans (List.map_id text)
    exact if_neg (plain.noBar byte mem)
  rw [spaced, same]
  refine List.dropWhile_eq_self_iff.2 fun nonempty space => plain.noLeading ?_
  rw [List.head?_eq_getElem?, List.getElem?_eq_getElem nonempty]
  exact congrArg some (of_decide_eq_true space)

/-- A field that was cleared takes it as it is. -/
theorem copyText_eq (plain : PlainText text) {size : Nat} (short : text.length < 512)
    (fits : text.length < size) : cString (copyText (List.replicate size 0) text) = text := by
  have copy : copied (List.replicate size (0 : UInt8)).length text = text := by
    rw [copied, plain.decoded short, plain.spaced_eq, List.length_replicate]
    exact List.take_of_length_le (by omega)
  have fresh : ¬Stale (List.replicate size 0) text := by
    rw [Stale, copy, List.getD_eq_getElem?_getD, List.getElem?_replicate, if_pos fits]
    exact fun stale => absurd stale.1 (by decide)
  have nonzero : ∀ byte ∈ copied (List.replicate size (0 : UInt8)).length text, byte ≠ 0 := by
    rw [copy]
    rintro byte mem rfl
    exact absurd (plain.printable 0 mem).1 (by decide)
  rw [copyText_shown nonzero, if_neg fresh, copy, trimEnd_self plain.noTrailing]

end PlainText

theorem getD_of_cString {field : List UInt8} (shown : cString field ≠ []) : field.getD 0 0 ≠ 0 := by
  cases field with
  | nil => exact absurd rfl shown
  | cons first rest =>
      rintro zero
      exact shown (List.takeWhile_cons_of_neg (by simpa using zero))

/-! ## Events to be sent -/

/-- `put_bcd`: two decimal digits. -/
def putBcd (value : Nat) : UInt8 := UInt8.ofNat (value / 10 * 16 + value % 10)

theorem bcdValue_putBcd {value : Nat} (digits : value < 100) :
    bcdValue (putBcd value).toNat = value := by
  rw [putBcd, UInt8.toNat_ofNat', bcdValue]
  omega

/-- Hours, minutes and seconds of two digits each. -/
structure BcdTime where
  hour : Nat
  minute : Nat
  second : Nat
  hour_lt : hour < 100
  minute_lt : minute < 100
  second_lt : second < 100

def BcdTime.bytes (time : BcdTime) : List UInt8 :=
  [putBcd time.hour, putBcd time.minute, putBcd time.second]

def BcdTime.seconds (time : BcdTime) : Nat := time.hour * 3600 + time.minute * 60 + time.second

/-- An event of the table: the day and the time of its start, its duration, and the
descriptors around its short event descriptor. -/
structure Programme where
  eventId : UInt16
  day : Nat
  start : BcdTime
  duration : BcdTime
  runningStatus : Nat
  scrambled : Bool
  language : List UInt8
  title : List UInt8
  text : List UInt8
  before : List Descriptor
  behind : List Descriptor
  day_ge : 15079 ≤ day
  day_lt : day < 0xffff
  runningStatus_lt : runningStatus < 8
  language_length : language.length = 3
  title_plain : PlainText title
  text_plain : PlainText text
  title_fits : title.length < titleSize
  short : 5 + title.length + text.length < 256
  others : ∀ descriptor ∈ before ++ behind, descriptor.tag ≠ 0x4d
  loop_lt : (loop before).length + (7 + title.length + text.length) + (loop behind).length < 4096

namespace Programme

variable (programme : Programme)

def shortEventBody : List UInt8 :=
  programme.language ++ UInt8.ofNat programme.title.length :: programme.title ++
    UInt8.ofNat programme.text.length :: programme.text

theorem length_shortEventBody :
    programme.shortEventBody.length = 5 + programme.title.length + programme.text.length := by
  have language := programme.language_length
  simp only [shortEventBody, List.length_append, List.length_cons]
  omega

def shortEvent : Descriptor where
  tag := 0x4d
  body := programme.shortEventBody
  short := by
    rw [length_shortEventBody]
    exact programme.short

def descriptors : List Descriptor :=
  programme.before ++ programme.shortEvent :: programme.behind

/-- The loop of the descriptors. -/
def loopBytes : List UInt8 := loop programme.descriptors

/-- `put_event`, up to its descriptors. -/
def header : List UInt8 :=
  [(programme.eventId >>> 8).toUInt8, programme.eventId.toUInt8,
    UInt8.ofNat (programme.day / 256), UInt8.ofNat programme.day] ++
  programme.start.bytes ++ programme.duration.bytes ++
  [UInt8.ofNat (programme.runningStatus * 32 + (if programme.scrambled then 16 else 0) +
      programme.loopBytes.length / 256),
    UInt8.ofNat programme.loopBytes.length]

def bytes : List UInt8 := programme.header ++ programme.loopBytes

/-- What the guide is told of it. -/
def event (serviceId : UInt16) : EpgEvent where
  serviceId
  eventId := programme.eventId
  startUtc := (programme.day - 40587 : Int) * 86400 + programme.start.seconds
  durationSeconds := programme.duration.seconds
  runningStatus := programme.runningStatus
  scrambled := if programme.scrambled then 1 else 0
  title := programme.title
  text := programme.text

theorem length_loopBytes : programme.loopBytes.length < 4096 := by
  have size : programme.loopBytes.length = (loop programme.before).length +
      (7 + programme.title.length + programme.text.length) + (loop programme.behind).length := by
    have body := programme.length_shortEventBody
    simp only [loopBytes, descriptors, loop, List.flatMap_append, List.flatMap_cons,
      List.length_append, Descriptor.bytes, shortEvent, List.length_cons] at body ⊢
    omega
  rw [size]
  exact programme.loop_lt

theorem length_header : programme.header.length = 12 := rfl

end Programme

/-! ## Events read back -/

theorem getD_middle {front item back : List UInt8} {pos : Nat} (inside : pos < item.length) :
    (front ++ (item ++ back)).getD (front.length + pos) 0 = item.getD pos 0 := by
  rw [List.getD_eq_getElem?_getD, List.getElem?_append_right (by omega), Nat.add_sub_cancel_left,
    List.getElem?_append_left inside, List.getD_eq_getElem?_getD]

namespace Programme

variable (programme : Programme)

section Laid

variable {programme} {sec front back : List UInt8}

theorem field (laid : sec = front ++ (programme.bytes ++ back)) {pos : Nat} (inside : pos < 12) :
    sec.getD (front.length + pos) 0 = programme.header.getD pos 0 := by
  rw [laid, bytes, List.append_assoc]
  exact getD_middle inside

theorem octet_field (laid : sec = front ++ (programme.bytes ++ back)) {pos : Nat}
    (inside : pos < 12) :
    octet sec (front.length + pos) = (programme.header.getD pos 0).toNat :=
  congrArg UInt8.toNat (field laid inside)

theorem be16_eventId (laid : sec = front ++ (programme.bytes ++ back)) :
    be16 sec front.length = programme.eventId :=
  be16_halves _ (field laid (show 0 < 12 by decide)) (field laid (show 1 < 12 by decide))

theorem startDay_eq (laid : sec = front ++ (programme.bytes ++ back)) :
    startDay sec (front.length + 2) = programme.day := by
  have day := programme.day_lt
  have high : octet sec (front.length + 2) = programme.day / 256 % 256 :=
    (octet_field laid (show 2 < 12 by decide)).trans UInt8.toNat_ofNat'
  have low : octet sec (front.length + 3) = programme.day % 256 :=
    (octet_field laid (show 3 < 12 by decide)).trans UInt8.toNat_ofNat'
  rw [startDay, high, low]
  omega

theorem bcdValue_time {time : BcdTime} {pos : Nat}
    (hour : octet sec pos = (putBcd time.hour).toNat)
    (minute : octet sec (pos + 1) = (putBcd time.minute).toNat)
    (second : octet sec (pos + 2) = (putBcd time.second).toNat) :
    bcdValue (octet sec pos) * 3600 + bcdValue (octet sec (pos + 1)) * 60 +
      bcdValue (octet sec (pos + 2)) = time.seconds := by
  rw [hour, minute, second, bcdValue_putBcd time.hour_lt, bcdValue_putBcd time.minute_lt,
    bcdValue_putBcd time.second_lt, BcdTime.seconds]

theorem startUtc_eq (laid : sec = front ++ (programme.bytes ++ back)) :
    eventStartUtc sec (front.length + 2) =
      some ((programme.day - 40587 : Int) * 86400 + programme.start.seconds) := by
  have day := startDay_eq laid
  have time : startTime sec (front.length + 2) = programme.start.seconds :=
    bcdValue_time (octet_field laid (show 4 < 12 by decide))
      (octet_field laid (show 5 < 12 by decide)) (octet_field laid (show 6 < 12 by decide))
  have first := programme.day_ge
  have last := programme.day_lt
  rw [eventStartUtc_eq (by omega) (by omega), day, time]

theorem duration_eq (laid : sec = front ++ (programme.bytes ++ back)) :
    bcdValue (octet sec (front.length + 7)) * 3600 + bcdValue (octet sec (front.length + 8)) * 60 +
      bcdValue (octet sec (front.length + 9)) = programme.duration.seconds :=
  bcdValue_time (octet_field laid (show 7 < 12 by decide))
    (octet_field laid (show 8 < 12 by decide)) (octet_field laid (show 9 < 12 by decide))

theorem status_eq (laid : sec = front ++ (programme.bytes ++ back)) :
    octet sec (front.length + 10) = programme.runningStatus * 32 +
      (if programme.scrambled then 16 else 0) + programme.loopBytes.length / 256 := by
  have loop := programme.length_loopBytes
  have running := programme.runningStatus_lt
  have status : octet sec (front.length + 10) = (programme.runningStatus * 32 +
      (if programme.scrambled then 16 else 0) + programme.loopBytes.length / 256) % 256 :=
    (octet_field laid (show 10 < 12 by decide)).trans UInt8.toNat_ofNat'
  rw [status]
  split_ifs <;> omega

theorem loopLength_eq (laid : sec = front ++ (programme.bytes ++ back)) :
    be12 sec (front.length + 10) = programme.loopBytes.length := by
  have loop := programme.length_loopBytes
  have low : octet sec (front.length + 10 + 1) = programme.loopBytes.length % 256 :=
    (octet_field laid (show 11 < 12 by decide)).trans UInt8.toNat_ofNat'
  rw [be12, status_eq laid, low]
  split_ifs <;> omega

end Laid

/-- A descriptor of another kind leaves the texts. -/
theorem readShortEvent_other {descriptor : Descriptor} (other : descriptor.tag ≠ 0x4d)
    (texts : EventTexts) : readShortEvent texts descriptor.bytes = texts := by
  refine if_neg fun named => other ?_
  rw [← UInt8.toNat_inj]
  exact named.1

theorem foldl_readShortEvent_others {descriptors : List Descriptor}
    (others : ∀ descriptor ∈ descriptors, descriptor.tag ≠ 0x4d) (texts : EventTexts) :
    (descriptors.map Descriptor.bytes).foldl readShortEvent texts = texts := by
  induction descriptors with
  | nil => rfl
  | cons descriptor descriptors ih =>
      rw [List.map_cons, List.foldl_cons, readShortEvent_other (others _ (List.mem_cons_self ..)),
        ih fun descriptor mem => others descriptor (List.mem_cons_of_mem _ mem)]

theorem toNat_ofNat_of_lt {number : Nat} (small : number < 256) :
    (UInt8.ofNat number).toNat = number := by
  rw [UInt8.toNat_ofNat']
  exact Nat.mod_eq_of_lt small

theorem octet_nameLength : octet programme.shortEventBody 3 = programme.title.length := by
  have short := programme.short
  have laid : programme.shortEventBody = programme.language ++
      ([UInt8.ofNat programme.title.length] ++
        (programme.title ++ UInt8.ofNat programme.text.length :: programme.text)) := by
    simp [shortEventBody]
  rw [laid, ← programme.language_length]
  exact (octet_append_right _ _ 0).trans (toNat_ofNat_of_lt (by omega))

theorem slice_name : slice programme.shortEventBody 4 programme.title.length =
    programme.title := by
  have front : (programme.language ++ [UInt8.ofNat programme.title.length]).length = 4 := by
    rw [List.length_append, programme.language_length]
    rfl
  have laid : programme.shortEventBody =
      (programme.language ++ [UInt8.ofNat programme.title.length]) ++
        (programme.title ++ UInt8.ofNat programme.text.length :: programme.text) := by
    simp [shortEventBody]
  rw [laid, ← front]
  exact slice_middle _ _ _

theorem octet_textLength : octet programme.shortEventBody (4 + programme.title.length) =
    programme.text.length := by
  have short := programme.short
  have front : (programme.language ++ UInt8.ofNat programme.title.length ::
      programme.title).length = 4 + programme.title.length := by
    rw [List.length_append, programme.language_length, List.length_cons]
    omega
  have laid : programme.shortEventBody =
      (programme.language ++ UInt8.ofNat programme.title.length :: programme.title) ++
        ([UInt8.ofNat programme.text.length] ++ programme.text) := by
    simp [shortEventBody]
  rw [laid, ← front]
  exact (octet_append_right _ _ 0).trans (toNat_ofNat_of_lt (by omega))

theorem slice_text : slice programme.shortEventBody (5 + programme.title.length)
    programme.text.length = programme.text := by
  have front : (programme.language ++ UInt8.ofNat programme.title.length :: programme.title ++
      [UInt8.ofNat programme.text.length]).length = 5 + programme.title.length := by
    rw [List.length_append, List.length_append, programme.language_length, List.length_cons]
    change 3 + (programme.title.length + 1) + 1 = _
    omega
  have laid : programme.shortEventBody =
      (programme.language ++ UInt8.ofNat programme.title.length :: programme.title ++
        [UInt8.ofNat programme.text.length]) ++ (programme.text ++ []) := by
    simp [shortEventBody]
  rw [laid, ← front]
  exact slice_middle _ _ _

/-- The short event descriptor names the event and describes it. -/
theorem readShortEvent_shortEvent (texts : EventTexts) :
    readShortEvent texts programme.shortEvent.bytes =
      { title := copyText texts.title programme.title
        text := copyText texts.text programme.text } := by
  have data : programme.shortEvent.bytes.drop 2 = programme.shortEventBody := rfl
  have tag : octet programme.shortEvent.bytes 0 = 0x4d := rfl
  rw [readShortEvent]
  simp only [data, octet_nameLength, octet_textLength, slice_name, slice_text, tag,
    length_shortEventBody]
  rw [if_pos ⟨trivial, by omega⟩, if_pos (by omega), if_pos (Nat.le_refl _)]

section Laid

variable {programme} {sec front back : List UInt8}

theorem descriptorSlices_eq (laid : sec = front ++ (programme.bytes ++ back)) :
    descriptorSlices sec (front.length + 12) (front.length + 12 + be12 sec (front.length + 10)) =
      programme.descriptors.map Descriptor.bytes := by
  have start : (front ++ programme.header).length = front.length + 12 := List.length_append
  have around : sec = (front ++ programme.header) ++ (loop programme.descriptors ++ back) := by
    rw [laid, bytes, loopBytes, List.append_assoc, List.append_assoc]
  rw [loopLength_eq laid, loopBytes, ← start]
  exact descriptorSlices_loop around rfl

theorem others_before : ∀ descriptor ∈ programme.before, descriptor.tag ≠ 0x4d :=
  fun descriptor mem => programme.others descriptor (List.mem_append_left _ mem)

theorem others_behind : ∀ descriptor ∈ programme.behind, descriptor.tag ≠ 0x4d :=
  fun descriptor mem => programme.others descriptor (List.mem_append_right _ mem)

/-- Its texts are found among the descriptors. -/
theorem eventTexts_eq (laid : sec = front ++ (programme.bytes ++ back)) :
    eventTexts sec front.length =
      { title := copyText EventTexts.cleared.title programme.title
        text := copyText EventTexts.cleared.text programme.text } := by
  rw [eventTexts, descriptorSlices_eq laid, descriptors, List.map_append, List.foldl_append,
    foldl_readShortEvent_others others_before, List.map_cons, List.foldl_cons,
    readShortEvent_shortEvent, foldl_readShortEvent_others others_behind]

/-- The event is read back. -/
theorem readEvent_eq (laid : sec = front ++ (programme.bytes ++ back)) :
    readEvent sec front.length = some (programme.event (be16 sec 3)) := by
  have short := programme.short
  have title : cString (copyText EventTexts.cleared.title programme.title) = programme.title :=
    programme.title_plain.copyText_eq (by omega) programme.title_fits
  have text : cString (copyText EventTexts.cleared.text programme.text) = programme.text :=
    programme.text_plain.copyText_eq (by omega) (by unfold textSize; omega)
  have named := getD_of_cString (title.symm ▸ programme.title_plain.written)
  have loop := programme.length_loopBytes
  have status := status_eq laid
  rw [readEvent, startUtc_eq laid]
  simp only [eventTexts_eq laid, if_neg named, title, text, be16_eventId laid, duration_eq laid]
  refine congrArg some ?_
  rw [Programme.event, EpgEvent.mk.injEq]
  refine ⟨rfl, rfl, rfl, rfl, ?_, ?_, rfl, rfl⟩
  · rw [status]
    have running := programme.runningStatus_lt
    split_ifs <;> omega
  · rw [status]
    split_ifs <;> omega

end Laid

end Programme

/-! ## Sections -/

/-- A section of a table of the guide. -/
structure EventSection where
  tableId : UInt8
  serviceId : UInt16
  version : Nat
  sectionNumber : UInt8
  lastSectionNumber : UInt8
  transportStreamId : UInt16
  originalNetworkId : UInt16
  segmentLastSectionNumber : UInt8
  lastTableId : UInt8
  events : List Programme
  crc : List UInt8
  ofGuide : isEventTable tableId.toNat = true
  crc_length : crc.length = 4

namespace EventSection

variable (table : EventSection)

def loopBytes : List UInt8 := table.events.flatMap Programme.bytes

/-- The bytes behind the length. -/
def sectionLength : Nat := 11 + table.loopBytes.length + 4

/-- `begin_section`, with the length that `end_section` fills in. -/
def header : List UInt8 :=
  [table.tableId, UInt8.ofNat (0xb0 + table.sectionLength / 256 % 16),
    UInt8.ofNat table.sectionLength, (table.serviceId >>> 8).toUInt8, table.serviceId.toUInt8,
    UInt8.ofNat (0xc1 + table.version * 2), table.sectionNumber, table.lastSectionNumber,
    (table.transportStreamId >>> 8).toUInt8, table.transportStreamId.toUInt8,
    (table.originalNetworkId >>> 8).toUInt8, table.originalNetworkId.toUInt8,
    table.segmentLastSectionNumber, table.lastTableId]

def bytes : List UInt8 := table.header ++ (table.loopBytes ++ table.crc)

theorem bytes_eq : table.bytes =
    table.header ++ (table.events.flatMap Programme.bytes ++ table.crc) := rfl

theorem length_bytes : table.bytes.length = 14 + table.loopBytes.length + 4 := by
  rw [bytes, List.length_append, List.length_append, table.crc_length]
  change 14 + _ = _
  omega

theorem be16_serviceId : be16 table.bytes 3 = table.serviceId :=
  be16_halves _ rfl rfl

/-- The loop over a section visits its events. -/
theorem eventEntries_eq : eventEntries table.bytes = offsets Programme.bytes 14 table.events := by
  have limit : table.bytes.length - 4 = 14 + table.loopBytes.length := by
    rw [length_bytes]
    omega
  have visited : entries 12 (table.bytes.length - 4) (fun pos => be12 table.bytes (pos + 10)) 14 =
      offsets Programme.bytes table.header.length table.events := by
    refine entries_offsets (by decide) table.bytes_eq limit fun {front item back} _ laid => ?_
    rw [Programme.loopLength_eq laid, Programme.bytes, List.length_append]
    rfl
  rw [eventEntries, visited]
  refine List.takeWhile_eq_self_iff.2 ?_
  refine forall_offsets table.bytes_eq fun {front item more} _ laid => ?_
  have whole := congrArg List.length laid
  have crc := table.crc_length
  rw [List.length_append, List.length_append, List.length_append, Programme.bytes,
    List.length_append, Programme.length_header, crc] at whole
  rw [decide_eq_true_eq, Programme.loopLength_eq laid]
  omega

end EventSection

/-- The events that are written into a section are read back in order. -/
theorem epgParseSection_bytes (table : EventSection) (maxEvents : Nat) :
    epgParseSection table.bytes maxEvents =
      (table.events.map fun programme => programme.event table.serviceId).take maxEvents := by
  have size := table.length_bytes
  have named : isEventSection table.bytes = true := by
    rw [isEventSection, Bool.and_eq_true, decide_eq_true_eq]
    exact ⟨by omega, table.ofGuide⟩
  have read : (offsets Programme.bytes 14 table.events).filterMap (readEvent table.bytes) =
      table.events.map fun programme => programme.event table.serviceId := by
    refine filterMap_offsets table.bytes_eq fun {front item back} _ laid => ?_
    rw [Programme.readEvent_eq laid, table.be16_serviceId]
  rw [epgParseSection, if_pos named, table.eventEntries_eq, read]

/-- An event of an hour and a half at eight in the evening of the 21st of August 2024. -/
def evening : Programme where
  eventId := 0x1234
  day := 60543
  start := ⟨20, 0, 0, by decide, by decide, by decide⟩
  duration := ⟨1, 30, 0, by decide, by decide, by decide⟩
  runningStatus := 4
  scrambled := false
  language := [0x74, 0x75, 0x72]
  title := [0x4e, 0x65, 0x77, 0x73]
  text := [0x54, 0x68, 0x65, 0x20, 0x64, 0x61, 0x79]
  before := []
  behind := [⟨0x54, [0x20, 0x00], by decide⟩]
  day_ge := by decide
  day_lt := by decide
  runningStatus_lt := by decide
  language_length := rfl
  title_plain := ⟨by decide, all_bytes (by decide), all_bytes (by decide), by decide, by decide⟩
  text_plain := ⟨by decide, all_bytes (by decide), all_bytes (by decide), by decide, by decide⟩
  title_fits := by decide
  short := by decide
  others := by decide
  loop_lt := by decide

def eveningSection : EventSection where
  tableId := 0x4e
  serviceId := 10601
  version := 3
  sectionNumber := 0
  lastSectionNumber := 0
  transportStreamId := 0
  originalNetworkId := 0
  segmentLastSectionNumber := 0
  lastTableId := 0x4e
  events := [evening]
  crc := [0, 0, 0, 0]
  ofGuide := by decide
  crc_length := rfl

theorem epgParseSection_bytes_evening :
    epgParseSection eveningSection.bytes 8 =
      [⟨10601, 0x1234, 1724270400, 5400, 4, 0, evening.title, evening.text⟩] :=
  (epgParseSection_bytes eveningSection 8).trans (by decide)

end Stream
