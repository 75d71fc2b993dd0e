import UsbDvbs2.Stream.NowNext
import UsbDvbs2.Stream.PsiBounds
import UsbDvbs2.Text.DecodeBounds

/-! # The event tables stay in their sections

The two parsers of an event section, with every read where the code has it. The texts are
converted out of slices that lie in the section, and the conversion stays in its slice.
-/

namespace Stream

open Bytes Text

variable {sec : List UInt8}

/-! ## The guide -/

def copyText? (target source : List UInt8) : Option (List UInt8) :=
  if target = [] then some target
  else do
    let text ← dtvDvbTextToUtf8? 512 source
    let decoded := text.map fun ch => if ch = 0x7c then 0x20 else ch
    let copied := (decoded.dropWhile (· = 0x20)).take (target.length - 1)
    let field := copied ++ target.drop copied.length
    return field.set (backUp field (trimEnd (· = 0x20) copied).length) 0

theorem copyText?_eq (target source : List UInt8) :
    copyText? target source = some (copyText target source) := by
  unfold copyText? copyText
  rw [dtvDvbTextToUtf8?_eq]
  split <;> rfl

/-- A descriptor of the event loop of `dtv_epg_parse_section`. -/
def readShortEvent? (sec : List UInt8) (tag length d : Nat) (texts : EventTexts) :
    Option (Bool × EventTexts) :=
  if tag = 0x4d ∧ 5 ≤ length then do
    let nameLength ← octet? sec (d + 2 + 3)
    if 4 + nameLength + 1 ≤ length then
      let textLength ← octet? sec (d + 2 + (4 + nameLength))
      let name ← slice? sec (d + 2 + 4) nameLength
      let title ← copyText? texts.title name
      let named := { texts with title }
      if 5 + nameLength + textLength ≤ length then
        let text ← slice? sec (d + 2 + (5 + nameLength)) textLength
        let text ← copyText? texts.text text
        return (true, { named with text })
      else return (true, named)
    else if 4 + nameLength ≤ length then
      let name ← slice? sec (d + 2 + 4) nameLength
      let title ← copyText? texts.title name
      return (true, { texts with title })
    else return (true, texts)
  else some (true, texts)

/-- An event of the loop of `dtv_epg_parse_section`. -/
def eventTurn? (sec : List UInt8) (serviceId : UInt16) (limit maxEvents pos : Nat)
    (events : List EpgEvent) : Option (Option Nat × List EpgEvent) :=
  if maxEvents ≤ events.length then some (none, events)
  else do
    let length ← be12? sec (pos + 10)
    if limit < pos + 12 + length then return (none, events)
    else
      let eventId ← be16? sec pos
      let flags ← octet? sec (pos + 10)
      let start ← slice? sec (pos + 2) 5
      let hours ← octet? sec (pos + 7)
      let minutes ← octet? sec (pos + 8)
      let seconds ← octet? sec (pos + 9)
      let texts ← descriptorLoop? sec (pos + 12) (pos + 12 + length) (readShortEvent? sec) .cleared
      let read : Option EpgEvent :=
        match eventStartUtc start 0 with
        | none => none
        | some startUtc =>
            if texts.title.getD 0 0 = 0 then none
            else
              some
                { serviceId
                  eventId
                  startUtc
                  durationSeconds :=
                    bcdValue hours * 3600 + bcdValue minutes * 60 + bcdValue seconds
                  runningStatus := flags / 32 % 8
                  scrambled := flags / 16 % 2
                  title := cString texts.title
                  text := cString texts.text }
      return (some (pos + 12 + length), events ++ read.toList)

def epgParseSection? (sec : List UInt8) (maxEvents : Nat) : Option (List EpgEvent) :=
  if maxEvents = 0 ∨ sec.length < 18 then some []
  else do
    let tableId ← octet? sec 0
    if isEventTable tableId = false then return []
    else
      let limit ← sub? sec.length 4
      let serviceId ← be16? sec 3
      scan? 12 limit (eventTurn? sec serviceId limit maxEvents) 14 []

theorem readShortEvent?_eq {d : Nat} (inside : d + 2 + octet sec (d + 1) ≤ sec.length)
    (texts : EventTexts) :
    readShortEvent? sec (octet sec d) (octet sec (d + 1)) d texts =
      some (true, readShortEvent texts (slice sec d (2 + octet sec (d + 1)))) := by
  have tag : octet (slice sec d (2 + octet sec (d + 1))) 0 = octet sec d := octet_slice (by omega)
  have size : (slice sec (d + 2) (octet sec (d + 1))).length = octet sec (d + 1) :=
    length_slice inside
  simp only [readShortEvent, drop_slice, tag, size, readShortEvent?]
  by_cases short : octet sec d = 0x4d ∧ 5 ≤ octet sec (d + 1)
  · rw [if_pos short, if_pos short, octet_slice (show 3 < octet sec (d + 1) by omega),
      octet?_eq (by omega)]
    simp only [Option.bind_eq_bind, Option.bind_some]
    generalize octet sec (d + 2 + 3) = nameLength
    by_cases both : 4 + nameLength + 1 ≤ octet sec (d + 1)
    · rw [if_pos both, if_pos both, octet_slice (by omega), octet?_eq (by omega),
        slice_slice (by omega), slice?_eq (by omega)]
      simp only [Option.bind_some, copyText?_eq]
      generalize octet sec (d + 2 + (4 + nameLength)) = textLength
      by_cases fits : 5 + nameLength + textLength ≤ octet sec (d + 1)
      · rw [if_pos fits, if_pos fits, slice_slice (by omega), slice?_eq (by omega),
          Option.bind_some]
        rfl
      · rw [if_neg fits, if_neg fits]
        rfl
    · rw [if_neg both, if_neg both]
      by_cases name : 4 + nameLength ≤ octet sec (d + 1)
      · rw [if_pos name, if_pos name, slice_slice (by omega), slice?_eq (by omega),
          Option.bind_some, copyText?_eq]
        rfl
      · rw [if_neg name, if_neg name]
        rfl
  · rw [if_neg short, if_neg short]

theorem eventStartUtc_slice (pos : Nat) :
    eventStartUtc (slice sec pos 5) 0 = eventStartUtc sec pos := by
  simp only [eventStartUtc, Nat.zero_add, octet_slice (show 0 < 5 by decide),
    octet_slice (show 1 < 5 by decide), octet_slice (show 2 < 5 by decide),
    octet_slice (show 3 < 5 by decide), octet_slice (show 4 < 5 by decide), Nat.add_zero]

/-- A turn of the event loop, in the model. -/
def eventTurn (sec : List UInt8) (maxEvents pos : Nat) (events : List EpgEvent) :
    Bool × List EpgEvent :=
  if maxEvents ≤ events.length then (false, events)
  else if pos + 12 + be12 sec (pos + 10) ≤ sec.length - 4 then
    (true, events ++ (readEvent sec pos).toList)
  else (false, events)

theorem walk_eventTurn {maxEvents : Nat} (positions : List Nat) {events : List EpgEvent}
    (room : events.length ≤ maxEvents) :
    walk (eventTurn sec maxEvents) positions events =
      events ++ (((positions.takeWhile fun pos =>
        pos + 12 + be12 sec (pos + 10) ≤ sec.length - 4).filterMap (readEvent sec)).take
          (maxEvents - events.length)) := by
  induction positions generalizing events with
  | nil => simp [walk]
  | cons pos later ih =>
      rw [walk, eventTurn, List.takeWhile_cons]
      by_cases full : maxEvents ≤ events.length
      · rw [if_pos full, Nat.sub_eq_zero_of_le full, List.take_zero, List.append_nil]
        rfl
      · rw [if_neg full]
        by_cases fits : pos + 12 + be12 sec (pos + 10) ≤ sec.length - 4
        · rw [if_pos fits, if_pos (decide_eq_true fits), List.filterMap_cons]
          cases readEvent sec pos with
          | none =>
              rw [Option.toList_none, List.append_nil]
              exact ih room
          | some event =>
              have more : (events ++ [event]).length ≤ maxEvents := by
                rw [List.length_append, List.length_singleton]
                omega
              have left : maxEvents - events.length =
                  maxEvents - (events ++ [event]).length + 1 := by
                rw [List.length_append, List.length_singleton]
                omega
              rw [left, List.take_succ_cons]
              refine (ih more).trans ?_
              rw [List.append_assoc]
              rfl
        · rw [if_neg fits, if_neg (ne_true_of_eq_false (decide_eq_false fits)),
            List.filterMap_nil, List.take_nil, List.append_nil]
          rfl

theorem eventTurn_walks (long : 18 ≤ sec.length) (maxEvents : Nat) :
    Walks 12 (sec.length - 4) (fun pos => be12 sec (pos + 10))
      (eventTurn? sec (be16 sec 3) (sec.length - 4) maxEvents) (eventTurn sec maxEvents)
      (fun _ _ => True) where
  positive := by decide
  turns := by
    intro pos events fits _
    unfold eventTurn? eventTurn onward
    by_cases full : maxEvents ≤ events.length
    · simp only [if_pos full]
      rfl
    · simp only [if_neg full]
      rw [be12?_eq (by omega)]
      simp only [Option.bind_eq_bind, Option.bind_some]
      by_cases overruns : sec.length - 4 < pos + 12 + be12 sec (pos + 10)
      · simp only [if_pos overruns, if_neg (Nat.not_le.mpr overruns)]
        rfl
      · have within : pos + 12 + be12 sec (pos + 10) ≤ sec.length := by omega
        simp only [if_neg overruns, if_pos (Nat.not_lt.mp overruns)]
        rw [be16?_eq (by omega), octet?_eq (by omega), slice?_eq (by omega), octet?_eq (by omega),
          octet?_eq (by omega), octet?_eq (by omega), descriptorSlices_loop? within readShortEvent
            (fun fits => readShortEvent?_eq (Nat.le_trans fits within) _)]
        simp only [Option.bind_some, eventStartUtc_slice]
        rfl
  keeps := fun _ _ _ => trivial

theorem epgParseSection?_eq (sec : List UInt8) (maxEvents : Nat) :
    epgParseSection? sec maxEvents = some (epgParseSection sec maxEvents) := by
  unfold epgParseSection? epgParseSection isEventSection
  by_cases nothing : maxEvents = 0 ∨ sec.length < 18
  · rw [if_pos nothing]
    rcases nothing with rfl | short
    · rw [List.take_zero, ite_self]
    · rw [decide_eq_false (Nat.not_le.mpr short), Bool.false_and, if_neg Bool.false_ne_true]
  · have long : 18 ≤ sec.length := Nat.not_lt.mp fun short => nothing (.inr short)
    rw [if_neg nothing, decide_eq_true long, Bool.true_and, octet?_eq (by omega)]
    simp only [Option.bind_eq_bind, Option.bind_some]
    cases isEventTable (octet sec 0) with
    | false => rfl
    | true =>
        rw [if_neg Bool.noConfusion, if_pos rfl, sub?_eq (by omega), Option.bind_some,
          be16?_eq (by omega), Option.bind_some, (eventTurn_walks long maxEvents).scan trivial,
          walk_eventTurn _ (Nat.zero_le maxEvents)]
        rfl

/-! ## The display -/

namespace NowNext

/-- A turn of the loop of `copy_epg_text`. -/
def titleTurn? (size : Nat) (source : List UInt8) (pos : Nat) (out : List UInt8) :
    Option (Option Nat × List UInt8) :=
  if out.length + 1 < size then do
    let byte ← source[pos]?
    let ch := if byte = 0x09 ∨ byte = 0x0d ∨ byte = 0x0a ∨ byte = 0x7c then 0x20 else byte
    return (some (pos + 1), if 0x20 ≤ ch then out ++ [ch] else out)
  else some (none, out)

def copyEpgText? (size : Nat) (source : List UInt8) : Option (List UInt8) :=
  if source.length = 0 then scan? 1 source.length (titleTurn? size source) 0 []
  else do
    let selector ← source[0]?
    scan? 1 source.length (titleTurn? size source) (if selector < 0x20 then 1 else 0) []

theorem titleTurn_solves (size : Nat) (source : List UInt8) :
    Solves 1 source.length (titleTurn? size source)
      (fun pos out => copyBytes size (source.drop pos) out) where
  positive := by decide
  ends := by
    intro pos out last
    rw [List.drop_eq_nil_of_le (Nat.le_of_lt_succ last)]
    rfl
  turns := by
    intro pos out inside
    have here := @getElem?_of_inside source pos inside
    rw [drop_cons inside, copyBytes, titleTurn?, here]
    by_cases room : out.length + 1 < size
    · rw [if_pos room, if_pos room]
      exact ⟨some (pos + 1), _, rfl, Nat.lt_succ_self pos, rfl⟩
    · rw [if_neg room, if_neg room]
      exact ⟨none, out, rfl, rfl⟩

theorem copyEpgText?_eq (size : Nat) (source : List UInt8) :
    copyEpgText? size source = some (copyEpgText size source) := by
  have solves := titleTurn_solves size source
  unfold copyEpgText? copyEpgText
  by_cases blank : source.length = 0
  · have nothing : source = [] := List.eq_nil_of_length_eq_zero blank
    rw [if_pos blank, if_neg fun both => both.1 nothing]
    exact solves.scan 0 []
  · have text : source ≠ [] := fun none => blank (congrArg List.length none)
    have first := @getElem?_of_inside source 0 (Nat.pos_of_ne_zero blank)
    rw [if_neg blank, first, Option.bind_eq_bind, Option.bind_some, solves.scan]
    by_cases selector : source.getD 0 0 < 0x20
    · rw [if_pos selector, if_pos ⟨text, selector⟩, List.drop_one]
    · rw [if_neg selector, if_neg fun both => selector both.2, List.drop_zero]

/-- A descriptor of the event loop of `parse_eit_section`. -/
def readTitle? (sec : List UInt8) (tag length d : Nat) (title : List UInt8) :
    Option (Bool × List UInt8) :=
  if tag = 0x4d ∧ 5 ≤ length then do
    let nameLength ← octet? sec (d + 2 + 3)
    if 4 + nameLength ≤ length then
      let name ← slice? sec (d + 2 + 4) nameLength
      let title ← copyEpgText? titleSize name
      return (true, title)
    else return (true, title)
  else some (true, title)

/-- An event of the loop of `parse_eit_section`. Its start and its duration are read through
pointers, up to the last byte of the duration. -/
def eitTurn? (sec : List UInt8) (sectionNumber : Nat) (clock : UInt64) (limit pos : Nat)
    (choice : Choice) : Option (Option Nat × Choice) := do
  let length ← be12? sec (pos + 10)
  let flags ← octet? sec (pos + 10)
  if limit < pos + 12 + length then return (none, choice)
  else
    let read ← descriptorLoop? sec (pos + 12) (pos + 12 + length) (readTitle? sec) []
    let title := if read = [] then waiting else read
    let times ← slice? sec (pos + 2) 8
    let running : Bool := flags / 32 % 8 == 4 ||
      match dvbEventTimestamp times 0 with
      | some start => start ≤ clock && clock < start + eventDurationTicks times 5
      | none => false
    let chosen : Choice :=
      if sectionNumber = 0 ∧ choice.haveNow = none ∧ running = true then
        { choice with
          haveNow := some pos
          nowTitle := title
          nowStart := formatEventTime times 0
          nowEnd := formatEventEnd times 0 5 }
      else
        match dvbEventTimestamp times 0 with
        | some start =>
            if clock < start ∧ start < choice.nextStartValue then
              { choice with
                haveNext := some pos
                nextTitle := title
                nextStart := formatEventTime times 0
                nextStartValue := start }
            else choice
        | none => choice
    return (some (pos + 12 + length), chosen)

/-- What the loop of `parse_eit_section` leaves goes to the status. -/
def Display.show (display : Display) (sectionNumber : Nat) (choice : Choice) : Display :=
  let display :=
    if sectionNumber = 0 ∧ choice.haveNow.isSome = true then
      { display with
        epgNow := choice.nowTitle
        epgNowStart := choice.nowStart
        epgNowEnd := choice.nowEnd }
    else display
  if choice.haveNext.isSome = true then
    { display with
      epgNext := choice.nextTitle
      epgNextStart := choice.nextStart }
  else display

def parseEitSection? (service serviceThen : UInt16) (clock : UInt64) (sec : List UInt8)
    (display : Display) : Option Display :=
  if sec.length < 18 then some display
  else do
    let tableId ← octet? sec 0
    if tableId ≠ 0x4e then return display
    else
      let sectionNumber ← octet? sec 6
      if 1 < sectionNumber then return display
      else
        let serviceId ← be16? sec 3
        if serviceId ≠ service then return display
        else
          let limit ← sub? sec.length 4
          let choice ← scan? 12 limit (eitTurn? sec sectionNumber clock limit) 14 .none
          if serviceId = serviceThen then return display.show sectionNumber choice
          else return display

theorem readTitle?_eq {d : Nat} (inside : d + 2 + octet sec (d + 1) ≤ sec.length)
    (title : List UInt8) :
    readTitle? sec (octet sec d) (octet sec (d + 1)) d title =
      some (true, readTitle title (slice sec d (2 + octet sec (d + 1)))) := by
  have tag : octet (slice sec d (2 + octet sec (d + 1))) 0 = octet sec d := octet_slice (by omega)
  have size : (slice sec (d + 2) (octet sec (d + 1))).length = octet sec (d + 1) :=
    length_slice inside
  simp only [readTitle, descriptorName, drop_slice, tag, size, readTitle?]
  by_cases short : octet sec d = 0x4d ∧ 5 ≤ octet sec (d + 1)
  · rw [if_pos short, octet?_eq (by omega), octet_slice (show 3 < octet sec (d + 1) by omega)]
    simp only [Option.bind_eq_bind, Option.bind_some, short, true_and]
    generalize octet sec (d + 2 + 3) = nameLength
    by_cases fits : 4 + nameLength ≤ octet sec (d + 1)
    · rw [if_pos fits, if_pos fits, slice_slice (by omega), slice?_eq (by omega),
        Option.bind_some, copyEpgText?_eq]
      rfl
    · rw [if_neg fits, if_neg fits]
      rfl
  · rw [if_neg short, if_neg fun all => short ⟨all.1, all.2.1⟩]

/-- Eight bytes hold the start and the duration of an event. -/
theorem times_slice (pos : Nat) :
    dvbEventTimestamp (slice sec (pos + 2) 8) 0 = dvbEventTimestamp sec (pos + 2) ∧
      eventDurationTicks (slice sec (pos + 2) 8) 5 = eventDurationTicks sec (pos + 7) ∧
      formatEventTime (slice sec (pos + 2) 8) 0 = formatEventTime sec (pos + 2) ∧
      formatEventEnd (slice sec (pos + 2) 8) 0 5 = formatEventEnd sec (pos + 2) (pos + 7) := by
  have reads (place : Nat) (inside : place < 8) :
      octet (slice sec (pos + 2) 8) place = octet sec (pos + 2 + place) := octet_slice inside
  refine ⟨?_, ?_, ?_, ?_⟩
  · simp only [dvbEventTimestamp, Nat.zero_add, reads 0 (by decide), reads 1 (by decide),
      reads 2 (by decide), reads 3 (by decide), reads 4 (by decide), Nat.add_zero]
  · simp only [eventDurationTicks, reads 5 (by decide), reads 6 (by decide), reads 7 (by decide)]
  · simp only [formatEventTime, Nat.zero_add, reads 2 (by decide), reads 3 (by decide)]
  · simp only [formatEventEnd, Nat.zero_add, reads 2 (by decide), reads 3 (by decide),
      reads 5 (by decide), reads 6 (by decide)]

theorem eitTurn_reads (inside : 4 ≤ sec.length) (clock : UInt64) :
    Reads 12 (sec.length - 4) (fun pos => be12 sec (pos + 10))
      (eitTurn? sec (octet sec 6) clock (sec.length - 4))
      (fun pos => pos + 12 + be12 sec (pos + 10) ≤ sec.length - 4)
      (fun choice pos => choice.event clock sec pos) where
  positive := by decide
  turns := by
    intro pos choice begins
    rw [eitTurn?, be12?_eq (by omega), octet?_eq (by omega)]
    simp only [Option.bind_eq_bind, Option.bind_some]
    by_cases overruns : sec.length - 4 < pos + 12 + be12 sec (pos + 10)
    · rw [if_pos overruns, if_neg (by simpa using overruns)]
      rfl
    · have within : pos + 12 + be12 sec (pos + 10) ≤ sec.length := by omega
      have entry : decide (pos + 12 + be12 sec (pos + 10) ≤ sec.length - 4) = true := by
        simpa using overruns
      obtain ⟨stamp, ticks, start, stop⟩ := @times_slice sec pos
      rw [if_neg overruns, if_pos entry, descriptorSlices_loop? within readTitle
        (fun fits => readTitle?_eq (Nat.le_trans fits within) _), Option.bind_some,
        slice?_eq (by omega)]
      simp only [Option.bind_some, stamp, ticks, start, stop]
      rfl

theorem parseEitSection?_eq (service serviceThen : UInt16) (clock : UInt64) (sec : List UInt8)
    (display : Display) :
    parseEitSection? service serviceThen clock sec display =
      some (parseEitSection service serviceThen clock sec display) := by
  have passed (other : isOf service sec = false) :
      parseEitSection service serviceThen clock sec display = display := by
    rw [parseEitSection, other, if_neg (fun both => Bool.false_ne_true both.1)]
  unfold parseEitSection?
  by_cases short : sec.length < 18
  · have other : isOf service sec = false := by
      rw [isOf, decide_eq_false (Nat.not_le.mpr short), Bool.false_and, Bool.false_and,
        Bool.false_and]
    rw [if_pos short, passed other]
  · rw [if_neg short, octet?_eq (by omega)]
    simp only [Option.bind_eq_bind, Option.bind_some]
    by_cases table : octet sec 0 ≠ 0x4e
    · have other : isOf service sec = false := by
        rw [isOf, beq_false_of_ne table, Bool.and_false, Bool.false_and, Bool.false_and]
      rw [if_pos table, passed other]
      rfl
    · rw [if_neg table, octet?_eq (by omega)]
      simp only [Option.bind_some]
      by_cases number : 1 < octet sec 6
      · have other : isOf service sec = false := by
          rw [isOf, decide_eq_false (Nat.not_le.mpr number), Bool.and_false, Bool.false_and]
        rw [if_pos number, passed other]
        rfl
      · rw [if_neg number, be16?_eq (by omega)]
        simp only [Option.bind_some]
        by_cases elsewhere : be16 sec 3 ≠ service
        · have other : isOf service sec = false := by
            rw [isOf, beq_false_of_ne elsewhere, Bool.and_false]
          rw [if_pos elsewhere, passed other]
          rfl
        · have wanted : isOf service sec = true := by
            simp only [isOf, Bool.and_eq_true, decide_eq_true_eq, beq_iff_eq]
            exact ⟨⟨⟨Nat.not_lt.mp short, not_not.mp table⟩, Nat.not_lt.mp number⟩,
              not_not.mp elsewhere⟩
          rw [if_neg elsewhere, sub?_eq (by omega), Option.bind_some,
            (eitTurn_reads (by omega) clock).scan, Option.bind_some, parseEitSection]
          simp only [wanted, true_and]
          split <;> rfl

end NowNext

end Stream
