import UsbDvbs2.Stream.EventClock
import UsbDvbs2.Text.Decimal

/-! # The present and the following event

The two events of the watched service that the status shows come from the sections of
one table. Their titles are copied without the conversion that the guide makes.
-/

namespace Stream

open Bytes Text

namespace NowNext

/-! ## Titles -/

/-- The loop of `copy_epg_text`. -/
def copyBytes (size : Nat) : List UInt8 → List UInt8 → List UInt8
  | [], out => out
  | byte :: rest, out =>
      if out.length + 1 < size then
        let ch := if byte = 0x09 ∨ byte = 0x0d ∨ byte = 0x0a ∨ byte = 0x7c then 0x20 else byte
        copyBytes size rest (if 0x20 ≤ ch then out ++ [ch] else out)
      else out

/-- `copy_epg_text`: the bytes in front of the terminator. -/
def copyEpgText (size : Nat) (source : List UInt8) : List UInt8 :=
  -- The DVB character set selector byte.
  copyBytes size (if source ≠ [] ∧ source.getD 0 0 < 0x20 then source.tail else source) []

/-- The name in a descriptor of an event. -/
def descriptorName (raw : List UInt8) : Option (List UInt8) :=
  let data := raw.drop 2
  if octet raw 0 = 0x4d ∧ 5 ≤ data.length ∧ 4 + octet data 3 ≤ data.length then
    some (slice data 4 (octet data 3))
  else none

/-- A descriptor of the event loop. -/
def readTitle (title raw : List UInt8) : List UInt8 :=
  match descriptorName raw with
  | some name => copyEpgText titleSize name
  | none => title

/-- For an event without a title. -/
def waiting : List UInt8 :=
  ascii ['W', 'a', 'i', 't', 'i', 'n', 'g', ' ', 'f', 'o', 'r', ' ', 'p', 'r', 'o', 'g', 'r',
    'a', 'm', 'm', 'e', ' ', 'i', 'n', 'f', 'o', 'r', 'm', 'a', 't', 'i', 'o', 'n']

/-- The title of the event at a position. -/
def title (sec : List UInt8) (pos : Nat) : List UInt8 :=
  let read := (descriptorSlices sec (pos + 12) (pos + 12 + be12 sec (pos + 10))).foldl readTitle []
  if read = [] then waiting else read

/-! ## Times -/

/-- `%02u`. -/
def twoDigits (number : Nat) : List UInt8 :=
  if number < 10 then 0x30 :: decimal number else decimal number

/-- `format_event_time`. -/
def formatEventTime (sec : List UInt8) (start : Nat) : List UInt8 :=
  twoDigits (bcdValue (octet sec (start + 2))) ++ 0x3a ::
    twoDigits (bcdValue (octet sec (start + 3)))

/-- `format_event_end`. -/
def formatEventEnd (sec : List UInt8) (start duration : Nat) : List UInt8 :=
  let minutes := (bcdValue (octet sec (start + 2)) * 60 + bcdValue (octet sec (start + 3)) +
    (bcdValue (octet sec duration) * 60 + bcdValue (octet sec (duration + 1)))) % (24 * 60)
  twoDigits (minutes / 60) ++ 0x3a :: twoDigits (minutes % 60)

/-- `event_duration_ticks`. -/
def eventDurationTicks (sec : List UInt8) (duration : Nat) : UInt64 :=
  UInt64.ofNat (bcdValue (octet sec duration) * 3600 + bcdValue (octet sec (duration + 1)) * 60 +
    bcdValue (octet sec (duration + 2))) * 10000000

/-! ## The section -/

/-- The variables of the event loop. The two flags name the event that set them. -/
structure Choice where
  haveNow : Option Nat
  haveNext : Option Nat
  nowTitle : List UInt8
  nowStart : List UInt8
  nowEnd : List UInt8
  nextTitle : List UInt8
  nextStart : List UInt8
  nextStartValue : UInt64

def Choice.none : Choice := ⟨Option.none, Option.none, [], [], [], [], [], 0xffffffffffffffff⟩

/-- An event is running, by its status or by the clock. -/
def isRunning (clock : UInt64) (sec : List UInt8) (pos : Nat) : Bool :=
  octet sec (pos + 10) / 32 % 8 == 4 ||
    match dvbEventTimestamp sec (pos + 2) with
    | some start => start ≤ clock && clock < start + eventDurationTicks sec (pos + 7)
    | Option.none => false

/-- One event of the loop. -/
def Choice.event (clock : UInt64) (sec : List UInt8) (choice : Choice) (pos : Nat) : Choice :=
  if octet sec 6 = 0 ∧ choice.haveNow = Option.none ∧ isRunning clock sec pos = true then
    { choice with
      haveNow := some pos
      nowTitle := title sec pos
      nowStart := formatEventTime sec (pos + 2)
      nowEnd := formatEventEnd sec (pos + 2) (pos + 7) }
  else
    match dvbEventTimestamp sec (pos + 2) with
    | some start =>
        if clock < start ∧ start < choice.nextStartValue then
          { choice with
            haveNext := some pos
            nextTitle := title sec pos
            nextStart := formatEventTime sec (pos + 2)
            nextStartValue := start }
        else choice
    | Option.none => choice

/-- What the events of a section leave. -/
def choose (clock : UInt64) (sec : List UInt8) : Choice :=
  (eventEntries sec).foldl (Choice.event clock sec) .none

/-- What the status shows. -/
structure Display where
  epgNow : List UInt8
  epgNext : List UInt8
  epgNowStart : List UInt8
  epgNowEnd : List UInt8
  epgNextStart : List UInt8

/-- A section of the present and the following event of a service. -/
def isOf (service : UInt16) (sec : List UInt8) : Bool :=
  18 ≤ sec.length && octet sec 0 == 0x4e && octet sec 6 ≤ 1 && be16 sec 3 == service

/-- `parse_eit_section`. The watched service is looked up when the section comes and again
when its events have been read. -/
def parseEitSection (service serviceThen : UInt16) (clock : UInt64) (sec : List UInt8)
    (display : Display) : Display :=
  if isOf service sec = true ∧ be16 sec 3 = serviceThen then
    let choice := choose clock sec
    let display :=
      if octet sec 6 = 0 ∧ choice.haveNow.isSome = true then
        { display with
          epgNow := choice.nowTitle
          epgNowStart := choice.nowStart
          epgNowEnd := choice.nowEnd }
      else display
    if choice.haveNext.isSome = true then
      { display with
        epgNext := choice.nextTitle
        epgNextStart := choice.nextStart }
    else display
  else display

end NowNext

end Stream
