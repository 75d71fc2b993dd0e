import UsbDvbs2.Stream.PmtRewrite
import UsbDvbs2.Text.DvbText

/-! # Events of the event information table

A section of the table lists the events of one service. An event is reported when
its start can be read and it has a title.
-/

namespace Stream

open Bytes Text

/-! ## The clock of an event -/

/-- `bcd_value`. -/
def bcdValue (value : Nat) : Nat := value / 16 * 10 + value % 16

/-- `mjd_to_date`: year, month and day. The divisions by 365.25 and 30.6001 are written
out in whole numbers; none of the quotients comes near a whole one from below. -/
def mjdToDate (mjd : Nat) : Int × Int × Int :=
  let year : Int := (20 * (mjd : Int) - 301564).tdiv 7305
  let days := (year * 1461).tdiv 4
  let month := (10000 * (mjd : Int) - 149561000 - 10000 * days).tdiv 306001
  let day := (mjd : Int) - 14956 - days - (month * 306001).tdiv 10000
  let carry : Int := if month = 14 ∨ month = 15 then 1 else 0
  (year + carry + 1900, month - 1 - carry * 12, day)

/-- `days_from_civil`. -/
def daysFromCivil (year month day : Int) : Int :=
  let year := if month ≤ 2 then year - 1 else year
  let era := (if 0 ≤ year then year else year - 399).tdiv 400
  let yearOfEra := year - era * 400
  let dayOfYear := (153 * (month + if 2 < month then -3 else 9) + 2).tdiv 5 + day - 1
  let dayOfEra := yearOfEra * 365 + yearOfEra.tdiv 4 - yearOfEra.tdiv 100 + dayOfYear
  era * 146097 + dayOfEra - 719468

/-- `event_start_utc`, of the five bytes at a position. -/
def eventStartUtc (sec : List UInt8) (pos : Nat) : Option Int :=
  let mjd := octet sec pos * 256 + octet sec (pos + 1)
  let (year, month, day) := mjdToDate mjd
  if mjd = 0xffff ∨ mjd = 0 then none
  else if month < 1 ∨ 12 < month ∨ day < 1 ∨ 31 < day then none
  else some (daysFromCivil year month day * 86400 + bcdValue (octet sec (pos + 2)) * 3600 +
    bcdValue (octet sec (pos + 3)) * 60 + bcdValue (octet sec (pos + 4)))

/-! ## Its texts -/

def titleSize : Nat := 192

def textSize : Nat := 384

/-- A list without the end of it that a test holds of. -/
def trimEnd (test : UInt8 → Bool) (text : List UInt8) : List UInt8 :=
  (text.reverse.dropWhile test).reverse

/-- The place of the terminator: it goes back while the byte there continues a character. -/
def backUp (field : List UInt8) : Nat → Nat
  | 0 => 0
  | out + 1 => if field.getD (out + 1) 0 &&& 0xc0 = 0x80 then backUp field out else out + 1

/-- `copy_text`, into a field that already holds some bytes. -/
def copyText (target source : List UInt8) : List UInt8 :=
  if target = [] then target
  else
    let decoded := (dtvDvbTextToUtf8 512 source).map fun ch => if ch = 0x7c then 0x20 else ch
    let copied := (decoded.dropWhile (· = 0x20)).take (target.length - 1)
    let field := copied ++ target.drop copied.length
    field.set (backUp field (trimEnd (· = 0x20) copied).length) 0

/-- The text in a field, up to its terminator. -/
def cString (field : List UInt8) : List UInt8 := field.takeWhile (· ≠ 0)

/-! ## The section -/

/-- `dtv_epg_event`. -/
structure EpgEvent where
  serviceId : UInt16
  eventId : UInt16
  startUtc : Int
  durationSeconds : Nat
  runningStatus : Nat
  scrambled : Nat
  title : List UInt8
  text : List UInt8
  deriving DecidableEq

/-- The fields of an event for its texts. -/
structure EventTexts where
  title : List UInt8
  text : List UInt8

/-- `memset`. -/
def EventTexts.cleared : EventTexts := ⟨List.replicate titleSize 0, List.replicate textSize 0⟩

/-- A descriptor of an event; only the short event descriptor is read. -/
def readShortEvent (texts : EventTexts) (raw : List UInt8) : EventTexts :=
  let data := raw.drop 2
  let nameLength := octet data 3
  if octet raw 0 = 0x4d ∧ 5 ≤ data.length then
    if 4 + nameLength + 1 ≤ data.length then
      let textLength := octet data (4 + nameLength)
      let named := { texts with title := copyText texts.title (slice data 4 nameLength) }
      if 5 + nameLength + textLength ≤ data.length then
        { named with text := copyText texts.text (slice data (5 + nameLength) textLength) }
      else named
    else if 4 + nameLength ≤ data.length then
      { texts with title := copyText texts.title (slice data 4 nameLength) }
    else texts
  else texts

/-- What the descriptors of the event at a position leave in its fields. -/
def eventTexts (sec : List UInt8) (pos : Nat) : EventTexts :=
  (descriptorSlices sec (pos + 12) (pos + 12 + be12 sec (pos + 10))).foldl readShortEvent .cleared

/-- The event at a position, unless it has no start or no title. -/
def readEvent (sec : List UInt8) (pos : Nat) : Option EpgEvent :=
  match eventStartUtc sec (pos + 2) with
  | none => none
  | some startUtc =>
      let texts := eventTexts sec pos
      if texts.title.getD 0 0 = 0 then none
      else
        some
          { serviceId := be16 sec 3
            eventId := be16 sec pos
            startUtc
            durationSeconds := bcdValue (octet sec (pos + 7)) * 3600 +
              bcdValue (octet sec (pos + 8)) * 60 + bcdValue (octet sec (pos + 9))
            runningStatus := octet sec (pos + 10) / 32 % 8
            scrambled := octet sec (pos + 10) / 16 % 2
            title := cString texts.title
            text := cString texts.text }

/-- `dtv_epg_is_event_table`. -/
def isEventTable (tableId : Nat) : Bool :=
  tableId = 0x4e || tableId = 0x4f || 0x50 ≤ tableId && tableId ≤ 0x6f

/-- `dtv_epg_section_version`. -/
def epgSectionVersion (sec : List UInt8) : Option Nat :=
  if sec.length < 6 then none else some (octet sec 5 / 2 % 32)

/-- The positions of the event loop, up to the first event that overruns the section. -/
def eventEntries (sec : List UInt8) : List Nat :=
  (entries 12 (sec.length - 4) (fun pos => be12 sec (pos + 10)) 14).takeWhile fun pos =>
    pos + 12 + be12 sec (pos + 10) ≤ sec.length - 4

/-- A section that the loop is entered for. -/
def isEventSection (sec : List UInt8) : Bool := 18 ≤ sec.length && isEventTable (octet sec 0)

/-- `dtv_epg_parse_section`, into room for `maxEvents`. -/
def epgParseSection (sec : List UInt8) (maxEvents : Nat) : List EpgEvent :=
  if isEventSection sec then ((eventEntries sec).filterMap (readEvent sec)).take maxEvents else []

theorem readEvent_key {sec : List UInt8} {pos : Nat} {event : EpgEvent}
    (read : readEvent sec pos = some event) :
    event.serviceId = be16 sec 3 ∧ event.eventId = be16 sec pos := by
  unfold readEvent at read
  split at read
  · exact nomatch read
  · simp only at read
    split at read
    · exact nomatch read
    · obtain rfl := Option.some.inj read
      exact ⟨rfl, rfl⟩

end Stream
