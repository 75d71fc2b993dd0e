import Mathlib.Data.List.TakeWhile
import UsbDvbs2.Text.Decimal

/-! # Guide events through the daemon's output

The daemon prints a guide event as one line of fields, and the host's reader
splits its output into lines of its own buffer's size. Whatever the reads are, an
event arrives as printed exactly when its line fits that buffer.
-/

namespace Sdk

open Text

/-- The fields of `dtv_epg_event` that go through the pipe. -/
structure EpgEvent where
  serviceId : UInt16
  eventId : UInt16
  startUtc : Int
  durationSeconds : UInt32
  title : List UInt8
  text : List UInt8
  deriving DecidableEq

def titleSize : Nat := 192

def textSize : Nat := 384

def bar : UInt8 := 0x7c

/-- A text that stays in its field. -/
def Plain (text : List UInt8) : Prop := ∀ byte ∈ text, byte ≠ 0 ∧ byte ≠ bar ∧ byte ≠ cr ∧ byte ≠ lf

/-- What the engine can report. Six BCD digits make no more than 604065 seconds. -/
structure Reportable (event : EpgEvent) : Prop where
  least : int64Min ≤ event.startUtc
  most : event.startUtc ≤ int64Max
  duration : event.durationSeconds.toNat < 2 ^ 31
  titleFits : event.title.length < titleSize
  textFits : event.text.length < textSize
  titlePlain : Plain event.title
  textPlain : Plain event.text

def epgKeyword : List UInt8 := ascii ['E', 'P', 'G', '|']

/-- The fields of `on_epg` in front of the text. -/
def EpgEvent.head (event : EpgEvent) : List UInt8 :=
  epgKeyword ++ (decimal event.serviceId.toNat ++ bar :: (decimal event.eventId.toNat ++ bar ::
    (signed event.startUtc ++ bar :: (decimal event.durationSeconds.toNat ++ bar ::
      (event.title ++ [bar])))))

/-- The line that `on_epg` prints. -/
def onEpg (event : EpgEvent) : List UInt8 := event.head ++ event.text

/-! ## The reader -/

def lineSize : Nat := 512

/-- One byte in `daemon_log_reader`: the line so far, and a line that is done. -/
def readByte (line : List UInt8) (byte : UInt8) : List UInt8 × Option (List UInt8) :=
  if byte ≠ lf ∧ line.length + 1 < lineSize then
    (if byte ≠ cr then line ++ [byte] else line, none)
  else ([], if line = [] then none else some line)

/-- The bytes of one read, and the lines done in it. -/
def readBytes : List UInt8 → List UInt8 → List UInt8 × List (List UInt8)
  | line, [] => (line, [])
  | line, byte :: bytes =>
      let (next, done) := readByte line byte
      let (final, lines) := readBytes next bytes
      (final, done.toList ++ lines)

/-- The texts between the bars, with `field` since the last. -/
def splitBars (field : List UInt8) : List UInt8 → List (List UInt8)
  | [] => [field]
  | byte :: more =>
      if byte = bar then field :: splitBars [] more else splitBars (field ++ [byte]) more

/-- The event that a line is handed to the host as. -/
def lineEvent (line : List UInt8) : Option EpgEvent :=
  if epgKeyword.isPrefixOf line then
    match (splitBars [] ((line.drop 4).takeWhile (· != 0))).take 6 with
    | service :: event :: start :: duration :: title :: text =>
        some
          { serviceId := UInt16.ofInt (atoi service)
            eventId := UInt16.ofInt (atoi event)
            startUtc := strtoll start
            durationSeconds := UInt32.ofInt (atoi duration)
            title := title.take (titleSize - 1)
            text := (text.headD []).take (textSize - 1) }
    | _ => none
  else none

/-- `daemon_log_reader`: the events it hands to the host out of its reads. -/
def daemonLogReader : List UInt8 → List (List UInt8) → List EpgEvent
  | _, [] => []
  | line, read :: reads =>
      let (next, lines) := readBytes line read
      lines.filterMap lineEvent ++ daemonLogReader next reads

/-! ## What is printed -/

/-- A line of the daemon's output. -/
inductive Output where
  | epg (event : EpgEvent)
  | other (text : List UInt8)

def Output.text : Output → List UInt8
  | .epg event => onEpg event
  | .other text => text

/-- A line as the daemon can print it. The other lines fit the reader's buffer and
are not taken for a guide event. -/
def Output.Printable : Output → Prop
  | .epg event => Reportable event
  | .other text => lf ∉ text ∧ text.length < lineSize ∧
      epgKeyword.isPrefixOf (text.filter (· != cr)) = false

/-- The events among the lines. -/
def Output.event? : Output → Option EpgEvent
  | .epg event => some event
  | .other _ => none

/-- The bytes of a line, with the line end of the platform. -/
def Output.wire (crlf : Bool) (output : Output) : List UInt8 :=
  output.text ++ if crlf then [cr, lf] else [lf]

/-! ## Reading lines -/

theorem readBytes_append (line front back : List UInt8) :
    readBytes line (front ++ back) =
      ((readBytes (readBytes line front).1 back).1,
        (readBytes line front).2 ++ (readBytes (readBytes line front).1 back).2) := by
  induction front generalizing line with
  | nil => rfl
  | cons byte front ih =>
      simp only [List.cons_append, readBytes, ih, List.append_assoc]

/-- However the bytes come, the events are those of the whole. -/
theorem daemonLogReader_eq (line : List UInt8) (reads : List (List UInt8)) :
    daemonLogReader line reads = (readBytes line reads.flatten).2.filterMap lineEvent := by
  induction reads generalizing line with
  | nil => rfl
  | cons read reads ih =>
      rw [daemonLogReader, List.flatten_cons, readBytes_append, List.filterMap_append, ← ih]

/-- Bytes that fit the buffer are kept, without carriage returns. -/
theorem readBytes_short {line bytes : List UInt8} (single : lf ∉ bytes)
    (fits : line.length + bytes.length < lineSize) :
    readBytes line bytes = (line ++ bytes.filter (· != cr), []) := by
  induction bytes generalizing line with
  | nil => rw [readBytes, List.filter_nil, List.append_nil]
  | cons byte bytes ih =>
      have other : byte ≠ lf := fun same => single (same ▸ List.mem_cons_self ..)
      have later : lf ∉ bytes := fun mem => single (List.mem_cons_of_mem _ mem)
      rw [List.length_cons] at fits
      rw [readBytes, readByte, if_pos ⟨other, by omega⟩]
      simp only
      by_cases returns : byte = cr
      · rw [if_neg (by simpa using returns), ih later (by omega),
          List.filter_cons_of_neg (by simpa using returns)]
        rfl
      · rw [if_pos returns, ih later (by rw [List.length_append, List.length_singleton]; omega),
          List.filter_cons_of_pos (by simpa using returns), List.append_assoc]
        rfl

/-- The end of a line finishes it, also where the buffer is full before. -/
theorem readBytes_ending (line : List UInt8) (crlf : Bool) :
    readBytes line (if crlf then [cr, lf] else [lf]) =
      ([], if line = [] then [] else [line]) := by
  have newline : ∀ line, readByte line lf = ([], if line = [] then none else some line) :=
    fun line => if_neg fun both => both.1 rfl
  have finishes : readBytes line [lf] = ([], if line = [] then [] else [line]) := by
    simp only [readBytes, newline]
    split <;> rfl
  cases crlf with
  | false => exact finishes
  | true =>
      rw [if_pos rfl, readBytes]
      by_cases room : line.length + 1 < lineSize
      · have dropped : readByte line cr = (line, none) := by
          rw [readByte, if_pos ⟨cr_ne_lf, room⟩, if_neg (by decide)]
        rw [dropped]
        simp only [finishes]
        rfl
      · have full : line ≠ [] := by
          intro nil
          rw [nil] at room
          exact room (by decide)
        have done : readByte line cr = ([], some line) := by
          rw [readByte, if_neg (fun both => room both.2), if_neg full]
        rw [done, if_neg full]
        rfl

/-- A line that fits the buffer. -/
theorem readBytes_line {text : List UInt8} (single : lf ∉ text) (fits : text.length < lineSize)
    (crlf : Bool) :
    readBytes [] (text ++ if crlf then [cr, lf] else [lf]) =
      ([], if text.filter (· != cr) = [] then [] else [text.filter (· != cr)]) := by
  have kept := @readBytes_short [] _ single (by rw [List.length_nil]; omega)
  rw [readBytes_append, kept, List.nil_append, readBytes_ending]
  rfl

/-- A line that does not fit loses a byte and becomes two lines. -/
theorem readBytes_long {text : List UInt8} (single : lf ∉ text) (plain : cr ∉ text)
    (long : lineSize ≤ text.length) (crlf : Bool)
    (rest : (text.drop lineSize).length < lineSize) :
    ∃ others, readBytes [] (text ++ if crlf then [cr, lf] else [lf]) =
      ([], text.take (lineSize - 1) :: others) ∧
        ∀ line ∈ others, line = text.drop lineSize := by
  have front : (text.take (lineSize - 1)).length = lineSize - 1 :=
    List.length_take_of_le (by omega)
  have inside : lineSize - 1 < text.length := by
    unfold lineSize at *
    omega
  have split : text = text.take (lineSize - 1) ++ text[lineSize - 1] :: text.drop lineSize := by
    rw [show text.drop lineSize = text.drop (lineSize - 1 + 1) from rfl,
      ← List.drop_eq_getElem_cons inside, List.take_append_drop]
  have all : ∀ {part : List UInt8}, part ⊆ text → part.filter (· != cr) = part := by
    intro part within
    exact List.filter_eq_self.2 fun byte mem =>
      bne_iff_ne.2 fun same => plain (same ▸ within mem)
  have stored := @readBytes_short [] (text.take (lineSize - 1))
    (fun mem => single (List.mem_of_mem_take mem)) (by rw [front]; decide)
  have present : text.take (lineSize - 1) ≠ [] := by
    intro nil
    rw [nil] at front
    exact absurd front (by decide)
  have cut : readByte (text.take (lineSize - 1)) text[lineSize - 1] =
      ([], some (text.take (lineSize - 1))) := by
    rw [readByte, if_neg (fun both => absurd both.2 (by rw [front]; decide)), if_neg present]
  have single' : lf ∉ text.drop lineSize := fun mem => single (List.mem_of_mem_drop mem)
  rw [all (List.take_subset _ _), List.nil_append] at stored
  refine ⟨if text.drop lineSize = [] then [] else [text.drop lineSize], ?_, ?_⟩
  · have behind := readBytes_line single' rest crlf
    rw [all (List.drop_subset _ _)] at behind
    have whole : text ++ (if crlf then [cr, lf] else [lf]) = text.take (lineSize - 1) ++
        (text[lineSize - 1] :: (text.drop lineSize ++ if crlf then [cr, lf] else [lf])) := by
      rw [← List.cons_append, ← List.append_assoc, ← split]
    rw [whole, readBytes_append, stored, readBytes, cut]
    simp only [behind, List.nil_append, Option.toList_some, List.singleton_append]
  · intro line mem
    split at mem
    · exact nomatch mem
    · exact List.mem_singleton.1 mem

/-! ## Reading an event back -/

theorem splitBars_field {field : List UInt8} (plain : bar ∉ field) (sofar rest : List UInt8) :
    splitBars sofar (field ++ bar :: rest) = (sofar ++ field) :: splitBars [] rest := by
  induction field generalizing sofar with
  | nil => rw [List.nil_append, splitBars, if_pos rfl, List.append_nil]
  | cons byte field ih =>
      have other : byte ≠ bar := fun same => plain (same ▸ List.mem_cons_self ..)
      rw [List.cons_append, splitBars, if_neg other,
        ih (fun mem => plain (List.mem_cons_of_mem _ mem)), List.append_assoc]
      rfl

theorem splitBars_last {field : List UInt8} (plain : bar ∉ field) (sofar : List UInt8) :
    splitBars sofar field = [sofar ++ field] := by
  induction field generalizing sofar with
  | nil => rw [splitBars, List.append_nil]
  | cons byte field ih =>
      have other : byte ≠ bar := fun same => plain (same ▸ List.mem_cons_self ..)
      rw [splitBars, if_neg other, ih (fun mem => plain (List.mem_cons_of_mem _ mem)),
        List.append_assoc]
      rfl

theorem Plain.not_mem {text : List UInt8} (plain : Plain text) :
    0 ∉ text ∧ bar ∉ text ∧ cr ∉ text ∧ lf ∉ text :=
  ⟨fun mem => (plain _ mem).1 rfl, fun mem => (plain _ mem).2.1 rfl,
    fun mem => (plain _ mem).2.2.1 rfl, fun mem => (plain _ mem).2.2.2 rfl⟩

theorem Plain.append {front back : List UInt8} (first : Plain front) (second : Plain back) :
    Plain (front ++ back) := fun byte mem => (List.mem_append.1 mem).elim (first byte) (second byte)

theorem plain_of_digit {byte : UInt8} (digit : isDigit byte = true) :
    byte ≠ 0 ∧ byte ≠ bar ∧ byte ≠ cr ∧ byte ≠ lf := by
  refine ⟨?_, ?_, ?_, ?_⟩
  all_goals
    intro same
    rw [same] at digit
    exact absurd digit (by decide)

theorem plain_decimal (number : Nat) : Plain (decimal number) :=
  fun _ mem => plain_of_digit (isDigit_of_mem_decimal mem)

theorem plain_signed (number : Int) : Plain (signed number) := by
  unfold signed
  split
  · intro byte mem
    rcases List.mem_cons.1 mem with rfl | digits
    · exact ⟨by decide, by decide, by decide, by decide⟩
    · exact plain_decimal _ byte digits
  · exact plain_decimal _

/-- The fields behind the keyword. -/
def EpgEvent.fields (event : EpgEvent) : List UInt8 :=
  decimal event.serviceId.toNat ++ bar :: (decimal event.eventId.toNat ++ bar ::
    (signed event.startUtc ++ bar :: (decimal event.durationSeconds.toNat ++ bar ::
      (event.title ++ bar :: event.text))))

theorem onEpg_eq (event : EpgEvent) : onEpg event = epgKeyword ++ event.fields := by
  simp [onEpg, EpgEvent.head, EpgEvent.fields]

theorem splitBars_fields {event : EpgEvent} (reportable : Reportable event) :
    splitBars [] event.fields =
      [decimal event.serviceId.toNat, decimal event.eventId.toNat, signed event.startUtc,
        decimal event.durationSeconds.toNat, event.title, event.text] := by
  unfold EpgEvent.fields
  rw [splitBars_field (plain_decimal _).not_mem.2.1, splitBars_field (plain_decimal _).not_mem.2.1,
    splitBars_field (plain_signed _).not_mem.2.1, splitBars_field (plain_decimal _).not_mem.2.1,
    splitBars_field reportable.titlePlain.not_mem.2.1,
    splitBars_last reportable.textPlain.not_mem.2.1]
  rfl

/-- A byte that a line may hold. -/
def InLine (byte : UInt8) : Prop := byte ≠ 0 ∧ byte ≠ cr ∧ byte ≠ lf

theorem Plain.inLine {text : List UInt8} (plain : Plain text) {byte : UInt8} (mem : byte ∈ text) :
    InLine byte := ⟨(plain byte mem).1, (plain byte mem).2.2⟩

theorem inLine_bar : InLine bar := ⟨by decide, by decide, by decide⟩

theorem fields_inLine {event : EpgEvent} (reportable : Reportable event) :
    ∀ byte ∈ event.fields, InLine byte := by
  intro byte mem
  simp only [EpgEvent.fields, List.mem_append, List.mem_cons] at mem
  rcases mem with service | rfl | number | rfl | start | rfl | duration | rfl | title | rfl | text
  · exact (plain_decimal _).inLine service
  · exact inLine_bar
  · exact (plain_decimal _).inLine number
  · exact inLine_bar
  · exact (plain_signed _).inLine start
  · exact inLine_bar
  · exact (plain_decimal _).inLine duration
  · exact inLine_bar
  · exact reportable.titlePlain.inLine title
  · exact inLine_bar
  · exact reportable.textPlain.inLine text

/-- A whole line is the event that it was printed from. -/
theorem lineEvent_onEpg {event : EpgEvent} (reportable : Reportable event) :
    lineEvent (onEpg event) = some event := by
  have keyword : epgKeyword.isPrefixOf (epgKeyword ++ event.fields) = true :=
    List.isPrefixOf_iff_prefix.2 (List.prefix_append _ _)
  have whole : event.fields.takeWhile (· != 0) = event.fields :=
    List.takeWhile_eq_self_iff.2 fun byte mem => bne_iff_ne.2 (fields_inLine reportable byte mem).1
  have behind : (epgKeyword ++ event.fields).drop 4 = event.fields := rfl
  have titleWhole : event.title.take (titleSize - 1) = event.title :=
    List.take_of_length_le (Nat.le_pred_of_lt reportable.titleFits)
  have textWhole : event.text.take (textSize - 1) = event.text :=
    List.take_of_length_le (Nat.le_pred_of_lt reportable.textFits)
  rw [onEpg_eq, lineEvent, if_pos keyword, behind, whole, splitBars_fields reportable]
  simp only [List.take, List.headD_cons, titleWhole, textWhole, atoi_uint16,
    strtoll_signed reportable.least reportable.most, atoi_uint32 reportable.duration]

/-! ## Lines of the daemon -/

/-- Everything in front of the text fits the reader's buffer with room to spare. -/
theorem head_length {event : EpgEvent} (reportable : Reportable event) :
    event.head.length ≤ 240 := by
  have service : (decimal event.serviceId.toNat).length ≤ 5 :=
    decimal_length (by decide) (Nat.lt_trans event.serviceId.toNat_lt (by decide))
  have number : (decimal event.eventId.toNat).length ≤ 5 :=
    decimal_length (by decide) (Nat.lt_trans event.eventId.toNat_lt (by decide))
  have start := signed_length reportable.least reportable.most
  have duration : (decimal event.durationSeconds.toNat).length ≤ 10 :=
    decimal_length (by decide) (Nat.lt_trans reportable.duration (by decide))
  have title : event.title.length ≤ 191 := Nat.le_pred_of_lt reportable.titleFits
  have keyword : epgKeyword.length = 4 := rfl
  simp only [EpgEvent.head, List.length_append, List.length_cons, List.length_nil, keyword]
  omega

/-- The event with as much of its text as the buffer has room for. -/
def EpgEvent.clip (event : EpgEvent) : EpgEvent :=
  { event with text := event.text.take (lineSize - 1 - event.head.length) }

theorem Reportable.clip {event : EpgEvent} (reportable : Reportable event) :
    Reportable event.clip :=
  { reportable with
    textFits := Nat.lt_of_le_of_lt (List.length_take_le' _ _) reportable.textFits
    textPlain := fun byte mem => reportable.textPlain byte (List.mem_of_mem_take mem) }

theorem clip_eq_iff {event : EpgEvent} (reportable : Reportable event) :
    event.clip = event ↔ (onEpg event).length < lineSize := by
  have front := head_length reportable
  have total : (onEpg event).length = event.head.length + event.text.length := List.length_append
  constructor
  · intro same
    have length := congrArg (·.text.length) same
    simp only [EpgEvent.clip, List.length_take] at length
    unfold lineSize at *
    omega
  · intro fits
    have whole : event.text.take (lineSize - 1 - event.head.length) = event.text :=
      List.take_of_length_le (by unfold lineSize at *; omega)
    rw [EpgEvent.clip, whole]

theorem onEpg_inLine {event : EpgEvent} (reportable : Reportable event) :
    lf ∉ onEpg event ∧ cr ∉ onEpg event := by
  have keyword : lf ∉ epgKeyword ∧ cr ∉ epgKeyword := by decide
  rw [onEpg_eq]
  constructor
  · intro mem
    rcases List.mem_append.1 mem with inside | inside
    · exact keyword.1 inside
    · exact (fields_inLine reportable _ inside).2.2 rfl
  · intro mem
    rcases List.mem_append.1 mem with inside | inside
    · exact keyword.2 inside
    · exact (fields_inLine reportable _ inside).2.1 rfl

/-- Without a bar a line is no guide event. -/
theorem lineEvent_none {line : List UInt8} (plain : bar ∉ line) : lineEvent line = none := by
  refine if_neg fun keyword => plain ?_
  have inside := (List.isPrefixOf_iff_prefix.1 keyword).subset
  exact inside (by decide)

/-- A line of the daemon ends in the reader where it began, and hands over the
event that it holds, as far as there is room. -/
theorem readBytes_output {output : Output} (printable : output.Printable) (crlf : Bool) :
    (readBytes [] (output.wire crlf)).1 = [] ∧
      (readBytes [] (output.wire crlf)).2.filterMap lineEvent =
        (output.event?.map EpgEvent.clip).toList := by
  cases output with
  | other text =>
      obtain ⟨single, fits, keyword⟩ := printable
      have none : lineEvent (text.filter (· != cr)) = none := if_neg (by rw [keyword]; decide)
      rw [Output.wire, Output.text, readBytes_line single fits]
      refine ⟨rfl, ?_⟩
      simp only [Output.event?]
      split
      · rfl
      · rw [List.filterMap_cons_none none]
        rfl
  | epg event =>
      obtain ⟨single, returns⟩ := onEpg_inLine printable
      by_cases fits : (onEpg event).length < lineSize
      · have kept : (onEpg event).filter (· != cr) = onEpg event :=
          List.filter_eq_self.2 fun byte mem => bne_iff_ne.2 fun same => returns (same ▸ mem)
        have present : onEpg event ≠ [] := by simp [onEpg_eq, epgKeyword, ascii]
        rw [Output.wire, Output.text, readBytes_line single fits, kept, if_neg present]
        refine ⟨rfl, ?_⟩
        rw [List.filterMap_cons_some (lineEvent_onEpg printable), Output.event?, Option.map_some,
          (clip_eq_iff printable).2 fits]
        rfl
      · have front := head_length printable
        have shorter := printable.textFits
        have total : (onEpg event).length = event.head.length + event.text.length :=
          List.length_append
        have clipped : (onEpg event).take (lineSize - 1) = onEpg event.clip := by
          rw [onEpg, List.take_append, List.take_of_length_le (by unfold lineSize; omega)]
          rfl
        have behind : ((onEpg event).drop lineSize).length < lineSize := by
          rw [List.length_drop]
          unfold lineSize textSize at *
          omega
        obtain ⟨others, read, rest⟩ := readBytes_long single returns (by omega) crlf behind
        have nothing : others.filterMap lineEvent = [] := by
          refine List.filterMap_eq_nil_iff.2 fun line mem => lineEvent_none ?_
          rw [rest line mem, onEpg, List.drop_append,
            List.drop_eq_nil_of_le (by unfold lineSize; omega), List.nil_append]
          exact fun inside => printable.textPlain.not_mem.2.1 (List.mem_of_mem_drop inside)
        rw [Output.wire, Output.text, read]
        refine ⟨rfl, ?_⟩
        rw [clipped, List.filterMap_cons_some (lineEvent_onEpg printable.clip), nothing]
        rfl

/-- The daemon's standard output. -/
def wire (printed : List (Output × Bool)) : List UInt8 :=
  printed.flatMap fun line => line.1.wire line.2

def events (printed : List (Output × Bool)) : List EpgEvent :=
  printed.filterMap fun line => line.1.event?

theorem daemonLogReader_clips {printed : List (Output × Bool)} {reads : List (List UInt8)}
    (printable : ∀ line ∈ printed, line.1.Printable) (sent : reads.flatten = wire printed) :
    daemonLogReader [] reads = (events printed).map EpgEvent.clip := by
  rw [daemonLogReader_eq, sent]
  clear sent
  induction printed with
  | nil => rfl
  | cons line printed ih =>
      obtain ⟨empty, handed⟩ := readBytes_output (printable line (List.mem_cons_self ..)) line.2
      have later := ih fun other mem => printable other (List.mem_cons_of_mem _ mem)
      rw [wire, List.flatMap_cons, readBytes_append, empty, List.filterMap_append, handed]
      change _ ++ (readBytes [] (wire printed)).2.filterMap lineEvent = _
      have split : events (line :: printed) = line.1.event?.toList ++ events printed := by
        rw [events, List.filterMap_cons]
        cases line.1.event? <;> rfl
      rw [later, split, List.map_append, Option.toList_map]

/-- Whatever the reads are, the host gets exactly the events that were printed if
and only if the line of every event fits the reader's buffer. -/
theorem daemonLogReader_exact {printed : List (Output × Bool)} {reads : List (List UInt8)}
    (printable : ∀ line ∈ printed, line.1.Printable) (sent : reads.flatten = wire printed) :
    daemonLogReader [] reads = events printed ↔
      ∀ event ∈ events printed, (onEpg event).length < lineSize := by
  have reportable : ∀ event ∈ events printed, Reportable event := by
    intro event mem
    obtain ⟨⟨output, crlf⟩, inside, found⟩ := List.mem_filterMap.1 mem
    cases output with
    | other text => exact nomatch found
    | epg other =>
        obtain rfl := Option.some.inj found
        exact printable _ inside
  have fixed : (events printed).map EpgEvent.clip = events printed ↔
      ∀ event ∈ events printed, event.clip = event := by
    simpa using List.map_inj_left (l := events printed) (f := EpgEvent.clip) (g := id)
  rw [daemonLogReader_clips printable sent, fixed]
  exact forall₂_congr fun event mem => clip_eq_iff (reportable event mem)

/-- A programme with a synopsis of 383 letters. -/
def longEvent : EpgEvent :=
  { serviceId := 17, eventId := 4711, startUtc := 1760000000, durationSeconds := 5400
    title := .replicate 120 0x41, text := .replicate 383 0x61 }

theorem longEvent_reportable : Reportable longEvent where
  least := by decide
  most := by decide
  duration := by decide
  titleFits := by decide +kernel
  textFits := by decide +kernel
  titlePlain := fun byte mem => by
    rw [List.eq_of_mem_replicate mem]
    decide
  textPlain := fun byte mem => by
    rw [List.eq_of_mem_replicate mem]
    decide

def longPrinted : List (Output × Bool) := [(.epg longEvent, false)]

theorem longPrinted_printable : ∀ line ∈ longPrinted, line.1.Printable := by
  intro line mem
  rw [List.mem_singleton.1 mem]
  exact longEvent_reportable

/-- The end of a long synopsis does not arrive. -/
theorem daemonLogReader_truncates : ∃ (printed : List (Output × Bool)) (reads : List (List UInt8)),
    (∀ line ∈ printed, line.1.Printable) ∧ reads.flatten = wire printed ∧
      daemonLogReader [] reads ≠ events printed := by
  have sent : [wire longPrinted].flatten = wire longPrinted := by simp
  refine ⟨longPrinted, [wire longPrinted], longPrinted_printable, sent, ?_⟩
  rw [daemonLogReader_clips longPrinted_printable sent]
  decide +kernel

theorem daemonLogReader_exact_long :
    daemonLogReader [] [wire longPrinted] = events longPrinted ↔
      ∀ event ∈ events longPrinted, (onEpg event).length < lineSize :=
  daemonLogReader_exact longPrinted_printable (by simp)

end Sdk
