import UsbDvbs2.Stream.PmtRewrite

/-! # What a PMT leaves behind

`udp_ts_send_selected_pmt` with everything it writes: the pids it hands back through its
arguments, and the packets of the rebuilt table. It can fail at each of its loops and at
the send behind them, and by then some of the pids are written.
-/

namespace Stream

open Bytes Mpeg

/-! ## The writer -/

def datagramRoom : Nat := 7

/-- The datagram that is being filled, and the `sendto` calls so far. -/
structure Writer where
  datagram : List Packet
  calls : Nat
  room : datagram.length < datagramRoom

/-- `udp_ts_send_packet`; `sendto` says which calls succeed. -/
def udpTsSendPacket (sendto : Nat → Bool) (writer : Writer) (packet : Packet) : Bool × Writer :=
  if full : writer.datagram.length + 1 = datagramRoom then
    (sendto writer.calls, ⟨[], writer.calls + 1, by decide⟩)
  else
    (true, { writer with
      datagram := writer.datagram ++ [packet]
      room := by
        have room := writer.room
        rw [List.length_append, List.length_singleton]
        omega })

/-- The packets of a section up to the first that fails, and how many there were. -/
def writePackets (sendto : Nat → Bool) : List Packet → Writer → Bool × Nat × Writer
  | [], writer => (true, 0, writer)
  | packet :: packets, writer =>
      match udpTsSendPacket sendto writer packet with
      | (false, writer) => (false, 1, writer)
      | (true, writer) =>
          let rest := writePackets sendto packets writer
          (rest.1, rest.2.1 + 1, rest.2.2)

/-- `udp_ts_send_section` through a writer, with the next counter. -/
def sendSection (sendto : Nat → Bool) (pid : UInt16) (counter : UInt8) (sec : List UInt8)
    (writer : Writer) : Bool × UInt8 × Writer :=
  let sent := writePackets sendto (udpTsSendSection pid counter true sec).1 writer
  (sent.1, UInt8.ofNat ((counter.toNat + sent.2.1) % 16), sent.2.2)

/-! ## The table -/

/-- What the caller hands in by address. `streamPids` is the whole array. -/
structure PmtOutputs where
  teletextPid : UInt16
  pcrPid : UInt16
  streamPids : List UInt16
  streamCount : Nat
  deriving DecidableEq

/-- What the stream loop carries along. -/
structure StreamLoop where
  teletext : UInt16
  found : List UInt16
  out : List UInt8

/-- An entry that was read, before it is known whether it fits into the section. -/
def StreamLoop.read (loop : StreamLoop) (sec : List UInt8) (capacity pos : Nat) : StreamLoop where
  teletext := if isTeletext sec pos then be13 sec (pos + 1) else loop.teletext
  found :=
    if loop.found.length < capacity then loop.found ++ [be13 sec (pos + 1)] else loop.found
  out := loop.out

/-- An entry that is sent on. -/
def StreamLoop.copy (loop : StreamLoop) (strip : Bool) (entry : List UInt8) : StreamLoop :=
  { loop with out := loop.out ++ copyEntry strip entry }

def entryAt (sec : List UInt8) (pos : Nat) : List UInt8 := slice sec pos (5 + be12 sec (pos + 3))

/-- The stream loop, and whether it came to its end. -/
def runStreams (sec : List UInt8) (strip : Bool) (capacity : Nat) :
    List Nat → StreamLoop → StreamLoop × Bool
  | [], loop => (loop, true)
  | pos :: rest, loop =>
      if entryFits sec pos then
        if sectionSize < loop.out.length + (entryAt sec pos).length + 4 then
          (loop.read sec capacity pos, false)
        else
          runStreams sec strip capacity rest
            ((loop.read sec capacity pos).copy strip (entryAt sec pos))
      else (loop, false)

/-- What is sent for a table. -/
def finish (out : List UInt8) : List UInt8 :=
  let body := setBe12 out 1 (out.length - 3 + 4)
  body ++ crcBytes (crc32 body)

/-- The copy of the table up to its streams, unless it is turned down before. -/
def copyProgram (sec : List UInt8) (service : UInt16) (strip : Bool) : Option (List UInt8) :=
  if isPmtOf sec service = true ∧ programInfoEnd sec ≤ sec.length - 4 ∧
      programInfoEnd sec ≤ sectionSize - 4 then
    (copyDescriptors strip (descriptorSlices sec 12 (programInfoEnd sec)) (sec.take 12)).map
      fun front => setBe12 front 10 (front.length - 12)
  else none

structure PmtResult where
  rc : Int
  outputs : PmtOutputs
  counter : UInt8
  writer : Writer

/-- The outputs with the pids that are written while the table is read. -/
def PmtOutputs.name (outputs : PmtOutputs) (pcr teletext : UInt16) : PmtOutputs :=
  { outputs with pcrPid := pcr, teletextPid := teletext }

/-- The pids that the loop found, in front of what the array held. -/
def PmtOutputs.handOver (outputs : PmtOutputs) (found : List UInt16) : PmtOutputs :=
  { outputs with
    streamPids := found ++ outputs.streamPids.drop found.length
    streamCount := found.length }

/-- `udp_ts_send_selected_pmt`. -/
def udpTsSendSelectedPmt (sec : List UInt8) (service pid : UInt16) (strip : Bool)
    (streamCapacity : Nat) (sendto : Nat → Bool) (counter : UInt8) (writer : Writer)
    (outputs : PmtOutputs) : PmtResult :=
  match copyProgram sec service strip with
  | none => ⟨-1, outputs, counter, writer⟩
  | some front =>
      let capacity := min streamCapacity maxProgramPids
      let ran := runStreams sec strip capacity (streamEntries sec) ⟨outputs.teletextPid, [], front⟩
      let outputs := outputs.name (be13 sec 8) ran.1.teletext
      if ran.2 then
        let outputs := outputs.handOver ran.1.found
        let sent := sendSection sendto pid counter (finish ran.1.out) writer
        ⟨if sent.1 then 0 else -1, outputs, sent.2.1, sent.2.2⟩
      else ⟨-1, outputs, counter, writer⟩

/-! ## What the send needs -/

/-- The calls succeed that fall into the next packets. -/
def Writer.Accepts (writer : Writer) (sendto : Nat → Bool) (packets : Nat) : Prop :=
  ∀ call < (writer.datagram.length + packets) / datagramRoom,
    sendto (writer.calls + call) = true

/-- Where the next packet fills the datagram, the socket takes it, and the packets behind it are
written to an empty one. -/
theorem Writer.accepts_full {writer : Writer} (full : writer.datagram.length + 1 = datagramRoom)
    (sendto : Nat → Bool) (packets : Nat) : writer.Accepts sendto (packets + 1) ↔
      sendto writer.calls = true ∧ Accepts ⟨[], writer.calls + 1, by decide⟩ sendto packets := by
  have one : (writer.datagram.length + (packets + 1)) / datagramRoom =
      (([] : List Packet).length + packets) / datagramRoom + 1 := by
    rw [datagramRoom] at full
    rw [List.length_nil, datagramRoom]
    omega
  rw [Accepts, Accepts, one]
  constructor
  · refine fun all => ⟨all 0 (Nat.succ_pos _), fun call below => ?_⟩
    have later := all (call + 1) (Nat.succ_lt_succ below)
    rwa [Nat.add_right_comm]
  · rintro ⟨first, all⟩ call below
    cases call with
    | zero => exact first
    | succ call =>
        have later := all call (Nat.lt_of_succ_lt_succ below)
        rwa [Nat.add_right_comm] at later

theorem writePackets_ok (sendto : Nat → Bool) (packets : List Packet) (writer : Writer) :
    (writePackets sendto packets writer).1 = true ↔ writer.Accepts sendto packets.length := by
  induction packets generalizing writer with
  | nil =>
      have none : (writer.datagram.length + 0) / datagramRoom = 0 :=
        Nat.div_eq_of_lt writer.room
      refine ⟨fun _ call below => ?_, fun _ => rfl⟩
      rw [List.length_nil, none] at below
      exact (Nat.not_lt_zero _ below).elim
  | cons packet packets ih =>
      rw [writePackets, udpTsSendPacket]
      by_cases full : writer.datagram.length + 1 = datagramRoom
      · rw [dif_pos full, List.length_cons, Writer.accepts_full full]
        cases sent : sendto writer.calls with
        | false => exact iff_of_false Bool.false_ne_true fun both => Bool.false_ne_true both.1
        | true =>
            dsimp only
            rw [ih]
            exact (and_iff_right rfl).symm
      · rw [dif_neg full]
        dsimp only
        rw [ih, Writer.Accepts, Writer.Accepts]
        simp only [List.length_append, List.length_cons, List.length_nil, Nat.zero_add,
          Nat.add_assoc, Nat.add_comm 1]

theorem sendSection_ok (sendto : Nat → Bool) (pid : UInt16) (counter : UInt8) (sec : List UInt8)
    (writer : Writer) : (sendSection sendto pid counter sec writer).1 = true ↔
      writer.Accepts sendto (udpTsSendSection pid counter true sec).1.length :=
  writePackets_ok sendto _ writer

/-! ## What the loop leaves -/

/-- The pid of the last teletext entry, if there is one. -/
def lastTeletext (sec : List UInt8) (positions : List Nat) (before : UInt16) : UInt16 :=
  positions.foldl (fun pid pos => if isTeletext sec pos then be13 sec (pos + 1) else pid) before

/-- The entries whose descriptors are looked at: up to the first that overruns the table, or to
the first that does not fit into the section. -/
def scanned (sec : List UInt8) (strip : Bool) : List Nat → List UInt8 → List Nat
  | [], _ => []
  | pos :: rest, out =>
      if entryFits sec pos then
        if sectionSize < out.length + (entryAt sec pos).length + 4 then [pos]
        else pos :: scanned sec strip rest (out ++ copyEntry strip (entryAt sec pos))
      else []

variable {sec : List UInt8} {strip : Bool} {capacity : Nat}

theorem runStreams_teletext (positions : List Nat) (loop : StreamLoop) :
    (runStreams sec strip capacity positions loop).1.teletext =
      lastTeletext sec (scanned sec strip positions loop.out) loop.teletext := by
  induction positions generalizing loop with
  | nil => rfl
  | cons pos rest ih =>
      rw [runStreams, scanned]
      by_cases whole : entryFits sec pos = true
      · rw [if_pos whole, if_pos whole]
        by_cases long : sectionSize < loop.out.length + (entryAt sec pos).length + 4
        · rw [if_pos long, if_pos long]
          rfl
        · rw [if_neg long, if_neg long]
          exact ih _
      · rw [if_neg whole, if_neg whole]
        rfl

theorem copyStreams_run (capacity : Nat) (positions : List Nat) (loop : StreamLoop) :
    copyStreams sec strip positions loop.out =
      if (runStreams sec strip capacity positions loop).2 = true then
        some (runStreams sec strip capacity positions loop).1.out
      else none := by
  induction positions generalizing loop with
  | nil => rfl
  | cons pos rest ih =>
      rw [runStreams, copyStreams]
      by_cases whole : entryFits sec pos = true
      · rw [if_pos whole, if_pos whole]
        by_cases long : sectionSize < loop.out.length + (entryAt sec pos).length + 4
        · rw [if_pos long]
          exact if_pos long
        · rw [if_neg long]
          exact (if_neg long).trans (ih ((loop.read sec capacity pos).copy strip (entryAt sec pos)))
      · rw [if_neg whole, if_neg whole]
        rfl

/-- The pids of entries, as many as there is room for. -/
def pidsOf (sec : List UInt8) (capacity : Nat) (positions : List Nat) : List UInt16 :=
  (positions.map fun pos => be13 sec (pos + 1)).take capacity

theorem read_found (loop : StreamLoop) (pos : Nat) (fits : loop.found.length ≤ capacity) :
    (loop.read sec capacity pos).found = (loop.found ++ [be13 sec (pos + 1)]).take capacity := by
  change (if loop.found.length < capacity then loop.found ++ [be13 sec (pos + 1)]
    else loop.found) = _
  split
  · rw [List.take_of_length_le]
    rw [List.length_append, List.length_singleton]
    exact Nat.succ_le_of_lt ‹_›
  · have full : loop.found.length = capacity := Nat.le_antisymm fits (Nat.le_of_not_lt ‹_›)
    rw [← full, List.take_left]

theorem take_append_take {α : Type} (front back : List α) (count : Nat) :
    (front.take count ++ back).take count = (front ++ back).take count := by
  have left : count - min count front.length = count - front.length := by omega
  rw [List.take_append, List.take_append, List.take_take, Nat.min_self, List.length_take, left]

theorem runStreams_found {positions : List Nat} {loop : StreamLoop}
    (fits : loop.found.length ≤ capacity)
    (taken : (runStreams sec strip capacity positions loop).2 = true) :
    (runStreams sec strip capacity positions loop).1.found =
      (loop.found ++ positions.map fun pos => be13 sec (pos + 1)).take capacity := by
  induction positions generalizing loop with
  | nil =>
      rw [List.map_nil, List.append_nil, List.take_of_length_le fits]
      rfl
  | cons pos rest ih =>
      rw [runStreams] at taken ⊢
      split at taken
      · rw [if_pos ‹_›]
        split at taken
        · exact nomatch taken
        · rw [if_neg ‹_›]
          have grown := @read_found sec capacity loop pos fits
          have short : (loop.read sec capacity pos).found.length ≤ capacity := by
            rw [grown]
            exact List.length_take_le _ _
          have later := @ih ((loop.read sec capacity pos).copy strip (entryAt sec pos)) short taken
          rw [later, List.map_cons, ← List.singleton_append, ← List.append_assoc,
            ← take_append_take (loop.found ++ [be13 sec (pos + 1)]), ← grown]
          rfl
      · exact nomatch taken

/-! ## When a failure leaves the pids alone -/

/-- The variables already hold these pids. -/
def PmtOutputs.Holds (outputs : PmtOutputs) (pids : List UInt16) : Prop :=
  outputs.streamPids.take pids.length = pids ∧ outputs.streamCount = pids.length

theorem name_eq (outputs : PmtOutputs) (pcr teletext : UInt16) :
    outputs.name pcr teletext = outputs ↔
      pcr = outputs.pcrPid ∧ teletext = outputs.teletextPid := by
  constructor
  · intro same
    exact ⟨congrArg PmtOutputs.pcrPid same, congrArg PmtOutputs.teletextPid same⟩
  · rintro ⟨rfl, rfl⟩
    rfl

theorem handOver_eq (outputs : PmtOutputs) (pcr teletext : UInt16) (pids : List UInt16) :
    (outputs.name pcr teletext).handOver pids = outputs ↔
      pcr = outputs.pcrPid ∧ teletext = outputs.teletextPid ∧ outputs.Holds pids := by
  have parts := List.take_append_drop pids.length outputs.streamPids
  constructor
  · intro same
    have array := congrArg PmtOutputs.streamPids same
    exact ⟨congrArg PmtOutputs.pcrPid same, congrArg PmtOutputs.teletextPid same,
      (List.append_cancel_right (array.trans parts.symm)).symm,
      (congrArg PmtOutputs.streamCount same).symm⟩
  · rintro ⟨rfl, rfl, front, count⟩
    rw [front] at parts
    simp only [PmtOutputs.handOver, PmtOutputs.name, parts]
    rw [← count]

section Outcome

variable {service pid : UInt16} {streamCapacity : Nat} {sendto : Nat → Bool} {counter : UInt8}
  {writer : Writer} {outputs : PmtOutputs}

/-- What is sent is the rebuilt table. -/
theorem rebuildPmt_eq (sec : List UInt8) (service : UInt16) (strip : Bool) :
    rebuildPmt sec service strip = (copyProgram sec service strip).bind fun front =>
      (copyStreams sec strip (streamEntries sec) front).map finish := by
  unfold rebuildPmt copyProgram
  split
  · cases copyDescriptors strip (descriptorSlices sec 12 (programInfoEnd sec)) (sec.take 12) with
    | none => rfl
    | some front =>
        simp only [Option.bind_eq_bind, Option.bind_some, Option.map_some]
        cases copyStreams sec strip (streamEntries sec) (setBe12 front 10 (front.length - 12)) with
        | none => rfl
        | some out => rfl
  · rfl

/-- The condition under which a failure changes nothing: the table is turned down before its
PCR pid is taken, or it is rebuilt and the writer takes it, or the pids that get written are
those that are already there. -/
def KeepsPids (sec : List UInt8) (service pid : UInt16) (strip : Bool) (streamCapacity : Nat)
    (sendto : Nat → Bool) (counter : UInt8) (writer : Writer) (outputs : PmtOutputs) : Prop :=
  match copyProgram sec service strip with
  | none => True
  | some front =>
      (∃ table, rebuildPmt sec service strip = some table ∧
        writer.Accepts sendto (udpTsSendSection pid counter true table).1.length) ∨
      be13 sec 8 = outputs.pcrPid ∧
        lastTeletext sec (scanned sec strip (streamEntries sec) front) outputs.teletextPid =
          outputs.teletextPid ∧
        ((rebuildPmt sec service strip).isSome →
          outputs.Holds (pidsOf sec (min streamCapacity maxProgramPids) (streamEntries sec)))

/-- A failure leaves the pids as they were exactly under that condition. -/
theorem failed_pmt_changes_nothing_iff (sec : List UInt8) (service pid : UInt16) (strip : Bool)
    (streamCapacity : Nat) (sendto : Nat → Bool) (counter : UInt8) (writer : Writer)
    (outputs : PmtOutputs) :
    ((udpTsSendSelectedPmt sec service pid strip streamCapacity sendto counter writer outputs).rc =
        -1 →
      (udpTsSendSelectedPmt sec service pid strip streamCapacity sendto counter writer
        outputs).outputs = outputs) ↔
      KeepsPids sec service pid strip streamCapacity sendto counter writer outputs := by
  rw [KeepsPids]
  cases copied : copyProgram sec service strip with
  | none =>
      simp only [udpTsSendSelectedPmt, copied]
      exact iff_of_true (fun _ => trivial) trivial
  | some front =>
      have teletext := @runStreams_teletext sec strip (min streamCapacity maxProgramPids)
        (streamEntries sec) ⟨outputs.teletextPid, [], front⟩
      have streams := @copyStreams_run sec strip (min streamCapacity maxProgramPids)
        (streamEntries sec) ⟨outputs.teletextPid, [], front⟩
      have found := @runStreams_found sec strip (min streamCapacity maxProgramPids)
        (streamEntries sec) ⟨outputs.teletextPid, [], front⟩ (Nat.zero_le _)
      simp only [udpTsSendSelectedPmt, copied, rebuildPmt_eq, Option.bind_some]
      generalize runStreams sec strip (min streamCapacity maxProgramPids) (streamEntries sec)
        ⟨outputs.teletextPid, [], front⟩ = ran at teletext streams found ⊢
      rw [← teletext]
      cases taken : ran.2 with
      | false =>
          have turned : copyStreams sec strip (streamEntries sec) front = none := by
            rw [streams, taken, if_neg Bool.false_ne_true]
          simp only [turned, Option.map_none, Bool.false_eq_true, if_false, true_imp_iff,
            reduceCtorEq, false_and, exists_false, false_or, Option.isSome_none, false_imp_iff,
            and_true]
          exact name_eq outputs _ _
      | true =>
          have rebuilt : copyStreams sec strip (streamEntries sec) front = some ran.1.out := by
            rw [streams, taken, if_pos rfl]
          have named : pidsOf sec (min streamCapacity maxProgramPids) (streamEntries sec) =
              ran.1.found := (found taken).symm
          have sends := sendSection_ok sendto pid counter (finish ran.1.out) writer
          simp only [rebuilt, Option.map_some, if_true, Option.some.injEq, exists_eq_left', named,
            Option.isSome_some, true_imp_iff, ← sends]
          by_cases sent : (sendSection sendto pid counter (finish ran.1.out) writer).1 = true
          · rw [if_pos sent]
            exact iff_of_true (fun fails => nomatch fails) (.inl sent)
          · simp only [if_neg sent, true_imp_iff]
            exact (handOver_eq outputs _ _ _).trans (or_iff_right sent).symm

end Outcome

/-! ## A table that is turned down half-way -/

/-- The only stream claims 255 bytes of descriptors. -/
def overrunPmt : List UInt8 :=
  [0x02, 0xb0, 0x12, 0x00, 0x01, 0xc1, 0x00, 0x00, 0xe1, 0x00, 0xf0, 0x00, 0x06, 0xe1, 0x01,
    0xf0, 0xff, 0x00, 0x00, 0x00, 0x00]

def lastGood : PmtOutputs := ⟨Camd.noPid, 0x1ff, [0x1ff, 0x200], 2⟩

theorem overrun_takes_pcr :
    (udpTsSendSelectedPmt overrunPmt 1 0x20 false 32 (fun _ => true) 0 ⟨[], 0, by decide⟩
      lastGood).rc = -1 ∧
    (udpTsSendSelectedPmt overrunPmt 1 0x20 false 32 (fun _ => true) 0 ⟨[], 0, by decide⟩
      lastGood).outputs.pcrPid = 0x100 ∧
    lastGood.pcrPid = 0x1ff := by
  decide

end Stream
