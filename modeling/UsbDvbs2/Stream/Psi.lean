import UsbDvbs2.Bytes.Entries
import UsbDvbs2.Camd.Client

/-! # Programme tables

Sections put together from packets, and what the stream thread reads out of a
PAT or a PMT section. A section is handed on with exactly its own bytes, and
every read below stays inside them.
-/

namespace Stream

open Bytes Camd

/-- A transport stream packet. -/
structure Packet where
  bytes : List UInt8
  size : bytes.length = 188

def Packet.pid (packet : Packet) : UInt16 := be13 packet.bytes 1

/-- `psi_section_assembler`: the bytes collected so far, and how many the
section needs, zero while unknown. -/
structure Assembler where
  data : List UInt8
  expected : Nat
  deriving DecidableEq

def Assembler.empty : Assembler := ⟨[], 0⟩

def assemblerSize : Nat := 1024

/-- Append a packet's payload; the section, once it is whole. -/
def Assembler.collect (asm : Assembler) (payload : List UInt8) : Assembler × Option (List UInt8) :=
  let data := asm.data ++ payload.take (assemblerSize - asm.data.length)
  if data.length = asm.data.length then (.empty, none)
  else
    let opens := asm.expected = 0 ∧ 3 ≤ data.length
    let expected := if opens then 3 + be12 data 1 else asm.expected
    if opens ∧ assemblerSize < expected then (.empty, none)
    else if expected ≠ 0 ∧ expected ≤ data.length then (.empty, some (data.take expected))
    else (⟨data, expected⟩, none)

/-- `psi_assemble`. -/
def psiAssemble (asm : Assembler) (packet : Packet) : Assembler × Option (List UInt8) :=
  let control := octet packet.bytes 3 / 16 % 4
  if control ≠ 1 ∧ control ≠ 3 then (asm, none)
  else
    let offset := if control = 1 then 4 else 5 + octet packet.bytes 4
    if 188 ≤ offset then (asm, none)
    else if octet packet.bytes 1 / 64 % 2 = 1 then
      let pointer := octet packet.bytes offset
      if 188 < offset + 1 + pointer then (asm, none)
      else if 188 ≤ offset + 1 + pointer then (.empty, none)
      else Assembler.collect .empty (packet.bytes.drop (offset + 1 + pointer))
    else if asm.data = [] then (asm, none)
    else asm.collect (packet.bytes.drop offset)

/-! ## The PAT -/

/-- `pat_lookup_pmt_pid`. -/
def patLookupPmtPid (sec : List UInt8) (service : UInt16) : UInt16 :=
  if sec.length < 12 ∨ octet sec 0 ≠ 0x00 then noPid
  else
    match (entries 4 (sec.length - 4) (fun _ => 0) 8).find? (be16 sec · = service) with
    | some pos => be13 sec (pos + 2)
    | none => noPid

/-! ## The PMT -/

/-- The test that every reader of a PMT begins with. -/
def isPmtOf (sec : List UInt8) (service : UInt16) : Bool :=
  16 ≤ sec.length && octet sec 0 == 0x02 && be16 sec 3 == service

def programInfoEnd (sec : List UInt8) : Nat := 12 + be12 sec 10

/-- The positions of the stream loop. -/
def streamEntries (sec : List UInt8) : List Nat :=
  entries 5 (sec.length - 4) (fun pos => be12 sec (pos + 3)) (programInfoEnd sec)

/-- The positions of a descriptor loop. -/
def descriptors (sec : List UInt8) (start limit : Nat) : List Nat :=
  entries 2 limit (fun pos => octet sec (pos + 1)) start

def isVideoType (streamType : Nat) : Bool :=
  streamType ∈ [0x01, 0x02, 0x10, 0x1b, 0x24, 0x42]

def isAudioType (streamType : Nat) : Bool :=
  streamType ∈ [0x03, 0x04, 0x0f, 0x11, 0x81, 0x87]

/-- The video and the audio pid of a service. -/
structure AvPids where
  video : UInt16
  audio : UInt16
  deriving DecidableEq

def AvPids.unknown : AvPids := ⟨noPid, noPid⟩

def AvPids.see (sec : List UInt8) (pids : AvPids) (pos : Nat) : AvPids :=
  let streamType := octet sec pos
  if isVideoType streamType ∧ noPid ≤ pids.video then { pids with video := be13 sec (pos + 1) }
  else if isAudioType streamType ∧ noPid ≤ pids.audio then
    { pids with audio := be13 sec (pos + 1) }
  else pids

/-- `pmt_lookup_stream_pids`, starting from unknown pids. -/
def pmtLookupStreamPids (sec : List UInt8) (service : UInt16) : AvPids :=
  if isPmtOf sec service then (streamEntries sec).foldl (AvPids.see sec) .unknown else .unknown

/-- BISS is CA system 0x26xx. -/
def isBiss (caSystemId : UInt16) : Bool := caSystemId >>> 8 == 0x26

/-- `ca_descriptor_candidate`. -/
def caDescriptorCandidate (sec : List UInt8) (candidates : List Candidate) (pos : Nat) :
    List Candidate :=
  let caSystemId := be16 sec (pos + 2)
  let ecmPid := be13 sec (pos + 4)
  if octet sec (pos + 1) < 4 ∨ maxCandidates ≤ candidates.length then candidates
  else if caSystemId = 0 then candidates
  else if noPid ≤ ecmPid ∧ ¬ isBiss caSystemId then candidates
  else if candidates.any fun other => other.caSystemId == caSystemId && other.ecmPid == ecmPid then
    candidates
  else candidates ++ [⟨caSystemId, ecmPid, 0⟩]

/-- The CA descriptors of one descriptor loop. -/
def caLoop (sec : List UInt8) (start limit : Nat) (candidates : List Candidate) : List Candidate :=
  ((descriptors sec start limit).filter fun pos => octet sec pos == 0x09).foldl
    (caDescriptorCandidate sec) candidates

/-- A stream entry that does not overrun the table. -/
def entryFits (sec : List UInt8) (pos : Nat) : Bool :=
  pos + 5 + be12 sec (pos + 3) ≤ sec.length - 4

/-- `pmt_collect_ca`; the stream loop ends at the first entry that overruns. -/
def pmtCollectCa (sec : List UInt8) (service : UInt16) : List Candidate :=
  if isPmtOf sec service = true ∧ programInfoEnd sec ≤ sec.length - 4 then
    ((streamEntries sec).takeWhile (entryFits sec)).foldl
      (fun candidates pos => caLoop sec (pos + 5) (pos + 5 + be12 sec (pos + 3)) candidates)
      (caLoop sec 12 (programInfoEnd sec) [])
  else []

/-! ## What the rebuilt PMT is made from -/

def maxProgramPids : Nat := 32

/-- A stream entry of private data with a teletext descriptor. -/
def isTeletext (sec : List UInt8) (pos : Nat) : Bool :=
  let limit := pos + 5 + be12 sec (pos + 3)
  let whole := (descriptors sec (pos + 5) limit).takeWhile fun d =>
    d + 2 + octet sec (d + 1) ≤ limit
  octet sec pos == 0x06 && whole.any fun d => octet sec d == 0x56 || octet sec d == 0x46

/-- The stream loop of `udp_ts_send_selected_pmt`: the teletext pid so far and,
unless an entry overruns the table, the pids of all streams. -/
def selectStreams (sec : List UInt8) : List Nat → UInt16 → List UInt16 →
    UInt16 × Option (List UInt16)
  | [], teletext, found => (teletext, some found)
  | pos :: rest, teletext, found =>
      if entryFits sec pos then
        selectStreams sec rest (if isTeletext sec pos then be13 sec (pos + 1) else teletext)
          (if found.length < maxProgramPids then found ++ [be13 sec (pos + 1)] else found)
      else (teletext, none)

/-- What `udp_ts_send_selected_pmt` hands back. -/
structure Selected where
  teletext : UInt16
  pcr : UInt16
  streams : List UInt16
  deriving DecidableEq

/-- The pids that `udp_ts_send_selected_pmt` finds. A section has at most 1024
bytes, so the copy it makes beside always fits. -/
def sendSelectedPmt (sec : List UInt8) (service : UInt16) (known : Selected) : Selected :=
  if isPmtOf sec service = true ∧ programInfoEnd sec ≤ sec.length - 4 then
    let selected := selectStreams sec (streamEntries sec) known.teletext []
    ⟨selected.1, be13 sec 8, selected.2.getD known.streams⟩
  else known

end Stream
