import UsbDvbs2.Engine.Receiver
import UsbDvbs2.Stream.Descrambler
import UsbDvbs2.Stream.Psi

/-! # The stream thread's channel

The variables of `daemon_stream_thread` that belong to the watched channel: the
reset when a channel is adopted, and what every packet of a read does to them.
Only what they learn is followed here, not what is sent on.
-/

namespace Stream

open Bytes Camd Engine

/-- The pid group that is copied under `g_lock`. -/
structure Group where
  svc : UInt16
  pmt : UInt16
  vpid : UInt16
  apid : UInt16
  ttxpid : UInt16
  hintCaid : UInt16
  deriving DecidableEq

def groupOf (channel : Channel) : Group :=
  ⟨channel.service, channel.pmt, channel.vpid, channel.apid, channel.ttxpid,
    channel.hintCaSystemId⟩

/-- The thread's variables; `here` is copied afresh every time round, and
`reportedCa` is none while it is -1. -/
structure Reader where
  here : Group
  epoch : UInt32
  pcrPid : UInt16
  learnedPmt : UInt16
  tablePids : Bool
  learned : AvPids
  learnedTtx : UInt16
  streamPids : List UInt16
  reportedCa : Option Bool
  bissPids : List UInt16
  patAsm : Assembler
  pmtAsm : Assembler
  ecmAsm : Assembler
  ecmPid : UInt16
  keys : Keyring
  deriving DecidableEq

/-- Before the first iteration; the epoch is -1. -/
def Reader.fresh : Reader where
  here := ⟨0, 0, 0, 0, 0, 0⟩
  epoch := 0xffffffff
  pcrPid := noPid
  learnedPmt := noPid
  tablePids := false
  learned := .unknown
  learnedTtx := noPid
  streamPids := []
  reportedCa := none
  bissPids := []
  patAsm := .empty
  pmtAsm := .empty
  ecmAsm := .empty
  ecmPid := noPid
  keys := .create

/-- The reset that adopts an epoch. -/
def Reader.adopt (reader : Reader) (epoch : UInt32) : Reader where
  here := reader.here
  epoch := epoch
  pcrPid := reader.here.vpid
  learnedPmt := noPid
  tablePids := false
  learned := .unknown
  learnedTtx := noPid
  streamPids := []
  reportedCa := none
  bissPids := []
  patAsm := .empty
  pmtAsm := .empty
  ecmAsm := .empty
  ecmPid := noPid
  keys := reader.keys.forget

/-- What was learned of the channel stands in for what its group leaves open;
the service's own table goes before the channel list. -/
def Reader.resolve (reader : Reader) : Reader :=
  { reader with
    here := { reader.here with
      pmt := if noPid ≤ reader.here.pmt then reader.learnedPmt else reader.here.pmt
      ttxpid := if noPid ≤ reader.here.ttxpid then reader.learnedTtx else reader.here.ttxpid
      vpid := if reader.tablePids then reader.learned.video else reader.here.vpid
      apid := if reader.tablePids then reader.learned.audio else reader.here.apid } }

/-! ## The CAM client as the stream thread uses it -/

/-- `dtv_camd_set_service` as a whole. -/
def setService (service : UInt16) (candidates : List Candidate) (client : Client) : Client :=
  let chosen := (client.setService service candidates).applyCandidate
  { chosen.2 with activeEcmPid := chosen.1 }

/-- `dtv_camd_submit_ecm` as a whole. -/
def submitEcm (ecm : List UInt8) (client : Client) : Client :=
  if isEcm ecm then (client.submitEcm ecm).2 else client

/-! ## The packets of a read -/

/-- The thread's variables and the client during a read. The log collects the
PAT and PMT sections acted on and the lists handed to `dtv_camd_set_service`. -/
structure Work where
  reader : Reader
  camd : Option Client
  sections : List (List UInt8)
  handed : List (UInt16 × List Candidate)

def Work.pat (work : Work) (sec : List UInt8) : Work :=
  let reader := work.reader
  let logged := { work with sections := work.sections ++ [sec] }
  if noPid ≤ reader.here.pmt then
    let pmt := patLookupPmtPid sec reader.here.svc
    { logged with reader := { reader with here := { reader.here with pmt }, learnedPmt := pmt } }
  else logged

/-- The pids of the service's own table go before the listed ones. -/
def Reader.readPids (reader : Reader) (sec : List UInt8) : Reader :=
  if isPmtOf sec reader.here.svc then
    let table := pmtLookupStreamPids sec reader.here.svc
    let taken :=
      if !reader.tablePids || table ≠ reader.learned then
        { reader with
          tablePids := true
          learned := table
          here := { reader.here with vpid := table.video, apid := table.audio } }
      else reader
    { taken with pcrPid := if noPid ≤ taken.pcrPid then taken.here.vpid else taken.pcrPid }
  else reader

/-- The CA systems of a service, or the BISS system the channel scan stored. -/
def candidatesOf (sec : List UInt8) (service hintCaid : UInt16) : List Candidate :=
  let collected := pmtCollectCa sec service
  if collected = [] ∧ isBiss hintCaid then [⟨hintCaid, noPid, 0⟩] else collected

/-- Pids a BISS key may be stored against, video first. -/
def bissPidsOf (vpid : UInt16) (streamPids : List UInt16) : List UInt16 :=
  ((if vpid < noPid then [vpid] else []) ++ streamPids.filter (· ≠ vpid)).take maxProgramPids ++
    [noPid]

/-- The hand-over of the CA systems, once a channel. -/
def Work.handOver (work : Work) (sec : List UInt8) : Work :=
  let reader := work.reader
  if reader.reportedCa = none then
    let candidates := candidatesOf sec reader.here.svc reader.here.hintCaid
    let camd := work.camd.map (setService reader.here.svc candidates)
    { work with
      reader := { reader with
        reportedCa := some (candidates ≠ [])
        ecmPid := (camd.map Client.activeEcmPid).getD reader.ecmPid
        bissPids := bissPidsOf reader.here.vpid reader.streamPids }
      camd
      handed := work.handed ++ [(reader.here.svc, candidates)] }
  else work

def Reader.selectPids (reader : Reader) (sec : List UInt8) : Reader :=
  let selected := sendSelectedPmt sec reader.here.svc
    ⟨reader.here.ttxpid, reader.pcrPid, reader.streamPids⟩
  { reader with
    here := { reader.here with ttxpid := selected.teletext }
    pcrPid := selected.pcr
    streamPids := selected.streams
    learnedTtx := selected.teletext }

/-- A section on the PMT pid. -/
def Work.pmt (work : Work) (sec : List UInt8) : Work :=
  let logged := { work with sections := work.sections ++ [sec] }
  let handed := Work.handOver { logged with reader := logged.reader.readPids sec } sec
  { handed with reader := handed.reader.selectPids sec }

/-- An ECM section goes to the client. -/
def Work.ecm (work : Work) (sec : List UInt8) : Work :=
  { work with camd := work.camd.map (submitEcm sec) }

/-- One packet of a read. ECM packets are consumed first; without a service
nothing is filtered. -/
def Work.packet (work : Work) (packet : Packet) : Work :=
  let reader := work.reader
  if packet.pid = reader.ecmPid ∧ reader.ecmPid < noPid then
    let assembled := psiAssemble reader.ecmAsm packet
    let kept := { work with reader := { reader with ecmAsm := assembled.1 } }
    match assembled.2 with
    | some sec => kept.ecm sec
    | none => kept
  else if reader.here.svc = 0 then work
  else if packet.pid = 0 then
    let assembled := psiAssemble reader.patAsm packet
    let kept := { work with reader := { reader with patAsm := assembled.1 } }
    match assembled.2 with
    | some sec => kept.pat sec
    | none => kept
  else if packet.pid = reader.here.pmt ∧ reader.here.pmt < noPid then
    let assembled := psiAssemble reader.pmtAsm packet
    let kept := { work with reader := { reader with pmtAsm := assembled.1 } }
    match assembled.2 with
    | some sec => kept.pmt sec
    | none => kept
  else work

/-- Other assembler states, and nothing else. -/
def Work.assembling (work : Work) (patAsm pmtAsm ecmAsm : Assembler) : Work :=
  { work with reader := { work.reader with patAsm, pmtAsm, ecmAsm } }

/-- What a packet does besides moving the assemblers: nothing, or it completes
one section. -/
theorem Work.packet_cases (work : Work) (packet : Packet) :
    ∃ patAsm pmtAsm ecmAsm, work.packet packet = work.assembling patAsm pmtAsm ecmAsm ∨
      ∃ sec, work.packet packet = (work.assembling patAsm pmtAsm ecmAsm).ecm sec ∨
        work.packet packet = (work.assembling patAsm pmtAsm ecmAsm).pat sec ∨
        work.packet packet = (work.assembling patAsm pmtAsm ecmAsm).pmt sec := by
  by_cases ecm : packet.pid = work.reader.ecmPid ∧ work.reader.ecmPid < noPid
  · refine ⟨work.reader.patAsm, work.reader.pmtAsm, (psiAssemble work.reader.ecmAsm packet).1, ?_⟩
    simp only [Work.packet, if_pos ecm]
    cases (psiAssemble work.reader.ecmAsm packet).2 with
    | none => exact .inl rfl
    | some sec => exact .inr ⟨sec, .inl rfl⟩
  by_cases unfiltered : work.reader.here.svc = 0
  · refine ⟨work.reader.patAsm, work.reader.pmtAsm, work.reader.ecmAsm, .inl ?_⟩
    rw [Work.packet, if_neg ecm, if_pos unfiltered]
    rfl
  by_cases pat : packet.pid = 0
  · refine ⟨(psiAssemble work.reader.patAsm packet).1, work.reader.pmtAsm, work.reader.ecmAsm, ?_⟩
    simp only [Work.packet, if_neg ecm, if_neg unfiltered, if_pos pat]
    cases (psiAssemble work.reader.patAsm packet).2 with
    | none => exact .inl rfl
    | some sec => exact .inr ⟨sec, .inr (.inl rfl)⟩
  by_cases pmt : packet.pid = work.reader.here.pmt ∧ work.reader.here.pmt < noPid
  · refine ⟨work.reader.patAsm, (psiAssemble work.reader.pmtAsm packet).1, work.reader.ecmAsm, ?_⟩
    simp only [Work.packet, if_neg ecm, if_neg unfiltered, if_neg pat, if_pos pmt]
    cases (psiAssemble work.reader.pmtAsm packet).2 with
    | none => exact .inl rfl
    | some sec => exact .inr ⟨sec, .inr (.inr rfl)⟩
  · refine ⟨work.reader.patAsm, work.reader.pmtAsm, work.reader.ecmAsm, .inl ?_⟩
    rw [Work.packet, if_neg ecm, if_neg unfiltered, if_neg pat, if_neg pmt]
    rfl

/-! ### Frame: no section touches the installed keys -/

@[simp] theorem Work.pat_keys (work : Work) (sec : List UInt8) :
    (work.pat sec).reader.keys = work.reader.keys := by
  simp only [Work.pat]
  split <;> rfl

@[simp] theorem Reader.readPids_keys (reader : Reader) (sec : List UInt8) :
    (reader.readPids sec).keys = reader.keys := by
  simp only [readPids]
  split
  · split <;> rfl
  · rfl

@[simp] theorem Work.handOver_keys (work : Work) (sec : List UInt8) :
    (work.handOver sec).reader.keys = work.reader.keys := by
  simp only [Work.handOver]
  split <;> rfl

theorem Work.handOver_sections (work : Work) (sec : List UInt8) :
    (work.handOver sec).sections = work.sections := by
  simp only [Work.handOver]
  split <;> rfl

@[simp] theorem Work.pmt_keys (work : Work) (sec : List UInt8) :
    (work.pmt sec).reader.keys = work.reader.keys := by
  simp only [Work.pmt, Reader.selectPids, Work.handOver_keys, Reader.readPids_keys]

theorem Work.packet_keys (work : Work) (packet : Packet) :
    (work.packet packet).reader.keys = work.reader.keys := by
  obtain ⟨_, _, _, same | ⟨sec, same | same | same⟩⟩ := work.packet_cases packet
  · rw [same]
    rfl
  · rw [same]
    rfl
  · rw [same, pat_keys]
    rfl
  · rw [same, pmt_keys]
    rfl

theorem foldl_packet_keys (packets : List Packet) (work : Work) :
    (packets.foldl Work.packet work).reader.keys = work.reader.keys := by
  induction packets generalizing work with
  | nil => rfl
  | cons packet packets ih => rw [List.foldl_cons, ih, Work.packet_keys]

/-- The refresh before a read is decrypted; it also follows the ECM pid. -/
def Reader.refresh (reader : Reader) (camd : Option Client) : Reader :=
  { reader with
    ecmPid := (camd.map Client.activeEcmPid).getD noPid
    keys := reader.keys.refresh camd }

end Stream
