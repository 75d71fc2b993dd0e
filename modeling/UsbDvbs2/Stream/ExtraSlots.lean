import UsbDvbs2.Concurrency.Walk
import UsbDvbs2.Stream.PmtRewrite
import UsbDvbs2.Stream.Provenance

/-! # Extra services

A service that goes to a port of its own beside the watched one. The command
thread says which; the stream thread takes that over at its next turn and offers
every packet to the slot. A slot is started over when its service id changes and
at no other time, so what it has learned outlives a TUNE.
-/

namespace Stream

open Bytes Camd Concurrency

/-- `extra_wanted`. -/
structure Wanted where
  serviceId : UInt16
  pmtPid : UInt16
  videoPid : UInt16
  audioPid : UInt16
  deriving DecidableEq

deriving instance DecidableEq for Packet

/-- What is handed to a writer: a packet of a table that was rebuilt for a
service, or a packet as it came. -/
inductive Outgoing where
  | table (serviceId : UInt16) (packet : Packet)
  | passed (packet : Packet)
  deriving DecidableEq

def datagramPackets : Nat := 7

/-- `udp_ts_send_packet` on a socket that takes everything: the datagram, and what
leaves when it is full. -/
def sendPacket (datagram : List Outgoing) (item : Outgoing) : List Outgoing × List Outgoing :=
  let filled := datagram ++ [item]
  if filled.length = datagramPackets then ([], filled) else (filled, [])

def sendPackets : List Outgoing → List Outgoing → List Outgoing × List Outgoing
  | datagram, [] => (datagram, [])
  | datagram, item :: items =>
      let sent := sendPacket datagram item
      let rest := sendPackets sent.1 items
      (rest.1, sent.2 ++ rest.2)

/-- `extra_out`. -/
structure ExtraOut where
  serviceId : UInt16
  pmt : UInt16
  vpid : UInt16
  apid : UInt16
  pcrPid : UInt16
  patCc : UInt8
  pmtCc : UInt8
  ttxpid : UInt16
  streamPids : List UInt16
  patAsm : Assembler
  pmtAsm : Assembler
  datagram : List Outgoing
  deriving DecidableEq

def ExtraOut.fresh : ExtraOut where
  serviceId := 0
  pmt := noPid
  vpid := 0
  apid := 0
  pcrPid := noPid
  patCc := 0
  pmtCc := 0
  ttxpid := noPid
  streamPids := []
  patAsm := .empty
  pmtAsm := .empty
  datagram := []

/-- `extra_refresh` with what is wanted. -/
def ExtraOut.refresh (out : ExtraOut) (wanted : Wanted) : ExtraOut :=
  if wanted.serviceId = out.serviceId then
    { out with pmt := if noPid ≤ out.pmt then wanted.pmtPid else out.pmt }
  else
    { serviceId := wanted.serviceId
      pmt := wanted.pmtPid
      vpid := wanted.videoPid
      apid := wanted.audioPid
      pcrPid := noPid
      patCc := 0
      pmtCc := 0
      ttxpid := noPid
      streamPids := []
      patAsm := .empty
      pmtAsm := .empty
      datagram := [] }

/-- Hand something to the writer. -/
def ExtraOut.send (out : ExtraOut) (items : List Outgoing) : ExtraOut × List Outgoing :=
  let sent := sendPackets out.datagram items
  ({ out with datagram := sent.1 }, sent.2)

/-- A PAT section: the PMT pid, unless it is known, and the PAT of the service. -/
def ExtraOut.pat (out : ExtraOut) (sec : List UInt8) : ExtraOut × List Outgoing :=
  let pmt := if noPid ≤ out.pmt then patLookupPmtPid sec out.serviceId else out.pmt
  let found := { out with pmt }
  if pmt < noPid then
    match singlePat sec out.serviceId pmt with
    | some section_ =>
        let sent := udpTsSendSection 0 out.patCc true section_
        { found with patCc := sent.2 }.send (sent.1.map (.table out.serviceId))
    | none => (found, [])
  else (found, [])

/-- The pids that `udp_ts_send_selected_pmt` writes back. -/
def ExtraOut.learn (out : ExtraOut) (sec : List UInt8) : ExtraOut :=
  let selected := sendSelectedPmt sec out.serviceId ⟨out.ttxpid, out.pcrPid, out.streamPids⟩
  { out with ttxpid := selected.teletext, pcrPid := selected.pcr, streamPids := selected.streams }

/-- A section on the PMT pid: its pids, and the PMT with its CA descriptors. -/
def ExtraOut.pmtSection (out : ExtraOut) (sec : List UInt8) : ExtraOut × List Outgoing :=
  let learned := out.learn sec
  match sendRebuiltPmt sec out.serviceId out.pmt false out.pmtCc with
  | some sent => { learned with pmtCc := sent.2 }.send (sent.1.map (.table out.serviceId))
  | none => (learned, [])

/-- The packet is for the slot's PMT assembler. -/
def ExtraOut.takesPmt (out : ExtraOut) (packet : Packet) : Prop :=
  out.serviceId ≠ 0 ∧ packet.pid ≠ 0 ∧ packet.pid = out.pmt ∧ out.pmt < noPid

instance (out : ExtraOut) (packet : Packet) : Decidable (out.takesPmt packet) :=
  inferInstanceAs (Decidable (_ ∧ _))

/-- `extra_feed`. -/
def ExtraOut.feed (out : ExtraOut) (packet : Packet) : ExtraOut × List Outgoing :=
  if out.serviceId = 0 then (out, [])
  else if packet.pid = 0 then
    let assembled := psiAssemble out.patAsm packet
    match assembled.2 with
    | some sec => { out with patAsm := assembled.1 }.pat sec
    | none => ({ out with patAsm := assembled.1 }, [])
  else if packet.pid = out.pmt ∧ out.pmt < noPid then
    let assembled := psiAssemble out.pmtAsm packet
    match assembled.2 with
    | some sec => { out with pmtAsm := assembled.1 }.pmtSection sec
    | none => ({ out with pmtAsm := assembled.1 }, [])
  else if out.streamPids = [] then (out, [])
  else if packet.pid ∈ out.streamPids ∨ packet.pid = out.pcrPid ∧ out.pcrPid < noPid then
    out.send [.passed packet]
  else (out, [])

/-! ## A slot among the commands -/

/-- One slot: what it is asked for, the epoch and the one that was seen, and its
output. Beside them stand the packets taken for PMT sections since the carrier
was tuned and the slot was last given its service, and whether the slot held
anything then. -/
structure Slot where
  wanted : Wanted
  epoch : UInt32
  seen : UInt32
  out : ExtraOut
  taken : List Packet
  carries : Bool

def Slot.fresh : Slot := ⟨⟨0, 0, 0, 0⟩, 0, 0xffffffff, .fresh, [], false⟩

inductive SlotEvent where
  -- the command thread; from `tune` on the packets are another carrier's
  | give (wanted : Wanted)
  | announce
  | tune
  -- the stream thread
  | turn
  | offer (packet : Packet)

/-- The slot holds streams, the beginning of a PMT, or packets that wait for their
datagram to fill. -/
def ExtraOut.holds (out : ExtraOut) : Bool :=
  !out.streamPids.isEmpty || out.pmtAsm != .empty || !out.datagram.isEmpty

/-- From now on only what is received counts. -/
def Slot.expire (slot : Slot) : Slot := { slot with taken := [], carries := slot.out.holds }

/-- The stream thread takes over what is wanted. -/
def Slot.takeOver (slot : Slot) : Slot :=
  { slot with
    seen := slot.epoch
    out := slot.out.refresh slot.wanted
    taken := if slot.wanted.serviceId = slot.out.serviceId then slot.taken else []
    carries := decide (slot.wanted.serviceId = slot.out.serviceId) && slot.carries }

def Slot.next (slot : Slot) : SlotEvent → Slot
  | .give wanted =>
      if wanted.serviceId = slot.out.serviceId then { slot.expire with wanted }
      else { slot with wanted }
  | .announce => { slot with epoch := slot.epoch + 1 }
  | .tune => slot.expire
  | .turn => if slot.epoch = slot.seen then slot else slot.takeOver
  | .offer packet =>
      { slot with
        out := (slot.out.feed packet).1
        taken := if slot.out.takesPmt packet then slot.taken ++ [packet] else slot.taken }

/-- What leaves through the slot's port. -/
def Slot.leaves (slot : Slot) : SlotEvent → List Outgoing
  | .offer packet => (slot.out.feed packet).2
  | _ => []

/-- The sections on the PMT pid since the carrier was tuned and the slot was last
given its service. -/
def Slot.received (slot : Slot) : List (List UInt8) := (psiAssembleAll .empty slot.taken).2

/-- A packet of the slot's service: of a rebuilt table, or of a pid that a PMT of
the service names. -/
def OfService (serviceId : UInt16) (sections : List (List UInt8)) : Outgoing → Prop
  | .table other _ => other = serviceId
  | .passed packet => ∃ sec ∈ sections, Names sec serviceId packet.pid

/-! ## The writer -/

theorem mem_sendPackets {datagram items : List Outgoing} {item : Outgoing}
    (mem : item ∈ (sendPackets datagram items).1 ∨ item ∈ (sendPackets datagram items).2) :
    item ∈ datagram ∨ item ∈ items := by
  induction items generalizing datagram with
  | nil => exact mem.imp_right fun none => (List.not_mem_nil none).elim
  | cons first items ih =>
      have here : ∀ other, other ∈ (sendPacket datagram first).1 ∨
          other ∈ (sendPacket datagram first).2 → other ∈ datagram ∨ other ∈ first :: items := by
        intro other mem
        have filled : other ∈ datagram ++ [first] := by
          simp only [sendPacket] at mem
          split at mem
          · exact mem.resolve_left List.not_mem_nil
          · exact mem.resolve_right List.not_mem_nil
        refine (List.mem_append.1 filled).imp_right fun mem => ?_
        rw [List.mem_singleton.1 mem]
        exact List.mem_cons_self
      rw [sendPackets, List.mem_append] at mem
      rcases mem with kept | left | later
      · rcases ih (.inl kept) with before | behind
        · exact here _ (.inl before)
        · exact .inr (List.mem_cons_of_mem _ behind)
      · exact here _ (.inr left)
      · rcases ih (.inr later) with before | behind
        · exact here _ (.inl before)
        · exact .inr (List.mem_cons_of_mem _ behind)

theorem OfService.mono {serviceId : UInt16} {sections more : List (List UInt8)}
    (grows : ∀ sec ∈ sections, sec ∈ more) {item : Outgoing}
    (ours : OfService serviceId sections item) : OfService serviceId more item := by
  cases item with
  | table other packet => exact ours
  | passed packet =>
      obtain ⟨sec, mem, names⟩ := ours
      exact ⟨sec, grows sec mem, names⟩

/-! ## What an output holds -/

/-- All that is learned and all that waits belongs to the service, by the sections. -/
structure ExtraOut.Tidy (out : ExtraOut) (sections : List (List UInt8)) : Prop where
  streams : ∀ pid ∈ out.streamPids, ∃ sec ∈ sections, Names sec out.serviceId pid
  clock : out.streamPids ≠ [] → ∃ sec ∈ sections, Names sec out.serviceId out.pcrPid
  waiting : ∀ item ∈ out.datagram, OfService out.serviceId sections item

section Tidy

variable {out : ExtraOut} {sections : List (List UInt8)}

theorem ExtraOut.Tidy.mono {more : List (List UInt8)} (tidy : out.Tidy sections)
    (grows : ∀ sec ∈ sections, sec ∈ more) : out.Tidy more where
  streams pid mem :=
    let ⟨sec, inside, names⟩ := tidy.streams pid mem
    ⟨sec, grows sec inside, names⟩
  clock some :=
    let ⟨sec, inside, names⟩ := tidy.clock some
    ⟨sec, grows sec inside, names⟩
  waiting item mem := (tidy.waiting item mem).mono grows

theorem ExtraOut.tidy_of_holds (none : out.holds = false) : out.Tidy [] := by
  simp only [ExtraOut.holds, Bool.or_eq_false_iff, Bool.not_eq_false', List.isEmpty_iff] at none
  obtain ⟨⟨streams, -⟩, datagram⟩ := none
  refine ⟨fun pid mem => ?_, fun some => (some streams).elim, fun item mem => ?_⟩
  · rw [streams] at mem
    exact nomatch mem
  · rw [datagram] at mem
    exact nomatch mem

theorem ExtraOut.Tidy.send (tidy : out.Tidy sections) {items : List Outgoing}
    (ours : ∀ item ∈ items, OfService out.serviceId sections item) :
    (out.send items).1.Tidy sections ∧
      ∀ item ∈ (out.send items).2, OfService out.serviceId sections item := by
  have either : ∀ item, item ∈ out.datagram ∨ item ∈ items →
      OfService out.serviceId sections item := fun item mem =>
    mem.elim (tidy.waiting item) (ours item)
  refine ⟨⟨tidy.streams, tidy.clock, fun item mem => ?_⟩, fun item mem => ?_⟩
  · exact either item (mem_sendPackets (.inl mem))
  · exact either item (mem_sendPackets (.inr mem))

theorem table_ofService {serviceId : UInt16} {packets : List Packet} :
    ∀ item ∈ packets.map (Outgoing.table serviceId), OfService serviceId sections item := by
  intro item mem
  obtain ⟨packet, -, rfl⟩ := List.mem_map.1 mem
  rfl

theorem ExtraOut.Tidy.pat (tidy : out.Tidy sections) (sec : List UInt8) :
    (out.pat sec).1.Tidy sections ∧
      ∀ item ∈ (out.pat sec).2, OfService out.serviceId sections item := by
  simp only [ExtraOut.pat]
  generalize (if noPid ≤ out.pmt then patLookupPmtPid sec out.serviceId else out.pmt) = pmt
  have found : { out with pmt }.Tidy sections := { tidy with }
  split
  · cases singlePat sec out.serviceId pmt with
    | none => exact ⟨found, nofun⟩
    | some section_ =>
        have counted : { out with
            pmt, patCc := (udpTsSendSection 0 out.patCc true section_).2 }.Tidy sections :=
          { tidy with }
        exact counted.send table_ofService
  · exact ⟨found, nofun⟩

/-- A PMT section names the pids that are learned from it. -/
theorem ExtraOut.Tidy.learn (tidy : out.Tidy sections) {sec : List UInt8}
    (mem : sec ∈ sections) : (out.learn sec).Tidy sections := by
  by_cases reads : isPmtOf sec out.serviceId = true ∧ programInfoEnd sec ≤ sec.length - 4
  · obtain ⟨clock, streams⟩ := sendSelectedPmt_names
      ⟨out.ttxpid, out.pcrPid, out.streamPids⟩ reads
    refine ⟨fun pid inside => ?_, fun _ => ⟨sec, mem, clock⟩, tidy.waiting⟩
    rcases streams pid inside with known | names
    · exact tidy.streams pid known
    · exact ⟨sec, mem, names⟩
  · simp only [ExtraOut.learn, sendSelectedPmt, if_neg reads]
    exact { tidy with }

theorem ExtraOut.Tidy.pmtSection (tidy : out.Tidy sections) {sec : List UInt8}
    (mem : sec ∈ sections) : (out.pmtSection sec).1.Tidy sections ∧
      ∀ item ∈ (out.pmtSection sec).2, OfService out.serviceId sections item := by
  have learned := tidy.learn mem
  simp only [ExtraOut.pmtSection]
  cases sendRebuiltPmt sec out.serviceId out.pmt false out.pmtCc with
  | none => exact ⟨learned, nofun⟩
  | some sent =>
      have counted : { out.learn sec with pmtCc := sent.2 }.Tidy sections := { learned with }
      exact counted.send table_ofService

theorem ExtraOut.Tidy.feed (tidy : out.Tidy sections) (packet : Packet)
    (completed : ∀ sec, out.takesPmt packet → (psiAssemble out.pmtAsm packet).2 = some sec →
      sec ∈ sections) : (out.feed packet).1.Tidy sections ∧
      ∀ item ∈ (out.feed packet).2, OfService out.serviceId sections item := by
  simp only [ExtraOut.feed]
  split
  · exact ⟨tidy, nofun⟩
  rename_i service
  split
  · have assembled : { out with patAsm := (psiAssemble out.patAsm packet).1 }.Tidy sections :=
      { tidy with }
    cases (psiAssemble out.patAsm packet).2 with
    | none => exact ⟨assembled, nofun⟩
    | some sec => exact assembled.pat sec
  rename_i table
  split
  · rename_i pmt
    have assembled : { out with pmtAsm := (psiAssemble out.pmtAsm packet).1 }.Tidy sections :=
      { tidy with }
    cases whole : (psiAssemble out.pmtAsm packet).2 with
    | none => exact ⟨assembled, nofun⟩
    | some sec => exact assembled.pmtSection (completed sec ⟨service, table, pmt⟩ whole)
  split
  · exact ⟨tidy, nofun⟩
  rename_i streams
  split
  · rename_i named
    refine tidy.send fun item mem => ?_
    rw [List.mem_singleton.1 mem]
    rcases named with stream | ⟨clock, -⟩
    · exact tidy.streams _ stream
    · obtain ⟨sec, inside, names⟩ := tidy.clock streams
      exact ⟨sec, inside, clock ▸ names⟩
  · exact ⟨tidy, nofun⟩

end Tidy

/-! ### Frame: a section leaves the service and the PMT assembler alone -/

theorem ExtraOut.pat_frame (out : ExtraOut) (sec : List UInt8) :
    (out.pat sec).1.serviceId = out.serviceId ∧ (out.pat sec).1.pmtAsm = out.pmtAsm := by
  simp only [ExtraOut.pat]
  generalize (if noPid ≤ out.pmt then patLookupPmtPid sec out.serviceId else out.pmt) = pmt
  split
  · split <;> exact ⟨rfl, rfl⟩
  · exact ⟨rfl, rfl⟩

theorem ExtraOut.pmtSection_frame (out : ExtraOut) (sec : List UInt8) :
    (out.pmtSection sec).1.serviceId = out.serviceId ∧
      (out.pmtSection sec).1.pmtAsm = out.pmtAsm := by
  simp only [ExtraOut.pmtSection]
  split <;> exact ⟨rfl, rfl⟩

theorem ExtraOut.feed_frame (out : ExtraOut) (packet : Packet) :
    (out.feed packet).1.serviceId = out.serviceId ∧ (out.feed packet).1.pmtAsm =
      if out.takesPmt packet then (psiAssemble out.pmtAsm packet).1 else out.pmtAsm := by
  by_cases service : out.serviceId = 0
  · have other : ¬ out.takesPmt packet := fun takes => takes.1 service
    rw [ExtraOut.feed, if_pos service, if_neg other]
    exact ⟨rfl, rfl⟩
  by_cases table : packet.pid = 0
  · have other : ¬ out.takesPmt packet := fun takes => takes.2.1 table
    simp only [ExtraOut.feed, if_neg service, if_pos table, if_neg other]
    split
    · exact ExtraOut.pat_frame _ _
    · exact ⟨rfl, rfl⟩
  by_cases pmt : packet.pid = out.pmt ∧ out.pmt < noPid
  · have takes : out.takesPmt packet := ⟨service, table, pmt⟩
    simp only [ExtraOut.feed, if_neg service, if_neg table, if_pos pmt, if_pos takes]
    split
    · exact ExtraOut.pmtSection_frame _ _
    · exact ⟨rfl, rfl⟩
  · have other : ¬ out.takesPmt packet := fun takes => pmt takes.2.2
    simp only [ExtraOut.feed, if_neg service, if_neg table, if_neg pmt, if_neg other]
    split
    · exact ⟨rfl, rfl⟩
    · split <;> exact ⟨rfl, rfl⟩

/-! ## A run of a slot -/

/-- What the slot took for its PMT since the carrier was tuned and the slot was
given its service accounts for all it has. -/
structure Slot.Tidy (slot : Slot) : Prop where
  assembled : slot.out.pmtAsm = (psiAssembleAll .empty slot.taken).1
  output : slot.out.Tidy slot.received

theorem psiAssembleAll_append (asm : Assembler) (packets : List Packet) (packet : Packet) :
    psiAssembleAll asm (packets ++ [packet]) =
      ((psiAssemble (psiAssembleAll asm packets).1 packet).1,
        (psiAssembleAll asm packets).2 ++
          (psiAssemble (psiAssembleAll asm packets).1 packet).2.toList) := by
  induction packets generalizing asm with
  | nil => simp [psiAssembleAll]
  | cons first packets ih => simp [psiAssembleAll, ih]

theorem Slot.tidy_expire {slot : Slot} (none : slot.out.holds = false) : slot.expire.Tidy := by
  refine ⟨?_, ExtraOut.tidy_of_holds none⟩
  simp only [ExtraOut.holds, Bool.or_eq_false_iff, bne_eq_false_iff_eq] at none
  exact none.1.2

theorem Slot.tidy_takeOver {slot : Slot} (valid : slot.carries = false → slot.Tidy)
    (kept : slot.takeOver.carries = false) : slot.takeOver.Tidy := by
  by_cases same : slot.wanted.serviceId = slot.out.serviceId
  · rw [takeOver, decide_eq_true same, Bool.true_and] at kept
    have tidy := valid kept
    simp only [takeOver, ExtraOut.refresh, if_pos same]
    exact ⟨tidy.assembled, { tidy.output with }⟩
  · simp only [takeOver, ExtraOut.refresh, if_neg same]
    exact ⟨rfl, fun _ => nofun, fun some => (some rfl).elim, fun _ => nofun⟩

theorem Slot.Tidy.offer {slot : Slot} (tidy : slot.Tidy) (packet : Packet) :
    (slot.next (.offer packet)).Tidy ∧
      ∀ item ∈ slot.leaves (.offer packet), OfService (slot.next (.offer packet)).out.serviceId
        (slot.next (.offer packet)).received item := by
  have frame := slot.out.feed_frame packet
  have fed : (slot.out.feed packet).1.Tidy (slot.next (.offer packet)).received ∧
      ∀ item ∈ (slot.out.feed packet).2, OfService slot.out.serviceId
        (slot.next (.offer packet)).received item := by
    refine (tidy.output.mono fun sec mem => ?_).feed packet fun sec takes whole => ?_
    · simp only [received, next]
      split
      · rw [psiAssembleAll_append]
        exact List.mem_append_left _ mem
      · exact mem
    · simp only [received, next, if_pos takes]
      rw [psiAssembleAll_append, ← tidy.assembled, whole]
      exact List.mem_append_right _ (List.mem_singleton_self sec)
  refine ⟨⟨?_, fed.1⟩, fun item mem => ?_⟩
  · simp only [next, frame.2]
    split
    · rw [psiAssembleAll_append, ← tidy.assembled]
    · exact tidy.assembled
  · simp only [next, frame.1]
    exact fed.2 item mem

/-- The slot carries something over, or all it has is accounted for. -/
def Slot.Accounted (slot : Slot) : Prop := slot.carries = false → slot.Tidy

theorem Slot.Accounted.next {slot : Slot} (accounted : slot.Accounted) {event : SlotEvent}
    (kept : ∀ packet, event = .offer packet → slot.carries = false) :
    (slot.next event).Accounted := by
  cases event with
  | give wanted =>
      simp only [Slot.next]
      split
      · exact fun none => { Slot.tidy_expire none with }
      · exact fun none => { accounted none with }
  | announce =>
      intro none
      exact { accounted none with }
  | tune => exact Slot.tidy_expire
  | turn =>
      simp only [Slot.next]
      split
      · exact accounted
      · exact Slot.tidy_takeOver accounted
  | offer packet => exact fun _ => ((accounted (kept packet rfl)).offer packet).1

/-- In every run, if whenever a packet is offered to the slot it carries nothing
over from before the carrier was tuned or it was last given its service, all that
leaves through its port belongs to its service, by the PMTs received since. -/
theorem extra_port_one_programme {events : List SlotEvent}
    (kept : ∀ moved ∈ moves Slot.next .fresh events, ∀ packet,
      moved.event = .offer packet → moved.before.carries = false) :
    ∀ moved ∈ moves Slot.next .fresh events, ∀ item ∈ moved.before.leaves moved.event,
      OfService moved.after.out.serviceId moved.after.received item := by
  refine (walk_moves Slot.next .fresh events).wanted_of_allowed Slot.Accounted
    (fun moved => ∀ packet, moved.event = .offer packet → moved.before.carries = false) _ ?_ ?_ kept
  · intro ⟨slot, event, after⟩ step fine accounted
    obtain rfl : after = slot.next event := step
    refine ⟨accounted.next fine, fun item mem => ?_⟩
    cases event with
    | offer packet => exact ((accounted (fine packet rfl)).offer packet).2 item mem
    | give | announce | tune | turn => exact nomatch mem
  · exact fun _ => ⟨rfl, fun _ => nofun, fun some => (some rfl).elim, fun _ => nofun⟩

/-! ### A tile across two carriers -/

/-- The PMT of service 1: video and clock on pid 0x101. -/
def tilePmt : List UInt8 :=
  [0x02, 0xb0, 0x12, 0x00, 0x01, 0xc1, 0x00, 0x00, 0xe1, 0x01, 0xf0, 0x00,
    0x1b, 0xe1, 0x01, 0xf0, 0x00, 0x00, 0x00, 0x00, 0x00]

def tileVideo : Packet := sectionPacket 0x101 0 false []

/-- Service 1 is asked for and shown, for one datagram. -/
def tileShown : List SlotEvent :=
  [.give ⟨1, 0x100, 0x101, noPid⟩, .announce, .turn, .offer (sectionPacket 0x100 0 true tilePmt)] ++
    .replicate 6 (.offer tileVideo)

/-- Another carrier is tuned, and it has the pid too. -/
def tileRetuned : List SlotEvent := tileShown ++ .tune :: .replicate 7 (.offer tileVideo)

/-- Whether a packet is offered while something is carried over. -/
def offersCarried (moved : Moved Slot SlotEvent) : Bool :=
  match moved.event with
  | .offer _ => moved.before.carries
  | _ => false

theorem extra_port_one_programme_shown :
    (moves Slot.next .fresh tileShown).length = 10 ∧
      ∀ moved ∈ moves Slot.next .fresh tileShown, ∀ item ∈ moved.before.leaves moved.event,
        OfService moved.after.out.serviceId moved.after.received item := by
  have none : (moves Slot.next .fresh tileShown).any offersCarried = false := by decide +kernel
  refine ⟨by decide +kernel, extra_port_one_programme fun moved mem packet event => ?_⟩
  have clean := List.any_eq_false.1 none moved mem
  rw [offersCarried, event] at clean
  exact Bool.eq_false_iff.2 clean

/-- After the TUNE the pids of the carrier before are still let through. -/
theorem extra_port_other_programme : ∃ moved ∈ moves Slot.next .fresh tileRetuned,
    ∃ item ∈ moved.before.leaves moved.event,
      ¬ OfService moved.after.out.serviceId moved.after.received item := by
  refine ⟨_, List.getElem_mem (n := 17) (by decide +kernel), .passed tileVideo,
    by decide +kernel, ?_⟩
  have none : (moves Slot.next .fresh tileRetuned)[17].after.received = [] := by decide +kernel
  rw [none]
  exact fun ⟨sec, mem, _⟩ => nomatch mem

end Stream
