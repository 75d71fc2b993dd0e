import Mathlib.Data.Fintype.Sum
import Mathlib.Tactic.DeriveFintype
import UsbDvbs2.Stream.ExtraSlots
import UsbDvbs2.Stream.Metadata

/-! # The assemblers of the stream thread

A packet goes to the CAM client's assembler alone, or to those of the watched
service, of the extra services, of the guide and of the time, whichever take its
pid. Each of them keeps to itself what it has of a section.
-/

namespace Stream

open Bytes Mpeg Camd

/-- `metadata_feed_packet`, which returns on every packet. -/
def metadataPacket (asm : Assembler) (packet : Packet) : Assembler × List (List UInt8) :=
  (metadataFeedPacket asm packet).getD (asm, [])

/-- `USB_DVBS2_MAX_EXTRA_SERVICES`. -/
def maxExtraServices : Nat := 9

/-- The assemblers that packets go to. -/
inductive Tap where
  | ecm
  | pat
  | pmt
  | extraPat (slot : Fin maxExtraServices)
  | extraPmt (slot : Fin maxExtraServices)
  | eit
  | time
  deriving DecidableEq, Fintype

/-- What a packet does to an assembler, and the sections it completes. -/
def Tap.take : Tap → Assembler → Packet → Assembler × List (List UInt8)
  | .eit, asm, packet | .time, asm, packet => metadataPacket asm packet
  | _, asm, packet => ((psiAssemble asm packet).1, (psiAssemble asm packet).2.toList)

/-- The variables that sections are put together in, and those they depend on. -/
structure Intake where
  work : Work
  extras : Fin maxExtraServices → ExtraOut
  eit : Assembler
  time : Assembler

/-- The packet is for the CAM client, and for nothing else. -/
def Work.takesEcm (work : Work) (packet : Packet) : Prop :=
  packet.pid = work.reader.ecmPid ∧ work.reader.ecmPid < noPid

instance (work : Work) (packet : Packet) : Decidable (work.takesEcm packet) :=
  inferInstanceAs (Decidable (_ ∧ _))

/-- One packet of a read. -/
def Intake.feed (intake : Intake) (packet : Packet) : Intake :=
  let work := intake.work.packet packet
  if intake.work.takesEcm packet then { intake with work }
  else
    { work
      extras := fun slot => ((intake.extras slot).feed packet).1
      eit := if packet.pid = 0x12 then (metadataPacket intake.eit packet).1 else intake.eit
      time := if packet.pid = 0x14 then (metadataPacket intake.time packet).1 else intake.time }

def Intake.assembler (intake : Intake) : Tap → Assembler
  | .ecm => intake.work.reader.ecmAsm
  | .pat => intake.work.reader.patAsm
  | .pmt => intake.work.reader.pmtAsm
  | .extraPat slot => (intake.extras slot).patAsm
  | .extraPmt slot => (intake.extras slot).pmtAsm
  | .eit => intake.eit
  | .time => intake.time

/-- The packet goes to the assembler. -/
def Intake.hears (intake : Intake) (packet : Packet) : Tap → Prop
  | .ecm => intake.work.takesEcm packet
  | .pat => ¬ intake.work.takesEcm packet ∧ intake.work.reader.here.svc ≠ 0 ∧ packet.pid = 0
  | .pmt => ¬ intake.work.takesEcm packet ∧ intake.work.reader.here.svc ≠ 0 ∧ packet.pid ≠ 0 ∧
      packet.pid = intake.work.reader.here.pmt ∧ intake.work.reader.here.pmt < noPid
  | .extraPat slot => ¬ intake.work.takesEcm packet ∧ (intake.extras slot).serviceId ≠ 0 ∧
      packet.pid = 0
  | .extraPmt slot => ¬ intake.work.takesEcm packet ∧ (intake.extras slot).takesPmt packet
  | .eit => ¬ intake.work.takesEcm packet ∧ packet.pid = 0x12
  | .time => ¬ intake.work.takesEcm packet ∧ packet.pid = 0x14

instance (intake : Intake) (packet : Packet) (tap : Tap) : Decidable (intake.hears packet tap) :=
  match tap with
  | .ecm | .pat | .pmt | .extraPat _ | .extraPmt _ | .eit | .time =>
      inferInstanceAs (Decidable (_ ∧ _))

/-- The sections that are acted on at a packet: a PAT or PMT is used and sent on, an
ECM is submitted, a section of the guide or the time is processed. -/
def Intake.acts (intake : Intake) (packet : Packet) (tap : Tap) : List (List UInt8) :=
  if intake.hears packet tap then (tap.take (intake.assembler tap) packet).2 else []

/-! ### What a packet does to the assemblers -/

/-- The assemblers of the watched service. -/
def Work.assemblers (work : Work) : Assembler × Assembler × Assembler :=
  (work.reader.ecmAsm, work.reader.patAsm, work.reader.pmtAsm)

theorem Work.pat_assemblers (work : Work) (sec : List UInt8) :
    (work.pat sec).assemblers = work.assemblers := by
  simp only [Work.pat]
  split <;> rfl

theorem Work.handOver_assemblers (work : Work) (sec : List UInt8) :
    (work.handOver sec).assemblers = work.assemblers := by
  simp only [Work.handOver]
  split <;> rfl

theorem Work.pmt_assemblers (work : Work) (sec : List UInt8) :
    (work.pmt sec).assemblers = work.assemblers := by
  have handed := Work.handOver_assemblers
    { work with sections := work.sections ++ [sec], reader := work.reader.readPids sec } sec
  refine Eq.trans handed ?_
  simp only [Work.assemblers, Reader.readPids]
  split
  · split <;> rfl
  · rfl

theorem ExtraOut.pat_patAsm (out : ExtraOut) (sec : List UInt8) :
    (out.pat sec).1.patAsm = out.patAsm := by
  simp only [ExtraOut.pat]
  generalize (if noPid ≤ out.pmt then patLookupPmtPid sec out.serviceId else out.pmt) = pmt
  split
  · split <;> rfl
  · rfl

theorem ExtraOut.pmtSection_patAsm (out : ExtraOut) (sec : List UInt8) :
    (out.pmtSection sec).1.patAsm = out.patAsm := by
  simp only [ExtraOut.pmtSection]
  split <;> rfl

theorem ExtraOut.feed_patAsm (out : ExtraOut) (packet : Packet) :
    (out.feed packet).1.patAsm =
      if out.serviceId ≠ 0 ∧ packet.pid = 0 then (psiAssemble out.patAsm packet).1
      else out.patAsm := by
  by_cases service : out.serviceId = 0
  · rw [ExtraOut.feed, if_pos service, if_neg fun both => both.1 service]
  by_cases table : packet.pid = 0
  · simp only [ExtraOut.feed, if_neg service, if_pos table, if_pos (And.intro service table)]
    split
    · exact ExtraOut.pat_patAsm _ _
    · rfl
  · simp only [ExtraOut.feed, if_neg service, if_neg table,
      if_neg fun both : out.serviceId ≠ 0 ∧ packet.pid = 0 => table both.2]
    split
    · split
      · exact ExtraOut.pmtSection_patAsm _ _
      · rfl
    · split
      · rfl
      · split <;> rfl

/-- A packet moves the assembler of the thread that it goes to, and no other. -/
theorem Work.packet_assemblers (work : Work) (packet : Packet) :
    (work.packet packet).assemblers =
      if work.takesEcm packet then
        ((psiAssemble work.reader.ecmAsm packet).1, work.reader.patAsm, work.reader.pmtAsm)
      else if work.reader.here.svc = 0 then work.assemblers
      else if packet.pid = 0 then
        (work.reader.ecmAsm, (psiAssemble work.reader.patAsm packet).1, work.reader.pmtAsm)
      else if packet.pid = work.reader.here.pmt ∧ work.reader.here.pmt < noPid then
        (work.reader.ecmAsm, work.reader.patAsm, (psiAssemble work.reader.pmtAsm packet).1)
      else work.assemblers := by
  by_cases ecm : packet.pid = work.reader.ecmPid ∧ work.reader.ecmPid < noPid
  · have takes : work.takesEcm packet := ecm
    rw [if_pos takes]
    simp only [Work.packet, if_pos ecm]
    split <;> rfl
  have other : ¬ work.takesEcm packet := ecm
  rw [if_neg other]
  by_cases service : work.reader.here.svc = 0
  · simp only [Work.packet, if_neg ecm, if_pos service]
  by_cases table : packet.pid = 0
  · simp only [Work.packet, if_neg ecm, if_neg service, if_pos table]
    split
    · exact Work.pat_assemblers _ _
    · rfl
  by_cases pmt : packet.pid = work.reader.here.pmt ∧ work.reader.here.pmt < noPid
  · simp only [Work.packet, if_neg ecm, if_neg service, if_neg table, if_pos pmt]
    split
    · exact Work.pmt_assemblers _ _
    · rfl
  · simp only [Work.packet, if_neg ecm, if_neg service, if_neg table, if_neg pmt]

theorem Work.packet_ecmAsm (work : Work) (packet : Packet) :
    (work.packet packet).reader.ecmAsm =
      if work.takesEcm packet then (psiAssemble work.reader.ecmAsm packet).1
      else work.reader.ecmAsm := by
  have moved := congrArg Prod.fst (work.packet_assemblers packet)
  simpa only [Work.assemblers, apply_ite Prod.fst, ite_self] using moved

theorem Work.packet_patAsm (work : Work) (packet : Packet) :
    (work.packet packet).reader.patAsm =
      if ¬ work.takesEcm packet ∧ work.reader.here.svc ≠ 0 ∧ packet.pid = 0 then
        (psiAssemble work.reader.patAsm packet).1
      else work.reader.patAsm := by
  have moved := congrArg (fun all => all.2.1) (work.packet_assemblers packet)
  simpa only [Work.assemblers, apply_ite Prod.fst, apply_ite Prod.snd, ite_self, ite_and,
    ite_not, ne_eq] using moved

theorem Work.packet_pmtAsm (work : Work) (packet : Packet) :
    (work.packet packet).reader.pmtAsm =
      if ¬ work.takesEcm packet ∧ work.reader.here.svc ≠ 0 ∧ packet.pid ≠ 0 ∧
          packet.pid = work.reader.here.pmt ∧ work.reader.here.pmt < noPid then
        (psiAssemble work.reader.pmtAsm packet).1
      else work.reader.pmtAsm := by
  have moved := congrArg (fun all => all.2.2) (work.packet_assemblers packet)
  simpa only [Work.assemblers, apply_ite Prod.snd, ite_self, ite_and, ite_not, ne_eq] using moved

theorem Intake.feed_work (intake : Intake) (packet : Packet) :
    (intake.feed packet).work = intake.work.packet packet := by
  simp only [Intake.feed]
  split <;> rfl

theorem Intake.feed_extras (intake : Intake) (packet : Packet)
    (slot : Fin maxExtraServices) :
    (intake.feed packet).extras slot =
      if intake.work.takesEcm packet then intake.extras slot
      else ((intake.extras slot).feed packet).1 := by
  simp only [Intake.feed]
  split <;> rfl

theorem Intake.feed_eit (intake : Intake) (packet : Packet) :
    (intake.feed packet).eit =
      if ¬ intake.work.takesEcm packet ∧ packet.pid = 0x12 then
        (metadataPacket intake.eit packet).1
      else intake.eit := by
  simp only [Intake.feed, ite_and, ite_not]
  split <;> rfl

theorem Intake.feed_time (intake : Intake) (packet : Packet) :
    (intake.feed packet).time =
      if ¬ intake.work.takesEcm packet ∧ packet.pid = 0x14 then
        (metadataPacket intake.time packet).1
      else intake.time := by
  simp only [Intake.feed, ite_and, ite_not]
  split <;> rfl

/-- An ECM packet goes nowhere else. -/
theorem Intake.hears_ecm {intake : Intake} {packet : Packet} (ecm : intake.work.takesEcm packet)
    {tap : Tap} (other : tap ≠ .ecm) : ¬ intake.hears packet tap := by
  cases tap with
  | ecm => exact (other rfl).elim
  | pat | pmt | extraPat | extraPmt | eit | time => exact fun both => both.1 ecm

/-- A packet moves the assemblers that it goes to, and no other. -/
theorem Intake.feed_assembler (intake : Intake) (packet : Packet) (tap : Tap) :
    (intake.feed packet).assembler tap =
      if intake.hears packet tap then (tap.take (intake.assembler tap) packet).1
      else intake.assembler tap := by
  have work := intake.feed_work packet
  cases tap with
  | ecm =>
      have moved := intake.work.packet_ecmAsm packet
      rw [← work] at moved
      exact moved
  | pat =>
      have moved := intake.work.packet_patAsm packet
      rw [← work] at moved
      exact moved
  | pmt =>
      have moved := intake.work.packet_pmtAsm packet
      rw [← work] at moved
      exact moved
  | extraPat slot =>
      have moved := congrArg ExtraOut.patAsm (intake.feed_extras packet slot)
      rw [apply_ite ExtraOut.patAsm, ExtraOut.feed_patAsm, ← ite_not, ← ite_and] at moved
      exact moved
  | extraPmt slot =>
      have moved := congrArg ExtraOut.pmtAsm (intake.feed_extras packet slot)
      rw [apply_ite ExtraOut.pmtAsm, (ExtraOut.feed_frame _ _).2, ← ite_not, ← ite_and] at moved
      exact moved
  | eit => exact intake.feed_eit packet
  | time => exact intake.feed_time packet

/-- The PATs and PMTs acted on are those that the thread's variables are set from. -/
theorem Intake.feed_sections (intake : Intake) (packet : Packet) :
    (intake.feed packet).work.sections =
      intake.work.sections ++ (intake.acts packet .pat ++ intake.acts packet .pmt) := by
  rw [intake.feed_work]
  by_cases ecm : packet.pid = intake.work.reader.ecmPid ∧ intake.work.reader.ecmPid < noPid
  · have pat : ¬ intake.hears packet .pat := intake.hears_ecm ecm nofun
    have pmt : ¬ intake.hears packet .pmt := intake.hears_ecm ecm nofun
    rw [acts, acts, if_neg pat, if_neg pmt, List.append_nil, List.append_nil]
    simp only [Work.packet, if_pos ecm]
    split <;> rfl
  by_cases service : intake.work.reader.here.svc = 0
  · have pat : ¬ intake.hears packet .pat := fun both => both.2.1 service
    have pmt : ¬ intake.hears packet .pmt := fun both => both.2.1 service
    rw [acts, acts, if_neg pat, if_neg pmt, List.append_nil, List.append_nil]
    simp only [Work.packet, if_neg ecm, if_pos service]
  by_cases table : packet.pid = 0
  · have pat : intake.hears packet .pat := ⟨ecm, service, table⟩
    have pmt : ¬ intake.hears packet .pmt := fun both => both.2.2.1 table
    rw [acts, acts, if_pos pat, if_neg pmt, List.append_nil]
    simp only [Work.packet, if_neg ecm, if_neg service, if_pos table, Tap.take, assembler]
    cases (psiAssemble intake.work.reader.patAsm packet).2 with
    | none => exact (List.append_nil _).symm
    | some sec =>
        simp only [Work.pat]
        split <;> rfl
  have pat : ¬ intake.hears packet .pat := fun both => table both.2.2
  rw [acts, acts, if_neg pat, List.nil_append]
  by_cases pid : packet.pid = intake.work.reader.here.pmt ∧ intake.work.reader.here.pmt < noPid
  · have pmt : intake.hears packet .pmt := ⟨ecm, service, table, pid⟩
    rw [if_pos pmt]
    simp only [Work.packet, if_neg ecm, if_neg service, if_neg table, if_pos pid, Tap.take,
      assembler]
    cases (psiAssemble intake.work.reader.pmtAsm packet).2 with
    | none => exact (List.append_nil _).symm
    | some sec => exact Work.handOver_sections _ sec
  · have pmt : ¬ intake.hears packet .pmt := fun both => pid both.2.2.2
    rw [if_neg pmt, List.append_nil]
    simp only [Work.packet, if_neg ecm, if_neg service, if_neg table, if_neg pid]

/-- The ECMs acted on are those that the client is given. -/
theorem Intake.feed_camd (intake : Intake) (packet : Packet)
    (takes : intake.work.takesEcm packet) :
    (intake.feed packet).work.camd =
      (intake.acts packet .ecm).foldl (fun camd sec => camd.map (submitEcm sec))
        intake.work.camd := by
  have ecm : packet.pid = intake.work.reader.ecmPid ∧ intake.work.reader.ecmPid < noPid := takes
  have hears : intake.hears packet .ecm := takes
  rw [intake.feed_work, acts, if_pos hears]
  simp only [Work.packet, if_pos ecm, Tap.take, assembler]
  cases (psiAssemble intake.work.reader.ecmAsm packet).2 <;> rfl

end Stream
