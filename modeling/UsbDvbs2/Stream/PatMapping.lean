import UsbDvbs2.Stream.Outlet

/-! # Which pid the PMT is on

The PMT pid of a service comes from the command that asks for it or, when that
names none, from the PAT. Once there is one, later PAT sections are not asked any
more. What the PAT that is sent on says of the service then, and which packets are
taken for its PMT.
-/

namespace Stream

open Bytes Camd Concurrency

/-! ## One PAT section -/

/-- The PAT lists the service. -/
def Lists (sec : List UInt8) (svc pid : UInt16) : Prop :=
  patLookupPmtPid sec svc = pid ∧ pid < noPid

instance (sec : List UInt8) (svc pid : UInt16) : Decidable (Lists sec svc pid) :=
  inferInstanceAs (Decidable (_ ∧ _))

/-- A PAT of one service. -/
theorem patLookup_one {out : List UInt8} {svc pid : UInt16} (size : out.length = 16)
    (table : octet out 0 = 0x00) (service : be16 out 8 = svc) (named : be13 out 10 = pid) :
    patLookupPmtPid out svc = pid := by
  have positions : entries 4 (out.length - 4) (fun _ => 0) 8 = [8] := by rw [size]; rfl
  have first : [8].find? (be16 out · = svc) = some 8 :=
    List.find?_cons_of_pos (decide_eq_true service)
  rw [patLookupPmtPid, if_neg (by omega), positions, first]
  exact named

/-- The PAT that is sent on maps the service to the pid that it was made with. -/
theorem singlePat_maps {sec out : List UInt8} {svc pmt : UInt16}
    (made : singlePat sec svc pmt = some out) (known : pmt < noPid) :
    patLookupPmtPid out svc = pmt := by
  unfold singlePat at made
  split at made
  · exact nomatch made
  · obtain rfl := Option.some.inj made
    have fits : pmt.toNat < 2 ^ 13 := Nat.lt_trans (UInt16.lt_iff_toNat_lt.1 known) (by decide)
    exact patLookup_one rfl rfl (be16_written svc rfl rfl)
      (@be13_written _ 10 7 pmt fits rfl rfl)

/-- The pid in use once a PAT section has been looked at. -/
def pidInUse (sec : List UInt8) (svc inUse : UInt16) : UInt16 :=
  if noPid ≤ inUse then patLookupPmtPid sec svc else inUse

/-- A pid is told of when the PAT section that is complete lists the service. -/
theorem told_iff (complete : Option (List UInt8)) (svc pid : UInt16) :
    (complete.bind fun sec =>
        let listed := patLookupPmtPid sec svc
        if listed < noPid then some listed else none) = some pid ↔
      ∃ sec, complete = some sec ∧ Lists sec svc pid := by
  simp only [Option.bind_eq_some_iff]
  refine exists_congr fun sec => and_congr_right fun _ => ?_
  split
  · rename_i known
    refine ⟨fun same => ?_, fun lists => congrArg some lists.1⟩
    obtain rfl := Option.some.inj same
    exact ⟨rfl, known⟩
  · rename_i unknown
    exact iff_of_false nofun fun lists => unknown (lists.1 ▸ lists.2)

/-- The section that is sent in response is of the pid that the PAT lists exactly
when none was in use, or that one. -/
theorem pidInUse_eq_iff {sec : List UInt8} {svc inUse pid : UInt16} (lists : Lists sec svc pid) :
    pidInUse sec svc inUse = pid ↔ noPid ≤ inUse ∨ inUse = pid := by
  unfold pidInUse
  split
  · rename_i none_
    exact iff_of_true lists.1 (Or.inl none_)
  · rename_i known
    exact (or_iff_right known).symm

/-- A PAT that lists a service is one that is sent on. -/
theorem Lists.singlePat {sec : List UInt8} {svc pid : UInt16} (lists : Lists sec svc pid) :
    ∃ out, singlePat sec svc pid = some out ∧ patLookupPmtPid out svc = pid := by
  obtain ⟨found, known⟩ := lists
  have read : ¬ (sec.length < 12 ∨ octet sec 0 ≠ 0x00) := by
    intro short
    rw [patLookupPmtPid, if_pos short] at found
    rw [← found] at known
    exact absurd known (by decide)
  have made : Stream.singlePat sec svc pid = some _ := if_neg read
  exact ⟨_, made, singlePat_maps made known⟩

/-! ## The watched channel -/

/-- The PAT section that a packet completes. -/
def Work.patSection (work : Work) (packet : Packet) : Option (List UInt8) :=
  let reader := work.reader
  if packet.pid = reader.ecmPid ∧ reader.ecmPid < noPid then none
  else if reader.here.svc = 0 then none
  else if packet.pid = 0 then (psiAssemble reader.patAsm packet).2
  else none

/-- A packet that is taken for one of the service's PMT. -/
def Work.takesPmt (work : Work) (packet : Packet) : Prop :=
  ¬ (packet.pid = work.reader.ecmPid ∧ work.reader.ecmPid < noPid) ∧
    work.reader.here.svc ≠ 0 ∧ packet.pid ≠ 0 ∧
      packet.pid = work.reader.here.pmt ∧ work.reader.here.pmt < noPid

/-- Once round the loop of the stream thread, up to the packets of its read. -/
def Reader.turn (reader : Reader) (group : Group) (epoch : UInt32) (camd : Option Client) :
    Reader :=
  let copied := { reader with here := group }
  let adopted := if epoch ≠ reader.epoch then copied.adopt epoch else copied
  adopted.resolve.refresh camd

/-- The PMT pid that a turn begins with: the command's or else the one learned
since the epoch was adopted. -/
def Reader.pmtFor (reader : Reader) (group : Group) (epoch : UInt32) : UInt16 :=
  if noPid ≤ group.pmt then (if epoch ≠ reader.epoch then noPid else reader.learnedPmt)
  else group.pmt

def Outlet.turn (outlet : Outlet) (group : Group) (epoch : UInt32) (camd : Option Client) :
    Outlet :=
  let reader := outlet.work.reader
  let turned := { outlet with
    work := { outlet.work with reader := reader.turn group epoch camd, camd } }
  if epoch ≠ reader.epoch then { turned with patCc := 0, pmtCc := 0, latest := none } else turned

/-- The watched channel: the group that was taken over last, what the carrier's PAT
has told of its service, and whether nothing was taken over since. -/
structure Mapping where
  outlet : Outlet
  asked : Group
  told : Option UInt16
  lasting : Bool

/-- What happens to the watched channel, in any order: the carrier is tuned, the
stream thread goes round its loop with whatever group, epoch and client it finds,
and a packet comes. -/
inductive MappingEvent where
  | tune
  | turn (group : Group) (epoch : UInt32) (camd : Option Client)
  | packet (packet : Packet) (opens : Bool)

/-- What is told by the PAT section that a packet completes. -/
def Mapping.tells (mapping : Mapping) (packet : Packet) : Option UInt16 :=
  (mapping.outlet.work.patSection packet).bind fun sec =>
    let pid := patLookupPmtPid sec mapping.outlet.work.reader.here.svc
    if pid < noPid then some pid else none

def Mapping.next (mapping : Mapping) : MappingEvent → Mapping
  | .tune => { mapping with told := none }
  | .turn group epoch camd =>
      { outlet := mapping.outlet.turn group epoch camd
        asked := group
        told := if group.svc = mapping.asked.svc then mapping.told else none
        lasting := mapping.lasting &&
          decide (group = mapping.asked ∧ epoch = mapping.outlet.work.reader.epoch) }
  | .packet packet opens =>
      { mapping with
        outlet := (mapping.outlet.packet packet opens).1
        told := (mapping.tells packet).or mapping.told
        lasting := (mapping.tells packet).isSome || mapping.lasting }

/-- The pid in use is none or the one that the carrier's PAT lists: when a PAT
section of the service comes, and when a group is taken over for a service that
the PAT has been heard of. -/
def Mapping.Current (mapping : Mapping) : MappingEvent → Prop
  | .tune => True
  | .turn group epoch _ => group.svc = mapping.asked.svc → ∀ pid ∈ mapping.told,
      noPid ≤ mapping.outlet.work.reader.pmtFor group epoch ∨
        mapping.outlet.work.reader.pmtFor group epoch = pid
  | .packet packet _ => ∀ pid ∈ mapping.tells packet,
      noPid ≤ mapping.outlet.work.reader.here.pmt ∨ mapping.outlet.work.reader.here.pmt = pid

instance (mapping : Mapping) : ∀ event, Decidable (mapping.Current event)
  | .tune => inferInstanceAs (Decidable True)
  | .turn group epoch _ =>
      have : Decidable (∀ pid ∈ mapping.told,
          noPid ≤ mapping.outlet.work.reader.pmtFor group epoch ∨
            mapping.outlet.work.reader.pmtFor group epoch = pid) := Option.decidableForallMem _
      inferInstanceAs (Decidable (_ → _))
  | .packet _ _ => Option.decidableForallMem _

/-- The PAT that is sent on maps the service to the pid that the carrier's lists,
and from then on the packets of its PMT are on that pid. -/
def Mapping.Agrees (mapping : Mapping) : MappingEvent → Prop
  | .tune | .turn _ _ _ => True
  | .packet packet opens =>
      (∀ pid, mapping.tells packet = some pid →
        ∃ out, patLookupPmtPid out mapping.outlet.work.reader.here.svc = pid ∧
          (mapping.outlet.packet packet opens).2 =
            (udpTsSendSection 0 mapping.outlet.patCc true out).1.map
              (.table mapping.outlet.work.reader.here.svc) ∧
          (mapping.outlet.packet packet opens).1.work.reader.here.pmt = pid) ∧
      ∀ pid, mapping.told = some pid →
        (mapping.outlet.work.takesPmt packet → packet.pid = pid) ∧
          (mapping.lasting = true → mapping.outlet.work.reader.here.pmt = pid)

/-! ### What a packet does to the pid in use -/

/-- The service, the PMT pid in use and the learned one. -/
def Reader.pmtPids (reader : Reader) : UInt16 × UInt16 × UInt16 :=
  (reader.here.svc, reader.here.pmt, reader.learnedPmt)

theorem Reader.readPids_pmtPids (reader : Reader) (sec : List UInt8) :
    (reader.readPids sec).pmtPids = reader.pmtPids := by
  simp only [readPids]
  split
  · split <;> rfl
  · rfl

theorem Work.handOver_pmtPids (work : Work) (sec : List UInt8) :
    (work.handOver sec).reader.pmtPids = work.reader.pmtPids := by
  simp only [handOver]
  split <;> rfl

theorem Work.pmt_pmtPids (work : Work) (sec : List UInt8) :
    (work.pmt sec).reader.pmtPids = work.reader.pmtPids := by
  have handed := Work.handOver_pmtPids
    { work with sections := work.sections ++ [sec], reader := work.reader.readPids sec } sec
  rw [Reader.readPids_pmtPids] at handed
  exact handed

theorem Work.pat_pmtPids (work : Work) (sec : List UInt8) :
    (work.pat sec).reader.pmtPids =
      (work.reader.here.svc, pidInUse sec work.reader.here.svc work.reader.here.pmt,
        if noPid ≤ work.reader.here.pmt then patLookupPmtPid sec work.reader.here.svc
        else work.reader.learnedPmt) := by
  simp only [pat, pidInUse]
  split <;> rfl

/-- Only a PAT section changes the PMT pid in use. -/
theorem Work.packet_pmtPids (work : Work) (packet : Packet) :
    (work.packet packet).reader.pmtPids =
      match work.patSection packet with
      | some sec =>
          (work.reader.here.svc, pidInUse sec work.reader.here.svc work.reader.here.pmt,
            if noPid ≤ work.reader.here.pmt then patLookupPmtPid sec work.reader.here.svc
            else work.reader.learnedPmt)
      | none => work.reader.pmtPids := by
  by_cases ecm : packet.pid = work.reader.ecmPid ∧ work.reader.ecmPid < noPid
  · simp only [patSection, Work.packet, if_pos ecm]
    cases (psiAssemble work.reader.ecmAsm packet).2 <;> rfl
  by_cases service : work.reader.here.svc = 0
  · simp only [patSection, Work.packet, if_neg ecm, if_pos service]
  by_cases pat : packet.pid = 0
  · simp only [patSection, Work.packet, if_neg ecm, if_neg service, if_pos pat]
    cases (psiAssemble work.reader.patAsm packet).2 with
    | none => rfl
    | some sec => exact Work.pat_pmtPids _ sec
  by_cases pmt : packet.pid = work.reader.here.pmt ∧ work.reader.here.pmt < noPid
  · simp only [patSection, Work.packet, if_neg ecm, if_neg service, if_neg pat, if_pos pmt]
    cases (psiAssemble work.reader.pmtAsm packet).2 with
    | none => rfl
    | some sec => exact Work.pmt_pmtPids _ sec
  · simp only [patSection, Work.packet, if_neg ecm, if_neg service, if_neg pat, if_neg pmt]

/-- A PAT section is answered with a PAT of the pid in use. -/
theorem Outlet.packet_pat {outlet : Outlet} {packet : Packet} {sec out : List UInt8}
    (completes : outlet.work.patSection packet = some sec) (opens : Bool)
    (known : pidInUse sec outlet.work.reader.here.svc outlet.work.reader.here.pmt < noPid)
    (made : singlePat sec outlet.work.reader.here.svc
      (pidInUse sec outlet.work.reader.here.svc outlet.work.reader.here.pmt) = some out) :
    (outlet.packet packet opens).2 = (udpTsSendSection 0 outlet.patCc true out).1.map
      (.table outlet.work.reader.here.svc) := by
  have inUse : (outlet.work.packet packet).reader.here.pmt =
      pidInUse sec outlet.work.reader.here.svc outlet.work.reader.here.pmt := by
    have pids := outlet.work.packet_pmtPids packet
    rw [completes] at pids
    exact congrArg (fun pids => pids.2.1) pids
  simp only [Work.patSection] at completes
  split at completes
  · exact nomatch completes
  rename_i ecm
  split at completes
  · exact nomatch completes
  rename_i service
  split at completes
  · rename_i pat
    simp only [Outlet.packet, if_neg ecm, if_neg service, if_pos pat, completes, inUse,
      if_pos known, made]
  · exact nomatch completes

/-- The PMT pid that a turn begins with. -/
theorem Reader.turn_pmtPids (reader : Reader) (group : Group) (epoch : UInt32)
    (camd : Option Client) : (reader.turn group epoch camd).here.svc = group.svc ∧
      (reader.turn group epoch camd).here.pmt = reader.pmtFor group epoch ∧
      (reader.turn group epoch camd).learnedPmt =
        if epoch ≠ reader.epoch then noPid else reader.learnedPmt := by
  by_cases changed : epoch ≠ reader.epoch
  · simp only [turn, pmtFor, if_pos changed]
    exact ⟨rfl, rfl, rfl⟩
  · simp only [turn, pmtFor, if_neg changed]
    exact ⟨rfl, rfl, rfl⟩

theorem Outlet.turn_reader (outlet : Outlet) (group : Group) (epoch : UInt32)
    (camd : Option Client) : (outlet.turn group epoch camd).work.reader =
      outlet.work.reader.turn group epoch camd := by
  simp only [turn]
  split <;> rfl

/-! ### Runs of the watched channel -/

/-- The pid in use is what the last command named or else what was learned; and it
is none or the one that was told of. -/
structure Mapping.Kept (mapping : Mapping) : Prop where
  service : mapping.outlet.work.reader.here.svc = mapping.asked.svc
  inUse : mapping.outlet.work.reader.here.pmt =
    if noPid ≤ mapping.asked.pmt then mapping.outlet.work.reader.learnedPmt
    else mapping.asked.pmt
  told : ∀ pid, mapping.told = some pid → pid < noPid ∧
    (noPid ≤ mapping.outlet.work.reader.here.pmt ∨ mapping.outlet.work.reader.here.pmt = pid) ∧
      (mapping.lasting = true → mapping.outlet.work.reader.here.pmt = pid)

theorem Mapping.Kept.turn {mapping : Mapping} (kept : mapping.Kept) {group : Group}
    {epoch : UInt32} {camd : Option Client} (current : mapping.Current (.turn group epoch camd)) :
    (mapping.next (.turn group epoch camd)).Kept := by
  obtain ⟨svc, pmt, learned⟩ := mapping.outlet.work.reader.turn_pmtPids group epoch camd
  have reader := mapping.outlet.turn_reader group epoch camd
  refine ⟨?_, ?_, fun pid told => ?_⟩
  · simp only [next]
    rw [reader, svc]
  · simp only [next]
    rw [reader, pmt, learned, Reader.pmtFor]
    rfl
  · simp only [next] at told ⊢
    rw [reader, pmt]
    split at told
    · rename_i same
      refine ⟨(kept.told pid told).1, current same pid told, fun lasting => ?_⟩
      rw [Bool.and_eq_true, decide_eq_true_eq] at lasting
      obtain ⟨before, group_, epoch_⟩ := lasting
      rw [← (kept.told pid told).2.2 before, kept.inUse, group_, epoch_, Reader.pmtFor,
        if_neg (not_not.2 rfl)]
    · exact nomatch told

theorem Mapping.tells_iff (mapping : Mapping) (packet : Packet) (pid : UInt16) :
    mapping.tells packet = some pid ↔ ∃ sec, mapping.outlet.work.patSection packet = some sec ∧
      Lists sec mapping.outlet.work.reader.here.svc pid :=
  told_iff _ _ pid

/-- A PAT of the service: it is sent on with the pid that is in use afterwards. -/
theorem Mapping.Current.tells {mapping : Mapping} {packet : Packet} {opens : Bool} {pid : UInt16}
    (current : mapping.Current (.packet packet opens))
    (tells : mapping.tells packet = some pid) :
    ∃ out, patLookupPmtPid out mapping.outlet.work.reader.here.svc = pid ∧
      (mapping.outlet.packet packet opens).2 = (udpTsSendSection 0 mapping.outlet.patCc true
        out).1.map (.table mapping.outlet.work.reader.here.svc) ∧
      (mapping.outlet.packet packet opens).1.work.reader.here.pmt = pid := by
  have allowed := current pid tells
  obtain ⟨sec, completes, lists⟩ := (mapping.tells_iff packet pid).1 tells
  have inUse := (pidInUse_eq_iff lists).2 allowed
  obtain ⟨out, made, maps⟩ := lists.singlePat
  have pids := mapping.outlet.work.packet_pmtPids packet
  rw [completes] at pids
  refine ⟨out, maps, Outlet.packet_pat completes opens ?_ ?_, ?_⟩
  · rw [inUse]
    exact lists.2
  · rw [inUse, made]
  · rw [(mapping.outlet.packet_work packet opens).1, ← inUse]
    exact congrArg (fun pids => pids.2.1) pids

theorem Mapping.Kept.packet {mapping : Mapping} (kept : mapping.Kept) {packet : Packet}
    {opens : Bool} (current : mapping.Current (.packet packet opens)) :
    (mapping.next (.packet packet opens)).Kept := by
  have pids := mapping.outlet.work.packet_pmtPids packet
  have work := (mapping.outlet.packet_work packet opens).1
  cases completes : mapping.outlet.work.patSection packet with
  | none =>
      rw [completes] at pids
      simp only [Reader.pmtPids, Prod.mk.injEq] at pids
      obtain ⟨svc, pmt, learned⟩ := pids
      have silent : mapping.tells packet = none := by rw [tells, completes]; rfl
      refine ⟨?_, ?_, ?_⟩
      · simp only [next, work, svc]
        exact kept.service
      · simp only [next, work, pmt, learned]
        exact kept.inUse
      · simp only [next, work, pmt, silent, Option.none_or, Option.isSome_none, Bool.false_or]
        exact kept.told
  | some sec =>
      rw [completes] at pids
      simp only [Reader.pmtPids, Prod.mk.injEq] at pids
      obtain ⟨svc, pmt, learned⟩ := pids
      refine ⟨?_, ?_, fun pid told => ?_⟩
      · simp only [next, work, svc]
        exact kept.service
      · simp only [next, work, pmt, learned, pidInUse]
        have inUse := kept.inUse
        split
        · rename_i none_
          rw [if_pos]
          by_contra known
          rw [if_neg known] at inUse
          exact known (inUse ▸ none_)
        · exact inUse
      · cases tells : mapping.tells packet with
        | some other =>
            obtain ⟨-, -, -, inUse⟩ := current.tells tells
            have same : some other = some pid := by rwa [next, tells] at told
            obtain rfl := Option.some.inj same
            obtain ⟨_, _, lists⟩ := (mapping.tells_iff packet other).1 tells
            exact ⟨lists.2, Or.inr inUse, fun _ => inUse⟩
        | none =>
            simp only [next, tells, Option.none_or, Option.isSome_none, Bool.false_or] at told ⊢
            obtain ⟨known, here, lasts⟩ := kept.told pid told
            rw [work, pmt, pidInUse]
            split
            · rename_i none_
              refine ⟨known, Or.inl ?_, fun lasting => ?_⟩
              · by_contra listed
                have listed' := UInt16.not_le.1 listed
                rw [(mapping.tells_iff packet _).2 ⟨sec, completes, rfl, listed'⟩] at tells
                exact nomatch tells
              · rw [lasts lasting] at none_
                exact absurd known (UInt16.not_lt.2 none_)
            · exact ⟨known, here, lasts⟩

theorem Mapping.Kept.next {mapping : Mapping} (kept : mapping.Kept) {event : MappingEvent}
    (current : mapping.Current event) : (mapping.next event).Kept := by
  cases event with
  | tune => exact ⟨kept.service, kept.inUse, nofun⟩
  | turn group epoch camd => exact kept.turn current
  | packet packet opens => exact kept.packet current

theorem Mapping.Kept.agrees {mapping : Mapping} (kept : mapping.Kept) {event : MappingEvent}
    (current : mapping.Current event) : mapping.Agrees event := by
  cases event with
  | tune | turn => trivial
  | packet packet opens =>
      refine ⟨fun pid tells => current.tells tells, fun pid told => ?_⟩
      obtain ⟨-, here, lasts⟩ := kept.told pid told
      refine ⟨fun takes => ?_, lasts⟩
      obtain ⟨-, -, -, onPmt, known⟩ := takes
      exact onPmt.trans (here.resolve_left (UInt16.not_le.2 known))

/-- The stream thread before its first turn. -/
def Mapping.fresh : Mapping where
  outlet := ⟨⟨.fresh, none, [], []⟩, 0, 0, none⟩
  asked := ⟨0, 0, 0, 0, 0, 0⟩
  told := none
  lasting := false

theorem Mapping.kept_fresh : Mapping.fresh.Kept := ⟨rfl, by decide, nofun⟩

/-! ## An extra service -/

/-- The PAT section that a packet completes for a slot. -/
def ExtraOut.patSection (out : ExtraOut) (packet : Packet) : Option (List UInt8) :=
  if out.serviceId = 0 then none
  else if packet.pid = 0 then (psiAssemble out.patAsm packet).2
  else none

/-- A slot, and what the carrier's PAT has told of its service. -/
structure SlotMapping where
  slot : Slot
  told : Option UInt16

def SlotMapping.tells (mapping : SlotMapping) (packet : Packet) : Option UInt16 :=
  (mapping.slot.out.patSection packet).bind fun sec =>
    let pid := patLookupPmtPid sec mapping.slot.out.serviceId
    if pid < noPid then some pid else none

def SlotMapping.next (mapping : SlotMapping) (event : SlotEvent) : SlotMapping where
  slot := mapping.slot.next event
  told :=
    match event with
    | .tune => none
    | .turn =>
        if (mapping.slot.next .turn).out.serviceId = mapping.slot.out.serviceId then mapping.told
        else none
    | .offer packet => (mapping.tells packet).or mapping.told
    | .give _ | .announce => mapping.told

/-- When a PAT section of the service comes the pid in use is none or the one that
it lists. -/
def SlotMapping.Current (mapping : SlotMapping) : SlotEvent → Prop
  | .offer packet => ∀ pid ∈ mapping.tells packet,
      noPid ≤ mapping.slot.out.pmt ∨ mapping.slot.out.pmt = pid
  | _ => True

instance (mapping : SlotMapping) : ∀ event, Decidable (mapping.Current event)
  | .offer _ => Option.decidableForallMem _
  | .give _ | .announce | .tune | .turn => inferInstanceAs (Decidable True)

def SlotMapping.Agrees (mapping : SlotMapping) : SlotEvent → Prop
  | .offer packet =>
      (∀ pid, mapping.tells packet = some pid → ∃ out patAsm,
        patLookupPmtPid out mapping.slot.out.serviceId = pid ∧
          mapping.slot.out.feed packet =
            { mapping.slot.out with
              patAsm, pmt := pid
              patCc := (udpTsSendSection 0 mapping.slot.out.patCc true out).2 }.send
              ((udpTsSendSection 0 mapping.slot.out.patCc true out).1.map
                (.table mapping.slot.out.serviceId))) ∧
      ∀ pid, mapping.told = some pid → mapping.slot.out.pmt = pid
  | _ => True

theorem ExtraOut.pat_pids (out : ExtraOut) (sec : List UInt8) :
    (out.pat sec).1.serviceId = out.serviceId ∧
      (out.pat sec).1.pmt = pidInUse sec out.serviceId out.pmt := by
  simp only [pat, pidInUse]
  generalize (if noPid ≤ out.pmt then patLookupPmtPid sec out.serviceId else out.pmt) = pmt
  split
  · cases Stream.singlePat sec out.serviceId pmt <;> exact ⟨rfl, rfl⟩
  · exact ⟨rfl, rfl⟩

/-- A slot that keeps its service keeps a known PMT pid. -/
theorem ExtraOut.refresh_pmt {out : ExtraOut} {wanted : Wanted}
    (same : (out.refresh wanted).serviceId = out.serviceId) (known : out.pmt < noPid) :
    (out.refresh wanted).pmt = out.pmt := by
  unfold refresh at same ⊢
  split
  · exact if_neg (UInt16.not_le.2 known)
  · rename_i other
    rw [if_neg other] at same
    exact absurd same other

theorem ExtraOut.pmtSection_pids (out : ExtraOut) (sec : List UInt8) :
    (out.pmtSection sec).1.serviceId = out.serviceId ∧ (out.pmtSection sec).1.pmt = out.pmt := by
  simp only [pmtSection]
  split <;> exact ⟨rfl, rfl⟩

/-- Only a PAT section changes the PMT pid of a slot. -/
theorem ExtraOut.feed_pids (out : ExtraOut) (packet : Packet) :
    (out.feed packet).1.serviceId = out.serviceId ∧
      (out.feed packet).1.pmt =
        match out.patSection packet with
        | some sec => pidInUse sec out.serviceId out.pmt
        | none => out.pmt := by
  by_cases service : out.serviceId = 0
  · simp only [feed, patSection, if_pos service, and_self]
  by_cases pat : packet.pid = 0
  · simp only [feed, patSection, if_neg service, if_pos pat]
    cases (psiAssemble out.patAsm packet).2 with
    | none => exact ⟨rfl, rfl⟩
    | some sec => exact ExtraOut.pat_pids _ sec
  · simp only [feed, patSection, if_neg service, if_neg pat]
    split
    · cases (psiAssemble out.pmtAsm packet).2 with
      | none => exact ⟨rfl, rfl⟩
      | some sec => exact ExtraOut.pmtSection_pids _ sec
    · split
      · exact ⟨rfl, rfl⟩
      · split <;> exact ⟨rfl, rfl⟩

theorem SlotMapping.tells_iff (mapping : SlotMapping) (packet : Packet) (pid : UInt16) :
    mapping.tells packet = some pid ↔ ∃ sec, mapping.slot.out.patSection packet = some sec ∧
      Lists sec mapping.slot.out.serviceId pid :=
  told_iff _ _ pid

/-- A PAT of the service is answered with a PAT of the pid that it lists. -/
theorem ExtraOut.feed_pat {out : ExtraOut} {packet : Packet} {sec made : List UInt8} {pid : UInt16}
    (completes : out.patSection packet = some sec)
    (inUse : pidInUse sec out.serviceId out.pmt = pid) (known : pid < noPid)
    (maps : singlePat sec out.serviceId pid = some made) : ∃ patAsm,
      out.feed packet =
        { out with
          patAsm, pmt := pid
          patCc := (udpTsSendSection 0 out.patCc true made).2 }.send
          ((udpTsSendSection 0 out.patCc true made).1.map (.table out.serviceId)) := by
  rw [pidInUse] at inUse
  simp only [patSection] at completes
  split at completes
  · exact nomatch completes
  rename_i service
  split at completes
  · rename_i pat
    refine ⟨(psiAssemble out.patAsm packet).1, ?_⟩
    simp only [feed, if_neg service, if_pos pat, completes, ExtraOut.pat, inUse, if_pos known, maps]
  · exact nomatch completes

/-- What was told is in use. -/
def SlotMapping.Kept (mapping : SlotMapping) : Prop :=
  ∀ pid, mapping.told = some pid → pid < noPid ∧ mapping.slot.out.pmt = pid

theorem SlotMapping.Kept.next {mapping : SlotMapping} (kept : mapping.Kept) {event : SlotEvent}
    (current : mapping.Current event) : (mapping.next event).Kept := by
  cases event with
  | give wanted =>
      intro pid told
      obtain ⟨known, inUse⟩ := kept pid told
      refine ⟨known, ?_⟩
      simp only [SlotMapping.next, Slot.next]
      split <;> exact inUse
  | announce => exact kept
  | tune =>
      intro pid told
      contradiction
  | turn =>
      intro pid told
      simp only [SlotMapping.next] at told ⊢
      split at told
      · rename_i same
        obtain ⟨known, inUse⟩ := kept pid told
        refine ⟨known, ?_⟩
        by_cases seen : mapping.slot.epoch = mapping.slot.seen
        · rw [Slot.next, if_pos seen]
          exact inUse
        · rw [Slot.next, if_neg seen] at same ⊢
          exact (ExtraOut.refresh_pmt same (inUse ▸ known)).trans inUse
      · contradiction
  | offer packet =>
      intro pid told
      obtain ⟨-, pmt⟩ := mapping.slot.out.feed_pids packet
      simp only [SlotMapping.next, Slot.next] at told ⊢
      rw [pmt]
      cases tells : mapping.tells packet with
      | some other =>
          rw [tells, Option.some_or] at told
          obtain rfl := Option.some.inj told
          obtain ⟨sec, completes, lists⟩ := (mapping.tells_iff packet other).1 tells
          rw [completes]
          exact ⟨lists.2, (pidInUse_eq_iff lists).2 (current other tells)⟩
      | none =>
          rw [tells, Option.none_or] at told
          obtain ⟨known, inUse⟩ := kept pid told
          refine ⟨known, ?_⟩
          cases mapping.slot.out.patSection packet with
          | none => exact inUse
          | some sec =>
              simp only [pidInUse, inUse, if_neg (UInt16.not_le.2 known)]

theorem SlotMapping.Kept.agrees {mapping : SlotMapping} (kept : mapping.Kept) {event : SlotEvent}
    (current : mapping.Current event) : mapping.Agrees event := by
  cases event with
  | offer packet =>
      refine ⟨fun pid tells => ?_, fun pid told => (kept pid told).2⟩
      obtain ⟨sec, completes, lists⟩ := (mapping.tells_iff packet pid).1 tells
      have inUse := (pidInUse_eq_iff lists).2 (current pid tells)
      obtain ⟨out, made, maps⟩ := lists.singlePat
      obtain ⟨patAsm, fed⟩ := ExtraOut.feed_pat completes inUse lists.2 made
      exact ⟨out, patAsm, maps, fed⟩
  | give | announce | tune | turn => trivial

/-! ## Both -/

/-- In every run of the watched channel and in every run of an extra service:
if the PMT pid in use is none or the one that the carrier's PAT lists, the PAT
that is sent on agrees with the carrier's, and from then on so do the packets that
are taken for the PMT. -/
theorem rebuilt_pat_agrees {final : Mapping} {runs : List (Moved Mapping MappingEvent)}
    {slotFinal : SlotMapping} {slotRuns : List (Moved SlotMapping SlotEvent)} :
    (Walk (stepOf Mapping.next) .fresh runs final →
      (∀ moved ∈ runs, moved.before.Current moved.event) →
        ∀ moved ∈ runs, moved.before.Agrees moved.event) ∧
    (Walk (stepOf SlotMapping.next) ⟨.fresh, none⟩ slotRuns slotFinal →
      (∀ moved ∈ slotRuns, moved.before.Current moved.event) →
        ∀ moved ∈ slotRuns, moved.before.Agrees moved.event) := by
  refine ⟨fun walk current => ?_, fun walk current => ?_⟩
  · refine walk.wanted_of_allowed Mapping.Kept (fun moved => moved.before.Current moved.event) _
      (fun moved step allowed kept => ?_) Mapping.kept_fresh current
    have after : moved.after = moved.before.next moved.event := step
    exact ⟨after ▸ kept.next allowed, kept.agrees allowed⟩
  · have nothing : SlotMapping.Kept ⟨.fresh, none⟩ := nofun
    refine walk.wanted_of_allowed SlotMapping.Kept
      (fun moved => moved.before.Current moved.event) _
      (fun moved step allowed kept => ?_) nothing current
    have after : moved.after = moved.before.next moved.event := step
    exact ⟨after ▸ kept.next allowed, kept.agrees allowed⟩

/-! ### A PAT that lists service 1 -/

/-- A packet with a PAT that lists service 1 on pid 0x200. -/
def mappedPat : Packet := sectionPacket 0 0 true
  [0x00, 0xb0, 13, 0x00, 0x01, 0xc1, 0x00, 0x00, 0x00, 0x01, 0xe2, 0x00, 0, 0, 0, 0]

/-- Service 1 is asked for with a PMT pid. -/
def askedWith (pmt : UInt16) : List MappingEvent :=
  [.tune, .turn ⟨1, pmt, noPid, noPid, noPid, 0⟩ 0 none]

/-- The PAT comes twice. -/
def patTwice (pmt : UInt16) : List MappingEvent :=
  askedWith pmt ++ .packet mappedPat true :: [.packet mappedPat true]

def slotAskedWith (pmt : UInt16) : List SlotEvent :=
  [.give ⟨1, pmt, noPid, noPid⟩, .announce, .turn, .offer mappedPat, .offer mappedPat]

theorem rebuilt_pat_agrees_learned :
    (∀ moved ∈ moves Mapping.next .fresh (patTwice noPid),
      moved.before.Agrees moved.event) ∧
    ∀ moved ∈ moves SlotMapping.next ⟨.fresh, none⟩ (slotAskedWith noPid),
      moved.before.Agrees moved.event :=
  have agrees := @rebuilt_pat_agrees _ (moves Mapping.next .fresh (patTwice noPid)) _
    (moves SlotMapping.next ⟨.fresh, none⟩ (slotAskedWith noPid))
  ⟨agrees.1 (walk_moves _ _ _) (by decide +kernel), agrees.2 (walk_moves _ _ _) (by decide +kernel)⟩

theorem Mapping.not_agrees {mapping : Mapping} {packet : Packet} {opens : Bool} {pid : UInt16}
    (tells : mapping.tells packet = some pid)
    (other : (mapping.outlet.packet packet opens).1.work.reader.here.pmt ≠ pid) :
    ¬ mapping.Agrees (.packet packet opens) := by
  intro agrees
  obtain ⟨-, -, -, same⟩ := agrees.1 pid tells
  exact other same

/-- A stale pid of the channel list is sent on in place of the one that the PAT
lists, and stays in use. -/
theorem rebuilt_pat_stale : ∃ moved ∈ moves Mapping.next .fresh (patTwice 0x100),
    ¬ moved.before.Agrees moved.event := by
  have tells : ((askedWith 0x100).foldl Mapping.next .fresh).tells mappedPat = some 0x200 := by
    decide +kernel
  have other : (((askedWith 0x100).foldl Mapping.next .fresh).outlet.packet mappedPat
      true).1.work.reader.here.pmt ≠ 0x200 := by decide +kernel
  have mem := mem_moves Mapping.next .fresh (askedWith 0x100) (.packet mappedPat true)
    [.packet mappedPat true]
  have disagrees := @Mapping.not_agrees _ _ true _ tells other
  exact ⟨_, mem, disagrees⟩

end Stream
