import UsbDvbs2.Stream.ExtraSlots
import UsbDvbs2.Stream.Zapping

/-! # The single-programme filter

What the stream thread hands to its own writer: the rebuilt PAT and PMT, and the
packets of the service. The pids it lets through come from the PMT, with one
exception: a teletext pid of the channel list or of an older PMT stays in use when
the table does not name one.
-/

namespace Stream

open Bytes Camd Concurrency Engine Program ThreadSystem

/-! ## What a packet has handed on -/

/-- The section that a packet completes on the PMT pid. -/
def Work.pmtSection (work : Work) (packet : Packet) : Option (List UInt8) :=
  let reader := work.reader
  if packet.pid = reader.ecmPid ∧ reader.ecmPid < noPid then none
  else if reader.here.svc = 0 then none
  else if packet.pid = 0 then none
  else if packet.pid = reader.here.pmt ∧ reader.here.pmt < noPid then
    (psiAssemble reader.pmtAsm packet).2
  else none

/-- A pid that is let through. -/
def Reader.letsThrough (reader : Reader) (pid : UInt16) : Prop :=
  reader.streamPids ≠ [] ∧
    (pid ∈ reader.streamPids ∨ pid = reader.here.vpid ∧ reader.here.vpid < noPid ∨
      pid = reader.here.apid ∧ reader.here.apid < noPid ∨
      pid = reader.here.ttxpid ∧ reader.here.ttxpid < noPid ∨
      pid = reader.pcrPid ∧ reader.pcrPid < noPid)

instance (reader : Reader) (pid : UInt16) : Decidable (reader.letsThrough pid) :=
  inferInstanceAs (Decidable (_ ∧ _))

/-- The thread during a read with the counters of its tables, and the latest PMT
of the service that was processed since the channel was adopted. -/
structure Outlet where
  work : Work
  patCc : UInt8
  pmtCc : UInt8
  latest : Option (List UInt8)

/-- The latest PMT with a packet that completes one. -/
def Outlet.latestWith (outlet : Outlet) (packet : Packet) : Option (List UInt8) :=
  match outlet.work.pmtSection packet with
  | some sec => if isPmtOf sec outlet.work.reader.here.svc then some sec else outlet.latest
  | none => outlet.latest

/-- One packet: what becomes of the thread, and what it hands to its writer. `opens`
says whether a video packet gets past the wait for a picture. -/
def Outlet.packet (outlet : Outlet) (packet : Packet) (opens : Bool) : Outlet × List Outgoing :=
  let reader := outlet.work.reader
  let svc := reader.here.svc
  let after := { outlet with
    work := outlet.work.packet packet, latest := outlet.latestWith packet }
  if packet.pid = reader.ecmPid ∧ reader.ecmPid < noPid then (after, [])
  else if svc = 0 then (after, [.passed packet])
  else if packet.pid = 0 then
    let pmt := after.work.reader.here.pmt
    match (psiAssemble reader.patAsm packet).2 with
    | some sec =>
        if pmt < noPid then
          match singlePat sec svc pmt with
          | some section_ =>
              let sent := udpTsSendSection 0 outlet.patCc true section_
              ({ after with patCc := sent.2 }, sent.1.map (.table svc))
          | none => (after, [])
        else (after, [])
    | none => (after, [])
  else if packet.pid = reader.here.pmt ∧ reader.here.pmt < noPid then
    match (psiAssemble reader.pmtAsm packet).2 with
    | some sec =>
        match sendRebuiltPmt sec svc reader.here.pmt reader.keys.decrypts outlet.pmtCc with
        | some sent => ({ after with pmtCc := sent.2 }, sent.1.map (.table svc))
        | none => (after, [])
    | none => (after, [])
  else if reader.letsThrough packet.pid then
    let isVideo := packet.pid = reader.here.vpid ∧ reader.here.vpid < noPid
    if isVideo ∧ opens = false then (after, []) else (after, [.passed packet])
  else (after, [])

/-- A packet with the thread's state before it and what was handed on. -/
structure View where
  outlet : Outlet
  packet : Packet
  handed : List Outgoing

/-- The packets of a read. -/
def Outlet.read : Outlet → (Nat → Bool) → List Packet → Outlet × List View
  | outlet, _, [] => (outlet, [])
  | outlet, opens, packet :: packets =>
      let done := outlet.packet packet (opens 0)
      let rest := read done.1 (fun k => opens (k + 1)) packets
      (rest.1, ⟨outlet, packet, done.2⟩ :: rest.2)

theorem Outlet.packet_work (outlet : Outlet) (packet : Packet) (opens : Bool) :
    (outlet.packet packet opens).1.work = outlet.work.packet packet ∧
      (outlet.packet packet opens).1.latest = outlet.latestWith packet := by
  simp only [Outlet.packet]
  repeat' split
  all_goals exact ⟨rfl, rfl⟩

/-! ## The filter among the commands -/

/-- The system of channel changes with the thread's writer: what its packets come
from and all views of them so far. -/
structure OutletState where
  state : State
  patCc : UInt8
  pmtCc : UInt8
  latest : Option (List UInt8)
  arrived : List Packet
  views : List View

structure OutletInput where
  input : Input := {}
  opens : Nat → Bool := fun _ => true

def OutletState.outlet (outlet : OutletState) : Outlet :=
  ⟨outlet.state.work, outlet.patCc, outlet.pmtCc, outlet.latest⟩

/-- A new channel begins its tables anew; a read goes through the filter. -/
def outletEffect (operation : Op) (given : OutletInput) (outlet : OutletState) :
    operation.Answer × OutletState :=
  let done := effect operation given.input outlet.state
  (done.1,
    match operation with
    | .adoptEpoch => { outlet with state := done.2, patCc := 0, pmtCc := 0, latest := none }
    | .processRead packets =>
        let read := outlet.outlet.read given.opens packets
        { state := done.2
          patCc := read.1.patCc
          pmtCc := read.1.pmtCc
          latest := read.1.latest
          arrived := outlet.arrived ++ packets
          views := outlet.views ++ read.2 }
    | _ => { outlet with state := done.2 })

abbrev filtering : ThreadSystem signature OutletState OutletInput Thread where
  machine := { exec := fun operation input outlet => some (outletEffect operation input outlet) }
  Command := Thread.Command
  Locals := fun _ => Unit
  body := Thread.body

/-- The engine with some channel and perhaps a client, before anything is sent. -/
def unfiltered (group : Group) (camd : Option Client) : filtering.Config where
  shared :=
    { state := (zapped group camd).shared
      patCc := 0
      pmtCc := 0
      latest := none
      arrived := []
      views := [] }
  phase := fun _ => .idle ()

abbrev Filtered : Type := Moved filtering.Config filtering.Event

/-! ## The pids come from the latest PMT -/

/-- What decides which pids are let through, apart from teletext. -/
structure PidFilter where
  vpid : UInt16
  apid : UInt16
  tablePids : Bool
  learned : AvPids
  pcrPid : UInt16
  streamPids : List UInt16

def Reader.pidFilter (reader : Reader) : PidFilter where
  vpid := reader.here.vpid
  apid := reader.here.apid
  tablePids := reader.tablePids
  learned := reader.learned
  pcrPid := reader.pcrPid
  streamPids := reader.streamPids

/-- The table's own pids go before the listed ones. -/
def PidFilter.Settled (filter : PidFilter) : Prop :=
  filter.tablePids = true → filter.vpid = filter.learned.video ∧ filter.apid = filter.learned.audio

/-- No entry of the table overruns it. -/
def Whole (sec : List UInt8) : Prop :=
  programInfoEnd sec ≤ sec.length - 4 ∧ ∀ pos ∈ streamEntries sec, entryFits sec pos = true

/-- The pids were read from the PMT of a service. -/
structure PidFilter.From (filter : PidFilter) (sec : List UInt8) (svc : UInt16) : Prop where
  service : svc ≠ 0
  table : isPmtOf sec svc = true
  read : filter.tablePids = true
  learned : filter.learned = pmtLookupStreamPids sec svc
  clock : Whole sec → Names sec svc filter.pcrPid
  streams : Whole sec → ∀ pid ∈ filter.streamPids, Names sec svc pid

theorem isPmtOf_inj {sec : List UInt8} {svc other : UInt16} (one : isPmtOf sec svc = true)
    (two : isPmtOf sec other = true) : svc = other := by
  rw [isPmtOf, Bool.and_eq_true, beq_iff_eq] at one two
  exact one.2.symm.trans two.2

/-- The pids that are known are named by the table. -/
def AvPids.Named (sec : List UInt8) (svc : UInt16) (pids : AvPids) : Prop :=
  (pids.video < noPid → Names sec svc pids.video) ∧ (pids.audio < noPid → Names sec svc pids.audio)

theorem AvPids.named_unknown (sec : List UInt8) (svc : UInt16) : AvPids.unknown.Named sec svc :=
  ⟨fun none => absurd none (by decide), fun none => absurd none (by decide)⟩

theorem AvPids.Named.see {sec : List UInt8} {svc : UInt16} {pids : AvPids}
    (named : pids.Named sec svc) (table : isPmtOf sec svc = true) {pos : Nat}
    (entry : pos ∈ streamEntries sec) : (AvPids.see sec pids pos).Named sec svc := by
  have names : Names sec svc (be13 sec (pos + 1)) := .inl ⟨table, pos, entry, rfl⟩
  simp only [AvPids.see]
  split
  · exact ⟨fun _ => names, named.2⟩
  · split
    · exact ⟨named.1, fun _ => names⟩
    · exact named

/-- The pids of picture and sound are those of stream entries. -/
theorem pmtLookupStreamPids_named {sec : List UInt8} {svc : UInt16}
    (table : isPmtOf sec svc = true) : (pmtLookupStreamPids sec svc).Named sec svc := by
  have fold : ∀ (positions : List Nat) (pids : AvPids),
      (∀ pos ∈ positions, pos ∈ streamEntries sec) → pids.Named sec svc →
        (positions.foldl (AvPids.see sec) pids).Named sec svc := by
    intro positions
    induction positions with
    | nil => exact fun _ _ named => named
    | cons pos positions ih =>
        intro pids inside named
        rw [List.forall_mem_cons] at inside
        exact ih _ inside.2 (named.see table inside.1)
  rw [pmtLookupStreamPids, if_pos table]
  exact fold _ _ (fun _ => id) (AvPids.named_unknown sec svc)

theorem selectStreams_whole {sec : List UInt8} {positions : List Nat}
    (whole : ∀ pos ∈ positions, entryFits sec pos = true) (teletext : UInt16)
    (found : List UInt16) : (selectStreams sec positions teletext found).2.isSome = true := by
  induction positions generalizing teletext found with
  | nil => rfl
  | cons pos positions ih =>
      rw [List.forall_mem_cons] at whole
      rw [selectStreams, if_pos whole.1]
      exact ih whole.2 _ _

/-- A whole table gives all pids anew. -/
theorem sendSelectedPmt_whole {sec : List UInt8} {svc : UInt16} (table : isPmtOf sec svc = true)
    (whole : Whole sec) (known : Selected) :
    Names sec svc (sendSelectedPmt sec svc known).pcr ∧
      ∀ pid ∈ (sendSelectedPmt sec svc known).streams, Names sec svc pid := by
  have anew := selectStreams_whole whole.2 known.teletext []
  have sources := (selectStreams_sources sec (streamEntries sec) known.teletext []).2
  rw [sendSelectedPmt, if_pos ⟨table, whole.1⟩]
  refine ⟨.inr ⟨table, rfl⟩, fun pid mem => ?_⟩
  obtain ⟨pids, found⟩ := Option.isSome_iff_exists.1 anew
  simp only [found, Option.getD_some] at mem
  rcases sources pids found pid mem with impossible | ⟨pos, entry, same⟩
  · exact (List.not_mem_nil impossible).elim
  · exact .inl ⟨table, pos, entry, same⟩

/-! ## One packet -/

theorem Work.pat_pidFilter (work : Work) (sec : List UInt8) :
    (work.pat sec).reader.pidFilter = work.reader.pidFilter := by
  simp only [Work.pat]
  split <;> rfl

theorem Work.handOver_pidFilter (work : Work) (sec : List UInt8) :
    (work.handOver sec).reader.pidFilter = work.reader.pidFilter ∧
      (work.handOver sec).reader.here = work.reader.here := by
  simp only [Work.handOver]
  split <;> exact ⟨rfl, rfl⟩

/-- A section that is not the service's PMT changes no pid. -/
theorem Work.pmt_pidFilter_of_not {work : Work} {sec : List UInt8}
    (other : ¬ isPmtOf sec work.reader.here.svc = true) :
    (work.pmt sec).reader.pidFilter = work.reader.pidFilter := by
  have reads : work.reader.readPids sec = work.reader := by
    rw [Reader.readPids, if_neg other]
  have handed := Work.handOver_pidFilter { work with sections := work.sections ++ [sec] } sec
  simp only [Work.pmt, reads]
  generalize ({ work with sections := work.sections ++ [sec] } : Work).handOver sec = done at *
  obtain ⟨same, here⟩ := handed
  have not : ¬ (isPmtOf sec done.reader.here.svc = true ∧
      programInfoEnd sec ≤ sec.length - 4) := by
    rw [here]
    exact fun both => other both.1
  rw [← same]
  simp only [Reader.selectPids, sendSelectedPmt, if_neg not]
  rfl

/-- The pids of the table are in use from now on, if they were not already. -/
theorem Reader.readPids_table {reader : Reader} {sec : List UInt8}
    (settled : reader.pidFilter.Settled) (table : isPmtOf sec reader.here.svc = true) :
    (reader.readPids sec).tablePids = true ∧
      (reader.readPids sec).learned = pmtLookupStreamPids sec reader.here.svc ∧
      (reader.readPids sec).pidFilter.Settled ∧
      (reader.readPids sec).here.svc = reader.here.svc := by
  rw [readPids, if_pos table]
  by_cases anew : (!reader.tablePids || decide (pmtLookupStreamPids sec reader.here.svc ≠
      reader.learned)) = true
  · simp only [if_pos anew, true_and, and_true]
    exact fun _ => ⟨rfl, rfl⟩
  · simp only [if_neg anew, and_true]
    simp only [Bool.or_eq_true, Bool.not_eq_true', decide_eq_true_eq, not_or, Bool.not_eq_false,
      not_not] at anew
    exact ⟨anew.1, anew.2.symm, settled⟩

theorem Reader.selectPids_pidFilter (reader : Reader) (sec : List UInt8) :
    (reader.selectPids sec).pidFilter =
      { reader.pidFilter with
        pcrPid := (sendSelectedPmt sec reader.here.svc
          ⟨reader.here.ttxpid, reader.pcrPid, reader.streamPids⟩).pcr
        streamPids := (sendSelectedPmt sec reader.here.svc
          ⟨reader.here.ttxpid, reader.pcrPid, reader.streamPids⟩).streams } := rfl

/-- The service's PMT gives the pids. -/
theorem Work.pmt_from {work : Work} {sec : List UInt8} (service : work.reader.here.svc ≠ 0)
    (settled : work.reader.pidFilter.Settled) (table : isPmtOf sec work.reader.here.svc = true) :
    (work.pmt sec).reader.pidFilter.Settled ∧
      (work.pmt sec).reader.pidFilter.From sec work.reader.here.svc := by
  obtain ⟨read, learned, kept, svc⟩ := Reader.readPids_table settled table
  obtain ⟨same, here⟩ := Work.handOver_pidFilter
    { work with sections := work.sections ++ [sec], reader := work.reader.readPids sec } sec
  simp only [Work.pmt]
  generalize ({ work with
    sections := work.sections ++ [sec]
    reader := work.reader.readPids sec } : Work).handOver sec = done at *
  have ours : isPmtOf sec done.reader.here.svc = true := by rwa [here, svc]
  have names := fun whole => sendSelectedPmt_whole ours whole
    ⟨done.reader.here.ttxpid, done.reader.pcrPid, done.reader.streamPids⟩
  rw [here, svc] at names
  rw [Reader.selectPids_pidFilter, same, here, svc]
  exact ⟨kept, service, table, read, learned, fun whole => (names whole).1,
    fun whole => (names whole).2⟩

/-- A packet that completes a section on the PMT pid, or one that changes no pid. -/
theorem Work.packet_pmtSection (work : Work) (packet : Packet) :
    match work.pmtSection packet with
    | some sec => work.reader.here.svc ≠ 0 ∧ ∃ patAsm pmtAsm ecmAsm,
        work.packet packet = (work.assembling patAsm pmtAsm ecmAsm).pmt sec
    | none => (work.packet packet).reader.pidFilter = work.reader.pidFilter := by
  by_cases ecm : packet.pid = work.reader.ecmPid ∧ work.reader.ecmPid < noPid
  · simp only [Work.pmtSection, Work.packet, if_pos ecm]
    cases (psiAssemble work.reader.ecmAsm packet).2 <;> rfl
  by_cases service : work.reader.here.svc = 0
  · simp only [Work.pmtSection, Work.packet, if_neg ecm, if_pos service]
  by_cases pat : packet.pid = 0
  · simp only [Work.pmtSection, Work.packet, if_neg ecm, if_neg service, if_pos pat]
    cases (psiAssemble work.reader.patAsm packet).2 with
    | none => rfl
    | some sec => exact Work.pat_pidFilter _ sec
  by_cases pmt : packet.pid = work.reader.here.pmt ∧ work.reader.here.pmt < noPid
  · simp only [Work.pmtSection, Work.packet, if_neg ecm, if_neg service, if_neg pat, if_pos pmt]
    cases (psiAssemble work.reader.pmtAsm packet).2 with
    | none => rfl
    | some sec => exact ⟨service, work.reader.patAsm, (psiAssemble work.reader.pmtAsm packet).1,
        work.reader.ecmAsm, rfl⟩
  · simp only [Work.pmtSection, Work.packet, if_neg ecm, if_neg service, if_neg pat, if_neg pmt]

/-- What is in use belongs to the latest PMT, if there is one. -/
def FollowsLatest (filter : PidFilter) (latest : Option (List UInt8)) : Prop :=
  ∀ sec, latest = some sec → ∃ svc, filter.From sec svc

theorem Outlet.packet_follows {outlet : Outlet} (packet : Packet) (opens : Bool)
    (settled : outlet.work.reader.pidFilter.Settled)
    (follows : FollowsLatest outlet.work.reader.pidFilter outlet.latest) :
    (outlet.packet packet opens).1.work.reader.pidFilter.Settled ∧
      FollowsLatest (outlet.packet packet opens).1.work.reader.pidFilter
        (outlet.packet packet opens).1.latest := by
  obtain ⟨work, latest⟩ := outlet.packet_work packet opens
  have completes := outlet.work.packet_pmtSection packet
  rw [work, latest, latestWith]
  cases section_ : outlet.work.pmtSection packet with
  | none =>
      rw [section_] at completes
      simp only at completes
      rw [completes]
      exact ⟨settled, follows⟩
  | some sec =>
      rw [section_] at completes
      obtain ⟨service, patAsm, pmtAsm, ecmAsm, same⟩ := completes
      rw [same]
      let assembled := outlet.work.assembling patAsm pmtAsm ecmAsm
      by_cases table : isPmtOf sec outlet.work.reader.here.svc = true
      · simp only [if_pos table]
        obtain ⟨kept, source⟩ := @Work.pmt_from assembled sec service settled table
        refine ⟨kept, fun other here => ?_⟩
        obtain rfl := Option.some.inj here
        exact ⟨_, source⟩
      · simp only [if_neg table]
        rw [@Work.pmt_pidFilter_of_not assembled sec table]
        exact ⟨settled, follows⟩

/-! ## What is handed on -/

/-- What is handed on is a table of the service or, once its PMT has been
processed, of a pid that the latest one names. -/
def View.Pure (view : View) : Prop :=
  ∀ item ∈ view.handed,
    match item with
    | .table svc _ => svc = view.outlet.work.reader.here.svc
    | .passed packet => packet = view.packet ∧
        ∀ sec, view.outlet.latest = some sec →
          isPmtOf sec view.outlet.work.reader.here.svc = true →
            Names sec view.outlet.work.reader.here.svc packet.pid

/-- The latest PMT is whole, and the teletext pid in use is none or one of its. -/
def View.Clean (view : View) : Prop :=
  ∀ sec, view.outlet.latest = some sec → isPmtOf sec view.outlet.work.reader.here.svc = true →
    Whole sec ∧ (noPid ≤ view.outlet.work.reader.here.ttxpid ∨
      Names sec view.outlet.work.reader.here.svc view.outlet.work.reader.here.ttxpid)

/-- Of the pids that are let through only the teletext pid need not be named by a
whole table. -/
theorem Outlet.letsThrough_cases {outlet : Outlet} {pid svc : UInt16} {sec : List UInt8}
    (source : outlet.work.reader.pidFilter.From sec svc)
    (settled : outlet.work.reader.pidFilter.Settled) (whole : Whole sec)
    (lets : outlet.work.reader.letsThrough pid) : Names sec svc pid ∨
      pid = outlet.work.reader.here.ttxpid ∧ outlet.work.reader.here.ttxpid < noPid := by
  have video : outlet.work.reader.here.vpid = outlet.work.reader.learned.video :=
    (settled source.read).1
  have audio : outlet.work.reader.here.apid = outlet.work.reader.learned.audio :=
    (settled source.read).2
  have learned : outlet.work.reader.learned = pmtLookupStreamPids sec svc := source.learned
  have named := pmtLookupStreamPids_named source.table
  rw [← learned] at named
  rcases lets.2 with stream | ⟨rfl, known⟩ | ⟨rfl, known⟩ | teletext | ⟨rfl, -⟩
  · exact .inl (source.streams whole pid stream)
  · rw [video] at known ⊢
    exact .inl (named.1 known)
  · rw [audio] at known ⊢
    exact .inl (named.2 known)
  · exact .inr teletext
  · exact .inl (source.clock whole)

/-- The packets handed on as they came. -/
def View.passed (view : View) : List Packet :=
  view.handed.filterMap fun item =>
    match item with
    | .table _ _ => none
    | .passed packet => some packet

theorem passed_tables (outlet : Outlet) (packet : Packet) (svc : UInt16) (packets : List Packet) :
    (View.mk outlet packet (packets.map (.table svc))).passed = [] := by
  simp only [View.passed, List.filterMap_map]
  exact List.filterMap_eq_nil_iff.2 fun _ _ => rfl

theorem View.pure_tables {outlet : Outlet} {svc : UInt16}
    (same : svc = outlet.work.reader.here.svc) (packet : Packet) (packets : List Packet) :
    (View.mk outlet packet (packets.map (.table svc))).Pure := by
  intro item mem
  obtain ⟨sent, -, rfl⟩ := List.mem_map.1 mem
  exact same

theorem View.pure_nothing (outlet : Outlet) (packet : Packet) :
    (View.mk outlet packet []).Pure := nofun

/-- A packet is handed on once or not at all, and if the view of it is clean, what
is handed on is pure. -/
theorem Outlet.packet_pure {outlet : Outlet} (packet : Packet) (opens : Bool)
    (settled : outlet.work.reader.pidFilter.Settled)
    (follows : FollowsLatest outlet.work.reader.pidFilter outlet.latest) :
    let view : View := ⟨outlet, packet, (outlet.packet packet opens).2⟩
    (view.Clean → view.Pure) ∧ view.passed.Sublist [packet] := by
  have nothing : ∀ view : View, view = ⟨outlet, packet, []⟩ →
      (view.Clean → view.Pure) ∧ view.passed.Sublist [packet] := by
    rintro _ rfl
    exact ⟨fun _ => View.pure_nothing outlet packet, List.nil_sublist _⟩
  have tables : ∀ (view : View) (packets : List Packet),
      view = ⟨outlet, packet, packets.map (.table outlet.work.reader.here.svc)⟩ →
        (view.Clean → view.Pure) ∧ view.passed.Sublist [packet] := by
    rintro _ packets rfl
    exact ⟨fun _ => View.pure_tables rfl packet packets,
      (passed_tables outlet packet _ packets) ▸ List.nil_sublist _⟩
  simp only [Outlet.packet]
  split
  · exact nothing _ rfl
  split
  · rename_i unfiltered
    refine ⟨fun _ item mem => ?_, List.Sublist.refl _⟩
    rw [List.mem_singleton.1 mem]
    refine ⟨rfl, fun sec latest table => ?_⟩
    obtain ⟨svc, source⟩ := follows sec latest
    exact (source.service ((isPmtOf_inj source.table table).trans unfiltered)).elim
  split
  · split
    · split
      · split
        · exact tables _ _ rfl
        · exact nothing _ rfl
      · exact nothing _ rfl
    · exact nothing _ rfl
  split
  · split
    · split
      · exact tables _ _ rfl
      · exact nothing _ rfl
    · exact nothing _ rfl
  split
  · rename_i lets
    split
    · exact nothing _ rfl
    · refine ⟨fun clean item mem => ?_, List.Sublist.refl _⟩
      rw [List.mem_singleton.1 mem]
      refine ⟨rfl, fun sec latest table => ?_⟩
      obtain ⟨svc, source⟩ := follows sec latest
      obtain rfl := isPmtOf_inj source.table table
      obtain ⟨whole, teletext⟩ := clean sec latest table
      rcases Outlet.letsThrough_cases source settled whole lets with names | ⟨same, known⟩
      · exact names
      · exact same ▸ teletext.resolve_left (UInt16.not_le.2 known)
  · exact nothing _ rfl

/-- What holds of a view in every run. -/
def View.Fine (view : View) : Prop :=
  (view.Clean → view.Pure) ∧ view.passed.Sublist [view.packet]

/-- The packets of a read, one after the other. -/
theorem Outlet.read_fine (packets : List Packet) {outlet : Outlet} (opens : Nat → Bool)
    (settled : outlet.work.reader.pidFilter.Settled)
    (follows : FollowsLatest outlet.work.reader.pidFilter outlet.latest) :
    (outlet.read opens packets).1.work = packets.foldl Work.packet outlet.work ∧
      FollowsLatest (outlet.read opens packets).1.work.reader.pidFilter
        (outlet.read opens packets).1.latest ∧
      (outlet.read opens packets).2.map View.packet = packets ∧
      ∀ view ∈ (outlet.read opens packets).2, view.Fine := by
  induction packets generalizing outlet opens with
  | nil => exact ⟨rfl, follows, rfl, List.forall_mem_nil _⟩
  | cons packet packets ih =>
      obtain ⟨kept, still⟩ := Outlet.packet_follows packet (opens 0) settled follows
      obtain ⟨work, later, packets_, fine⟩ := ih (fun k => opens (k + 1)) kept still
      have here : View.Fine ⟨outlet, packet, (outlet.packet packet (opens 0)).2⟩ :=
        Outlet.packet_pure packet (opens 0) settled follows
      rw [(outlet.packet_work packet (opens 0)).1] at work
      simp only [Outlet.read]
      rw [List.map_cons, packets_, List.forall_mem_cons]
      exact ⟨work, later, rfl, here, fine⟩

/-! ## A run -/

/-- What is in use follows the latest PMT, and everything seen so far was fine. -/
structure OutletState.Kept (outlet : OutletState) : Prop where
  follows : FollowsLatest outlet.state.desk.reader.pidFilter outlet.latest
  order : outlet.views.map View.packet = outlet.arrived
  fine : ∀ view ∈ outlet.views, view.Fine

/-- What stands in for the group does not change where the pids come from. -/
theorem FollowsLatest.of_here {filter other : PidFilter} {latest : Option (List UInt8)}
    (follows : FollowsLatest filter latest)
    (same : { other with vpid := filter.vpid, apid := filter.apid } = filter) :
    FollowsLatest other latest := by
  intro sec here
  obtain ⟨svc, source⟩ := follows sec here
  rw [← same] at source
  exact ⟨svc, { source with }⟩

theorem Reader.resolve_settled (reader : Reader) : reader.resolve.pidFilter.Settled := by
  intro isTable
  have table : reader.tablePids = true := isTable
  exact ⟨if_pos table, if_pos table⟩

theorem OutletState.Kept.effect {outlet : OutletState} (kept : outlet.Kept) (operation : Op)
    (given : OutletInput) : (outletEffect operation given outlet).2.Kept := by
  cases operation with
  | adoptEpoch => exact { kept with follows := nofun }
  | copyGroup => exact { kept with follows := kept.follows.of_here rfl }
  | refreshKeys => exact { kept with follows := kept.follows.of_here rfl }
  | processRead packets =>
      have resolved : FollowsLatest outlet.outlet.work.reader.pidFilter outlet.latest :=
        kept.follows.of_here rfl
      obtain ⟨work, follows, packets_, fine⟩ := Outlet.read_fine packets given.opens
        (Reader.resolve_settled outlet.state.desk.reader) resolved
      rw [work] at follows
      refine ⟨follows, ?_, fun view mem => ?_⟩
      · simp only [outletEffect]
        rw [List.map_append, packets_, kept.order]
      · rcases List.mem_append.1 mem with before | now
        · exact kept.fine view before
        · exact fine view now
  | _ => exact { kept with }

theorem passed_sublist {views : List View}
    (single : ∀ view ∈ views, view.passed.Sublist [view.packet]) :
    (views.flatMap View.passed).Sublist (views.map View.packet) := by
  induction views with
  | nil => exact List.Sublist.refl _
  | cons view views ih =>
      rw [List.forall_mem_cons] at single
      rw [List.flatMap_cons, List.map_cons]
      exact single.1.append (ih single.2)

/-- In every interleaving: whenever the latest PMT is whole and the teletext pid in
use is none or one that it names, what is handed to the writer is a table of the
service or a packet of a pid that the PMT names; and the packets leave in the
order they came, none of them twice. -/
theorem outlet_pure {group : Group} {camd : Option Client} {final : filtering.Config}
    {moves : List Filtered} (walk : Walk filtering.Step (unfiltered group camd) moves final) :
    ∀ moved ∈ moves,
      (∀ view ∈ moved.after.shared.views, view.Clean → view.Pure) ∧
        (moved.after.shared.views.flatMap View.passed).Sublist moved.after.shared.arrived := by
  refine walk.wanted_of_allowed (fun config => config.shared.Kept) (fun _ => True) _ ?_ ?_
    fun _ _ => trivial
  · intro moved step _ kept
    have after : moved.after.shared.Kept := by
      rcases step.shared_cases with
        ⟨still, -⟩ | ⟨thread, operation, given, answer, event, performed⟩
      · rwa [still]
      · rw [← (Prod.mk.inj (Option.some.inj performed)).2]
        exact kept.effect operation given
    refine ⟨after, fun view mem => (after.fine view mem).1, ?_⟩
    have sublist := passed_sublist fun view mem => (after.fine view mem).2
    rwa [after.order] at sublist
  · exact ⟨nofun, rfl, List.forall_mem_nil _⟩

/-! ### A teletext pid that the table does not name -/

instance (sec : List UInt8) (svc pid : UInt16) : Decidable (Names sec svc pid) :=
  inferInstanceAs (Decidable (_ ∧ (∃ pos ∈ _, _) ∨ _ ∧ _))

/-- The channel list gives service 1 a teletext pid. -/
def listedChannel (ttxpid : UInt16) : Channel := ⟨1, 0x100, 0x101, 0x1fff, ttxpid, 0, 0⟩

/-- A packet of another service. -/
def neighbour : Packet := sectionPacket 0x300 0 false []

/-- The PMT, a packet of the service and one of its neighbour. -/
def tableRead : Op → OutletInput
  | .readUsb => { input := { read := some [sectionPacket 0x100 0 true tilePmt, tileVideo,
      neighbour] } }
  | _ => {}

/-- The channel is announced, and a read is processed for it. -/
def listed (ttxpid : UInt16) : List Filtered × filtering.Config :=
  (unfiltered ⟨0, 0, 0, 0, 0, 0⟩ none).track
    (.start .command (Call.setChannel (listedChannel ttxpid)) :: performing .command 3 tableRead ++
      .finish .command :: .start .stream () :: performing .stream 8 tableRead)

theorem outlet_pure_listed : (listed 0x1fff).1.length = 14 ∧ ∀ moved ∈ (listed 0x1fff).1,
    (∀ view ∈ moved.after.shared.views, view.Clean → view.Pure) ∧
      (moved.after.shared.views.flatMap View.passed).Sublist moved.after.shared.arrived :=
  ⟨by decide +kernel, outlet_pure (Config.walk_track _ _)⟩

/-- The neighbour's packet leaves with those of the service. -/
theorem outlet_impure : ∃ moved ∈ (listed 0x300).1, ∃ view ∈ moved.after.shared.views,
    ¬ view.Pure := by
  refine ⟨_, List.getElem_mem (n := 13) (by decide +kernel), _,
    List.getElem_mem (n := 2) (by decide +kernel), fun isPure => ?_⟩
  have names := (isPure (.passed neighbour) (by decide +kernel)).2 tilePmt (by decide +kernel)
    (by decide +kernel)
  revert names
  decide +kernel

end Stream
