import UsbDvbs2.Runs.Prefixes
import UsbDvbs2.Scan.SectionOrder
import UsbDvbs2.Stream.SectionPackets

/-! # The contexts of the services

A scan has a table of services and a table of contexts. A PAT entry adds to both, an SDT and a
PMT to the first one only, and three contexts are there from the start. The services of a PAT
are read as long as both tables have room.
-/

namespace Scan

open Bytes Mpeg Stream Runs

/-! ## One thing at a time -/

/-- What happens to the state of a scan. -/
inductive Move where
  /-- A packet is collected. -/
  | collect (pid : UInt16) (ctx : Context)
  /-- An entry of a PAT is read. -/
  | program (sec : List UInt8) (pos : Nat)
  /-- A PMT is read. -/
  | streams (sec : List UInt8)
  /-- An entry of an SDT is read. -/
  | described (sec : List UInt8) (pos : Nat)

def ParserState.perform (state : ParserState) : Move → ParserState
  | .collect pid ctx => state.setContext pid ctx
  | .program sec pos => state.readProgram sec pos
  | .streams sec => state.parsePmt sec
  | .described sec pos =>
      { state with services := tell state.services (be16 sec pos) (Listing.readSdt sec pos) }

def ParserState.performAll (state : ParserState) (moves : List Move) : ParserState :=
  moves.foldl ParserState.perform state

/-- What `parse_section` does. -/
def sectionMoves (sec : List UInt8) : List Move :=
  if ¬ Intact sec then []
  else if octet sec 0 = 0x00 then
    if sec.length < 12 then [] else (patEntries sec).map (.program sec)
  else if octet sec 0 = 0x02 then [.streams sec]
  else if octet sec 0 = 0x42 ∨ octet sec 0 = 0x46 then
    if sec.length < 15 then [] else (sdtEntries sec).map (.described sec)
  else []

/-- What a packet of the file does. -/
def ParserState.packetMoves (state : ParserState) (packet : Packet) : List Move :=
  match state.context? packet.pid with
  | some ctx =>
      let (next, sections) := Scan.scanPacket packet.pid ctx packet
      .collect packet.pid next :: sections.flatMap sectionMoves
  | none => []

/-- What the packets of a file do, one after the other. -/
def ParserState.moves : ParserState → List Packet → List Move
  | _, [] => []
  | state, packet :: packets =>
      let now := state.packetMoves packet
      now ++ (state.performAll now).moves packets

theorem performAll_append (state : ParserState) (first second : List Move) :
    state.performAll (first ++ second) = (state.performAll first).performAll second :=
  List.foldl_append

theorem performAll_services (moves : List Nat) (make : Nat → Move)
    (tells : List Listing → Nat → List Listing) (state : ParserState)
    (each : ∀ state pos, ParserState.perform state (make pos) =
      { state with services := tells state.services pos }) :
    state.performAll (moves.map make) =
      { state with services := moves.foldl tells state.services } := by
  induction moves generalizing state with
  | nil => rfl
  | cons pos moves ih =>
      rw [List.map_cons, ParserState.performAll, List.foldl_cons, ← ParserState.performAll, ih,
        each, List.foldl_cons]

theorem performAll_sectionMoves (state : ParserState) (sec : List UInt8) :
    state.performAll (sectionMoves sec) = state.parseSection sec := by
  unfold sectionMoves ParserState.parseSection
  by_cases damaged : ¬ Intact sec
  · rw [if_pos damaged, if_pos damaged]
    rfl
  · rw [if_neg damaged, if_neg damaged]
    by_cases pat : octet sec 0 = 0x00
    · rw [if_pos pat, if_pos pat, ParserState.parsePat]
      by_cases short : sec.length < 12
      · rw [if_pos short, if_pos (.inl short)]
        rfl
      · rw [if_neg short, if_neg (fun either => either.elim short fun other => other pat)]
        exact List.foldl_map
    · rw [if_neg pat, if_neg pat]
      by_cases pmt : octet sec 0 = 0x02
      · rw [if_pos pmt, if_pos pmt]
        rfl
      · rw [if_neg pmt, if_neg pmt]
        by_cases sdt : octet sec 0 = 0x42 ∨ octet sec 0 = 0x46
        · rw [if_pos sdt, if_pos sdt, ParserState.parseSdt]
          by_cases short : sec.length < 15
          · rw [if_pos short, if_pos (.inl short)]
            rfl
          · have named : ¬ (sec.length < 15 ∨ octet sec 0 ≠ 0x42 ∧ octet sec 0 ≠ 0x46) :=
              fun either => either.elim short fun other => sdt.elim other.1 other.2
            rw [if_neg short, if_neg named]
            exact performAll_services _ _ _ state fun _ _ => rfl
        · rw [if_neg sdt, if_neg sdt]
          rfl

theorem performAll_sections (sections : List (List UInt8)) (state : ParserState) :
    state.performAll (sections.flatMap sectionMoves) = state.parseSections sections := by
  induction sections generalizing state with
  | nil => rfl
  | cons sec sections ih =>
      rw [List.flatMap_cons, performAll_append, performAll_sectionMoves, ih]
      rfl

theorem performAll_packetMoves (state : ParserState) (packet : Packet) :
    state.performAll (state.packetMoves packet) = (state.scanPacket packet).1 := by
  unfold ParserState.packetMoves ParserState.scanPacket
  cases state.context? packet.pid with
  | none => rfl
  | some ctx => exact performAll_sections _ _

/-- The moves are all that the scan does. -/
theorem performAll_moves (packets : List Packet) (state : ParserState) :
    state.performAll (state.moves packets) = (state.scanPackets packets).1 := by
  induction packets generalizing state with
  | nil => rfl
  | cons packet packets ih =>
      rw [ParserState.moves, performAll_append, ih, performAll_packetMoves]
      rfl

/-! ## The services -/

theorem mem_of_look {services : List Listing} {serviceId : UInt16} {service : Listing}
    (found : look services serviceId = some service) :
    service ∈ services ∧ service.serviceId = serviceId :=
  ⟨List.mem_of_find?_eq_some found, by simpa using List.find?_some found⟩

/-- In a list without doubles every listing is the one that is found. -/
theorem look_of_mem {services : List Listing} (distinct : (ids services).Nodup)
    {service : Listing} (mem : service ∈ services) :
    look services service.serviceId = some service := by
  obtain ⟨other, found⟩ := Option.isSome_iff_exists.mp
    (look_isSome.mpr (List.mem_map_of_mem mem : service.serviceId ∈ ids services))
  obtain ⟨listed, same⟩ := mem_of_look found
  rw [found, List.inj_on_of_nodup_map distinct listed mem same]

/-- A table that has no room is told nothing. -/
theorem tell_of_none {services : List Listing} {asked : UInt16}
    (room : ¬ (findListing services asked).isSome = true) (change : Listing → Listing) :
    tell services asked change = services := by
  rw [tell, Option.not_isSome_iff_eq_none.mp room]

theorem ids_tell {change : Listing → Listing}
    (same : ∀ service, (change service).serviceId = service.serviceId) (services : List Listing)
    (asked : UInt16) :
    ids (tell services asked change) =
      if asked ∈ ids services ∨ maxServices ≤ services.length then ids services
      else ids services ++ [asked] := by
  by_cases room : (findListing services asked).isSome = true
  · obtain ⟨⟨found, index⟩, finds⟩ := Option.isSome_iff_exists.mp room
    rw [tell, finds, ids_modify same]
    obtain ⟨-, -, ⟨rfl, listed⟩ | ⟨rfl, unlisted⟩⟩ := findListing_some finds
    · rw [if_pos (.inl listed)]
    · have few := (findListing_isSome.mp room).resolve_left unlisted
      rw [if_neg (fun either => either.elim unlisted (Nat.not_le.mpr few))]
      exact List.map_append
  · rw [tell_of_none room]
    rw [findListing_isSome, not_or, Nat.not_lt] at room
    rw [if_pos (.inr room.2)]

/-- The table of services, of those that a PAT has named `named`: whoever is not listed came too
late. -/
structure Enrolled (named : UInt16 → Prop) (services : List Listing) : Prop where
  distinct : (ids services).Nodup
  late : ∀ serviceId, named serviceId →
    serviceId ∈ ids services ∨ maxServices ≤ services.length

theorem Enrolled.tell {named : UInt16 → Prop} {services : List Listing}
    (listed : Enrolled named services) {change : Listing → Listing}
    (same : ∀ service, (change service).serviceId = service.serviceId) (asked : UInt16) :
    Enrolled (fun serviceId => named serviceId ∨ serviceId = asked)
      (tell services asked change) := by
  have total := length_ids (Scan.tell services asked change)
  rw [ids_tell same] at total
  refine ⟨?_, fun serviceId who => ?_⟩
  all_goals
    rw [ids_tell same]
    by_cases stays : asked ∈ ids services ∨ maxServices ≤ services.length
  · rw [if_pos stays]
    exact listed.distinct
  · rw [if_neg stays, List.nodup_append]
    refine ⟨listed.distinct, List.nodup_singleton asked, ?_⟩
    rintro serviceId inside other fresh rfl
    exact stays (.inl (List.mem_singleton.mp fresh ▸ inside))
  · rw [if_pos stays, length_ids] at total
    rw [if_pos stays, ← total]
    rcases who with earlier | rfl
    · exact listed.late serviceId earlier
    · exact stays
  · rw [if_neg stays, List.length_append, length_ids] at total
    rw [if_neg stays, ← total]
    rcases who with earlier | rfl
    · exact (listed.late serviceId earlier).imp (List.mem_append_left _) (Nat.le_add_right_of_le ·)
    · exact .inl (List.mem_append_right _ (List.mem_singleton_self serviceId))

theorem Enrolled.mono {named others : UInt16 → Prop} {services : List Listing}
    (listed : Enrolled named services) (fewer : ∀ serviceId, others serviceId → named serviceId) :
    Enrolled others services :=
  ⟨listed.distinct, fun serviceId who => listed.late serviceId (fewer serviceId who)⟩

/-! ## The contexts -/

def ParserState.pids (state : ParserState) : List UInt16 := state.contexts.map (·.1)

theorem findContext_pids (contexts : List (UInt16 × Context)) (pid : UInt16) :
    (findContext contexts pid).map (·.1) =
      if pid ∈ contexts.map (·.1) ∨ maxContexts ≤ contexts.length then contexts.map (·.1)
      else contexts.map (·.1) ++ [pid] := by
  have there : contexts.any (·.1 == pid) = true ↔ pid ∈ contexts.map (·.1) := by
    simp [List.any_eq_true]
  simp only [findContext, there]
  split
  · rfl
  · exact List.map_append

@[simp] theorem setContext_pids (state : ParserState) (pid : UInt16) (ctx : Context) :
    (state.setContext pid ctx).pids = state.pids := by
  rw [ParserState.setContext, ParserState.pids, List.map_map]
  apply List.map_congr_left
  rintro ⟨other, kept⟩ -
  by_cases here : other = pid <;> simp [here]

/-- The table of contexts: no pid twice, and no more than fit. -/
structure Tabled (state : ParserState) : Prop where
  distinct : state.pids.Nodup
  fits : state.contexts.length ≤ maxContexts

/-- What a move does to the pids: a PAT entry of a service that is listed then adds its own. -/
theorem perform_pids (state : ParserState) (move : Move) :
    (state.perform move).pids = state.pids ∨
      ∃ sec pos, move = .program sec pos ∧ be13 sec (pos + 2) ∉ state.pids ∧
        state.contexts.length < maxContexts ∧
        (state.perform move).pids = state.pids ++ [be13 sec (pos + 2)] := by
  cases move with
  | collect pid ctx => exact .inl (setContext_pids state pid ctx)
  | streams sec =>
      rw [ParserState.perform, ParserState.parsePmt]
      split <;> exact .inl rfl
  | described sec pos => exact .inl rfl
  | program sec pos =>
      rw [ParserState.perform, ParserState.readProgram]
      by_cases network : be16 sec pos = 0
      · exact .inl (congrArg _ (if_pos network))
      · rw [if_neg network]
        split
        · have pids := findContext_pids state.contexts (be13 sec (pos + 2))
          split at pids
          · exact .inl pids
          · rename_i fresh
            rw [not_or, Nat.not_le] at fresh
            exact .inr ⟨sec, pos, rfl, fresh.1, fresh.2, pids⟩
        · exact .inl rfl

theorem Tabled.perform {state : ParserState} (tabled : Tabled state) (move : Move) :
    Tabled (state.perform move) := by
  have total (state : ParserState) : state.pids.length = state.contexts.length :=
    List.length_map _
  rcases perform_pids state move with same | ⟨sec, pos, -, fresh, room, longer⟩
  · refine ⟨same ▸ tabled.distinct, ?_⟩
    rw [← total, same, total]
    exact tabled.fits
  · refine ⟨?_, ?_⟩
    · rw [longer, List.nodup_append]
      refine ⟨tabled.distinct, List.nodup_singleton _, ?_⟩
      rintro pid inside other new rfl
      exact fresh (List.mem_singleton.mp new ▸ inside)
    · rw [← total, longer, List.length_append, total]
      exact room

/-! ## The services that a PAT has named -/

/-- An entry of a PAT has set the pid of the service. -/
def NamedByPat (moves : List Move) (serviceId : UInt16) : Prop :=
  ∃ sec pos, Move.program sec pos ∈ moves ∧ be16 sec pos = serviceId ∧ serviceId ≠ 0

/-- The service that a move names. -/
def Names : Move → UInt16 → Prop
  | .program sec pos, serviceId => be16 sec pos = serviceId ∧ serviceId ≠ 0
  | _, _ => False

theorem namedByPat_concat (moves : List Move) (move : Move) (serviceId : UInt16) :
    NamedByPat (moves ++ [move]) serviceId ↔ NamedByPat moves serviceId ∨ Names move serviceId := by
  constructor
  · rintro ⟨sec, pos, mem, here⟩
    rcases List.mem_append.mp mem with earlier | now
    · exact .inl ⟨sec, pos, earlier, here⟩
    · exact .inr (List.mem_singleton.mp now ▸ here)
  · rintro (⟨sec, pos, mem, here⟩ | here)
    · exact ⟨sec, pos, List.mem_append_left _ mem, here⟩
    · cases move with
      | program sec pos =>
          exact ⟨sec, pos, List.mem_append_right _ (List.mem_singleton_self _), here⟩
      | collect | streams | described => exact here.elim

theorem readCaDescriptors_pmtPid (service : Service) (sec : List UInt8) (start limit : Nat) :
    (service.readCaDescriptors sec start limit).pmtPid = service.pmtPid := by
  unfold Service.readCaDescriptors
  split
  · rfl
  · split <;> rfl

theorem readStream_pmtPid (sec : List UInt8) (service : Service) (pos : Nat) :
    (service.readStream sec pos).pmtPid = service.pmtPid := by
  simp only [Service.readStream, apply_ite Service.pmtPid, readCaDescriptors_pmtPid, ite_self]

/-- A PMT does not move its service. -/
theorem readPmt_pmtPid (sec : List UInt8) (service : Service) :
    (service.readPmt sec).pmtPid = service.pmtPid := by
  have folds (positions : List Nat) (service : Service) :
      (positions.foldl (Service.readStream sec) service).pmtPid = service.pmtPid := by
    induction positions generalizing service with
    | nil => rfl
    | cons pos positions ih => exact (ih _).trans (readStream_pmtPid sec service pos)
  unfold Service.readPmt
  simp only [folds]
  split
  · exact readCaDescriptors_pmtPid _ _ _ _
  · rfl

theorem readSdt_pmtPid (sec : List UInt8) (pos : Nat) (service : Listing) :
    (service.readSdt sec pos).pmtPid = service.pmtPid := by
  have texts := readDescriptors_toService (descriptorSlices sec (pos + 5)
    (pos + 5 + be12 sec (pos + 3))) (if freeCaMode sec pos then { service with scrambled := true }
      else service)
  have same := congrArg Service.pmtPid texts
  rw [Listing.readSdt]
  refine same.trans ?_
  split <;> rfl

/-- What a move tells a service. -/
structure Tells (move : Move) (asked : UInt16) (change : Listing → Listing) : Prop where
  same : ∀ service, (change service).serviceId = service.serviceId
  pid : (∀ serviceId, ¬ Names move serviceId) ∧ (∀ service, (change service).pmtPid =
      service.pmtPid) ∨
    ∃ sec pos, move = .program sec pos ∧ asked = be16 sec pos ∧ asked ≠ 0 ∧
      ∀ service, (change service).pmtPid = be13 sec (pos + 2)

/-- A move tells one of the services something, or nothing at all. -/
theorem perform_services (state : ParserState) (move : Move) :
    ((∀ serviceId, ¬ Names move serviceId) ∧ (state.perform move).services = state.services) ∨
      ∃ asked change, Tells move asked change ∧
        (state.perform move).services = tell state.services asked change := by
  cases move with
  | collect pid ctx => exact .inl ⟨fun _ => id, rfl⟩
  | streams sec =>
      rw [ParserState.perform, ParserState.parsePmt]
      by_cases other : sec.length < 16 ∨ octet sec 0 ≠ 0x02
      · exact .inl ⟨fun _ => id, congrArg _ (if_pos other)⟩
      · rw [if_neg other]
        exact .inr ⟨_, _, ⟨(marks_readPmt sec).same,
          .inl ⟨fun _ => id, fun service => readPmt_pmtPid sec service.toService⟩⟩, rfl⟩
  | described sec pos =>
      exact .inr ⟨_, _, ⟨(marks_readSdt sec pos).same,
        .inl ⟨fun _ => id, readSdt_pmtPid sec pos⟩⟩, rfl⟩
  | program sec pos =>
      have reads := readProgram_services sec state pos
      by_cases network : be16 sec pos = 0
      · rw [if_pos network] at reads
        exact .inl ⟨fun _ names => names.2 (names.1 ▸ network), reads⟩
      · rw [if_neg network] at reads
        exact .inr ⟨_, _, ⟨(marks_readProgram _).same,
          .inr ⟨sec, pos, rfl, rfl, network, fun _ => rfl⟩⟩, reads⟩

/-- Only the service that is told something can be named. -/
theorem Tells.asked_of_names {move : Move} {asked serviceId : UInt16} {change : Listing → Listing}
    (tells : Tells move asked change) (names : Names move serviceId) : serviceId = asked := by
  rcases tells.pid with ⟨silent, -⟩ | ⟨sec, pos, rfl, rfl, -, -⟩
  · exact (silent serviceId names).elim
  · exact names.1.symm

/-- The tables of services and contexts, at a point of the scan. -/
structure Kept (moves : List Move) (state : ParserState) : Prop where
  listed : Enrolled (NamedByPat moves) state.services
  tabled : Tabled state

theorem Kept.perform {moves : List Move} {state : ParserState} (kept : Kept moves state)
    (move : Move) : Kept (moves ++ [move]) (state.perform move) := by
  refine ⟨?_, kept.tabled.perform move⟩
  rcases perform_services state move with ⟨silent, same⟩ | ⟨asked, change, tells, same⟩
  · rw [same]
    apply kept.listed.mono
    intro serviceId named
    exact ((namedByPat_concat moves move serviceId).mp named).resolve_right (silent serviceId)
  · rw [same]
    apply (kept.listed.tell tells.same asked).mono
    intro serviceId named
    exact ((namedByPat_concat moves move serviceId).mp named).imp id tells.asked_of_names

theorem kept_initial : Kept [] ParserState.initial where
  listed := by
    refine ⟨List.nodup_nil, ?_⟩
    rintro serviceId ⟨sec, pos, mem, -⟩
    exact nomatch mem
  tabled := ⟨by decide, by decide⟩

/-! ## Every service of a PAT is read -/

/-- No service and no context twice, and every service that a PAT has named has a context. -/
structure Attends (moves : List Move) (state : ParserState) : Prop where
  services : (ids state.services).Nodup
  contexts : state.pids.Nodup
  attended : ∀ service ∈ state.services, NamedByPat moves service.serviceId →
    service.pmtPid ∈ state.pids

/-- There is a context for a PAT entry that is heeded, or room for one. -/
def Fits (state : ParserState) : Move → Prop
  | .program sec pos =>
      be16 sec pos ≠ 0 → (findListing state.services (be16 sec pos)).isSome = true →
        be13 sec (pos + 2) ∈ state.pids ∨ state.contexts.length < maxContexts
  | _ => True

theorem program_pids {state : ParserState} {sec : List UInt8} {pos : Nat}
    (named : be16 sec pos ≠ 0)
    (room : (findListing state.services (be16 sec pos)).isSome = true) :
    be13 sec (pos + 2) ∈ (state.perform (.program sec pos)).pids ↔
      be13 sec (pos + 2) ∈ state.pids ∨ state.contexts.length < maxContexts := by
  have reads : (state.perform (.program sec pos)).contexts =
      findContext state.contexts (be13 sec (pos + 2)) := by
    rw [ParserState.perform, ParserState.readProgram, if_neg named, if_pos room]
  rw [ParserState.pids, reads, findContext_pids]
  by_cases stays : be13 sec (pos + 2) ∈ state.contexts.map (·.1) ∨
      maxContexts ≤ state.contexts.length
  · rw [if_pos stays]
    exact ⟨.inl, fun either => either.elim id fun few =>
      stays.resolve_right (Nat.not_le.mpr few)⟩
  · rw [if_neg stays]
    refine iff_of_true (List.mem_append_right _ (List.mem_singleton_self _)) (.inr ?_)
    exact Nat.not_le.mp fun full => stays (.inr full)

theorem pids_kept {state : ParserState} {pid : UInt16} (mem : pid ∈ state.pids) (move : Move) :
    pid ∈ (state.perform move).pids := by
  rcases perform_pids state move with same | ⟨sec, pos, -, -, -, longer⟩
  · exact same ▸ mem
  · exact longer ▸ List.mem_append_left _ mem

theorem program_listed {state : ParserState} {sec : List UInt8} {pos : Nat}
    (named : be16 sec pos ≠ 0)
    (room : (findListing state.services (be16 sec pos)).isSome = true) :
    ∃ service ∈ (state.perform (.program sec pos)).services,
      service.serviceId = be16 sec pos ∧ service.pmtPid = be13 sec (pos + 2) := by
  have reads := readProgram_services sec state pos
  have found := look_tell room (marks_readProgram (be13 sec (pos + 2))).same (be16 sec pos)
  rw [if_neg named] at reads
  rw [if_pos rfl, ← reads] at found
  obtain ⟨mem, here⟩ := mem_of_look found
  exact ⟨_, mem, here, rfl⟩

/-- A service that a PAT has named has its pid from the entry that is read, or had it before. -/
theorem pmtPid_perform {moves : List Move} {state : ParserState} {move : Move} {service : Listing}
    (kept : Kept moves state) (mem : service ∈ (state.perform move).services)
    (named : NamedByPat (moves ++ [move]) service.serviceId) :
    (∃ sec pos, move = .program sec pos ∧ be16 sec pos ≠ 0 ∧
        (findListing state.services (be16 sec pos)).isSome = true ∧
        service.pmtPid = be13 sec (pos + 2)) ∨
      ∃ before ∈ state.services, NamedByPat moves before.serviceId ∧
        before.pmtPid = service.pmtPid := by
  have distinct := (kept.perform move).listed.distinct
  rw [namedByPat_concat] at named
  rcases perform_services state move with ⟨silent, same⟩ | ⟨asked, change, tells, same⟩
  · exact .inr ⟨service, same ▸ mem, named.resolve_right (silent _), rfl⟩
  · by_cases room : (findListing state.services asked).isSome = true
    · have found := look_of_mem distinct mem
      rw [same, look_tell room tells.same] at found
      by_cases here : service.serviceId = asked
      · rw [if_pos here] at found
        obtain rfl := Option.some.inj found
        rcases tells.pid with ⟨silent, stays⟩ | ⟨sec, pos, rfl, rfl, known, moved⟩
        · have earlier := named.resolve_right (silent _)
          rw [here] at earlier
          cases before : look state.services asked with
          | none =>
              -- a service that comes too late finds no room
              have unlisted : asked ∉ ids state.services := by
                rw [← look_isSome, before]
                exact nofun
              have full := (kept.listed.late _ earlier).resolve_left unlisted
              have few := (findListing_isSome.mp room).resolve_left unlisted
              exact absurd few (Nat.not_lt.mpr full)
          | some first =>
              obtain ⟨inside, id⟩ := mem_of_look before
              exact .inr ⟨first, inside, id ▸ earlier, (stays first).symm⟩
        · exact .inl ⟨sec, pos, rfl, known, room, moved _⟩
      · rw [if_neg here] at found
        have earlier := named.resolve_right fun names => here (tells.asked_of_names names)
        exact .inr ⟨service, (mem_of_look found).1, earlier, rfl⟩
    · rw [same, tell_of_none room] at mem
      refine .inr ⟨service, mem, named.resolve_right fun names => room ?_, rfl⟩
      rw [← tells.asked_of_names names]
      exact findListing_isSome.mpr (.inl (List.mem_map_of_mem mem))

/-- A move keeps what is claimed exactly where it fits. -/
theorem Attends.perform_iff {moves : List Move} {state : ParserState} (kept : Kept moves state)
    (attends : Attends moves state) (move : Move) :
    Attends (moves ++ [move]) (state.perform move) ↔ Fits state move := by
  have after := kept.perform move
  constructor
  · intro later
    cases move with
    | collect | streams | described => exact trivial
    | program sec pos =>
        intro named room
        obtain ⟨service, mem, here, moved⟩ := program_listed named room
        have present := later.attended service mem
          ⟨sec, pos, List.mem_append_right _ (List.mem_singleton_self _), here.symm, here ▸ named⟩
        exact (program_pids named room).mp (moved ▸ present)
  · intro fits
    refine ⟨after.listed.distinct, after.tabled.distinct, ?_⟩
    intro service mem named
    rcases pmtPid_perform kept mem named with ⟨sec, pos, rfl, known, room, moved⟩ |
      ⟨before, inside, earlier, stays⟩
    · rw [moved]
      exact (program_pids known room).mpr (fits known room)
    · rw [← stays]
      exact pids_kept (attends.attended before inside earlier) move

/-- The moves are the scan of the packets. At every point of it no service and no context is there
twice; and at every point every service that a PAT has named has its context, exactly if there
always was one for a PAT entry that was heeded, or room for one. -/
theorem scan_attends_iff (packets : List Packet) :
    ParserState.initial.performAll (ParserState.initial.moves packets) =
        (ParserState.initial.scanPackets packets).1 ∧
      (∀ moves, moves <+: ParserState.initial.moves packets →
        (ids (ParserState.initial.performAll moves).services).Nodup ∧
          (ParserState.initial.performAll moves).pids.Nodup) ∧
      ((∀ moves, moves <+: ParserState.initial.moves packets →
          Attends moves (ParserState.initial.performAll moves)) ↔
        Throughout ParserState.perform Fits .initial (ParserState.initial.moves packets)) := by
  have kept : ∀ moves, moves <+: ParserState.initial.moves packets →
      Kept moves (ParserState.initial.performAll moves) :=
    holds_at_points kept_initial fun _ move _ before => before.perform move
  refine ⟨performAll_moves packets _, fun moves reached => ?_, holds_at_points_iff ?_ ?_⟩
  · exact ⟨(kept moves reached).listed.distinct, (kept moves reached).tabled.distinct⟩
  · exact ⟨List.nodup_nil, by decide, fun _ mem => nomatch mem⟩
  · intro front move reached before
    exact before.perform_iff (kept front ((List.prefix_append _ _).trans reached)) move

/-! ## More services than contexts -/

def servicePatBody (service pmt : UInt16) : List UInt8 :=
  [0x00, 0xb0, 13, 0x00, 0x01, 0xc1, 0x00, 0x00,
    UInt8.ofNat (service.toNat / 256), UInt8.ofNat service.toNat,
    UInt8.ofNat (0xe0 + pmt.toNat / 256 % 32), UInt8.ofNat pmt.toNat]

/-- A PAT with one service. -/
def servicePat (service pmt : UInt16) : List UInt8 :=
  servicePatBody service pmt ++ crcBytes (crc32 (servicePatBody service pmt))

/-- The PATs of `count` services, each on a pid of its own and in a packet of its own. -/
def pats (count : Nat) : List Packet :=
  (List.range count).map fun index =>
    sectionPacket 0 0 true (servicePat (UInt16.ofNat (index + 1)) (UInt16.ofNat (0x20 + index)))

theorem length_servicePat (service pmt : UInt16) : (servicePat service pmt).length = 16 := rfl

theorem declared_servicePat (service pmt : UInt16) : declared (servicePat service pmt) = 16 :=
  @declared_append [0x00, 0xb0, 13] (by decide) _

theorem servicePat_isSection (service pmt : UInt16) :
    IsSection maxSection (servicePat service pmt) where
  header := by rw [length_servicePat]; decide
  whole := by rw [length_servicePat, declared_servicePat]
  fits := by rw [length_servicePat]; decide
  tableId := nofun

theorem servicePat_moves (service pmt : UInt16) :
    sectionMoves (servicePat service pmt) = [.program (servicePat service pmt) 8] := by
  have intact : Intact (servicePat service pmt) :=
    ⟨by rw [length_servicePat]; decide, by rw [length_servicePat, declared_servicePat],
      crcValid_append (servicePatBody service pmt)⟩
  have pat : octet (servicePat service pmt) 0 = 0x00 := rfl
  rw [sectionMoves, if_neg (not_not_intro intact), if_pos pat, length_servicePat,
    if_neg (by decide)]
  rfl

theorem be16_servicePat (service pmt : UInt16) : be16 (servicePat service pmt) 8 = service :=
  be16_written service rfl rfl

theorem be13_servicePat {pmt : UInt16} (fits : pmt.toNat < 2 ^ 13) (service : UInt16) :
    be13 (servicePat service pmt) (8 + 2) = pmt :=
  @be13_written _ 10 7 pmt fits rfl rfl

/-- The packets are of the pid of the PAT. -/
theorem sectionPacket_pat (sec : List UInt8) :
    (sectionPacket 0 0 true sec).pid = 0 ∧ reaches 0 (sectionPacket 0 0 true sec) = true := by
  have pid : (sectionPacket 0 0 true sec).pid = 0 :=
    (be13_append (by decide) _).trans (by decide : be13 (sectionHeader 0 0 true) 1 = 0)
  have sync : octet (sectionPacket 0 0 true sec).bytes 0 = 0x47 := octet_append (by decide) _
  exact ⟨pid, by rw [reaches, pid, sync]; rfl⟩

theorem scanPacket_servicePat (service pmt : UInt16) :
    Scan.scanPacket 0 .zero (sectionPacket 0 0 true (servicePat service pmt)) =
      (.zero, [servicePat service pmt]) := by
  have valid : ∀ sec ∈ [servicePat service pmt], IsSection maxSection sec := fun sec mem =>
    List.mem_singleton.mp mem ▸ servicePat_isSection service pmt
  have drained (count : Nat) : Context.zero.drain ([servicePat service pmt].flatten ++
      .replicate count 0xff) = (.zero, [servicePat service pmt]) := by
    rw [drain_flatten valid, drain_stuffing, List.append_nil]
  have short : (servicePat service pmt).length ≤ capacity true := by
    rw [length_servicePat]
    decide
  have points : ([] : List UInt8).length < 256 := by decide
  rw [Scan.scanPacket, if_pos (sectionPacket_pat _).2, sectionPacket_closed short]
  refine (processPayload_pointed points .zero).trans ?_
  rw [drained]
  rfl

theorem moves_append (state : ParserState) (first second : List Packet) :
    state.moves (first ++ second) =
      state.moves first ++ (state.performAll (state.moves first)).moves second := by
  induction first generalizing state with
  | nil => rfl
  | cons packet first ih =>
      rw [List.cons_append, ParserState.moves, ih, ParserState.moves, performAll_append,
        List.append_assoc]

theorem context?_setContext {state : ParserState} {pid : UInt16}
    (there : (state.context? pid).isSome = true) (ctx : Context) :
    (state.setContext pid ctx).context? pid = some ctx := by
  obtain ⟨services, contexts⟩ := state
  rw [ParserState.setContext, ParserState.context?]
  rw [ParserState.context?] at there
  simp only at there ⊢
  induction contexts with
  | nil => exact nomatch there
  | cons entry contexts ih =>
      obtain ⟨other, kept⟩ := entry
      by_cases here : other = pid
      · subst here
        simp
      · have apart : (pid == other) = false := beq_false_of_ne (Ne.symm here)
        rw [List.lookup_cons, apart] at there
        rw [List.map_cons, if_neg here, List.lookup_cons, apart]
        exact ih there

theorem lookup_findContext {contexts : List (UInt16 × Context)} {pid : UInt16} {ctx : Context}
    (there : contexts.lookup pid = some ctx) (other : UInt16) :
    (findContext contexts other).lookup pid = some ctx := by
  unfold findContext
  split
  · exact there
  · rw [List.lookup_append, there]
    rfl

theorem pids_performAll {state : ParserState} {pid : UInt16} (mem : pid ∈ state.pids)
    (moves : List Move) : pid ∈ (state.performAll moves).pids := by
  induction moves generalizing state with
  | nil => exact mem
  | cons move moves ih => exact ih (pids_kept mem move)

/-- What the PATs of the first `count` services leave behind. -/
structure Crowded (count : Nat) (state : ParserState) : Prop where
  pat : state.context? 0 = some .zero
  services : state.services.length ≤ count

theorem packetMoves_servicePat {state : ParserState} (pat : state.context? 0 = some .zero)
    (service pmt : UInt16) :
    state.packetMoves (sectionPacket 0 0 true (servicePat service pmt)) =
      [.collect 0 .zero, .program (servicePat service pmt) 8] := by
  have read : state.context? (sectionPacket 0 0 true (servicePat service pmt)).pid =
      some .zero := by
    rw [(sectionPacket_pat _).1, pat]
  unfold ParserState.packetMoves
  rw [read, (sectionPacket_pat _).1]
  simp only [scanPacket_servicePat, List.flatMap_cons, List.flatMap_nil, servicePat_moves,
    List.append_nil]

theorem Crowded.next {count : Nat} {state : ParserState} (crowded : Crowded count state)
    (service pmt : UInt16) :
    Crowded (count + 1)
      (state.performAll [.collect 0 .zero, .program (servicePat service pmt) 8]) := by
  have there : (state.context? 0).isSome = true := by rw [crowded.pat]; rfl
  have pat := context?_setContext there .zero
  have reads := readProgram_services (servicePat service pmt) (state.setContext 0 .zero) 8
  change Crowded (count + 1) ((state.setContext 0 .zero).readProgram (servicePat service pmt) 8)
  constructor
  · unfold ParserState.readProgram
    simp only
    split
    · exact pat
    · split
      · exact lookup_findContext pat _
      · exact pat
  · have before := crowded.services
    change state.services.length ≤ count at before
    rw [reads]
    split
    · exact Nat.le_succ_of_le before
    · rw [← length_ids, ids_tell (marks_readProgram _).same]
      split
      · rw [length_ids]
        exact Nat.le_succ_of_le before
      · rw [List.length_append, length_ids]
        exact Nat.succ_le_succ before

theorem moves_pats_succ (count : Nat) :
    ParserState.initial.moves (pats (count + 1)) = ParserState.initial.moves (pats count) ++
      (ParserState.initial.performAll (ParserState.initial.moves (pats count))).packetMoves
        (sectionPacket 0 0 true
          (servicePat (UInt16.ofNat (count + 1)) (UInt16.ofNat (0x20 + count))))
      := by
  have split : pats (count + 1) = pats count ++ [sectionPacket 0 0 true
      (servicePat (UInt16.ofNat (count + 1)) (UInt16.ofNat (0x20 + count)))] := by
    rw [pats, List.range_succ, List.map_append]
    rfl
  rw [split, moves_append, ParserState.moves, ParserState.moves, List.append_nil]

theorem moves_mono {first packets : List Packet} (front : first <+: packets)
    (state : ParserState) : state.moves first <+: state.moves packets := by
  obtain ⟨rest, rfl⟩ := front
  rw [moves_append]
  exact List.prefix_append _ _

theorem pats_mono {count total : Nat} (few : count ≤ total) : pats count <+: pats total := by
  apply List.IsPrefix.map
  rw [List.prefix_iff_eq_take, List.length_range, List.take_range, Nat.min_eq_left few]

theorem Attends.of_servicePat {moves : List Move} {state : ParserState} {service pmt : UInt16}
    (attends : Attends (moves ++ [.program (servicePat service pmt) 8])
      (state.perform (.program (servicePat service pmt) 8)))
    (named : service ≠ 0) (fits : pmt.toNat < 2 ^ 13)
    (room : state.services.length < maxServices) :
    pmt ∈ (state.perform (.program (servicePat service pmt) 8)).pids := by
  have known : be16 (servicePat service pmt) 8 ≠ 0 := by
    rw [be16_servicePat]
    exact named
  obtain ⟨listing, mem, here, moved⟩ :=
    program_listed known (findListing_isSome.mpr (.inr room))
  have present := attends.attended listing mem ⟨_, 8,
    List.mem_append_right _ (List.mem_singleton_self _), here.symm, here ▸ known⟩
  rw [moved, be13_servicePat fits] at present
  exact present

/-- As long as every service has its context, so have the services of the PATs. -/
theorem crowded_pats {total count : Nat} (few : count ≤ total) (room : total ≤ maxServices)
    (all : ∀ moves, moves <+: ParserState.initial.moves (pats total) →
      Attends moves (ParserState.initial.performAll moves)) :
    Crowded count (ParserState.initial.performAll (ParserState.initial.moves (pats count))) ∧
      ∀ index < count, UInt16.ofNat (0x20 + index) ∈
        (ParserState.initial.performAll (ParserState.initial.moves (pats count))).pids := by
  induction count with
  | zero => exact ⟨⟨rfl, Nat.le_refl 0⟩, fun index less => absurd less (Nat.not_lt_zero index)⟩
  | succ count ih =>
      obtain ⟨crowded, attended⟩ := ih (Nat.le_of_succ_le few)
      have reached := moves_mono (pats_mono few) ParserState.initial
      have attends := all _ reached
      have later := crowded.next (UInt16.ofNat (count + 1)) (UInt16.ofNat (0x20 + count))
      rw [moves_pats_succ, packetMoves_servicePat crowded.pat] at attends ⊢
      rw [performAll_append] at attends ⊢
      refine ⟨later, fun index less => ?_⟩
      rcases Nat.lt_succ_iff_lt_or_eq.mp less with earlier | rfl
      · exact pids_performAll (attended index earlier) _
      · have small : index < 1024 := Nat.lt_of_lt_of_le few room
        have named : UInt16.ofNat (index + 1) ≠ 0 := by
          rw [ne_eq, ← UInt16.toNat_inj, UInt16.toNat_ofNat']
          change ¬ (index + 1) % 65536 = 0
          omega
        have fits : (UInt16.ofNat (0x20 + index)).toNat < 2 ^ 13 := by
          rw [UInt16.toNat_ofNat']
          omega
        have split : ∀ moves : List Move, ∀ first second, moves ++ [first, second] =
            (moves ++ [first]) ++ [second] := by simp
        rw [split] at attends
        exact attends.of_servicePat named fits (Nat.lt_of_le_of_lt crowded.services small)

/-- As many services as the result has room for, each on a pid of its own: there is no context
for all of them. -/
theorem pats_unattended :
    ¬ ∀ moves, moves <+: ParserState.initial.moves (pats maxServices) →
      Attends moves (ParserState.initial.performAll moves) := by
  intro all
  obtain ⟨-, attended⟩ := crowded_pats (Nat.le_refl maxServices) (Nat.le_refl maxServices) all
  have tabled : Tabled (ParserState.initial.performAll
      (ParserState.initial.moves (pats maxServices))) :=
    (@holds_at_points _ _ _ Kept _ _ kept_initial (fun _ move _ before => before.perform move) _
      List.prefix_rfl).tabled
  have small : ∀ pid ∈ 0 :: 0x10 :: 0x11 :: List.range' 0x20 maxServices, pid < 2 ^ 16 := by
    intro pid mem
    simp only [List.mem_cons, List.mem_range'_1, maxServices] at mem
    omega
  have distinct : ((0 :: 0x10 :: 0x11 :: List.range' 0x20 maxServices).map UInt16.ofNat).Nodup := by
    refine List.Nodup.map_on (fun first left second right same => ?_) ?_
    · rw [← UInt16.toNat_inj, UInt16.toNat_ofNat', UInt16.toNat_ofNat',
        Nat.mod_eq_of_lt (small first left), Nat.mod_eq_of_lt (small second right)] at same
      exact same
    · simp [List.nodup_range']
  have within : ∀ pid ∈ (0 :: 0x10 :: 0x11 :: List.range' 0x20 maxServices).map UInt16.ofNat,
      pid ∈ (ParserState.initial.performAll
        (ParserState.initial.moves (pats maxServices))).pids := by
    intro pid mem
    obtain ⟨number, listed, rfl⟩ := List.mem_map.mp mem
    simp only [List.mem_cons, List.mem_range'_1] at listed
    rcases listed with rfl | rfl | rfl | ⟨low, high⟩
    · exact pids_performAll (by decide) _
    · exact pids_performAll (by decide) _
    · exact pids_performAll (by decide) _
    · have here := attended (number - 0x20) (by omega)
      rw [Nat.add_sub_cancel' low] at here
      exact here
  have longer := distinct.length_le_of_subset within
  have fits := tabled.fits
  rw [ParserState.pids, List.length_map, List.length_map] at longer
  simp only [List.length_cons, List.length_range'] at longer
  exact absurd (Nat.le_trans longer fits) (by decide)

end Scan
