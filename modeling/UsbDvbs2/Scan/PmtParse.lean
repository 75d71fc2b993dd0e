import UsbDvbs2.Stream.PmtRewrite

/-! # Parsing a PMT

What the file scanner learns from a PMT: it makes the service of the table and
takes its streams, its teletext and the first CA system that is named. A table
that has been stripped names none.
-/

namespace Scan

open Bytes Camd Mpeg Stream

/-- `dtv_ts_service`, without what only an SDT says. -/
structure Service where
  serviceId : UInt16
  pmtPid : UInt16
  videoPid : UInt16
  audioPid : UInt16
  teletextPid : UInt16
  videoStreamType : Nat
  audioStreamType : Nat
  hasVideo : Bool
  hasAudio : Bool
  scrambled : Bool
  caSystemId : UInt16
  caPid : UInt16
  onThisTransport : Bool
  name : String
  deriving DecidableEq

def Service.new (serviceId : UInt16) : Service where
  serviceId := serviceId
  pmtPid := noPid
  videoPid := noPid
  audioPid := noPid
  teletextPid := noPid
  videoStreamType := 0
  audioStreamType := 0
  hasVideo := false
  hasAudio := false
  scrambled := false
  caSystemId := 0
  caPid := 0
  onThisTransport := false
  name := "Service " ++ toString serviceId

/-- `DTV_TS_MAX_SERVICES`. -/
def maxServices : Nat := 1024

/-- `find_service` that creates: the services, and where the one asked for is. -/
def findService (services : List Service) (serviceId : UInt16) : Option (List Service × Nat) :=
  match services.findIdx? (·.serviceId == serviceId) with
  | some index => some (services, index)
  | none =>
      if maxServices ≤ services.length then none
      else some (services ++ [.new serviceId], services.length)

/-- A CA descriptor with a system and a pid in it. -/
def namesSystem (raw : List UInt8) : Bool := octet raw 0 == 0x09 && 4 ≤ octet raw 1

/-- `read_ca_descriptors`: the first system named, unless there is one. -/
def Service.readCaDescriptors (service : Service) (sec : List UInt8) (start limit : Nat) :
    Service :=
  if service.caSystemId ≠ 0 then service
  else
    match (descriptorSlices sec start limit).find? namesSystem with
    | some raw =>
        { service with caSystemId := be16 raw 2, caPid := be13 raw 4, scrambled := true }
    | none => service

/-- What a stream entry says. -/
def Service.readStream (sec : List UInt8) (service : Service) (pos : Nat) : Service :=
  let streamType := octet sec pos
  let pid := be13 sec (pos + 1)
  let teletext :=
    if noPid ≤ service.teletextPid ∧ isTeletext sec pos = true then pid else service.teletextPid
  let read := { service with teletextPid := teletext }.readCaDescriptors sec (pos + 5)
    (pos + 5 + be12 sec (pos + 3))
  if !read.hasVideo && isVideoType streamType then
    { read with videoPid := pid, videoStreamType := streamType, hasVideo := true }
  else if !read.hasAudio && isAudioType streamType then
    { read with audioPid := pid, audioStreamType := streamType, hasAudio := true }
  else read

/-- What a PMT says of its service. -/
def Service.readPmt (sec : List UInt8) (service : Service) : Service :=
  let here := { service with onThisTransport := true }
  let read :=
    if programInfoEnd sec + 4 ≤ sec.length then here.readCaDescriptors sec 12 (programInfoEnd sec)
    else here
  ((streamEntries sec).takeWhile (entryFits sec)).foldl (Service.readStream sec) read

/-- `parse_pmt`. -/
def parsePmt (sec : List UInt8) (services : List Service) : List Service :=
  if sec.length < 16 ∨ octet sec 0 ≠ 0x02 then services
  else
    match findService services (be16 sec 3) with
    | some (found, index) => found.modify index (Service.readPmt sec)
    | none => services

/-- `dtv_ts_parse_pmt`, and none if it returns -1. -/
def dtvTsParsePmt (sec : List UInt8) (services : List Service) : Option (List Service) :=
  if sec.length < 16 ∨ octet sec 0 ≠ 0x02 then none
  else if CrcValid sec then some (parsePmt sec services)
  else none

/-! ## The CA system of a service -/

/-- What names a service, and what is known of its CA system. -/
def Service.key (service : Service) : UInt16 × UInt16 × UInt16 × Bool :=
  (service.serviceId, service.caSystemId, service.caPid, service.scrambled)

/-- The CA system of a service, its pid, and whether the service is scrambled;
nothing is known of a service that is not there. -/
def caOf (services : List Service) (serviceId : UInt16) : UInt16 × UInt16 × Bool :=
  match services.find? (·.serviceId == serviceId) with
  | some service => (service.caSystemId, service.caPid, service.scrambled)
  | none => (0, 0, false)

theorem modify_key {change : Service → Service} (same : ∀ service, (change service).key =
    service.key) (services : List Service) (index : Nat) (serviceId : UInt16) :
    caOf (services.modify index change) serviceId = caOf services serviceId := by
  induction services generalizing index with
  | nil => cases index <;> rfl
  | cons service services ih =>
      cases index with
      | zero =>
          have key := same service
          simp only [Service.key, Prod.mk.injEq] at key
          obtain ⟨id, system, pid, scrambled⟩ := key
          simp only [List.modify_zero_cons, caOf, List.find?_cons, id]
          cases service.serviceId == serviceId with
          | true => simp only [system, pid, scrambled]
          | false => rfl
      | succ index =>
          have rest := ih index
          simp only [List.modify_succ_cons, caOf, List.find?_cons] at rest ⊢
          cases service.serviceId == serviceId with
          | true => rfl
          | false => exact rest

/-- A service that is made new has no CA system. -/
theorem findService_caOf {services found : List Service} {asked : UInt16} {index : Nat}
    (finds : findService services asked = some (found, index)) (serviceId : UInt16) :
    caOf found serviceId = caOf services serviceId := by
  unfold findService at finds
  split at finds
  · obtain ⟨rfl, -⟩ := Prod.mk.inj (Option.some.inj finds)
    rfl
  · split at finds
    · exact nomatch finds
    · obtain ⟨rfl, -⟩ := Prod.mk.inj (Option.some.inj finds)
      unfold caOf
      rw [List.find?_append]
      cases services.find? (·.serviceId == serviceId) with
      | some service => rfl
      | none =>
          rw [Option.none_or, List.find?_cons]
          cases (Service.new asked).serviceId == serviceId <;> rfl

/-! ## A table without CA descriptors -/

/-- No descriptor of a loop is a CA descriptor. -/
def CaFree (slices : List (List UInt8)) : Prop := ∀ raw ∈ slices, octet raw 0 ≠ 0x09

theorem caFree_loop {items : List Descriptor} (clear : ∀ item ∈ items, item.isClear = true) :
    CaFree (items.map Descriptor.bytes) := by
  intro raw mem tagged
  obtain ⟨item, inside, rfl⟩ := List.mem_map.1 mem
  have drops := dropped_bytes true item
  rw [dropped, tagged, passes, clear item inside] at drops
  exact absurd drops (by decide)

theorem Service.readCaDescriptors_caFree {sec : List UInt8} {start limit : Nat}
    (free : CaFree (descriptorSlices sec start limit)) (service : Service) :
    service.readCaDescriptors sec start limit = service := by
  have none : (descriptorSlices sec start limit).find? namesSystem = none := by
    refine List.find?_eq_none.2 fun raw mem names => ?_
    rw [namesSystem, Bool.and_eq_true, beq_iff_eq] at names
    exact free raw mem names.1
  rw [readCaDescriptors, none]
  split <;> rfl

theorem Service.readStream_key {sec : List UInt8} {pos : Nat}
    (free : CaFree (descriptorSlices sec (pos + 5) (pos + 5 + be12 sec (pos + 3))))
    (service : Service) : (service.readStream sec pos).key = service.key := by
  unfold readStream
  simp only [readCaDescriptors_caFree free]
  split
  · rfl
  · split <;> rfl

theorem Service.readStreams_key {sec : List UInt8} {entries : List Nat}
    (free : ∀ pos ∈ entries,
      CaFree (descriptorSlices sec (pos + 5) (pos + 5 + be12 sec (pos + 3))))
    (service : Service) : (entries.foldl (Service.readStream sec) service).key = service.key := by
  induction entries generalizing service with
  | nil => rfl
  | cons pos entries ih =>
      rw [List.foldl_cons, ih fun other mem => free other (List.mem_cons_of_mem _ mem),
        readStream_key (free pos (List.mem_cons_self ..))]

/-- Every stream entry has the descriptors of its stream. -/
theorem slices_of_stream {items : List Elementary} {sec front back : List UInt8}
    (laid : sec = front ++ (streamLoop items ++ back)) {pos : Nat}
    (mem : pos ∈ offsets Elementary.bytes front.length items) :
    ∃ item ∈ items, descriptorSlices sec (pos + 5) (pos + 5 + be12 sec (pos + 3)) =
      item.descriptors.map Descriptor.bytes := by
  induction items generalizing front with
  | nil => exact nomatch mem
  | cons item items ih =>
      rw [streamLoop, List.flatMap_cons, List.append_assoc] at laid
      rw [offsets, List.mem_cons] at mem
      rcases mem with rfl | mem
      · have size : 5 + be12 sec (front.length + 3) = item.bytes.length := by
          rw [laid]
          exact entry_size item
        have total : item.bytes.length = 5 + (loop item.descriptors).length := by
          rw [Elementary.bytes, List.length_append, item.size]
        have start : front.length + 5 = (front ++ item.header).length := by
          rw [List.length_append, item.size]
        have inside : sec = (front ++ item.header) ++
            (loop item.descriptors ++ (streamLoop items ++ back)) := by
          rw [laid, Elementary.bytes, List.append_assoc, List.append_assoc]
          rfl
        refine ⟨item, List.mem_cons_self .., ?_⟩
        rw [start]
        exact descriptorSlices_loop inside (by omega)
      · have next : front.length + item.bytes.length = (front ++ item.bytes).length :=
          List.length_append.symm
        rw [next] at mem
        obtain ⟨other, among, slices⟩ := ih (by rw [laid, List.append_assoc]; rfl) mem
        exact ⟨other, List.mem_cons_of_mem _ among, slices⟩

/-- A table without CA descriptors says nothing of a CA system. -/
theorem Service.readPmt_key {table : ProgramMap}
    (infos : ∀ item ∈ table.descriptors, item.isClear = true)
    (streams : ∀ stream ∈ table.streams, ∀ item ∈ stream.descriptors, item.isClear = true)
    (service : Service) : (service.readPmt table.bytes).key = service.key := by
  have size := table.headerSize
  have long := table.length_bytes
  have infoEnd := programInfoEnd_bytes table
  have slices : descriptorSlices table.bytes 12 (programInfoEnd table.bytes) =
      table.descriptors.map Descriptor.bytes := by
    rw [← size]
    exact descriptorSlices_loop (bytes_split table) (by rw [infoEnd, size])
  have front : CaFree (descriptorSlices table.bytes 12 (programInfoEnd table.bytes)) :=
    slices ▸ caFree_loop infos
  have laid : table.bytes = (table.header ++ loop table.descriptors) ++
      (streamLoop table.streams ++ table.trailer) := by
    rw [bytes_split, List.append_assoc]
  have visited := streamEntries_loop laid (by rw [infoEnd, List.length_append, size]) (by
    rw [List.length_append]
    omega)
  unfold readPmt
  rw [readStreams_key]
  · rw [if_pos (by omega), readCaDescriptors_caFree front]
    rfl
  · intro pos mem
    have entry := (List.takeWhile_sublist _).subset mem
    rw [visited] at entry
    obtain ⟨stream, among, same⟩ := slices_of_stream laid entry
    rw [same]
    exact caFree_loop (streams stream among)

/-- Such a table is accepted, and no CA system is found in it. -/
theorem dtvTsParsePmt_clear {table : ProgramMap}
    (infos : ∀ item ∈ table.descriptors, item.isClear = true)
    (streams : ∀ stream ∈ table.streams, ∀ item ∈ stream.descriptors, item.isClear = true)
    (services : List Service) :
    ∃ parsed, dtvTsParsePmt table.bytes services = some parsed ∧
      ∀ serviceId, caOf parsed serviceId = caOf services serviceId := by
  have size := table.headerSize
  have long := table.length_bytes
  have first : octet table.bytes 0 = 0x02 := by
    rw [bytes_split, octet_append (by omega), table.tableId]
  have read : ¬ (table.bytes.length < 16 ∨ octet table.bytes 0 ≠ 0x02) := by
    rw [first]
    simp
    omega
  refine ⟨parsePmt table.bytes services, ?_, fun serviceId => ?_⟩
  · rw [dtvTsParsePmt, if_neg read, if_pos table.crcValid]
  · rw [parsePmt, if_neg read]
    cases finds : findService services (be16 table.bytes 3) with
    | none => rfl
    | some found =>
        rw [← findService_caOf finds]
        exact modify_key (Service.readPmt_key infos streams) found.1 found.2 serviceId

/-! ## A table that is sent on -/

theorem stripped_infos (table : ProgramMap) :
    ∀ item ∈ (table.keep Descriptor.isClear).descriptors, item.isClear = true := fun _ mem =>
  (List.mem_filter.1 mem).2

theorem stripped_streams (table : ProgramMap) :
    ∀ stream ∈ (table.keep Descriptor.isClear).streams, ∀ item ∈ stream.descriptors,
      item.isClear = true := by
  intro stream mem item inside
  obtain ⟨source, -, rfl⟩ := List.mem_map.1 mem
  exact (List.mem_filter.1 inside).2

/-- A table that fits is sent as it is or, stripped, without its CA descriptors;
the packets put together give the section back, a stripped table names no CA
system, and stripping it again changes nothing. -/
theorem sendRebuiltPmt_preserves (table : ProgramMap) (pid : UInt16) (counter : UInt8)
    (fits : table.bytes.length ≤ sectionSize) :
    rebuildPmt table.bytes table.service false = some table.bytes ∧
      rebuildPmt table.bytes table.service true = some (table.keep Descriptor.isClear).bytes ∧
      (∀ strip, ∃ sent next,
        sendRebuiltPmt table.bytes table.service pid strip counter = some (sent, next) ∧
          ∀ asm, (psiAssembleAll asm sent).2 =
            [if strip then (table.keep Descriptor.isClear).bytes else table.bytes]) ∧
      IsSection sectionSize (table.keep Descriptor.isClear).bytes ∧
      CrcValid (table.keep Descriptor.isClear).bytes ∧
      (∀ services, ∃ parsed,
        dtvTsParsePmt (table.keep Descriptor.isClear).bytes services = some parsed ∧
          ∀ serviceId, caOf parsed serviceId = caOf services serviceId) ∧
      rebuildPmt (table.keep Descriptor.isClear).bytes table.service true =
        some (table.keep Descriptor.isClear).bytes := by
  have whole := rebuildPmt_whole table fits
  have strips := rebuildPmt_strip table fits
  have short : (table.keep Descriptor.isClear).bytes.length ≤ sectionSize :=
    Nat.le_trans (table.length_keep _) fits
  refine ⟨whole, strips, fun strip => ?_, ProgramMap.isSection short, ProgramMap.crcValid _,
    dtvTsParsePmt_clear (stripped_infos table) (stripped_streams table),
    rebuildPmt_again table fits⟩
  cases strip with
  | false =>
      refine ⟨_, _, by rw [sendRebuiltPmt, whole]; rfl, fun asm => ?_⟩
      exact psiAssembleAll_sendSection (ProgramMap.isSection fits) pid counter asm
  | true =>
      refine ⟨_, _, by rw [sendRebuiltPmt, strips]; rfl, fun asm => ?_⟩
      exact psiAssembleAll_sendSection (ProgramMap.isSection short) pid counter asm

def scrambledHeader : List UInt8 :=
  [0x02, 0xb0, 0x21, 0x00, 0x01, 0xc1, 0x00, 0x00, 0xe1, 0x00, 0xf0, 0x06]

def scrambledInfos : List Descriptor := [⟨0x09, [0x05, 0x00, 0xe2, 0x00], by decide⟩]

def scrambledVideo : Elementary where
  header := [0x1b, 0xe1, 0x00, 0xf0, 0x09]
  descriptors := [⟨0x52, [0x01], by decide⟩, ⟨0x09, [0x05, 0x00, 0xe2, 0x01], by decide⟩]
  size := rfl
  counts := by decide

/-- A service whose CA system is named for the programme and for its video. -/
def scrambledPmt : ProgramMap where
  header := scrambledHeader
  descriptors := scrambledInfos
  streams := [scrambledVideo]
  trailer := crcBytes (crc32 (scrambledHeader ++
    (loop scrambledInfos ++ streamLoop [scrambledVideo])))
  headerSize := rfl
  trailerSize := rfl
  tableId := by decide
  infoLength := by decide
  sectionLength := by decide
  crc := (be32_crcBytes _).symm

theorem scrambledPmt_fits : scrambledPmt.bytes.length ≤ sectionSize := by
  rw [ProgramMap.length_bytes]
  decide

theorem sendRebuiltPmt_preserves_scrambled :
    rebuildPmt scrambledPmt.bytes scrambledPmt.service false = some scrambledPmt.bytes ∧
      rebuildPmt scrambledPmt.bytes scrambledPmt.service true =
        some (scrambledPmt.keep Descriptor.isClear).bytes :=
  have preserves := sendRebuiltPmt_preserves scrambledPmt 0x0100 0 scrambledPmt_fits
  ⟨preserves.1, preserves.2.1⟩

end Scan
