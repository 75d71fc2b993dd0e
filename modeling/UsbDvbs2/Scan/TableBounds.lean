import UsbDvbs2.Scan.NetworkTable
import UsbDvbs2.Scan.SectionOrder
import UsbDvbs2.Stream.EventBounds
import UsbDvbs2.Stream.PmtBounds

/-! # The tables of a scan stay in their sections

The parsers of a file scan, with every read where the code has it. Each of them does what its
model does, so none of them reads outside its section, subtracts below zero or runs on.
-/

namespace Scan

open Bytes Camd Stream Text

variable {sec : List UInt8}

/-! ## The services -/

/-- What a table says of a service, if there is room for it. -/
def tell? (services : List Listing) (serviceId : UInt16) (change : Listing → Option Listing) :
    Option (List Listing) :=
  match findListing services serviceId with
  | some (found, index) => do
      let service ← found[index]?
      let changed ← change service
      return found.set index changed
  | none => some services

theorem tell?_eq {change? : Listing → Option Listing} {change : Listing → Listing}
    (same : ∀ service, change? service = some (change service)) (services : List Listing)
    (serviceId : UInt16) :
    tell? services serviceId change? = some (tell services serviceId change) := by
  unfold tell? tell
  cases finds : findListing services serviceId with
  | none => rfl
  | some place =>
      obtain ⟨found, index⟩ := place
      obtain ⟨inside, -, -⟩ := List.findIdx?_eq_some_iff_getElem.mp (findListing_some finds).1
      simp only [List.getElem?_eq_getElem inside, Option.bind_eq_bind, Option.bind_some, same]
      exact congrArg some (List.modify_eq_set_get change inside).symm

/-! ## The PAT -/

/-- An entry of the loop of `parse_pat`. -/
def ParserState.readProgram? (sec : List UInt8) (pos : Nat) (state : ParserState) :
    Option (Option Nat × ParserState) := do
  let serviceId ← be16? sec pos
  let pid ← be13? sec (pos + 2)
  if serviceId = 0 then return (some (pos + 4), state)
  else if (findListing state.services serviceId).isSome then
    let services ← tell? state.services serviceId fun service =>
      some { service with pmtPid := pid, onThisTransport := true }
    return (some (pos + 4), { services, contexts := findContext state.contexts pid })
  else return (some (pos + 4), state)

def ParserState.parsePat? (sec : List UInt8) (state : ParserState) : Option ParserState :=
  if sec.length < 12 then some state
  else do
    let tableId ← octet? sec 0
    if tableId ≠ 0x00 then return state
    else
      let limit ← sub? sec.length 4
      scan? 4 limit (ParserState.readProgram? sec) 8 state

theorem readProgram_reads {limit : Nat} (inside : limit ≤ sec.length) :
    Reads 4 limit (fun _ => 0) (ParserState.readProgram? sec) (fun _ => true)
      (fun state pos => state.readProgram sec pos) where
  positive := by decide
  turns := by
    intro pos state begins
    have told (pid : UInt16) := tell?_eq (fun service : Listing => show
      some { service with pmtPid := pid, onThisTransport := true } = _ from rfl) state.services
        (be16 sec pos)
    rw [ParserState.readProgram?, be16?_eq (by omega), be13?_eq (by omega)]
    simp only [Option.bind_eq_bind, Option.bind_some, told, ParserState.readProgram]
    by_cases network : be16 sec pos = 0
    · rw [if_pos network, if_pos network]
      rfl
    · rw [if_neg network, if_neg network]
      split <;> rfl

theorem parsePat?_eq (sec : List UInt8) (state : ParserState) :
    state.parsePat? sec = some (state.parsePat sec) := by
  unfold ParserState.parsePat? ParserState.parsePat
  by_cases short : sec.length < 12
  · rw [if_pos short, if_pos (.inl short)]
  · rw [if_neg short, octet?_eq (by omega), sub?_eq (by omega)]
    by_cases other : octet sec 0 ≠ 0x00
    · rw [if_pos (.inr other)]
      exact if_pos other
    · rw [if_neg (not_or_intro short other)]
      refine (if_neg other).trans ?_
      exact (readProgram_reads (Nat.sub_le sec.length 4)).scan_all _ _

/-! ## The SDT -/

def copyDvbText? (targetSize : Nat) (source : List UInt8) : Option (List UInt8) := do
  let decoded ← dtvDvbTextToUtf8? targetSize source
  return trimEnd (· = 0x20) decoded

theorem copyDvbText?_eq (targetSize : Nat) (source : List UInt8) :
    copyDvbText? targetSize source = some (copyDvbText targetSize source) := by
  rw [copyDvbText?, dtvDvbTextToUtf8?_eq]
  rfl

/-- A descriptor of the loop of `parse_sdt`. -/
def Listing.readDescriptor? (sec : List UInt8) (tag length d : Nat) (service : Listing) :
    Option (Bool × Listing) :=
  if tag = 0x48 ∧ 3 ≤ length then do
    let providerLength ← octet? sec (d + 3)
    if 2 + providerLength < length then
      let nameLength ← octet? sec (d + 4 + providerLength)
      let rest ← sub? length 3
      let available ← sub? rest providerLength
      let serviceType ← octet? sec (d + 2)
      let provider ← slice? sec (d + 4) providerLength
      let provider ← copyDvbText? nameSize provider
      let name ← slice? sec (d + 5 + providerLength) (min nameLength available)
      let name ← copyDvbText? nameSize name
      return (true, { service with serviceType, provider, sdtName := some name })
    else return (true, service)
  else some (true, service)

/-- What an SDT entry says of a service that there is room for. -/
def Listing.readSdt? (sec : List UInt8) (pos length : Nat) (service : Listing) :
    Option Listing := do
  let flags ← octet? sec (pos + 3)
  let marked := if flags / 16 % 2 = 1 then { service with scrambled := true } else service
  descriptorLoop? sec (pos + 5) (pos + 5 + length) (Listing.readDescriptor? sec) marked

/-- An entry of the loop of `parse_sdt`. -/
def sdtTurn? (sec : List UInt8) (limit pos : Nat) (services : List Listing) :
    Option (Option Nat × List Listing) := do
  let serviceId ← be16? sec pos
  let length ← be12? sec (pos + 3)
  if limit < pos + 5 + length then return (none, services)
  else
    let services ← tell? services serviceId (Listing.readSdt? sec pos length)
    return (some (pos + 5 + length), services)

def ParserState.parseSdt? (sec : List UInt8) (state : ParserState) : Option ParserState :=
  if sec.length < 15 then some state
  else do
    let tableId ← octet? sec 0
    if tableId ≠ 0x42 ∧ tableId ≠ 0x46 then return state
    else
      let limit ← sub? sec.length 4
      let services ← scan? 5 limit (sdtTurn? sec limit) 11 state.services
      return { state with services }

/-- A service descriptor is read as the slice of it is. -/
theorem readDescriptor?_eq {d : Nat} (inside : d + 2 + octet sec (d + 1) ≤ sec.length)
    (service : Listing) :
    Listing.readDescriptor? sec (octet sec d) (octet sec (d + 1)) d service =
      some (true, service.readDescriptor (slice sec d (2 + octet sec (d + 1)))) := by
  have tag : octet (slice sec d (2 + octet sec (d + 1))) 0 = octet sec d := octet_slice (by omega)
  have size : octet (slice sec d (2 + octet sec (d + 1))) 1 = octet sec (d + 1) :=
    octet_slice (by omega)
  simp only [Listing.readDescriptor?, Listing.readDescriptor, tag, size]
  by_cases service' : octet sec d = 0x48 ∧ 3 ≤ octet sec (d + 1)
  · have provider : octet (slice sec d (2 + octet sec (d + 1))) 3 = octet sec (d + 3) :=
      octet_slice (by omega)
    rw [if_pos service', octet?_eq (by omega)]
    simp only [provider, Option.bind_eq_bind, Option.bind_some]
    by_cases fits : 2 + octet sec (d + 3) < octet sec (d + 1)
    · have kind : octet (slice sec d (2 + octet sec (d + 1))) 2 = octet sec (d + 2) :=
        octet_slice (by omega)
      have room : octet (slice sec d (2 + octet sec (d + 1))) (4 + octet sec (d + 3)) =
          octet sec (d + 4 + octet sec (d + 3)) := by
        rw [octet_slice (by omega), Nat.add_assoc]
      have first : slice (slice sec d (2 + octet sec (d + 1))) 4 (octet sec (d + 3)) =
          slice sec (d + 4) (octet sec (d + 3)) := slice_slice (by omega)
      have second (size : Nat) (short : size ≤ octet sec (d + 1) - 3 - octet sec (d + 3)) :
          slice (slice sec d (2 + octet sec (d + 1))) (5 + octet sec (d + 3)) size =
            slice sec (d + 5 + octet sec (d + 3)) size := by
        rw [slice_slice (by omega), Nat.add_assoc]
      have short := Nat.min_le_right (octet sec (d + 4 + octet sec (d + 3)))
        (octet sec (d + 1) - 3 - octet sec (d + 3))
      rw [if_pos fits, if_pos ⟨service'.1, service'.2, fits⟩, octet?_eq (by omega),
        sub?_eq service'.2, Option.bind_some, Option.bind_some, sub?_eq (by omega),
        Option.bind_some, octet?_eq (by omega), Option.bind_some, slice?_eq (by omega),
        Option.bind_some, copyDvbText?_eq, Option.bind_some, slice?_eq (by omega), Option.bind_some,
        copyDvbText?_eq, Option.bind_some, room, second _ short, kind, first]
      rfl
    · rw [if_neg fits, if_neg (fun all => fits all.2.2)]
      rfl
  · rw [if_neg service', if_neg (fun all => service' ⟨all.1, all.2.1⟩)]

theorem readSdt?_eq {pos : Nat} (inside : pos + 5 + be12 sec (pos + 3) ≤ sec.length)
    (service : Listing) :
    Listing.readSdt? sec pos (be12 sec (pos + 3)) service =
      some (Listing.readSdt sec pos service) := by
  rw [Listing.readSdt?, octet?_eq (by omega), Listing.readSdt]
  refine (descriptorSlices_loop? inside Listing.readDescriptor (fun fits => ?_) _ _).trans ?_
  · exact readDescriptor?_eq (Nat.le_trans fits inside) _
  · simp only [freeCaMode, decide_eq_true_eq]

theorem sdtTurn_reads {limit : Nat} (inside : limit ≤ sec.length) :
    Reads 5 limit (fun pos => be12 sec (pos + 3)) (sdtTurn? sec limit)
      (fun pos => pos + 5 + be12 sec (pos + 3) ≤ limit)
      (fun services pos => tell services (be16 sec pos) (Listing.readSdt sec pos)) where
  positive := by decide
  turns := by
    intro pos services begins
    rw [sdtTurn?, be16?_eq (by omega), be12?_eq (by omega)]
    simp only [Option.bind_eq_bind, Option.bind_some]
    by_cases overruns : limit < pos + 5 + be12 sec (pos + 3)
    · rw [if_pos overruns, if_neg (by simpa using overruns)]
      rfl
    · rw [if_neg overruns, if_pos (by simpa using overruns),
        tell?_eq (fun service => readSdt?_eq (by omega) service)]
      rfl

theorem parseSdt?_eq (sec : List UInt8) (state : ParserState) :
    state.parseSdt? sec = some (state.parseSdt sec) := by
  unfold ParserState.parseSdt? ParserState.parseSdt
  by_cases short : sec.length < 15
  · rw [if_pos short, if_pos (.inl short)]
  · rw [if_neg short, octet?_eq (by omega), sub?_eq (by omega)]
    simp only [Option.bind_eq_bind, Option.bind_some]
    by_cases other : octet sec 0 ≠ 0x42 ∧ octet sec 0 ≠ 0x46
    · rw [if_pos other, if_pos (.inr other)]
      rfl
    · rw [if_neg other, if_neg (not_or_intro short other),
        (sdtTurn_reads (Nat.sub_le sec.length 4)).scan]
      rfl

/-! ## The PMT -/

def namesCaAt (sec : List UInt8) (d : Nat) : Bool :=
  octet sec d == 0x09 && decide (4 ≤ octet sec (d + 1))

def Service.takeCa (service : Service) (system pid : UInt16) : Service :=
  { service with caSystemId := system, caPid := pid, scrambled := true }

/-- A descriptor of the loop of `read_ca_descriptors`. -/
def Service.readCaDescriptor? (sec : List UInt8) (tag length d : Nat) (service : Service) :
    Option (Bool × Service) :=
  if tag = 0x09 ∧ 4 ≤ length then do
    let system ← be16? sec (d + 2)
    let pid ← be13? sec (d + 4)
    return (false, service.takeCa system pid)
  else some (true, service)

def Service.readCaDescriptors? (service : Service) (sec : List UInt8) (start limit : Nat) :
    Option Service :=
  if service.caSystemId ≠ 0 then some service
  else descriptorLoop? sec start limit (Service.readCaDescriptor? sec) service

/-- The teletext loop of `parse_pmt`. -/
def Service.readTeletext? (service : Service) (sec : List UInt8) (streamType : Nat) (pid : UInt16)
    (start limit : Nat) : Option UInt16 :=
  if streamType = 0x06 ∧ noPid ≤ service.teletextPid then
    teletextLoop? sec pid start limit service.teletextPid
  else some service.teletextPid

/-- An entry of the stream loop of `parse_pmt`. -/
def Service.readStream? (sec : List UInt8) (limit pos : Nat) (service : Service) :
    Option (Option Nat × Service) := do
  let streamType ← octet? sec pos
  let pid ← be13? sec (pos + 1)
  let length ← be12? sec (pos + 3)
  if limit < pos + 5 + length then return (none, service)
  else
    let teletext ← service.readTeletext? sec streamType pid (pos + 5) (pos + 5 + length)
    let read ← { service with teletextPid := teletext }.readCaDescriptors? sec (pos + 5)
      (pos + 5 + length)
    let seen :=
      if !read.hasVideo && isVideoType streamType then
        { read with videoPid := pid, videoStreamType := streamType, hasVideo := true }
      else if !read.hasAudio && isAudioType streamType then
        { read with audioPid := pid, audioStreamType := streamType, hasAudio := true }
      else read
    return (some (pos + 5 + length), seen)

def Service.readPmt? (sec : List UInt8) (service : Service) : Option Service := do
  let here := { service with onThisTransport := true }
  let length ← be12? sec 10
  let read ←
    if 12 + length + 4 ≤ sec.length then here.readCaDescriptors? sec 12 (12 + length)
    else some here
  let limit ← sub? sec.length 4
  scan? 5 limit (Service.readStream? sec limit) (12 + length) read

def ParserState.parsePmt? (sec : List UInt8) (state : ParserState) : Option ParserState :=
  if sec.length < 16 then some state
  else do
    let tableId ← octet? sec 0
    if tableId ≠ 0x02 then return state
    else
      let serviceId ← be16? sec 3
      let services ← tell? state.services serviceId fun service =>
        (service.toService.readPmt? sec).map fun read => { service with toService := read }
      return { state with services }

theorem readCaDescriptors?_eq {limit : Nat} (inside : limit ≤ sec.length) (service : Service)
    (start : Nat) :
    service.readCaDescriptors? sec start limit =
      some (service.readCaDescriptors sec start limit) := by
  unfold Service.readCaDescriptors? Service.readCaDescriptors
  by_cases known : service.caSystemId ≠ 0
  · rw [if_pos known, if_pos known]
  · rw [if_neg known, if_neg known]
    have names (d : Nat) :
        namesSystem (slice sec d (2 + octet sec (d + 1))) = namesCaAt sec d := by
      rw [namesSystem, octet_slice (by omega), octet_slice (by omega)]
      rfl
    have visits {d : Nat} {service : Service} (fits : d + 2 + octet sec (d + 1) ≤ limit) :
        Service.readCaDescriptor? sec (octet sec d) (octet sec (d + 1)) d service =
          some (if namesCaAt sec d then
            (false, service.takeCa (be16 sec (d + 2)) (be13 sec (d + 4)))
          else (true, service)) := by
      unfold Service.readCaDescriptor? namesCaAt
      by_cases here : octet sec d = 0x09 ∧ 4 ≤ octet sec (d + 1)
      · rw [if_pos here, if_pos (by simpa using here), be16?_eq (by omega), be13?_eq (by omega)]
        rfl
      · rw [if_neg here, if_neg (by simpa using here)]
    rw [descriptorLoop?_eq inside (fun d service => if namesCaAt sec d then
        (false, service.takeCa (be16 sec (d + 2)) (be13 sec (d + 4))) else (true, service)) visits,
      walk_find (namesCaAt sec) (fun service d => Service.takeCa service (be16 sec (d + 2))
        (be13 sec (d + 4))), descriptorSlices, List.find?_map]
    simp only [Function.comp_def, names]
    cases found : List.find? (fun d => namesCaAt sec d)
        ((descriptors sec start limit).takeWhile fun d => d + 2 + octet sec (d + 1) ≤ limit) with
    | none => rfl
    | some d =>
        have long := List.find?_some found
        simp only [namesCaAt, Bool.and_eq_true, decide_eq_true_eq] at long
        have system : be16 (slice sec d (2 + octet sec (d + 1))) 2 = be16 sec (d + 2) :=
          be16_slice (by omega)
        have pid : be13 (slice sec d (2 + octet sec (d + 1))) 4 = be13 sec (d + 4) :=
          be13_slice (by omega)
        simp only [Option.map_some, system, pid]
        rfl

theorem readTeletext?_eq {pos : Nat} (inside : pos + 5 + be12 sec (pos + 3) ≤ sec.length)
    (service : Service) (pid : UInt16) :
    service.readTeletext? sec (octet sec pos) pid (pos + 5) (pos + 5 + be12 sec (pos + 3)) =
      some (if noPid ≤ service.teletextPid ∧ isTeletext sec pos = true then pid
        else service.teletextPid) := by
  unfold Service.readTeletext?
  by_cases wanted : octet sec pos = 0x06 ∧ noPid ≤ service.teletextPid
  · rw [if_pos wanted, teletextLoop?_eq inside wanted.1]
    simp only [wanted.2, true_and]
  · rw [if_neg wanted, if_neg]
    intro both
    rw [isTeletext, Bool.and_eq_true, beq_iff_eq] at both
    exact wanted ⟨both.2.1, both.1⟩

theorem readStream_reads {limit : Nat} (inside : limit ≤ sec.length) :
    Reads 5 limit (fun pos => be12 sec (pos + 3)) (Service.readStream? sec limit)
      (fun pos => pos + 5 + be12 sec (pos + 3) ≤ limit) (Service.readStream sec) where
  positive := by decide
  turns := by
    intro pos service begins
    rw [Service.readStream?, octet?_eq (by omega), be13?_eq (by omega), be12?_eq (by omega)]
    simp only [Option.bind_eq_bind, Option.bind_some]
    by_cases overruns : limit < pos + 5 + be12 sec (pos + 3)
    · rw [if_pos overruns, if_neg (by simpa using overruns)]
      rfl
    · have within : pos + 5 + be12 sec (pos + 3) ≤ sec.length := by omega
      have entry : decide (pos + 5 + be12 sec (pos + 3) ≤ limit) = true := by simpa using overruns
      rw [if_neg overruns, if_pos entry, readTeletext?_eq within, Option.bind_some,
        readCaDescriptors?_eq within]
      rfl

theorem readPmt?_eq (long : 16 ≤ sec.length) (service : Service) :
    service.readPmt? sec = some (service.readPmt sec) := by
  have info : be12? sec 10 = some (be12 sec 10) := be12?_eq (by omega)
  have limit : sub? sec.length 4 = some (sec.length - 4) := sub?_eq (by omega)
  have streams := (readStream_reads (Nat.sub_le sec.length 4)).scan
  simp only [Service.readPmt?, info, limit, Option.bind_eq_bind, Option.bind_some, streams]
  by_cases fits : programInfoEnd sec + 4 ≤ sec.length
  · have within : 12 + be12 sec 10 ≤ sec.length := Nat.le_trans (Nat.le_add_right _ 4) fits
    rw [if_pos (show 12 + be12 sec 10 + 4 ≤ sec.length from fits),
      readCaDescriptors?_eq within, Service.readPmt]
    simp only [if_pos fits]
    rfl
  · rw [if_neg (show ¬ 12 + be12 sec 10 + 4 ≤ sec.length from fits), Service.readPmt]
    simp only [if_neg fits]
    rfl

theorem parsePmt?_eq (sec : List UInt8) (state : ParserState) :
    state.parsePmt? sec = some (state.parsePmt sec) := by
  unfold ParserState.parsePmt? ParserState.parsePmt
  by_cases short : sec.length < 16
  · rw [if_pos short, if_pos (.inl short)]
  · rw [if_neg short, octet?_eq (by omega)]
    simp only [Option.bind_eq_bind, Option.bind_some]
    by_cases other : octet sec 0 ≠ 0x02
    · rw [if_pos other, if_pos (.inr other)]
      rfl
    · have reads (service : Listing) : (service.toService.readPmt? sec).map
          (fun read => { service with toService := read }) =
            some { service with toService := service.toService.readPmt sec } := by
        rw [readPmt?_eq (Nat.not_lt.mp short)]
        rfl
      rw [if_neg other, if_neg (not_or_intro short other), be16?_eq (by omega), Option.bind_some,
        tell?_eq reads]
      rfl

/-! ## The NIT -/

/-- `bcd_value`. -/
def bcdValue? (sec : List UInt8) (start nibbles : Nat) : Option Nat :=
  (List.range nibbles).foldlM (fun value i => do
    let byte ← octet? sec (start + i / 2)
    let digit := if i % 2 = 1 then byte % 16 else byte / 16
    return value * 10 + if digit > 9 then 0 else digit) 0

def parseSatelliteDescriptor? (sec : List UInt8) (start length : Nat) (out : NetworkTp) :
    Option NetworkTp :=
  if length < 11 then some out
  else do
    let frequency ← bcdValue? sec start 8
    let orbital ← bcdValue? sec (start + 4) 4
    let flags ← octet? sec (start + 6)
    let symbolRate ← bcdValue? sec (start + 7) 7
    return { out with
      frequencyMhz := frequency / 100
      orbitalTenths := orbital
      east := flags / 128 % 2
      polarization := if flags / 32 % 4 = 0 then 'H' else 'V'
      symbolRateKsps := symbolRate / 10 }

/-- The bytes of a name and a zero behind them, if there is room for both. -/
def writeName? (name : NetworkName) (bytes : List UInt8) : Option NetworkName :=
  if bytes.length + 1 ≤ networkNameSize then
    some (.ofFn fun i =>
      if i < bytes.length then bytes.getD i 0
      else if i = bytes.length then 0 else name.get i)
  else none

/-- A descriptor of the network. -/
def networkDescriptor? (sec : List UInt8) (tag length d : Nat) (name : NetworkName) :
    Option (Bool × NetworkName) :=
  if tag = 0x40 ∧ length ≠ 0 ∧ name.get 0 = 0 then do
    let copied ← slice? sec (d + 2)
      (if length < networkNameSize - 1 then length else networkNameSize - 1)
    let written ← writeName? name copied
    return (true, written)
  else some (true, name)

/-- A descriptor of a transport stream. -/
def transportDescriptor? (sec : List UInt8) (transportStreamId : UInt16) (tag length d : Nat)
    (tps : List NetworkTp) : Option (Bool × List NetworkTp) :=
  if tag = 0x43 ∧ tps.length < maxNetworkTps then do
    let entry ← parseSatelliteDescriptor? sec (d + 2) length (.zero transportStreamId)
    if entry.frequencyMhz = 0 ∨ entry.symbolRateKsps = 0 then return (false, tps)
    else if tps.any (·.carrier = entry.carrier) then return (true, tps)
    else return (true, tps ++ [entry])
  else some (true, tps)

/-- An entry of the transport stream loop of `dtv_ts_parse_nit`. -/
def transportTurn? (sec : List UInt8) (limit pos : Nat) (tps : List NetworkTp) :
    Option (Option Nat × List NetworkTp) := do
  let transportStreamId ← be16? sec pos
  let length ← be12? sec (pos + 4)
  if limit < pos + 6 + length then return (none, tps)
  else
    let tps ← descriptorLoop? sec (pos + 6) (pos + 6 + length)
      (transportDescriptor? sec transportStreamId) tps
    return (some (pos + 6 + length), tps)

/-- The comparison with the checksum in the last four bytes. -/
def crcValid? (sec : List UInt8) : Option Bool := do
  let limit ← sub? sec.length 4
  let body ← slice? sec 0 limit
  let trailer ← slice? sec limit 4
  return (crc32 body).toNat == be32 trailer 0

def dtvTsParseNit? (sec : List UInt8) (result : Network) : Option (Int × Network) :=
  if sec.length < 16 then some (-1, result)
  else do
    let tableId ← octet? sec 0
    if tableId ≠ 0x40 then return (-1, result)
    else
      let sectionLength ← be12? sec 1
      if sec.length ≠ 3 + sectionLength then return (-1, result)
      else
        let valid ← crcValid? sec
        if valid = false then return (-1, result)
        else
          let length ← be12? sec 8
          let limit ← sub? sec.length 4
          if limit < 10 + length + 2 then return (-1, result)
          else
            let name ← descriptorLoop? sec 10 (10 + length) (networkDescriptor? sec) result.name
            let loopLength ← be12? sec (10 + length)
            let stop := min (10 + length + 2 + loopLength) limit
            let tps ← scan? 6 stop (transportTurn? sec stop) (10 + length + 2) result.tps
            return (0, { name, tps })

theorem bcdValue?_eq {start nibbles : Nat} (inside : start + (nibbles + 1) / 2 ≤ sec.length) :
    bcdValue? sec start nibbles = some (bcdValue sec start nibbles) := by
  refine foldlM_eq (fun i mem value => ?_) 0
  have small := List.mem_range.mp mem
  rw [octet?_eq (by omega)]
  rfl

theorem parseSatelliteDescriptor?_eq {start length : Nat} (inside : start + length ≤ sec.length)
    (out : NetworkTp) :
    parseSatelliteDescriptor? sec start length out =
      some (parseSatelliteDescriptor sec start length out) := by
  unfold parseSatelliteDescriptor? parseSatelliteDescriptor
  by_cases short : length < 11
  · rw [if_pos short, if_pos short]
  · rw [if_neg short, if_neg short, bcdValue?_eq (by omega), bcdValue?_eq (by omega),
      octet?_eq (by omega), bcdValue?_eq (by omega)]
    rfl

theorem networkDescriptor?_eq {d : Nat} (inside : d + 2 + octet sec (d + 1) ≤ sec.length)
    (name : NetworkName) :
    networkDescriptor? sec (octet sec d) (octet sec (d + 1)) d name =
      some (true, readNetworkName sec name d) := by
  unfold networkDescriptor? readNetworkName
  by_cases named : isName sec d ∧ name[0] = 0
  · have short : nameCopy sec d + 1 ≤ networkNameSize ∧ nameCopy sec d ≤ octet sec (d + 1) := by
      unfold nameCopy networkNameSize
      split <;> omega
    have size : (slice sec (d + 2) (nameCopy sec d)).length = nameCopy sec d :=
      length_slice (by omega)
    have copied : writeName? name (slice sec (d + 2) (nameCopy sec d)) =
        some (copyName sec name d) := by
      rw [writeName?, size, if_pos short.1, copyName]
      congr 2
      funext i
      by_cases front : i < nameCopy sec d
      · rw [if_pos front, if_pos front, getD_slice front]
      · rw [if_neg front, if_neg front]
        rfl
    rw [if_pos named, if_pos ⟨named.1.1, named.1.2, named.2⟩]
    change (slice? sec (d + 2) (nameCopy sec d)).bind _ = _
    rw [slice?_eq (by omega), Option.bind_some]
    change (writeName? name (slice sec (d + 2) (nameCopy sec d))).bind _ = _
    rw [copied]
    rfl
  · rw [if_neg named, if_neg fun all => named ⟨⟨all.1, all.2.1⟩, all.2.2⟩]

/-- A turn of the descriptor loop of a transport stream, in the model. -/
def carrierTurn (sec : List UInt8) (transportStreamId : UInt16) (d : Nat)
    (tps : List NetworkTp) : Bool × List NetworkTp :=
  let entry := parseSatelliteDescriptor sec (d + 2) (octet sec (d + 1)) (.zero transportStreamId)
  if octet sec d = 0x43 ∧ tps.length < maxNetworkTps then
    if entry.frequencyMhz = 0 ∨ entry.symbolRateKsps = 0 then (false, tps)
    else if tps.any (·.carrier = entry.carrier) then (true, tps)
    else (true, tps ++ [entry])
  else (true, tps)

theorem walk_carrierTurn (sec : List UInt8) (transportStreamId : UInt16) (positions : List Nat)
    (tps : List NetworkTp) :
    walk (carrierTurn sec transportStreamId) positions tps =
      readTransport sec transportStreamId positions tps := by
  induction positions generalizing tps with
  | nil => rfl
  | cons d later ih =>
      rw [walk, readTransport, carrierTurn]
      by_cases carrier : octet sec d = 0x43 ∧ tps.length < maxNetworkTps
      · simp only [if_pos carrier]
        split
        · rfl
        · split
          · exact ih _
          · exact ih _
      · simp only [if_neg carrier]
        exact ih _

theorem transportDescriptor?_eq {d : Nat} (inside : d + 2 + octet sec (d + 1) ≤ sec.length)
    (transportStreamId : UInt16) (tps : List NetworkTp) :
    transportDescriptor? sec transportStreamId (octet sec d) (octet sec (d + 1)) d tps =
      some (carrierTurn sec transportStreamId d tps) := by
  unfold transportDescriptor? carrierTurn
  by_cases carrier : octet sec d = 0x43 ∧ tps.length < maxNetworkTps
  · rw [if_pos carrier, parseSatelliteDescriptor?_eq inside]
    simp only [if_pos carrier, Option.bind_eq_bind, Option.bind_some]
    split
    · rfl
    · split <;> rfl
  · rw [if_neg carrier]
    simp only [if_neg carrier]

theorem transportTurn_reads {limit : Nat} (inside : limit ≤ sec.length) :
    Reads 6 limit (fun pos => be12 sec (pos + 4)) (transportTurn? sec limit)
      (fun pos => pos + 6 + be12 sec (pos + 4) ≤ limit)
      (fun tps pos => readTransport sec (be16 sec pos)
        (wholeDescriptors sec (pos + 6) (pos + 6 + be12 sec (pos + 4))) tps) where
  positive := by decide
  turns := by
    intro pos tps begins
    rw [transportTurn?, be16?_eq (by omega), be12?_eq (by omega)]
    simp only [Option.bind_eq_bind, Option.bind_some]
    by_cases overruns : limit < pos + 6 + be12 sec (pos + 4)
    · rw [if_pos overruns, if_neg (by simpa using overruns)]
      rfl
    · have within : pos + 6 + be12 sec (pos + 4) ≤ sec.length := by omega
      rw [if_neg overruns, if_pos (by simpa using overruns), descriptorLoop?_eq within _
        (fun fits => transportDescriptor?_eq (Nat.le_trans fits within) _ _)]
      simp only [Option.bind_some, ← walk_carrierTurn]
      rfl

theorem crcValid?_eq (long : 4 ≤ sec.length) : crcValid? sec = some (decide (CrcValid sec)) := by
  have body : slice sec 0 (sec.length - 4) = sec.take (sec.length - 4) := rfl
  have trailer : be32 (slice sec (sec.length - 4) 4) 0 = be32 sec (sec.length - 4) := by
    simp only [be32, octet_slice (show 0 < 4 by decide), octet_slice (show 0 + 1 < 4 by decide),
      octet_slice (show 0 + 2 < 4 by decide), octet_slice (show 0 + 3 < 4 by decide),
      Nat.zero_add, Nat.add_zero]
  rw [crcValid?, sub?_eq long]
  simp only [Option.bind_eq_bind, Option.bind_some]
  rw [slice?_eq (by omega), Option.bind_some, slice?_eq (by omega), Option.bind_some, body, trailer]
  exact congrArg some (Bool.eq_iff_iff.mpr (by rw [beq_iff_eq, decide_eq_true_eq, CrcValid]))

theorem dtvTsParseNit?_eq (sec : List UInt8) (result : Network) :
    dtvTsParseNit? sec result = some (dtvTsParseNit sec result) := by
  unfold dtvTsParseNit? dtvTsParseNit
  by_cases short : sec.length < 16
  · rw [if_pos short, if_pos short]
  · rw [if_neg short, if_neg short, octet?_eq (by omega)]
    simp only [Option.bind_eq_bind, Option.bind_some]
    by_cases other : octet sec 0 ≠ 0x40
    · rw [if_pos other, if_pos other]
      rfl
    · rw [if_neg other, if_neg other, be12?_eq (by omega)]
      simp only [Option.bind_some]
      by_cases size : sec.length ≠ 3 + be12 sec 1
      · rw [if_pos size, if_pos size]
        rfl
      · rw [if_neg size, if_neg size, crcValid?_eq (by omega)]
        simp only [Option.bind_some, decide_eq_false_iff_not]
        by_cases damaged : ¬ CrcValid sec
        · rw [if_pos damaged, if_pos damaged]
          rfl
        · rw [if_neg damaged, if_neg damaged, be12?_eq (by omega), sub?_eq (by omega)]
          simp only [Option.bind_some]
          by_cases overruns : sec.length - 4 < 10 + be12 sec 8 + 2
          · rw [if_pos overruns, if_pos overruns]
            rfl
          · have within : 10 + be12 sec 8 ≤ sec.length := by omega
            rw [if_neg overruns, if_neg overruns, descriptorLoop?_eq within _
              (fun fits => networkDescriptor?_eq (Nat.le_trans fits within) _), walk_foldl,
              be12?_eq (by omega)]
            simp only [Option.bind_some]
            rw [(transportTurn_reads (by omega)).scan]
            rfl

/-! ## Every parser -/

/-- Whatever a section is, its parsers read nothing outside it, write nothing outside the buffer
of a rebuilt table, subtract nothing below zero and come to an end: with all of these checked,
they do what they do unchecked. -/
theorem parsers_stay_inside (sec : List UInt8) :
    (∀ state : ParserState, state.parsePat? sec = some (state.parsePat sec)) ∧
    (∀ state : ParserState, state.parseSdt? sec = some (state.parseSdt sec)) ∧
    (∀ state : ParserState, state.parsePmt? sec = some (state.parsePmt sec)) ∧
    (∀ result, dtvTsParseNit? sec result = some (dtvTsParseNit sec result)) ∧
    (∀ maxEvents, epgParseSection? sec maxEvents = some (epgParseSection sec maxEvents)) ∧
    (∀ service serviceThen clock display,
      NowNext.parseEitSection? service serviceThen clock sec display =
        some (NowNext.parseEitSection service serviceThen clock sec display)) ∧
    (∀ service, pmtLookupStreamPids? sec service = some (pmtLookupStreamPids sec service)) ∧
    (∀ service, pmtCollectCa? sec service = some (pmtCollectCa sec service)) ∧
    (∀ service, patLookupPmtPid? sec service = some (patLookupPmtPid sec service)) ∧
    (∀ service pid strip streamCapacity sendto counter writer outputs,
      udpTsSendSelectedPmt? sec service pid strip streamCapacity sendto counter writer outputs =
        some (udpTsSendSelectedPmt sec service pid strip streamCapacity sendto counter writer
          outputs)) :=
  ⟨parsePat?_eq sec, parseSdt?_eq sec, parsePmt?_eq sec, dtvTsParseNit?_eq sec,
    epgParseSection?_eq sec,
    fun service serviceThen clock => NowNext.parseEitSection?_eq service serviceThen clock sec,
    pmtLookupStreamPids?_eq sec, pmtCollectCa?_eq sec, patLookupPmtPid?_eq sec,
    udpTsSendSelectedPmt?_eq sec⟩

end Scan
