import UsbDvbs2.Scan.PmtParse
import UsbDvbs2.Scan.Reassembly
import UsbDvbs2.Stream.EventTable

/-! # The state of a scan

The file scanner lists the services that a PAT, an SDT or a PMT names, and adds
to each what the table says of it. A PMT pid gets its context from the PAT, so
its packets are read from there on.
-/

namespace Scan

open Bytes Mpeg Stream Text

/-- `dtv_ts_service`, with what an SDT says: it has no name of its own until then. -/
structure Listing extends Service where
  serviceType : Nat
  provider : List UInt8
  sdtName : Option (List UInt8)
  deriving DecidableEq

def Listing.new (serviceId : UInt16) : Listing where
  toService := .new serviceId
  serviceType := 0
  provider := []
  sdtName := none

/-- `parser_state`: the services of the result, and the context of every pid that is read. -/
structure ParserState where
  services : List Listing
  contexts : List (UInt16 × Context)
  deriving DecidableEq

/-- `PSI_MAX_CONTEXTS`. -/
def maxContexts : Nat := maxServices + 2

/-- `find_service` that creates, among the listings. -/
def findListing (services : List Listing) (serviceId : UInt16) : Option (List Listing × Nat) :=
  match services.findIdx? (·.serviceId == serviceId) with
  | some index => some (services, index)
  | none =>
      if maxServices ≤ services.length then none
      else some (services ++ [.new serviceId], services.length)

/-- `find_context` that creates: without room there is none. -/
def findContext (contexts : List (UInt16 × Context)) (pid : UInt16) :
    List (UInt16 × Context) :=
  if contexts.any (·.1 == pid) ∨ maxContexts ≤ contexts.length then contexts
  else contexts ++ [(pid, .zero)]

/-- What a table says of a service, unless there is no room for it. -/
def tell (services : List Listing) (serviceId : UInt16) (change : Listing → Listing) :
    List Listing :=
  match findListing services serviceId with
  | some (found, index) => found.modify index change
  | none => services

/-! ## The tables -/

/-- The positions of the programme loop of a PAT. -/
def patEntries (sec : List UInt8) : List Nat := entries 4 (sec.length - 4) (fun _ => 0) 8

/-- An entry of a PAT; service 0 is the network. -/
def ParserState.readProgram (sec : List UInt8) (state : ParserState) (pos : Nat) : ParserState :=
  let serviceId := be16 sec pos
  let pid := be13 sec (pos + 2)
  if serviceId = 0 then state
  else if (findListing state.services serviceId).isSome then
    { services := tell state.services serviceId fun service =>
        { service with pmtPid := pid, onThisTransport := true }
      contexts := findContext state.contexts pid }
  else state

/-- `parse_pat`. -/
def ParserState.parsePat (sec : List UInt8) (state : ParserState) : ParserState :=
  if sec.length < 12 ∨ octet sec 0 ≠ 0x00 then state
  else (patEntries sec).foldl (ParserState.readProgram sec) state

/-- `copy_dvb_text`. -/
def copyDvbText (targetSize : Nat) (source : List UInt8) : List UInt8 :=
  trimEnd (· = 0x20) (dtvDvbTextToUtf8 targetSize source)

/-- `DTV_TS_NAME_SIZE`. -/
def nameSize : Nat := 128

/-- A service descriptor; the others of an SDT are passed over. -/
def Listing.readDescriptor (service : Listing) (raw : List UInt8) : Listing :=
  let length := octet raw 1
  let providerLength := octet raw 3
  if octet raw 0 = 0x48 ∧ 3 ≤ length ∧ 2 + providerLength < length then
    let nameLength := min (octet raw (4 + providerLength)) (length - 3 - providerLength)
    { service with
      serviceType := octet raw 2
      provider := copyDvbText nameSize (slice raw 4 providerLength)
      sdtName := some (copyDvbText nameSize (slice raw (5 + providerLength) nameLength)) }
  else service

/-- `free_CA_mode` of an SDT entry. -/
def freeCaMode (sec : List UInt8) (pos : Nat) : Bool := octet sec (pos + 3) / 16 % 2 = 1

/-- What an SDT entry says of its service: `free_CA_mode` adds and never clears. -/
def Listing.readSdt (sec : List UInt8) (pos : Nat) (service : Listing) : Listing :=
  let marked := if freeCaMode sec pos then { service with scrambled := true } else service
  (descriptorSlices sec (pos + 5) (pos + 5 + be12 sec (pos + 3))).foldl
    Listing.readDescriptor marked

/-- The entries of an SDT, up to the first that overruns it. -/
def sdtEntries (sec : List UInt8) : List Nat :=
  (entries 5 (sec.length - 4) (fun pos => be12 sec (pos + 3)) 11).takeWhile (entryFits sec)

/-- `parse_sdt`. -/
def ParserState.parseSdt (sec : List UInt8) (state : ParserState) : ParserState :=
  if sec.length < 15 ∨ octet sec 0 ≠ 0x42 ∧ octet sec 0 ≠ 0x46 then state
  else { state with
    services := (sdtEntries sec).foldl
      (fun services pos => tell services (be16 sec pos) (Listing.readSdt sec pos)) state.services }

/-- `parse_pmt`, among the listings. -/
def ParserState.parsePmt (sec : List UInt8) (state : ParserState) : ParserState :=
  if sec.length < 16 ∨ octet sec 0 ≠ 0x02 then state
  else { state with
    services := tell state.services (be16 sec 3) fun service =>
      { service with toService := service.toService.readPmt sec } }

/-- The listings are the services, with more said of them. -/
theorem findListing_toService (services : List Listing) (serviceId : UInt16) :
    findService (services.map (·.toService)) serviceId =
      (findListing services serviceId).map fun found =>
        (found.1.map (·.toService), found.2) := by
  unfold findService findListing
  rw [List.findIdx?_map]
  change (match services.findIdx? (·.serviceId == serviceId) with
    | some index => _
    | none => _) = _
  cases services.findIdx? (·.serviceId == serviceId) with
  | some index => rfl
  | none =>
      simp only [List.length_map]
      split
      · rfl
      · simp [Listing.new]

/-- A PMT says of the services what `dtv_ts_parse_pmt` reads out of it. -/
theorem parsePmt_toService (state : ParserState) (sec : List UInt8) :
    (state.parsePmt sec).services.map (·.toService) =
      Scan.parsePmt sec (state.services.map (·.toService)) := by
  unfold ParserState.parsePmt Scan.parsePmt
  by_cases other : sec.length < 16 ∨ octet sec 0 ≠ 0x02
  · rw [if_pos other, if_pos other]
  · rw [if_neg other, if_neg other, findListing_toService, tell]
    cases findListing state.services (be16 sec 3) with
    | none => rfl
    | some found =>
        exact List.ext_getElem? fun place => by
          simp only [Option.map_some, List.getElem?_map, List.getElem?_modify]
          cases found.1[place]? with
          | none => rfl
          | some service => by_cases here : found.2 = place <;> simp [here]

/-- A section of the length that it declares, with its checksum. -/
def Intact (sec : List UInt8) : Prop := 4 ≤ sec.length ∧ sec.length = declared sec ∧ CrcValid sec

instance (sec : List UInt8) : Decidable (Intact sec) :=
  inferInstanceAs (Decidable (_ ∧ _ ∧ _))

/-- `parse_section`, but for the transponders of a NIT. -/
def ParserState.parseSection (state : ParserState) (sec : List UInt8) : ParserState :=
  if ¬ Intact sec then state
  else if octet sec 0 = 0x00 then state.parsePat sec
  else if octet sec 0 = 0x02 then state.parsePmt sec
  else if octet sec 0 = 0x42 ∨ octet sec 0 = 0x46 then state.parseSdt sec
  else state

/-- One section after the other. -/
def ParserState.parseSections (state : ParserState) (sections : List (List UInt8)) : ParserState :=
  sections.foldl ParserState.parseSection state

/-! ## The packets of a file -/

/-- The contexts that a scan begins with: PAT, SDT and NIT. -/
def ParserState.initial : ParserState where
  services := []
  contexts := [(0x0000, .zero), (0x0011, .zero), (0x0010, .zero)]

/-- The context of a pid, if there is one. -/
def ParserState.context? (state : ParserState) (pid : UInt16) : Option Context :=
  state.contexts.lookup pid

def ParserState.setContext (state : ParserState) (pid : UInt16) (ctx : Context) : ParserState :=
  { state with
    contexts := state.contexts.map fun entry => if entry.1 = pid then (pid, ctx) else entry }

/-- One packet of `dtv_ts_scan_file`, and the sections that `parse_section` got. -/
def ParserState.scanPacket (state : ParserState) (packet : Packet) :
    ParserState × List (List UInt8) :=
  match state.context? packet.pid with
  | some ctx =>
      let (next, sections) := Scan.scanPacket packet.pid ctx packet
      ((state.setContext packet.pid next).parseSections sections, sections)
  | none => (state, [])

/-- The packet loop of `dtv_ts_scan_file`. -/
def ParserState.scanPackets : ParserState → List Packet → ParserState × List (List UInt8)
  | state, [] => (state, [])
  | state, packet :: packets =>
      let (next, sections) := state.scanPacket packet
      let (final, more) := next.scanPackets packets
      (final, sections ++ more)

def freeSdtBody : List UInt8 :=
  [0x42, 0xf0, 0x11, 0x00, 0x01, 0xc1, 0x00, 0x00, 0x00, 0x01, 0xff, 0x00, 0x01, 0xfc, 0x80, 0x00]

/-- An SDT of one section, which marks the service of `scrambledPmt` free. -/
def freeSdt : List UInt8 := freeSdtBody ++ crcBytes (crc32 freeSdtBody)

end Scan
