import UsbDvbs2.Concurrency.Execution

/-! # The CAM client

The card server client of `dtv_camd.c`: its state behind the lock, the sections
that change it, and the single operations its threads perform. What the server
answers is part of an operation's input. A ledger beside the client counts the
services it was given and keeps, for every ECM and every stored word, the count
at which that ECM was handed in.
-/

namespace Camd

open Concurrency

/-- One half of a control word. -/
abbrev Key : Type := Vector UInt8 8

def zeroCw : Key := .replicate 8 0

structure Words where
  even : Key
  odd : Key
  deriving DecidableEq

inductive Proto where
  | newcamd
  | cs378x
  deriving DecidableEq

/-- The part of `dtv_camd_config` the worker itself reads. -/
structure Config where
  proto : Proto
  host : String
  port : UInt32

/-- `dtv_camd_state`. -/
inductive Progress where
  | off
  | connecting
  | connected
  | decrypting
  | rejected
  | error
  deriving DecidableEq

structure Candidate where
  caSystemId : UInt16
  ecmPid : UInt16
  providerId : UInt32
  deriving DecidableEq

def maxCandidates : Nat := 8
def maxEcmSize : Nat := 512
def noPid : UInt16 := 0x1fff

structure Status where
  state : Progress
  message : String
  lastError : String
  caSystemId : UInt16
  ecmSent : UInt32
  cwReceived : UInt32
  ecmFailed : UInt32
  lastLatencyMs : UInt32
  ecmPid : UInt16

/-- What the worker and the protocols share about the open connection. -/
structure Connection where
  opened : Bool
  serviceId : UInt16
  caSystemId : UInt16
  providerId : UInt32
  ecmPid : UInt16
  error : String

/-- `struct dtv_camd`; an ECM of size zero is the empty list. -/
structure Client where
  connection : Connection
  stop : Bool
  candidates : List Candidate
  candidateIndex : Nat
  serviceId : UInt16
  pendingEcm : List UInt8
  lastEcm : List UInt8
  even : Key
  odd : Key
  evenValid : Bool
  oddValid : Bool
  generation : UInt32
  status : Status
  activeEcmPid : UInt16

/-- `snprintf` into a buffer of `size` bytes. -/
def snprintf (size : Nat) (text : String) : String := String.ofList (text.toList.take (size - 1))

/-- The client as `dtv_camd_start` hands it to its worker. -/
def start : Client where
  connection := ⟨false, 0, 0, 0, 0, ""⟩
  stop := false
  candidates := []
  candidateIndex := 0
  serviceId := 0
  pendingEcm := []
  lastEcm := []
  even := zeroCw
  odd := zeroCw
  evenValid := false
  oddValid := false
  generation := 0
  status := ⟨.connecting, "Starting the CAM client", "", 0, 0, 0, 0, 0, noPid⟩
  activeEcmPid := noPid

/-! ## The sections under the lock -/

namespace Client

def setStatus (client : Client) (state : Progress) (message : Option String) : Client :=
  match message with
  | none => { client with status := { client.status with state } }
  | some text =>
      let lastError := if state = .error ∨ state = .rejected then snprintf 128 text
        else client.status.lastError
      { client with status :=
        { client.status with state, message := snprintf 128 text, lastError } }

/-- The section of `apply_candidate`, and the pid it goes on to publish. -/
def applyCandidate (client : Client) : UInt16 × Client :=
  match client.candidates[client.candidateIndex]? with
  | some candidate =>
      (candidate.ecmPid,
        { client with
          connection := { client.connection with
            serviceId := client.serviceId
            caSystemId := candidate.caSystemId
            providerId := candidate.providerId
            ecmPid := candidate.ecmPid }
          status := { client.status with
            caSystemId := candidate.caSystemId
            ecmPid := candidate.ecmPid } })
  | none =>
      (noPid,
        { client with
          connection := { client.connection with caSystemId := 0, providerId := 0 }
          status := { client.status with ecmPid := noPid } })

/-- The section of `rotate_candidate`, and whether it moved on. -/
def rotateCandidate (client : Client) : Bool × Client :=
  let rotated := 1 < client.candidates.length
  (rotated,
    { client with
      candidateIndex :=
        if rotated then (client.candidateIndex + 1) % client.candidates.length
        else client.candidateIndex
      pendingEcm := []
      lastEcm := [] })

/-- A zero half leaves the previous key of that parity standing. -/
def publishControlWords (client : Client) (words : Words) (latencyMs : UInt32) : Client :=
  { client with
    even := if words.even ≠ zeroCw then words.even else client.even
    evenValid := decide (words.even ≠ zeroCw) || client.evenValid
    odd := if words.odd ≠ zeroCw then words.odd else client.odd
    oddValid := decide (words.odd ≠ zeroCw) || client.oddValid
    generation := client.generation + 1
    status := { client.status with
      cwReceived := client.status.cwReceived + 1
      lastLatencyMs := latencyMs
      state := .decrypting
      message := snprintf 128 s!"Descrambling ({latencyMs} ms)" } }

def takePendingEcm (client : Client) : List UInt8 × Client :=
  if client.pendingEcm = [] then ([], client)
  else (client.pendingEcm, { client with lastEcm := client.pendingEcm, pendingEcm := [] })

/-- The section of `dtv_camd_set_service`. -/
def setService (client : Client) (serviceId : UInt16) (candidates : List Candidate) : Client :=
  { client with
    serviceId
    candidates := candidates.take maxCandidates
    candidateIndex := 0
    evenValid := false
    oddValid := false
    generation := client.generation + 1
    pendingEcm := []
    lastEcm := []
    status := { client.status with
      ecmSent := 0
      cwReceived := 0
      ecmFailed := 0
      lastLatencyMs := 0
      state := .connected
      message :=
        if candidates = [] then "Waiting for channel information" else "Waiting for an ECM" } }

/-- The section of `dtv_camd_submit_ecm`, and whether the worker is woken. -/
def submitEcm (client : Client) (ecm : List UInt8) : Bool × Client :=
  if client.lastEcm ≠ ecm then (true, { client with pendingEcm := ecm }) else (false, client)

/-- What `dtv_camd_get_keys` answers. -/
structure Keys where
  valid : Bool
  even : Key
  odd : Key
  generation : UInt32

def getKeys (client : Client) : Keys where
  valid := client.evenValid || client.oddValid
  even := client.even
  odd := client.odd
  generation := client.generation

end Client

/-- Only the two ECM table ids are requests for a control word. -/
def isEcm (ecm : List UInt8) : Bool :=
  3 ≤ ecm.length && ecm.length ≤ maxEcmSize && (ecm.headD 0 == 0x80 || ecm.headD 0 == 0x81)

/-! ## The operations of the threads -/

inductive Op where
  -- sections under the lock
  | setStatus (state : Progress) (message : Option String)
  | applyCandidate
  | rotateCandidate
  | publishControlWords (words : Words) (latencyMs : UInt32)
  | takePendingEcm
  | countSent
  | countFailed
  | setService (serviceId : UInt16) (candidates : List Candidate)
  | submitEcm (ecm : List UInt8)
  | getKeys
  | getStatus
  -- atomics and events
  | setActiveEcmPid (pid : UInt16)
  | getActiveEcmPid
  | getStop
  | setStop
  | setWake
  | waitWake (ms : UInt32)
  | joinWorker (ms : UInt32)
  | tick
  -- the connection and the protocol's ops table
  | clearError
  | getError
  | openConnection
  | closeConnection
  | login
  | sendEcm (ecm : List UInt8)
  | recvCw
  | keepalive

abbrev Op.Answer : Op → Type
  | .applyCandidate | .getActiveEcmPid => UInt16
  | .rotateCandidate | .submitEcm _ | .getStop | .waitWake _ => Bool
  | .takePendingEcm => List UInt8
  | .getKeys => Client.Keys
  | .getStatus => Status
  | .tick => UInt64
  | .getError => String
  | .openConnection | .login | .sendEcm _ | .keepalive | .joinWorker _ => Int
  | .recvCw => Int × Words
  | _ => Unit

abbrev signature : Signature := ⟨Op, Op.Answer⟩

abbrev Code (α : Type) : Type := Program signature α

/-- What the server and the system contribute to one operation. -/
structure Input where
  code : Int := 0
  words : Words := ⟨zeroCw, zeroCw⟩
  error : Option String := none
  woken : Bool := false
  tick : UInt64 := 0

/-- A protocol call may leave a message about its failure. -/
def Client.exchange (client : Client) (input : Input) : Client :=
  { client with connection := { client.connection with
      error := input.error.getD client.connection.error } }

def effect : (operation : Op) → Input → Client → operation.Answer × Client
  | .setStatus state message, _, client => ((), client.setStatus state message)
  | .applyCandidate, _, client => client.applyCandidate
  | .rotateCandidate, _, client => client.rotateCandidate
  | .publishControlWords words latencyMs, _, client =>
      ((), client.publishControlWords words latencyMs)
  | .takePendingEcm, _, client => client.takePendingEcm
  | .countSent, _, client =>
      ((), { client with status := { client.status with ecmSent := client.status.ecmSent + 1 } })
  | .countFailed, _, client =>
      ((), { client with
        status := { client.status with ecmFailed := client.status.ecmFailed + 1 } })
  | .setService serviceId candidates, _, client => ((), client.setService serviceId candidates)
  | .submitEcm ecm, _, client => client.submitEcm ecm
  | .getKeys, _, client => (client.getKeys, client)
  | .getStatus, _, client => (client.status, client)
  | .setActiveEcmPid pid, _, client => ((), { client with activeEcmPid := pid })
  | .getActiveEcmPid, _, client => (client.activeEcmPid, client)
  | .getStop, _, client => (client.stop, client)
  | .setStop, _, client => ((), { client with stop := true })
  | .setWake, _, client => ((), client)
  | .waitWake _, input, client => (input.woken, client)
  | .joinWorker _, input, client => (input.code, client)
  | .tick, input, client => (input.tick, client)
  | .clearError, _, client =>
      ((), { client with connection := { client.connection with error := "" } })
  | .getError, _, client => (client.connection.error, client)
  | .openConnection, input, client =>
      (input.code, { client with connection := { client.connection with
        opened := client.connection.opened || input.code == 0 } })
  | .closeConnection, _, client =>
      ((), { client with connection := { client.connection with opened := false } })
  | .login, input, client => (input.code, client.exchange input)
  | .sendEcm _, input, client => (input.code, client.exchange input)
  | .recvCw, input, client => ((input.code, input.words), client.exchange input)
  | .keepalive, input, client => (input.code, client.exchange input)

/-! ## The ledger -/

/-- How many services the client was given, and that count at the moment the
ECM in question was handed in: the pending ECM, the ECM of the exchange the
worker is in, and the ECMs that brought the stored words. `takenAt` is the count
at which the exchange began. -/
structure Ledger where
  services : Nat := 0
  pendingAt : Nat := 0
  askedAt : Nat := 0
  takenAt : Nat := 0
  evenAt : Nat := 0
  oddAt : Nat := 0

/-- The bookkeeping of one operation and its answer. -/
def Ledger.record (ledger : Ledger) : (operation : Op) → operation.Answer → Ledger
  | .setService .., _ => { ledger with services := ledger.services + 1 }
  | .submitEcm _, woken => if woken then { ledger with pendingAt := ledger.services } else ledger
  | .takePendingEcm, ecm =>
      if ecm = [] then ledger
      else { ledger with askedAt := ledger.pendingAt, takenAt := ledger.services }
  | .publishControlWords words _, _ =>
      { ledger with
        evenAt := if words.even ≠ zeroCw then ledger.askedAt else ledger.evenAt
        oddAt := if words.odd ≠ zeroCw then ledger.askedAt else ledger.oddAt }
  | _, _ => ledger

structure State where
  client : Client
  ledger : Ledger

/-- Every operation acts on the client alone; the ledger follows. -/
def machine : Machine signature State Input where
  exec operation input state :=
    let done := effect operation input state.client
    some (done.1, ⟨done.2, state.ledger.record operation done.1⟩)

def started : State := ⟨start, {}⟩

end Camd
