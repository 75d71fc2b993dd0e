import UsbDvbs2.Camd.Client
import UsbDvbs2.Concurrency.Threads

/-! # The worker and its callers

The worker's loop, one round at a time, and the public calls that any number of
other threads make on the same client. `camd` interleaves them at the sections
under the lock and the calls of the protocol's ops table.
-/

namespace Camd

open Concurrency Program ThreadSystem

abbrev op (operation : Op) : Code operation.Answer := perform (S := signature) operation

/-! ## The worker -/

/-- The worker's own variables; `running` is false once it has left its loop. -/
structure Worker where
  running : Bool
  loggedIn : Bool
  rejects : Nat
  lastTraffic : UInt64

def retryDelayMs : UInt32 := 2000
def keepaliveMs : UInt64 := 8000
def rejectsBeforeRotate : Nat := 3

def Proto.name : Proto → String
  | .newcamd => "newcamd"
  | .cs378x => "cs378x"

/-- `verifies_login`: only newcamd exchanges anything at login. -/
def Proto.verifiesLogin : Proto → Bool
  | .newcamd => true
  | .cs378x => false

def Proto.hasKeepalive : Proto → Bool
  | .newcamd => true
  | .cs378x => false

def setStatus (state : Progress) (text : String) : Code Unit := op (.setStatus state (some text))

/-- The protocol's own message when it left one. -/
def failure (state : Progress) (otherwise : String) : Code Unit := do
  let error : String ← op .getError
  setStatus state (if error = "" then otherwise else error)

def applyCandidate : Code Unit := do
  let pid : UInt16 ← op .applyCandidate
  op (.setActiveEcmPid pid)

def rotateCandidate : Code Unit := do
  let rotated : Bool ← op .rotateCandidate
  if rotated then applyCandidate else pure ()

/-- The end of the loop. -/
def leave (worker : Worker) : Code Worker := do
  op .closeConnection
  pure { worker with running := false }

/-- Wait before the next attempt to connect, unless the client is stopped. -/
def retryLater (worker : Worker) : Code Worker := do
  let woken : Bool ← op (.waitWake retryDelayMs)
  if woken then
    let stopped : Bool ← op .getStop
    if stopped then leave worker else pure worker
  else pure worker

def dropConnection (worker : Worker) : Code Worker := do
  op .closeConnection
  pure { worker with loggedIn := false }

/-- No ECM is waiting: wait for one, and keep the connection alive. -/
def idle (config : Config) (worker : Worker) : Code Worker := do
  let woken : Bool ← op (.waitWake 500)
  let stopped : Bool ← op .getStop
  if stopped then leave worker
  else if woken then pure worker
  else
    let now : UInt64 ← op .tick
    if keepaliveMs < now - worker.lastTraffic then
      let rc : Int ← if config.proto.hasKeepalive then op .keepalive else pure 0
      if rc < 0 then
        let dropped ← dropConnection worker
        setStatus .error "CAM connection dropped"
        pure dropped
      else
        let sent : UInt64 ← op .tick
        pure { worker with lastTraffic := sent }
    else pure worker

/-- The answer to the exchange's ECM, or what came instead. -/
def answered (worker : Worker) (started : UInt64) (rc : Int) (words : Words) : Code Worker := do
  if rc = 1 then
    let now : UInt64 ← op .tick
    op (.publishControlWords words (now - started).toUInt32)
    pure { worker with rejects := 0 }
  else
    op .countFailed
    if rc = 0 then
      failure .rejected "The card cannot decrypt this channel"
      if rejectsBeforeRotate ≤ worker.rejects + 1 then
        rotateCandidate
        pure { worker with rejects := 0 }
      else pure { worker with rejects := worker.rejects + 1 }
    else
      let dropped ← dropConnection worker
      failure .error "The CAM server did not answer"
      pure dropped

/-- Send one ECM and wait for its answer. -/
def exchangeEcm (worker : Worker) (ecm : List UInt8) : Code Worker := do
  op .clearError
  let started : UInt64 ← op .tick
  op .countSent
  let sent : Int ← op (.sendEcm ecm)
  if sent < 0 then
    let dropped ← dropConnection worker
    failure .error "ECM could not be sent"
    pure dropped
  else
    let reply : Int × Words ← op .recvCw
    let now : UInt64 ← op .tick
    answered { worker with lastTraffic := now } started reply.1 reply.2

def serveEcm (config : Config) (worker : Worker) : Code Worker := do
  let ecm : List UInt8 ← op .takePendingEcm
  if ecm = [] then idle config worker else exchangeEcm worker ecm

def Config.unreachable (config : Config) : String :=
  s!"Could not connect to the CAM server ({config.host}:{config.port})"

def loggedInStatus (proto : Proto) : Code Unit :=
  if proto.verifiesLogin then setStatus .connected s!"CAM connected ({proto.name})"
  else setStatus .connecting s!"Connected to the CAM server, waiting for a reply ({proto.name})"

def connect (config : Config) (worker : Worker) : Code Worker := do
  setStatus .connecting "Connecting to the CAM server"
  op .clearError
  let opened : Int ← op .openConnection
  if opened ≠ 0 then
    setStatus .error config.unreachable
    retryLater worker
  else
    let rc : Int ← op .login
    if rc ≠ 1 then
      failure .error "CAM login failed"
      op .closeConnection
      retryLater worker
    else
      let now : UInt64 ← op .tick
      loggedInStatus config.proto
      op .setWake
      serveEcm config { worker with loggedIn := true, rejects := 0, lastTraffic := now }

/-- One round of the loop of `camd_worker`. -/
def camdWorker (config : Config) (worker : Worker) : Code Worker := do
  let stopped : Bool ← op .getStop
  if stopped then leave worker
  else if worker.loggedIn then serveEcm config worker
  else connect config worker

/-! ## The callers -/

inductive Call where
  | setService (serviceId : UInt16) (candidates : List Candidate)
  | submitEcm (ecm : List UInt8)
  | getKeys
  | ecmPid
  | getStatus
  | stop

def setService (serviceId : UInt16) (candidates : List Candidate) : Code Unit := do
  op (.setService serviceId candidates)
  applyCandidate

def submitEcm (ecm : List UInt8) : Code Unit := do
  if isEcm ecm then
    let wake : Bool ← op (.submitEcm ecm)
    if wake then op .setWake else pure ()
  else pure ()

def stopWorker : Code Unit := do
  op .setStop
  op .setWake
  let first : Int ← op (.joinWorker 200)
  if first ≠ 0 then
    op .closeConnection
    let second : Int ← op (.joinWorker 3000)
    if second ≠ 0 then
      let _ ← op (.joinWorker 14000)
      pure ()
    else pure ()
  else pure ()

def Call.code : Call → Code Unit
  | .setService serviceId candidates => Camd.setService serviceId candidates
  | .submitEcm ecm => Camd.submitEcm ecm
  | .getKeys => do
      let _ ← op .getKeys
      pure ()
  | .ecmPid => do
      let _ ← op .getActiveEcmPid
      pure ()
  | .getStatus => do
      let _ ← op .getStatus
      pure ()
  | .stop => stopWorker

/-- The worker, and any number of callers. -/
inductive Party where
  | worker
  | caller (index : Nat)
  deriving DecidableEq

abbrev Party.Command : Party → Type
  | .worker => Unit
  | .caller _ => Call

abbrev Party.Locals : Party → Type
  | .worker => Worker
  | .caller _ => Unit

def Party.body (config : Config) :
    (party : Party) → party.Command → party.Locals → Option (Code party.Locals)
  | .worker, _, state => if state.running then some (camdWorker config state) else none
  | .caller _, call, _ => some call.code

abbrev camd (config : Config) : ThreadSystem signature State Input Party where
  machine := machine
  Command := Party.Command
  Locals := Party.Locals
  body := Party.body config

/-- The client just started, its worker about to enter the loop. -/
def launched (config : Config) (now : UInt64) : (camd config).Config where
  shared := started
  phase := fun
    | .worker => .idle ⟨true, false, 0, now⟩
    | .caller _ => .idle ()

end Camd
