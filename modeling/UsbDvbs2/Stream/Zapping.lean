import UsbDvbs2.Concurrency.Walk
import UsbDvbs2.Stream.Reader

/-! # Changing the channel under the stream thread

The command thread announces a channel in three steps: the pid group, the epoch,
the parked CAM client. The stream thread goes round its loop, and the client's
worker publishes words. A chronicle beside the shared variables remembers which
group every epoch announced, how many clients were parked, and what was read
since the current epoch was adopted.
-/

namespace Stream

open Camd Concurrency Engine Program

inductive Op where
  -- the command thread
  | writeGroup (channel : Channel)
  | incEpoch
  | park (service : UInt16)
  | unpublishCamd
  | publishCamd
  -- the stream thread
  | getTuned
  | copyGroup
  | epochChanged
  | adoptEpoch
  | readUsb
  | refreshKeys
  | decryptRun (packets : List Packet)
  | processRead (packets : List Packet)
  -- the CAM client's worker
  | publishWords (words : Words) (latencyMs : UInt32)

abbrev Op.Answer : Op → Type
  | .getTuned | .epochChanged | .decryptRun _ => Bool
  | .readUsb => Option (List Packet)
  | _ => Unit

abbrev signature : Signature := ⟨Op, Op.Answer⟩

abbrev Code (α : Type) : Type := Program signature α

abbrev op (operation : Op) : Code operation.Answer := perform (S := signature) operation

/-! ## The state -/

/-- The shared variables and the stream thread's own. -/
structure Desk where
  group : Group
  epoch : UInt32
  camd : Option Client
  reader : Reader

structure Chronicle where
  /-- the group behind the latest epoch, and how many epochs there were -/
  announced : Group
  announcements : Nat
  /-- how many of them have parked the client -/
  parks : Nat
  /-- what the stream thread adopted -/
  adopted : Group
  adoptedAt : Nat
  /-- the thread has gone round its loop since -/
  settled : Bool
  /-- the parks before the installed keys were fetched -/
  keysAt : Nat
  /-- the sections acted on and the lists handed over since the adoption -/
  sections : List (List UInt8)
  handed : List (UInt16 × List Candidate)

structure State where
  desk : Desk
  chronicle : Chronicle

/-- A refresh finds keys to install. -/
def Desk.installs (desk : Desk) : Bool :=
  desk.camd.any fun client => desk.reader.keys.installs client.getKeys

def State.work (state : State) : Work :=
  ⟨state.desk.reader.resolve, state.desk.camd, state.chronicle.sections, state.chronicle.handed⟩

/-- What the receiver and the libraries contribute. -/
structure Input where
  tuned : Bool := true
  read : Option (List Packet) := none

def effect : (operation : Op) → Input → State → operation.Answer × State
  | .writeGroup channel, _, state =>
      ((), { state with desk := { state.desk with group := groupOf channel } })
  | .incEpoch, _, state =>
      ((), { desk := { state.desk with epoch := state.desk.epoch + 1 }
             chronicle := { state.chronicle with
               announced := state.desk.group
               announcements := state.chronicle.announcements + 1 } })
  | .park service, _, state =>
      ((), { desk := { state.desk with camd := state.desk.camd.map (setService service []) }
             chronicle := { state.chronicle with parks := state.chronicle.parks + 1 } })
  | .unpublishCamd, _, state => ((), { state with desk := { state.desk with camd := none } })
  | .publishCamd, _, state => ((), { state with desk := { state.desk with camd := some start } })
  | .getTuned, input, state => (input.tuned, state)
  | .copyGroup, _, state =>
      ((), { desk := { state.desk with
               reader := { state.desk.reader with here := state.desk.group } }
             chronicle := { state.chronicle with settled := true } })
  | .epochChanged, _, state => (state.desk.epoch != state.desk.reader.epoch, state)
  | .adoptEpoch, _, state =>
      ((), { desk := { state.desk with reader := state.desk.reader.adopt state.desk.epoch }
             chronicle := { state.chronicle with
               adopted := state.chronicle.announced
               adoptedAt := state.chronicle.announcements
               settled := false
               sections := []
               handed := [] } })
  | .readUsb, input, state => (input.read, state)
  | .refreshKeys, _, state =>
      ((), { desk := { state.desk with reader := state.desk.reader.refresh state.desk.camd }
             chronicle := { state.chronicle with
               keysAt := if state.desk.installs then state.chronicle.parks
                 else state.chronicle.keysAt } })
  | .decryptRun packets, _, state =>
      (state.desk.reader.keys.decrypts && !packets.isEmpty, state)
  | .processRead packets, _, state =>
      let work := packets.foldl Work.packet state.work
      ((), { desk := { state.desk with reader := work.reader, camd := work.camd }
             chronicle := { state.chronicle with
               sections := work.sections, handed := work.handed } })
  | .publishWords words latencyMs, _, state =>
      ((), { state with desk := { state.desk with
        camd := state.desk.camd.map (·.publishControlWords words latencyMs) } })

def machine : Machine signature State Input where
  exec operation input state := some (effect operation input state)

/-! ## The threads -/

/-- The commands that the stream thread notices. -/
inductive Call where
  | setChannel (channel : Channel)
  | camd (enabled : Bool)

def setChannel (channel : Channel) : Code Unit := do
  op (.writeGroup channel)
  op .incEpoch
  op (.park channel.service)

/-- `camd_apply_config` for a configured client. -/
def camdApplyConfig (enabled : Bool) : Code Unit := do
  op .unpublishCamd
  if enabled then op .publishCamd else pure ()

def Call.code : Call → Code Unit
  | .setChannel channel => Stream.setChannel channel
  | .camd enabled => camdApplyConfig enabled

/-- A read that brought packets: keys, descrambling, and the packets. -/
def handleRead (packets : List Packet) : Code Unit := do
  op .refreshKeys
  let _ ← op (.decryptRun packets)
  op (.processRead packets)

/-- Once round the loop of `daemon_stream_thread`. -/
def iteration : Code Unit := do
  let tuned : Bool ← op .getTuned
  if tuned then
    op .copyGroup
    let changed : Bool ← op .epochChanged
    if changed then op .adoptEpoch else pure ()
    let read : Option (List Packet) ← op .readUsb
    match read with
    | some packets => handleRead packets
    | none => pure ()
  else pure ()

inductive Thread where
  | command
  | stream
  | worker
  deriving DecidableEq

abbrev Thread.Command : Thread → Type
  | .command => Call
  | .stream => Unit
  | .worker => Words × UInt32

def Thread.body : (thread : Thread) → thread.Command → Unit → Option (Code Unit)
  | .command, call, _ => some call.code
  | .stream, _, _ => some iteration
  | .worker, answer, _ => some (op (.publishWords answer.1 answer.2))

abbrev zapping : ThreadSystem signature State Input Thread where
  machine := machine
  Command := Thread.Command
  Locals := fun _ => Unit
  body := Thread.body

/-- The engine with some channel in its group and perhaps a client, the stream
thread about to start. -/
def zapped (group : Group) (camd : Option Client) : zapping.Config where
  shared :=
    { desk := ⟨group, 0, camd, .fresh⟩
      chronicle := ⟨group, 0, 0, group, 0, true, 0, [], []⟩ }
  phase := fun _ => .idle ()

/-- A packet filled up with stuffing. -/
def Packet.stuffed (bytes : List UInt8) (fits : bytes.length ≤ 188) : Packet where
  bytes := bytes ++ .replicate (188 - bytes.length) 0xff
  size := by
    rw [List.length_append, List.length_replicate]
    omega

/-- A transition of the stream system. -/
abbrev Zap : Type := Moved zapping.Config zapping.Event

theorem zapping_step_cases {moved : Zap}
    (step : zapping.Step moved.before moved.event moved.after) :
    (moved.after.shared = moved.before.shared ∧
      ∀ thread performed, moved.event ≠ .perform thread performed) ∨
    ∃ thread operation input, moved.event =
        .perform thread ⟨operation, (effect operation input moved.before.shared).1⟩ ∧
      moved.after.shared = (effect operation input moved.before.shared).2 := by
  rcases step.shared_cases with still | ⟨thread, operation, input, answer, event, performed⟩
  · exact .inl still
  · obtain ⟨rfl, same⟩ := Prod.mk.inj (Option.some.inj performed)
    exact .inr ⟨thread, operation, input, event, same.symm⟩

end Stream
