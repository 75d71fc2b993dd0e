import UsbDvbs2.Camd.Worker
import UsbDvbs2.Concurrency.Ledger
import UsbDvbs2.Concurrency.Walk
import UsbDvbs2.Stream.Psi

/-! # The CAM client on loan

The command thread replaces the CAM client, and the stream thread calls whatever client
it copied from `g_camd`: the lock covers the copy and nothing after it. A client is named
by its place among those started, and what a call answers is part of the operation's
input, whether or not the client is still there.
-/

namespace Lending

open Camd Concurrency Program ThreadSystem

abbrev ClientId : Type := Nat

inductive Op where
  | lockCamd
  | unlockCamd
  | getCamd
  | setCamd (camd : Option ClientId)
  | setConfig (config : Config)
  | setConfigured (configured : Bool)
  | getConfigured
  | camdAvailable
  | startCamd
  /-- an operation on a client, of either thread -/
  | client (camd : ClientId) (operation : Camd.Op)
  -- how `dtv_camd_stop` ends
  | detachWorker (camd : ClientId)
  | free (camd : ClientId)
  -- what the stream thread goes by
  | pollDue
  | bissTry

abbrev Op.Answer : Op → Type
  | .getCamd | .startCamd => Option ClientId
  | .getConfigured | .camdAvailable | .pollDue => Bool
  | .client _ operation => operation.Answer
  | .bissTry => Option (UInt16 × UInt16)
  | _ => Unit

abbrev signature : Signature := ⟨Op, Op.Answer⟩

abbrev Code (α : Type) : Type := Program signature α

abbrev op (operation : Op) : Code operation.Answer := perform (S := signature) operation

/-- The engine's variables, and which clients were started and stopped. -/
structure State where
  locked : Bool
  camd : Option ClientId
  config : Config
  configured : Bool
  started : Nat
  stopped : List ClientId

structure Input where
  answer : (operation : Camd.Op) → operation.Answer := fun operation =>
    (effect operation {} start).1
  available : Bool := true
  starts : Bool := true
  due : Bool := false
  biss : Option (UInt16 × UInt16) := none

/-- Nobody gets the lock while it is taken; a client needs a host and a port. -/
def exec : (operation : Op) → Input → State → Option (operation.Answer × State)
  | .lockCamd, _, state => if state.locked then none else some ((), { state with locked := true })
  | .unlockCamd, _, state => some ((), { state with locked := false })
  | .getCamd, _, state => some (state.camd, state)
  | .setCamd camd, _, state => some ((), { state with camd })
  | .setConfig config, _, state => some ((), { state with config })
  | .setConfigured configured, _, state => some ((), { state with configured })
  | .getConfigured, _, state => some (state.configured, state)
  | .camdAvailable, input, state => some (input.available, state)
  | .startCamd, input, state =>
      if state.config.host ≠ "" ∧ state.config.port ≠ 0 ∧ input.starts = true then
        some (some state.started, { state with started := state.started + 1 })
      else some (none, state)
  | .client _ operation, input, state => some (input.answer operation, state)
  | .detachWorker camd, _, state => some ((), { state with stopped := camd :: state.stopped })
  | .free camd, _, state => some ((), { state with stopped := camd :: state.stopped })
  | .pollDue, input, state => some (input.due, state)
  | .bissTry, input, state => some (input.biss, state)

def machine : Machine signature State Input := ⟨exec⟩

/-! ## The calls -/

/-- Code of the client's own, run on one of the clients. -/
def calling {α : Type} (camd : ClientId) : Camd.Code α → Code α
  | .done value => .done value
  | .step operation next =>
      .step (Op.client camd operation) fun answer => calling camd (next answer)

def camdAcquire : Code (Option ClientId) := do
  op .lockCamd
  let camd : Option ClientId ← op .getCamd
  op .unlockCamd
  pure camd

/-- Run code with the client, if there is one. -/
def withCamd (code : ClientId → Code Unit) : Code Unit := do
  let camd : Option ClientId ← camdAcquire
  match camd with
  | some camd => code camd
  | none => pure ()

def setService (service : UInt16) (candidates : List Candidate) (camd : ClientId) : Code Unit :=
  calling camd (Camd.setService service candidates)

def submitEcm (ecm : List UInt8) (camd : ClientId) : Code Unit :=
  calling camd (Camd.submitEcm ecm)

/-- Wait for the worker to end; the socket is closed under it if it takes its time. -/
def joinWorker (camd : ClientId) : Code Int := do
  let first : Int ← op (.client camd (.joinWorker 200))
  if first ≠ 0 then
    op (.client camd .closeConnection)
    let second : Int ← op (.client camd (.joinWorker 3000))
    if second ≠ 0 then op (.client camd (.joinWorker 14000)) else pure second
  else pure first

/-- A worker inside a call that does not return keeps the client. -/
def dtvCamdStop (camd : ClientId) : Code Unit := do
  op (.client camd .setStop)
  op (.client camd .setWake)
  let joined : Int ← joinWorker camd
  if joined ≠ 0 then op (.detachWorker camd) else op (.free camd)

/-- The client in place is taken out and stopped, outside the lock. -/
def retireCamd : Code Unit := do
  op .lockCamd
  let previous : Option ClientId ← op .getCamd
  op (.setCamd none)
  op .unlockCamd
  match previous with
  | some camd => dtvCamdStop camd
  | none => pure ()

def publishCamd : Code Unit := do
  let camd : Option ClientId ← op .startCamd
  op .lockCamd
  op (.setCamd camd)
  op .unlockCamd

def camdApplyConfig (enabled : Bool) : Code Unit := do
  retireCamd
  let configured : Bool ← op .getConfigured
  if enabled && configured then
    let available : Bool ← op .camdAvailable
    if available then publishCamd else pure ()
  else pure ()

/-! ## The two threads -/

/-- The commands that concern the client. -/
inductive Call where
  | openEngine (config : Option Config)
  | setCamd (config : Option Config)
  | setChannel (service : UInt16)
  | getStatus
  | closeEngine

def configure (config : Config) : Code Unit := do
  op (.setConfig config)
  op (.setConfigured true)

/-- The client's part of `usb_dvbs2_engine_open`. -/
def openCamd (config : Option Config) : Code Unit := do
  config.elim (pure ()) configure
  let configured : Bool ← op .getConfigured
  if configured then camdApplyConfig true else pure ()

def Call.code : Call → Code Unit
  | .openEngine config => openCamd config
  | .setCamd none => do
      op (.setConfigured false)
      camdApplyConfig false
  | .setCamd (some config) => do
      configure config
      camdApplyConfig true
  | .setChannel service => withCamd (setService service [])
  | .getStatus => withCamd fun camd => do
      let _ ← op (.client camd .getStatus)
      pure ()
  | .closeEngine => camdApplyConfig false

/-- Where the stream thread borrows the client: before every read, at a complete section
on the ECM pid, and at a PMT. -/
inductive Visit where
  | refresh
  | ecm (sec : List UInt8)
  | pmt (service : UInt16) (candidates : List Candidate)

/-- `dtv_camd_build_biss_ecm`. -/
def buildBissEcm (service pid : UInt16) : List UInt8 :=
  [0x80, 0x70, 0x04, (service >>> 8).toUInt8, service.toUInt8, (pid >>> 8).toUInt8, pid.toUInt8]

/-- The status for the UI; for BISS the ECM is made here. -/
def pollStatus (camd : ClientId) : Code Unit := do
  let status : Status ← op (.client camd .getStatus)
  let attempt : Option (UInt16 × UInt16) ← op .bissTry
  match attempt with
  | some (service, pid) =>
      if Stream.isBiss status.caSystemId then submitEcm (buildBissEcm service pid) camd
      else pure ()
  | none => pure ()

def refresh (camd : ClientId) : Code Unit := do
  let _ ← op (.client camd .getActiveEcmPid)
  let _ ← op (.client camd .getKeys)
  let due : Bool ← op .pollDue
  if due then pollStatus camd else pure ()

def namePmt (service : UInt16) (candidates : List Candidate) (camd : ClientId) : Code Unit := do
  setService service candidates camd
  let _ ← op (.client camd .getActiveEcmPid)
  pure ()

def Visit.code : Visit → Code Unit
  | .refresh => withCamd Lending.refresh
  | .ecm sec => withCamd (submitEcm sec)
  | .pmt service candidates => withCamd (namePmt service candidates)

inductive Thread where
  | command
  | stream
  deriving DecidableEq

abbrev Thread.Command : Thread → Type
  | .command => Call
  | .stream => Visit

def Thread.body : (thread : Thread) → thread.Command → Unit → Option (Code Unit)
  | .command, call, _ => some call.code
  | .stream, visit, _ => some visit.code

abbrev lending : ThreadSystem signature State Input Thread where
  machine := machine
  Command := Thread.Command
  Locals := fun _ => Unit
  body := Thread.body

/-- No client yet, whatever is configured. -/
def opened (config : Config) (configured : Bool) : lending.Config where
  shared := ⟨false, none, config, configured, 0, []⟩
  phase := fun _ => .idle ()

/-! ## What a run may do -/

/-- The operation is performed on this client. -/
def Op.Uses (camd : ClientId) (operation : Op) : Prop := ∃ inner, operation = .client camd inner

/-- `dtv_camd_stop` of this client is over. -/
def Op.Stops (camd : ClientId) (operation : Op) : Prop :=
  operation = .free camd ∨ operation = .detachWorker camd

/-- Nobody is given this client. -/
def Withholds (camd : ClientId) : (operation : Op) → operation.Answer → Prop
  | .getCamd, answer => answer ≠ some camd
  | _, _ => True

/-- A transition of the two threads. -/
abbrev Lent : Type := Moved lending.Config lending.Event

/-- When the stop of a client is over, the stream thread has no operation on it left from
a copy of the pointer it has already made. -/
def Spares (moved : Lent) : Prop :=
  ∀ thread performed camd, moved.event = .perform thread performed → performed.1.Stops camd →
    moved.before.Avoids .stream (Op.Uses camd) (Withholds camd)

/-- Clients are used only as long as their stop is not over. -/
def UsesRunning (moved : Lent) : Prop :=
  ∀ thread performed camd, moved.event = .perform thread performed → performed.1.Uses camd →
    camd ∉ moved.before.shared.stopped

/-! ### The stream thread -/

section Stream

variable {camd : ClientId}

theorem avoids_calling {α : Type} {other : ClientId} (different : other ≠ camd)
    (code : Camd.Code α) : (calling other code).Avoids (Op.Uses camd) (Withholds camd) := by
  induction code with
  | done value => trivial
  | step operation next ih =>
      refine ⟨?_, fun answer _ => ih answer⟩
      rintro ⟨inner, same⟩
      exact different (Op.client.inj same).1

theorem avoids_client {other : ClientId} (different : other ≠ camd) (operation : Camd.Op) :
    (op (.client other operation)).Avoids (Op.Uses camd) (Withholds camd) :=
  avoids_calling different (Camd.op operation)

theorem avoids_of_free {operation : Op} (free : ∀ camd inner, operation ≠ .client camd inner) :
    (op operation).Avoids (Op.Uses camd) (Withholds camd) := by
  rw [avoids_perform]
  exact fun ⟨inner, same⟩ => free camd inner same

theorem avoids_refresh {other : ClientId} (different : other ≠ camd) :
    (refresh other).Avoids (Op.Uses camd) (Withholds camd) := by
  apply (avoids_client different .getActiveEcmPid).bind
  intro pid
  apply (avoids_client different .getKeys).bind
  intro keys
  apply (avoids_of_free nofun : (op .pollDue).Avoids _ _).bind
  intro due
  refine Avoids.ite (fun _ => ?_) fun _ => avoids_done _
  apply (avoids_client different .getStatus).bind
  intro status
  apply (avoids_of_free nofun : (op .bissTry).Avoids _ _).bind
  intro attempt
  cases attempt with
  | none => exact avoids_done _
  | some attempt => exact Avoids.ite (fun _ => avoids_calling different _) fun _ => avoids_done _

/-- What is done with the client is done with the one that was given. -/
theorem avoids_withCamd {code : ClientId → Code Unit}
    (avoids : ∀ other, other ≠ camd → (code other).Avoids (Op.Uses camd) (Withholds camd)) :
    (withCamd code).Avoids (Op.Uses camd) (Withholds camd) := by
  refine ⟨fun ⟨inner, same⟩ => (nomatch same), fun _ _ => ?_⟩
  refine ⟨fun ⟨inner, same⟩ => (nomatch same), fun given withheld => ?_⟩
  refine ⟨fun ⟨inner, same⟩ => (nomatch same), fun _ _ => ?_⟩
  cases given with
  | none => exact avoids_done _
  | some other => exact avoids other fun same => withheld (congrArg some same)

/-- A visit uses only the client that it is given. -/
theorem Visit.avoids (visit : Visit) :
    visit.code.Avoids (Op.Uses camd) (Withholds camd) := by
  cases visit with
  | refresh => exact avoids_withCamd fun _ => avoids_refresh
  | ecm sec => exact avoids_withCamd fun _ different => avoids_calling different _
  | pmt service candidates =>
      exact avoids_withCamd fun _ different =>
        (avoids_calling different _).bind fun _ =>
          (avoids_client different _).bind fun _ => avoids_done _

end Stream

/-! ### The command thread -/

/-- What the command thread has in hand. -/
structure Hand where
  /-- the client it was given and has not stopped -/
  lent : Option ClientId := none
  /-- it has written `g_camd` since -/
  cleared : Bool := false
  made : Option ClientId := none

def Hand.write (hand : Hand) : Performed signature → Hand
  | ⟨.getCamd, camd⟩ => ⟨camd, false, none⟩
  | ⟨.setCamd _, _⟩ => { hand with cleared := true }
  | ⟨.startCamd, camd⟩ => { hand with made := camd }
  | ⟨.free _, _⟩ | ⟨.detachWorker _, _⟩ => { hand with lent := none }
  | _ => hand

/-- The command thread uses the client it was given, stops it after it took it out, and
puts in the one it started; the stream thread does not manage clients. -/
def Hand.Allows (hand : Hand) : Thread → Op → Prop
  | .command, .client camd _ => hand.lent = some camd
  | .command, .free camd | .command, .detachWorker camd =>
      hand.lent = some camd ∧ hand.cleared = true
  | .command, .setCamd camd => camd = none ∨ camd = hand.made ∧ hand.lent = none
  | .command, .startCamd => hand.lent = none
  | .stream, .free _ | .stream, .detachWorker _ | .stream, .setCamd _ | .stream, .startCamd =>
      False
  | _, _ => True

def hands (thread : Thread) : Rules signature Hand :=
  ⟨Hand.write, fun hand => hand.Allows thread⟩

section Command

variable {α β : Type} {thread : Thread} {hand : Hand} {camd : ClientId}

/-- Whatever code runs on the client in hand, it stays in hand. -/
theorem obeys_calling {post : Hand → α → Prop} (code : Camd.Code α)
    (allowed : ∀ operation, hand.Allows thread (.client camd operation))
    (ends : ∀ value, post hand value) : (calling camd code).Obeys (hands thread) post hand := by
  induction code with
  | done value => exact ends value
  | step operation next ih => exact ⟨allowed operation, fun answer => ih answer⟩

theorem obeys_withCamd {code : ClientId → Code Unit}
    (obeys : ∀ camd hand, hand.lent = some camd →
      (code camd).Obeys (hands thread) (fun _ _ => True) hand) :
    (withCamd code).Obeys (hands thread) (fun _ _ => True) hand := by
  have free : ∀ operation, operation = .lockCamd ∨ operation = .unlockCamd ∨
      operation = .getCamd → ∀ hand : Hand, hand.Allows thread operation := by
    rintro _ (rfl | rfl | rfl) hand <;> cases thread <;> trivial
  refine ⟨free _ (.inl rfl) _, fun _ => ⟨free _ (.inr (.inr rfl)) _, fun given =>
    ⟨free _ (.inr (.inl rfl)) _, fun _ => ?_⟩⟩⟩
  cases given with
  | none => trivial
  | some other => exact obeys other _ rfl

theorem obeys_client {post : Hand → β → Prop} {operation : Camd.Op}
    {rest : operation.Answer → Code β} (here : hand.lent = some camd)
    (later : ∀ answer, (rest answer).Obeys (hands .command) post hand) :
    (op (.client camd operation) >>= rest).Obeys (hands .command) post hand := ⟨here, later⟩

theorem obeys_joinWorker {post : Hand → Int → Prop} (here : hand.lent = some camd)
    (ends : ∀ value, post hand value) :
    (joinWorker camd).Obeys (hands .command) post hand := by
  apply obeys_client here
  intro first
  refine .ite (fun _ => ?_) fun _ => ends first
  apply obeys_client here
  intro closed
  apply obeys_client here
  intro second
  exact .ite (fun _ => ⟨here, ends⟩) fun _ => ends second

theorem obeys_dtvCamdStop (here : hand.lent = some camd) (cleared : hand.cleared = true) :
    (dtvCamdStop camd).Obeys (hands .command) (fun hand _ => hand.lent = none) hand := by
  apply obeys_client here
  intro signalled
  apply obeys_client here
  intro woken
  refine .bind (obeys_joinWorker here fun joined => ?_)
  exact .ite (fun _ => ⟨⟨here, cleared⟩, fun _ => rfl⟩) fun _ => ⟨⟨here, cleared⟩, fun _ => rfl⟩

theorem obeys_retireCamd :
    retireCamd.Obeys (hands .command) (fun hand _ => hand.lent = none) hand := by
  refine ⟨trivial, fun locked => ?_⟩
  refine ⟨trivial, fun previous => ?_⟩
  refine ⟨.inl rfl, fun cleared => ?_⟩
  refine ⟨trivial, fun unlocked => ?_⟩
  cases previous with
  | none => exact (rfl : Option.none = Option.none)
  | some camd => exact obeys_dtvCamdStop rfl rfl

theorem obeys_publishCamd (free : hand.lent = none) :
    publishCamd.Obeys (hands .command) (fun _ _ => True) hand := by
  refine ⟨free, fun made => ?_⟩
  exact ⟨trivial, fun _ => ⟨.inr ⟨rfl, free⟩, fun _ => ⟨trivial, fun _ => trivial⟩⟩⟩

theorem obeys_camdApplyConfig (enabled : Bool) :
    (camdApplyConfig enabled).Obeys (hands .command) (fun _ _ => True) hand := by
  refine .bind (obeys_retireCamd.mono fun hand _ free => ?_)
  refine ⟨trivial, fun configured => ?_⟩
  refine .ite (fun _ => ?_) fun _ => trivial
  refine ⟨trivial, fun available => ?_⟩
  exact .ite (fun _ => obeys_publishCamd free) fun _ => trivial

theorem Call.obeys (call : Call) : call.code.Obeys (hands .command) (fun _ _ => True) hand := by
  have started : ∀ hand : Hand, (openCamd none).Obeys (hands .command) (fun _ _ => True) hand :=
    fun hand => ⟨trivial, fun _ => .ite (fun _ => obeys_camdApplyConfig true) fun _ => trivial⟩
  cases call with
  | openEngine config =>
      cases config with
      | none => exact started hand
      | some config => exact ⟨trivial, fun _ => ⟨trivial, fun _ => started hand⟩⟩
  | setCamd config =>
      cases config with
      | none => exact ⟨trivial, fun _ => obeys_camdApplyConfig false⟩
      | some config => exact ⟨trivial, fun _ => ⟨trivial, fun _ => obeys_camdApplyConfig true⟩⟩
  | setChannel service =>
      exact obeys_withCamd fun camd hand here => obeys_calling _ (fun _ => here) fun _ => trivial
  | getStatus => exact obeys_withCamd fun camd hand here => ⟨here, fun _ => trivial⟩
  | closeEngine => exact obeys_camdApplyConfig false

/-- The stream thread does not manage clients. -/
theorem Visit.obeys (visit : Visit) : visit.code.Obeys (hands .stream) (fun _ _ => True) hand := by
  cases visit with
  | refresh =>
      refine obeys_withCamd fun camd hand _ =>
        ⟨trivial, fun _ => ⟨trivial, fun _ => ⟨trivial, fun due => ?_⟩⟩⟩
      refine .ite (fun _ => ⟨trivial, fun status => ⟨trivial, fun attempt => ?_⟩⟩) fun _ => trivial
      cases attempt with
      | none => trivial
      | some attempt =>
          exact .ite (fun _ => obeys_calling _ (fun _ => trivial) fun _ => trivial) fun _ => trivial
  | ecm sec => exact obeys_withCamd fun _ _ _ => obeys_calling _ (fun _ => trivial) fun _ => trivial
  | pmt service candidates =>
      exact obeys_withCamd fun _ _ _ =>
        .bind (obeys_calling _ (fun _ => trivial) fun _ => ⟨trivial, fun _ => trivial⟩)

end Command

/-! ### Both threads -/

/-- The client was started, and its stop is not over. -/
def State.Runs (state : State) (camd : ClientId) : Prop :=
  camd < state.started ∧ camd ∉ state.stopped

/-- No stopped client is in `g_camd` or in the hand of the command thread. -/
structure Hand.Sound (hand : Hand) (state : State) : Prop where
  published : ∀ camd, state.camd = some camd → state.Runs camd
  lent : ∀ camd, hand.lent = some camd → state.Runs camd
  cleared : hand.cleared = true → ∀ camd, hand.lent = some camd → state.camd ≠ some camd
  made : ∀ camd, hand.made = some camd → hand.lent = none ∧ state.Runs camd
  stopped : ∀ camd ∈ state.stopped, camd < state.started

variable {hand : Hand} {state next : State}

theorem State.Runs.stop {camd other : ClientId} (runs : state.Runs camd)
    (different : camd ≠ other) :
    ({ state with stopped := other :: state.stopped } : State).Runs camd :=
  ⟨runs.1, fun inside => (List.mem_cons.1 inside).elim different runs.2⟩

theorem State.Runs.start {camd : ClientId} (runs : state.Runs camd) :
    ({ state with started := state.started + 1 } : State).Runs camd :=
  ⟨Nat.lt_succ_of_lt runs.1, runs.2⟩

/-- The client in hand is stopped; it is not in `g_camd` any more. -/
theorem Hand.Sound.stop {camd : ClientId} (sound : hand.Sound state)
    (here : hand.lent = some camd) (cleared : hand.cleared = true) :
    ({ hand with lent := none } : Hand).Sound
      { state with stopped := camd :: state.stopped } where
  published other holds := (sound.published other holds).stop fun same =>
    sound.cleared cleared camd here (same ▸ holds)
  lent := nofun
  cleared := fun _ => nofun
  made other holds := nomatch here.symm.trans (sound.made other holds).1
  stopped := List.forall_mem_cons.2 ⟨(sound.lent camd here).1, sound.stopped⟩

/-- The next client is started with none in hand. -/
theorem Hand.Sound.start (sound : hand.Sound state) (free : hand.lent = none) :
    ({ hand with made := some state.started } : Hand).Sound
      { state with started := state.started + 1 } where
  published other holds := (sound.published other holds).start
  lent other holds := (sound.lent other holds).start
  cleared := sound.cleared
  made := by
    rintro _ ⟨⟩
    exact ⟨free, Nat.lt_succ_self _, fun inside => Nat.lt_irrefl _ (sound.stopped _ inside)⟩
  stopped other inside := Nat.lt_succ_of_lt (sound.stopped other inside)

/-- The operations that manage clients. -/
def Op.Manages : Op → Prop
  | .setCamd _ | .startCamd | .free _ | .detachWorker _ => True
  | _ => False

/-- No other operation changes `g_camd` or which clients there are. -/
theorem exec_frame {operation : Op} {input : Input} {answer : operation.Answer}
    (performed : exec operation input state = some (answer, next))
    (other : ¬ operation.Manages) :
    next.camd = state.camd ∧ next.started = state.started ∧ next.stopped = state.stopped := by
  cases operation with
  | lockCamd =>
      simp only [exec, Option.ite_none_left_eq_some, Option.some.injEq, Prod.mk.injEq] at performed
      obtain ⟨_, _, rfl⟩ := performed
      exact ⟨rfl, rfl, rfl⟩
  | setCamd | startCamd | free | detachWorker => exact (other trivial).elim
  | unlockCamd | getCamd | setConfig | setConfigured | getConfigured | camdAvailable | client
  | pollDue | bissTry =>
      cases performed
      exact ⟨rfl, rfl, rfl⟩

theorem Hand.Sound.frame {operation : Op} {input : Input} {answer : operation.Answer}
    (sound : hand.Sound state) (performed : exec operation input state = some (answer, next))
    (other : ¬ operation.Manages) : hand.Sound next := by
  obtain ⟨camd, started, stopped⟩ := exec_frame performed other
  have runs : ∀ {client : ClientId}, state.Runs client → next.Runs client := by
    intro client runs
    rwa [State.Runs, started, stopped]
  exact {
    published := fun client holds => runs (sound.published client (camd.symm.trans holds))
    lent := fun client holds => runs (sound.lent client holds)
    cleared := fun cleared client holds published =>
      sound.cleared cleared client holds (camd.symm.trans published)
    made := fun client holds => (sound.made client holds).imp_right runs
    stopped := fun client inside => by
      rw [started]
      exact sound.stopped client (stopped ▸ inside) }

theorem Hand.Sound.command_performs {operation : Op} {input : Input}
    {answer : operation.Answer} (sound : hand.Sound state)
    (allowed : hand.Allows .command operation)
    (performed : exec operation input state = some (answer, next)) :
    (hand.write ⟨operation, answer⟩).Sound next := by
  cases operation with
  | getCamd =>
      cases performed
      exact ⟨sound.published, sound.published, nofun, nofun, sound.stopped⟩
  | setCamd camd =>
      cases performed
      rcases allowed with rfl | ⟨rfl, free⟩
      · exact ⟨nofun, sound.lent, fun _ _ _ => nofun, sound.made, sound.stopped⟩
      · exact ⟨fun camd holds => (sound.made camd holds).2, sound.lent,
          fun _ camd holds => (nomatch free.symm.trans holds), sound.made, sound.stopped⟩
  | startCamd =>
      rw [exec] at performed
      split at performed
      · cases performed
        exact sound.start allowed
      · cases performed
        exact ⟨sound.published, sound.lent, sound.cleared, nofun, sound.stopped⟩
  | free camd | detachWorker camd =>
      cases performed
      exact sound.stop allowed.1 allowed.2
  | lockCamd | unlockCamd | setConfig config | setConfigured configured | getConfigured
  | camdAvailable | client camd operation | pollDue | bissTry => exact sound.frame performed id

/-- The stream thread changes nothing but the lock. -/
theorem Hand.Sound.stream_performs {held : Hand} {operation : Op} {input : Input}
    {answer : operation.Answer} (sound : hand.Sound state)
    (allowed : held.Allows .stream operation)
    (performed : exec operation input state = some (answer, next)) : hand.Sound next := by
  refine sound.frame performed fun manages => ?_
  cases operation with
  | setCamd | startCamd | free | detachWorker => exact allowed
  | _ => exact manages

/-- Only the end of a stop adds to the stopped clients. -/
theorem stopped_of_exec {operation : Op} {input : Input} {answer : operation.Answer}
    {camd : ClientId} (performed : exec operation input state = some (answer, next))
    (inside : camd ∈ next.stopped) : camd ∈ state.stopped ∨ operation.Stops camd := by
  cases operation with
  | setCamd other =>
      cases performed
      exact .inl inside
  | startCamd =>
      rw [exec] at performed
      split at performed <;> (cases performed; exact .inl inside)
  | free other =>
      cases performed
      exact (List.mem_cons.1 inside).symm.imp_right fun same => .inl (congrArg Op.free same.symm)
  | detachWorker other =>
      cases performed
      exact (List.mem_cons.1 inside).symm.imp_right fun same =>
        .inr (congrArg Op.detachWorker same.symm)
  | lockCamd | unlockCamd | getCamd | setConfig config | setConfigured configured
  | getConfigured | camdAvailable | client camd operation | pollDue | bissTry =>
      exact .inl ((exec_frame performed id).2.2 ▸ inside)

section Interleaving

variable {config after : lending.Config} {event : lending.Event} {camd : ClientId}

/-- The pointer is never that of a stopped client. -/
theorem withholds_stopped (step : lending.Step config event after)
    (sound : hand.Sound config.shared) (inside : camd ∈ config.shared.stopped) {thread : Thread}
    (performed : Performed signature) (shown : event = .perform thread performed) :
    Withholds camd performed.1 performed.2 := by
  rcases step.shared_cases with ⟨_, still⟩ | ⟨mover, operation, input, answer, event_eq, ran⟩
  · exact (still thread performed shown).elim
  · cases event_eq.symm.trans shown
    cases operation with
    | getCamd =>
        have same : config.shared.camd = answer := congrArg Prod.fst (Option.some.inj ran)
        exact fun holds => (sound.published camd (same.trans holds)).2 inside
    | _ => trivial

/-- What holds of every interleaving in which the stops spare the stream thread. -/
structure Settled (config : lending.Config) : Prop where
  held : ∃ held : Thread → Hand,
    (∀ thread, (config.phase thread).Obeys (hands thread) (fun _ => True) (held thread)) ∧
      (held .command).Sound config.shared
  spared : ∀ camd ∈ config.shared.stopped,
    config.Avoids .stream (Op.Uses camd) (Withholds camd)

theorem settled_opened (config : Config) (configured : Bool) :
    Settled (opened config configured) where
  held := ⟨fun _ => {}, fun _ => trivial, ⟨nofun, nofun, nofun, nofun, nofun⟩⟩
  spared := nofun

theorem obeys_body (thread : Thread) (command : thread.Command) (locals : Unit)
    (program : Code Unit) (body : thread.body command locals = some program) :
    program.Obeys (hands thread) (fun _ _ => True) {} := by
  cases thread with
  | command =>
      cases body
      exact Call.obeys command
  | stream =>
      cases body
      exact Visit.obeys command

theorem avoids_body (command : Visit) (locals : Unit) (program : Code Unit)
    (body : Thread.body .stream command locals = some program) :
    program.Avoids (Op.Uses camd) (Withholds camd) := by
  cases body
  exact command.avoids

/-- The stopped clients go on being spared. -/
theorem Settled.spared_step (settled : Settled config) (step : lending.Step config event after)
    (spares : Spares ⟨config, event, after⟩) (inside : camd ∈ after.shared.stopped) :
    after.Avoids .stream (Op.Uses camd) (Withholds camd) := by
  obtain ⟨held, _, sound⟩ := settled.held
  have starts := fun command locals program (_ : event = .start .stream command) =>
    @avoids_body camd command locals program
  by_cases before : camd ∈ config.shared.stopped
  · exact (step.avoids (settled.spared camd before) starts
      (withholds_stopped step sound before)).1
  · rcases step.shared_cases with ⟨still, _⟩ | ⟨mover, operation, input, answer, shown, ran⟩
    · exact (before (still ▸ inside)).elim
    · have stops := (stopped_of_exec ran inside).resolve_left before
      refine (step.avoids (spares mover _ camd shown stops) starts fun performed other => ?_).1
      cases shown.symm.trans other
      rcases stops with rfl | rfl <;> trivial

theorem Settled.step (settled : Settled config) (step : lending.Step config event after)
    (spares : Spares ⟨config, event, after⟩) :
    Settled after ∧ UsesRunning ⟨config, event, after⟩ := by
  obtain ⟨held, obeys, sound⟩ := settled.held
  obtain ⟨later, allowed⟩ := step.obeys obeys obeys_body
  refine ⟨⟨⟨_, later, ?_⟩, fun camd => settled.spared_step step spares⟩, ?_⟩
  · cases step with
    | @start mover command locals program idle body =>
        cases mover with
        | command => exact ⟨sound.published, nofun, nofun, nofun, sound.stopped⟩
        | stream => exact sound
    | @perform mover command operation rest input answer shared here performed =>
        have may := allowed mover ⟨operation, answer⟩ rfl
        cases mover with
        | command => exact sound.command_performs may performed
        | stream => exact sound.stream_performs may performed
    | @finish mover command locals here => exact sound
  · intro thread performed camd shown uses inside
    cases thread with
    | command =>
        obtain ⟨inner, same⟩ := uses
        have may := allowed .command performed shown
        rw [same] at may
        exact (sound.lent camd may).2 inside
    | stream =>
        have starts := fun command locals program (_ : event = .start .stream command) =>
          @avoids_body camd command locals program
        exact (step.avoids (settled.spared camd inside) starts
          (withholds_stopped step sound inside)).2 performed shown uses

end Interleaving

/-- **No stopped client is used.** In every interleaving in which `dtv_camd_stop` is only
over when the stream thread has nothing left to do with that client from a pointer it
already copied, every operation on a client is on one whose stop is not over. -/
theorem stopped_clients_unused {config : Config} {configured : Bool} {final : lending.Config}
    {moves : List Lent} (walk : Walk lending.Step (opened config configured) moves final)
    (spares : ∀ moved ∈ moves, Spares moved) : ∀ moved ∈ moves, UsesRunning moved :=
  walk.wanted_of_allowed Settled Spares UsesRunning
    (fun _ step spares settled => settled.step step spares) (settled_opened _ _) spares

/-! ### Two schedules -/

def localServer : Config := ⟨.newcamd, "127.0.0.1", 15000⟩

/-- Every call succeeds, and the status is due. -/
def willing : Op → Input := fun _ => { due := true }

/-- A client is configured, and used and replaced in turn. -/
def inTurn : List lending.Move :=
  .start .command (Call.setCamd (some localServer)) :: performing .command 12 willing ++
    .finish .command :: .start .stream Visit.refresh :: performing .stream 8 willing ++
    .finish .stream :: .start .command (Call.setCamd (some localServer)) ::
      performing .command 16 willing ++
    .finish .command :: .start .stream (Visit.ecm [0x80, 0, 0]) :: performing .stream 5 willing

/-- The client is replaced between the copy of its pointer and the first call. -/
def inBetween : List lending.Move :=
  .start .command (Call.setCamd (some localServer)) :: performing .command 12 willing ++
    .finish .command :: .start .stream Visit.refresh :: performing .stream 3 willing ++
    .start .command (Call.setCamd (some localServer)) :: performing .command 16 willing ++
    .finish .command :: performing .stream 1 willing

def lent (schedule : List lending.Move) : List Lent :=
  ((opened localServer false).track schedule).1

theorem walk_lent (schedule : List lending.Move) :
    Walk lending.Step (opened localServer false) (lent schedule)
      ((opened localServer false).track schedule).2 :=
  Config.walk_track _ schedule

/-- A client is used, and its stop is over or not. -/
def usesClient (gone : Bool) (moved : Lent) : Bool :=
  match moved.event with
  | .perform .stream ⟨.client camd _, _⟩ => moved.before.shared.stopped.contains camd == gone
  | _ => false

/-- Stops are over only while the stream thread is between two visits. -/
def stopsBetween (moved : Lent) : Bool :=
  match moved.event, moved.before.phase .stream with
  | .perform _ ⟨.free _, _⟩, .running _ _ | .perform _ ⟨.detachWorker _, _⟩, .running _ _ => false
  | _, _ => true

theorem spares_of_between {moved : Lent} (between : stopsBetween moved = true) : Spares moved := by
  intro thread performed camd shown stops
  obtain ⟨operation, answer⟩ := performed
  intro command rest running
  rw [stopsBetween, shown, running] at between
  rcases stops with rfl | rfl <;> exact nomatch between

theorem stopped_clients_unused_inTurn :
    (lent inTurn).countP (usesClient false) = 5 ∧ ∀ moved ∈ lent inTurn, UsesRunning moved := by
  have between : (lent inTurn).all stopsBetween = true := by decide +kernel
  exact ⟨by decide +kernel, stopped_clients_unused (walk_lent inTurn) fun moved member =>
    spares_of_between (List.all_eq_true.1 between moved member)⟩

/-- The stream thread asks a client for its ECM pid that is already gone. -/
theorem stopped_client_used :
    Walk lending.Step (opened localServer false) (lent inBetween)
        ((opened localServer false).track inBetween).2 ∧
      ∃ moved ∈ lent inBetween, ¬ UsesRunning moved := by
  have used : (lent inBetween).any (usesClient true) = true := by decide +kernel
  obtain ⟨moved, member, uses⟩ := List.any_eq_true.1 used
  refine ⟨walk_lent inBetween, moved, member, fun running => ?_⟩
  unfold usesClient at uses
  split at uses
  · rename_i camd operation answer shown
    exact running .stream _ camd shown ⟨operation, rfl⟩
      (List.contains_iff_mem.1 (beq_iff_eq.1 uses))
  · exact nomatch uses

end Lending
