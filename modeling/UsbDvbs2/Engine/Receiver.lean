import UsbDvbs2.Concurrency.Execution

/-! # The receiver and the engine state around it

The operations the engine performs one at a time: commands on the USB bridge
(one I2C message each), reads and writes of the shared `g_` variables, the tune
lock, the clock and the host callbacks. Every bridge command may fail and every
read may answer anything; between two operations time passes and the stream
thread may see data.
-/

namespace Engine

open Concurrency

/-- The active transponder: `g_freq_khz`, `g_sr_ksps`, `g_lnb_v`, `g_tone`,
`g_diseqc`, `g_uncommitted`, `g_burst` and `g_repeat`. -/
structure Transponder where
  freqKhz : UInt32
  srKsps : UInt32
  lnbV : UInt32
  tone : UInt32
  diseqc : UInt32
  uncommitted : UInt32
  burst : UInt32
  repeats : UInt32
  deriving DecidableEq

/-- `avl62x1_signal_status`. -/
structure SignalStatus where
  locked : Bool
  fecLocked : Bool
  frameLocked : Bool
  snrDbX100 : Int
  symbolRateHz : UInt32
  deriving DecidableEq

/-- The arguments of `set_channel`. -/
structure Channel where
  service : UInt16
  pmt : UInt16
  vpid : UInt16
  apid : UInt16
  ttxpid : UInt16
  hintCaSystemId : UInt16
  hintCaPid : UInt16
  deriving DecidableEq

/-- The calls of cold init up to the demodulator firmware; none of them writes
an LNB register. -/
inductive BringUp where
  | openIndex
  | attach
  | identify
  | queryFwVersion
  | loadBridgeFirmware
  | bridgeInit
  | setI2cBus
  | gpioSet (level : Bool)
  | loadDemodFirmware

inductive Op where
  -- one I2C message to the demodulator or the tuner
  | demodWrite (reg : UInt32) (data : List UInt8)
  | demodSelect (reg : UInt32)
  | demodRead (size : Nat)
  | demodReadAt (reg : UInt32) (size : Nat)
  | tunerWrite (reg value : UInt8)
  | bringUp (call : BringUp)
  -- the bridge and demodulator drivers' own variables
  | getGenericI2c
  | paceWrite
  | setColdInitPacing (enabled : Bool)
  -- time
  | sleep (ms : UInt32)
  | tick32
  -- the engine's variables
  | getQuit
  | setQuit
  | getTuned
  | setTuned (tuned : Bool)
  | takeRelight
  | setRelight
  | getLnbEnabled
  | setLnbEnabled (enabled : Bool)
  | getLnbColdDone
  | setLnbColdDone
  | getFreqKhz
  | getTransponder
  | getLnbSettings
  | setTransponder (transponder : Transponder)
  | getStreamDataTick
  | setStreamDataTick (tick : UInt32)
  | setStatus (status : SignalStatus)
  | lockTune
  | unlockTune
  | setChannel (channel : Channel)
  -- the host's callbacks
  | stage (percent : Nat) (text : String)
  | log (line : String)
  | error (line : String)
  -- closing the engine
  | getStreamThread
  | joinStreamThread (ms : UInt32)
  | detachStreamThread
  | clearStreamThread
  | stopCamd
  | destroyCsa
  | destroyLocks
  | closeUsb
  -- a loop that never ends
  | spin

abbrev Op.Answer : Op → Type
  | .demodWrite .. | .demodSelect .. | .tunerWrite .. | .bringUp .. | .joinStreamThread .. => Int
  | .demodRead .. | .demodReadAt .. => Int × List UInt8
  | .getGenericI2c | .paceWrite | .getQuit | .getTuned | .takeRelight | .getLnbEnabled
  | .getLnbColdDone | .getStreamThread => Bool
  | .tick32 | .getFreqKhz | .getStreamDataTick => UInt32
  | .getTransponder | .getLnbSettings => Transponder
  | _ => Unit

abbrev signature : Signature := ⟨Op, Op.Answer⟩

/-- A piece of the engine's code. -/
abbrev Code (α : Type) : Type := Program signature α

abbrev Trace : Type := List (Performed signature)

/-! ## The state -/

def lnbPowerSelectReg : UInt32 := 0x120008
def lnbPowerEnableReg : UInt32 := 0x12000c

/-- The last values successfully written to the two LNB control registers. -/
structure LnbPins where
  enable : UInt32 := 0
  select : UInt32 := 0
  deriving DecidableEq

structure State where
  clock : UInt32 := 0
  streamDataTick : UInt32 := 0
  quit : Bool := false
  tuned : Bool := false
  lnbRelight : Bool := false
  lnbEnabled : Bool := false
  lnbColdDone : Bool := false
  transponder : Transponder := ⟨0, 0, 0, 0, 0, 0, 0, 0⟩
  status : SignalStatus := ⟨false, false, false, -10000, 0⟩
  tuneLocked : Bool := false
  channel : Channel := ⟨0x1fff, 0x1fff, 0x1fff, 0x1fff, 0x1fff, 0, 0⟩
  lnbPins : LnbPins := {}
  genericI2c : Bool := false
  coldInitPacing : Bool := false
  patchWriteCount : UInt32 := 0
  streamThread : Bool := false
  usbClosed : Bool := false

/-- What goes on between two operations of a thread. -/
inductive Passage where
  | time (ms : UInt32)
  | streamData

/-- The environment's part in one operation: what passed before it, and what
the device answered. -/
structure Input where
  passages : List Passage := []
  code : Int := 0
  data : List UInt8 := []

def State.pass (state : State) : Passage → State
  | .time ms => { state with clock := state.clock + ms }
  | .streamData => { state with streamDataTick := state.clock }

/-- How long the passages take. -/
def elapsed : List Passage → Nat
  | [] => 0
  | .time ms :: passages => ms.toNat + elapsed passages
  | .streamData :: passages => elapsed passages

def be32At : List UInt8 → Option UInt32
  | [a, b, c, d] =>
      some (a.toUInt32 <<< 24 ||| b.toUInt32 <<< 16 ||| c.toUInt32 <<< 8 ||| d.toUInt32)
  | _ => none

/-- The pins after a message to the demodulator was answered. -/
def LnbPins.answered (pins : LnbPins) (reg : UInt32) (data : List UInt8) (code : Int) : LnbPins :=
  if code ≠ 0 then pins
  else match be32At data with
    | none => pins
    | some value =>
        if reg = lnbPowerEnableReg then { pins with enable := value }
        else if reg = lnbPowerSelectReg then { pins with select := value }
        else pins

/-- The bytes of an answer: as many as were asked for. -/
def Input.bytes (input : Input) (size : Nat) : List UInt8 :=
  (input.data ++ List.replicate size 0).take size

/-- Whether to breathe after a write: every eighth one of a cold init. -/
def State.paceWrite (state : State) : Bool × State :=
  if state.coldInitPacing then
    ((state.patchWriteCount + 1) % 8 == 0,
      { state with patchWriteCount := state.patchWriteCount + 1 })
  else (false, state)

/-- The effect of one operation once time has passed. -/
def effect : (operation : Op) → Input → State → Option (operation.Answer × State)
  | .demodWrite reg data, input, state =>
      some (input.code, { state with lnbPins := state.lnbPins.answered reg data input.code })
  | .demodSelect _, input, state => some (input.code, state)
  | .demodRead size, input, state => some ((input.code, input.bytes size), state)
  | .demodReadAt _ size, input, state => some ((input.code, input.bytes size), state)
  | .tunerWrite _ _, input, state => some (input.code, state)
  | .bringUp _, input, state => some (input.code, state)
  | .getGenericI2c, _, state => some (state.genericI2c, state)
  | .paceWrite, _, state => some state.paceWrite
  | .setColdInitPacing enabled, _, state =>
      some ((), { state with
        coldInitPacing := enabled
        patchWriteCount := if enabled then 0 else state.patchWriteCount })
  | .sleep ms, input, state => if ms.toNat ≤ elapsed input.passages then some ((), state) else none
  | .tick32, _, state => some (state.clock, state)
  | .getQuit, _, state => some (state.quit, state)
  | .setQuit, _, state => some ((), { state with quit := true })
  | .getTuned, _, state => some (state.tuned, state)
  | .setTuned tuned, _, state => some ((), { state with tuned })
  | .takeRelight, _, state => some (state.lnbRelight, { state with lnbRelight := false })
  | .setRelight, _, state => some ((), { state with lnbRelight := true })
  | .getLnbEnabled, _, state => some (state.lnbEnabled, state)
  | .setLnbEnabled enabled, _, state => some ((), { state with lnbEnabled := enabled })
  | .getLnbColdDone, _, state => some (state.lnbColdDone, state)
  | .setLnbColdDone, _, state => some ((), { state with lnbColdDone := true })
  | .getFreqKhz, _, state => some (state.transponder.freqKhz, state)
  | .getTransponder, _, state => some (state.transponder, state)
  | .getLnbSettings, _, state => some (state.transponder, state)
  | .setTransponder transponder, _, state => some ((), { state with transponder })
  | .getStreamDataTick, _, state => some (state.streamDataTick, state)
  | .setStreamDataTick tick, _, state => some ((), { state with streamDataTick := tick })
  | .setStatus status, _, state => some ((), { state with status })
  | .lockTune, _, state =>
      if state.tuneLocked then none else some ((), { state with tuneLocked := true })
  | .unlockTune, _, state => some ((), { state with tuneLocked := false })
  | .setChannel channel, _, state => some ((), { state with channel })
  | .stage _ _, _, state => some ((), state)
  | .log _, _, state => some ((), state)
  | .error _, _, state => some ((), state)
  | .getStreamThread, _, state => some (state.streamThread, state)
  | .joinStreamThread _, input, state => some (input.code, state)
  | .detachStreamThread, _, state => some ((), state)
  | .clearStreamThread, _, state => some ((), { state with streamThread := false })
  | .stopCamd, _, state => some ((), state)
  | .destroyCsa, _, state => some ((), state)
  | .destroyLocks, _, state => some ((), state)
  | .closeUsb, _, state => some ((), { state with usbClosed := true })
  | .spin, _, _ => none

def machine : Machine signature State Input where
  exec operation input state := effect operation input (input.passages.foldl State.pass state)

/-- The process at its start: nothing tuned, nothing written to the receiver. -/
def State.fresh (clock : UInt32) (genericI2c : Bool) : State :=
  { clock, streamDataTick := clock, genericI2c }

/-- A receiver that fails the refused messages and answers reads with the given
bytes, in an environment where only sleeping takes time. -/
def environment (refused : Op → Bool) (data : Op → List UInt8) : Op → Input
  | .sleep ms => { passages := [.time ms] }
  | operation => { code := if refused operation then -1 else 0, data := data operation }

/-! ## The LNB books

The control pins, the supply flag and the cached tuning state are changed by few
operations. `Quiet` code performs none of them, whatever it is answered, and so
leaves the books as they are. It does not end the engine either.
-/

def IsLnbReg (reg : UInt32) : Prop := reg = lnbPowerEnableReg ∨ reg = lnbPowerSelectReg

instance (reg : UInt32) : Decidable (IsLnbReg reg) := inferInstanceAs (Decidable (_ ∨ _))

/-- Operations that may change the LNB books, and the two that end the engine. -/
def Op.Books : Op → Prop
  | .demodWrite reg _ => IsLnbReg reg
  | .setLnbEnabled _ | .setTuned _ | .setTransponder _ | .setQuit | .closeUsb => True
  | _ => False

structure Books where
  lnbPins : LnbPins
  lnbEnabled : Bool
  tuned : Bool
  transponder : Transponder

def State.books (state : State) : Books :=
  ⟨state.lnbPins, state.lnbEnabled, state.tuned, state.transponder⟩

@[simp] theorem State.books_pass (state : State) (passage : Passage) :
    (state.pass passage).books = state.books := by
  cases passage with
  | time ms => rfl
  | streamData => rfl

/-- What one passage leaves alone, any number of them does. -/
theorem State.passages_keep {α : Type} (part : State → α)
    (keeps : ∀ state passage, part (State.pass state passage) = part state) (state : State)
    (passages : List Passage) : part (passages.foldl State.pass state) = part state := by
  induction passages generalizing state with
  | nil => rfl
  | cons passage passages ih => rw [List.foldl_cons, ih, keeps]

@[simp] theorem State.books_passages (state : State) (passages : List Passage) :
    (passages.foldl State.pass state).books = state.books :=
  State.passages_keep State.books State.books_pass state passages

theorem LnbPins.answered_other {pins : LnbPins} {reg : UInt32} {data : List UInt8} {code : Int}
    (other : ¬ IsLnbReg reg) : pins.answered reg data code = pins := by
  simp only [IsLnbReg, not_or] at other
  simp only [LnbPins.answered, if_neg other.1, if_neg other.2]
  split
  · rfl
  · split <;> rfl

theorem effect_books {operation : Op} {input : Input} {state next : State}
    {answer : operation.Answer} (quiet : ¬ operation.Books)
    (performed : effect operation input state = some (answer, next)) :
    next.books = state.books := by
  cases operation with
  | demodWrite reg data =>
      cases performed
      simp only [State.books, LnbPins.answered_other quiet]
  | setLnbEnabled | setTuned | setTransponder | setQuit | closeUsb => exact (quiet trivial).elim
  | sleep | lockTune =>
      simp only [effect, Option.ite_none_right_eq_some, Option.ite_none_left_eq_some] at performed
      cases performed.2
      rfl
  | paceWrite =>
      simp only [effect, State.paceWrite] at performed
      split at performed <;> (cases performed; rfl)
  | spin => cases performed
  | _ => cases performed; rfl

/-- Whatever it is answered, the code leaves the LNB books alone. -/
def Quiet {α : Type} (code : Code α) : Prop := code.Avoids Op.Books fun _ _ => True

theorem Quiet.books_eq {α : Type} {code : Code α} {state final : State} {trace : Trace} {value : α}
    (quiet : Quiet code) (run : machine.Executes state code trace value final) :
    final.books = state.books :=
  run.unchanged (fun _ _ _ _ _ fine performed =>
    (effect_books fine performed).trans (State.books_passages ..)) quiet

namespace Quiet

variable {α β : Type}

@[simp] theorem done (value : α) : Quiet (.done value : Code α) := Program.avoids_done value

theorem bind {code : Code α} {rest : α → Code β} (first : Quiet code)
    (later : ∀ value, Quiet (rest value)) : Quiet (code >>= rest) := Program.Avoids.bind first later

@[simp] theorem ifZero {code rest : Code Int} (first : Quiet code) (later : Quiet rest) :
    Quiet (code.ifZero rest) := Program.Avoids.ifZero first later

@[simp] theorem ifRead {code : Code (Except Int α)} {rest : α → Code Int} (first : Quiet code)
    (later : ∀ value, Quiet (rest value)) : Quiet (code.ifRead rest) :=
  Program.Avoids.ifRead first later

theorem untilFailure {codes : List (Code Int)} (each : ∀ code ∈ codes, Quiet code) :
    Quiet (Program.untilFailure codes) := Program.Avoids.untilFailure each

theorem ite {condition : Prop} [Decidable condition] {left right : Code α} (yes : Quiet left)
    (no : Quiet right) : Quiet (if condition then left else right) :=
  Program.Avoids.ite (fun _ => yes) fun _ => no

end Quiet

/-! Most code stays out of the business of a tune as well: its lock, the transponder that
is remembered and the status that is reported. -/

/-- Operations of the books, and of a tune that is asked for, remembered or reported. -/
def Op.Desk : Op → Prop
  | .lockTune | .unlockTune | .getTransponder | .getFreqKhz | .setStatus _ => True
  | operation => operation.Books

theorem Op.Books.desk {operation : Op} (books : operation.Books) : operation.Desk := by
  cases operation with
  | lockTune | unlockTune | getTransponder | getFreqKhz | setStatus => trivial
  | _ => exact books

/-- Quiet code that leaves that business alone too. -/
def Plain {α : Type} (code : Code α) : Prop := code.Avoids Op.Desk fun _ _ => True

namespace Plain

variable {α β : Type}

theorem quiet {code : Code α} (plain : Plain code) : Quiet code :=
  Program.Avoids.mono plain (fun _ => Op.Books.desk) fun _ _ _ => trivial

@[simp] theorem done (value : α) : Plain (.done value : Code α) := Program.avoids_done value

theorem bind {code : Code α} {rest : α → Code β} (first : Plain code)
    (later : ∀ value, Plain (rest value)) : Plain (code >>= rest) := Program.Avoids.bind first later

@[simp] theorem ifZero {code rest : Code Int} (first : Plain code) (later : Plain rest) :
    Plain (code.ifZero rest) := Program.Avoids.ifZero first later

@[simp] theorem ifRead {code : Code (Except Int α)} {rest : α → Code Int} (first : Plain code)
    (later : ∀ value, Plain (rest value)) : Plain (code.ifRead rest) :=
  Program.Avoids.ifRead first later

theorem untilFailure {codes : List (Code Int)} (each : ∀ code ∈ codes, Plain code) :
    Plain (Program.untilFailure codes) := Program.Avoids.untilFailure each

theorem ite {condition : Prop} [Decidable condition] {left right : Code α} (yes : Plain left)
    (no : Plain right) : Plain (if condition then left else right) :=
  Program.Avoids.ite (fun _ => yes) fun _ => no

end Plain

end Engine
