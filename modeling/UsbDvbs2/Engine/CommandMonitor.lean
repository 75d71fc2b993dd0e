import UsbDvbs2.Concurrency.Threads
import UsbDvbs2.Engine.LnbSupply

/-! # The command thread beside the signal monitor

`engine` interleaves the public calls of the command thread with the rounds of
the detached monitor thread. What neither a tune nor a monitor round can do is
proved once for every set of `Foreign` operations.
-/

namespace Engine

open Concurrency Program ThreadSystem

inductive Thread where
  | command
  | monitor
  deriving DecidableEq

/-- The public calls the command thread makes on the receiver. -/
inductive Call where
  | tune (asked : Transponder)
  | setChannel (channel : Channel)
  | lnbOff
  | close

def Call.code : Call → Code Unit
  | .tune asked => do
      let _ ← Engine.tune asked
      pure ()
  | .setChannel channel => Engine.setChannel channel
  | .lnbOff => Engine.lnbOff
  | .close => Engine.close

abbrev Thread.Command : Thread → Type
  | .command => Call
  | .monitor => Unit

/-- The monitor carries whether its loop goes on. -/
abbrev Thread.Locals : Thread → Type
  | .command => Unit
  | .monitor => Bool

def Thread.body : (thread : Thread) → thread.Command → thread.Locals → Option (Code thread.Locals)
  | .command, call, _ => some call.code
  | .monitor, _, runs => if runs then some monitorRound else none

abbrev engine : ThreadSystem signature State Input Thread where
  machine := machine
  Command := Thread.Command
  Locals := Thread.Locals
  body := Thread.body

/-- The engine after a successful open: nothing tuned, the monitor about to
start its first round. -/
def opened (clock : UInt32) (genericI2c : Bool) : engine.Config where
  shared := { State.fresh clock genericI2c with streamThread := true }
  phase := fun
    | .command => .idle ()
    | .monitor => .idle true

/-- The lock register cannot be read, and every pause takes five seconds longer. -/
def silentReceiver : Op → Input
  | .sleep ms => { passages := [.time (ms + 5000)] }
  | .demodReadAt reg _ => { code := if reg = Avl62x1.regLock then -1 else 0 }
  | _ => {}

/-! ## Reading events -/

def Event.begins : engine.Event → Bool
  | .start .command _ => true
  | _ => false

def Event.switchesOn : engine.Event → Bool
  | .perform _ ⟨.demodWrite reg data, _⟩ =>
      reg == lnbPowerEnableReg && data == Avl62x1.bytes32 1
  | _ => false

/-- The write that `avl62x1_set_lnb_voltage` begins with for 13 and 18 V. -/
def Op.on : Op := .demodWrite lnbPowerEnableReg (Avl62x1.bytes32 1)

theorem exists_on_of_any {events : List engine.Event}
    (switched : events.any Event.switchesOn = true) :
    ∃ thread performed, .perform thread performed ∈ events ∧ performed.1 = Op.on := by
  obtain ⟨event, member, on⟩ := List.any_eq_true.mp switched
  rcases event with _ | ⟨thread, operation, answer⟩ | _
  · cases on
  · cases operation with
    | demodWrite reg data =>
        simp only [Event.switchesOn, Bool.and_eq_true, beq_iff_eq] at on
        exact ⟨thread, _, member, by rw [on.1, on.2]; rfl⟩
    | _ => cases on
  · cases on

/-! ## What a thread can still do -/

variable {bad : Op → Prop} {may : (operation : Op) → operation.Answer → Prop}

section OneStep

variable {config next : engine.Config} {event : engine.Event}
  (step : engine.Step config event next)

include step

/-- The command thread keeps avoiding as long as it only begins avoiding calls. -/
theorem command_avoids (avoids : config.Avoids .command bad may)
    (begins : ∀ call : Call, event = .start .command call → call.code.Avoids bad may)
    (answers : ∀ performed, event = .perform .command performed → may performed.1 performed.2) :
    next.Avoids .command bad may ∧
      ∀ performed, event = .perform .command performed → ¬ bad performed.1 := by
  refine step.avoids avoids (fun call locals program starts body => ?_) answers
  have code : program = call.code := (Option.some.inj body).symm
  rw [code]
  exact begins call starts

/-- The monitor keeps avoiding when its rounds do. -/
theorem monitor_avoids (avoids : config.Avoids .monitor bad may)
    (round : monitorRound.Avoids bad may)
    (answers : ∀ performed, event = .perform .monitor performed → may performed.1 performed.2) :
    next.Avoids .monitor bad may ∧
      ∀ performed, event = .perform .monitor performed → ¬ bad performed.1 := by
  refine step.avoids avoids (fun _ runs program _ body => ?_) answers
  cases runs with
  | false => cases body
  | true =>
      have code : program = monitorRound := (Option.some.inj body).symm
      rw [code]
      exact round

end OneStep

/-! ## Operations a tune stays clear of -/

/-- Operations outside every tune, apart perhaps from its switching the LNB on. -/
structure Foreign (bad : Op → Prop) : Prop where
  books : ∀ operation, bad operation → operation.Books
  flag : ∀ enabled, ¬ bad (.setLnbEnabled enabled)
  tuned : ∀ tuned, ¬ bad (.setTuned tuned)
  transponder : ∀ transponder, ¬ bad (.setTransponder transponder)
  off : ¬ bad (.demodWrite lnbPowerEnableReg (Avl62x1.bytes32 0))
  select : ∀ level, ¬ bad (.demodWrite lnbPowerSelectReg (Avl62x1.bytes32 level))

theorem avoids_op {operation : Op} (fine : ¬ bad operation) : (op operation).Avoids bad may :=
  (avoids_perform (S := signature) operation).mpr fine

namespace Foreign

variable (foreign : Foreign bad)

include foreign

theorem quiet {α : Type} {code : Code α} (quiet : Quiet code) : code.Avoids bad may :=
  Avoids.mono quiet foreign.books fun _ _ _ => trivial

theorem avoids_quiet_op {operation : Op} (quiet : ¬ operation.Books) :
    (op operation).Avoids bad may := foreign.quiet (quiet_op.mpr quiet)

theorem avoids_write32 {reg value : UInt32}
    (fine : ¬ bad (.demodWrite reg (Avl62x1.bytes32 value))) :
    (Avl62x1.write32 reg value).Avoids bad may := by
  rw [Avl62x1.write32, Avl62x1.write_single reg (by simp [Avl62x1.bytes32])
    (by simp [Avl62x1.bytes32, Avl62x1.writeDataMax])]
  exact (avoids_op fine).ifZero
    ((foreign.quiet Avl62x1.plain_breathe.quiet).bind fun _ => avoids_done 0)

theorem avoids_setLnbPins {enable select : UInt32}
    (fine : ¬ bad (.demodWrite lnbPowerEnableReg (Avl62x1.bytes32 enable))) :
    (Avl62x1.setLnbPins enable select).Avoids bad may := by
  apply Avoids.untilFailure
  intro code member
  simp only [List.mem_cons, List.not_mem_nil, or_false] at member
  rcases member with rfl | rfl
  · exact foreign.avoids_write32 fine
  · exact foreign.avoids_write32 (foreign.select select)

theorem avoids_setLnbVoltage {volts : UInt32} (on : Powers volts → ¬ bad .on) :
    (Avl62x1.setLnbVoltage volts).Avoids bad may := by
  apply Avoids.ite (fun _ => foreign.avoids_setLnbPins foreign.off)
  intro asksPower
  apply Avoids.ite (fun vertical => foreign.avoids_setLnbPins (on (.inl vertical)))
  intro other
  exact Avoids.ite (fun horizontal => foreign.avoids_setLnbPins (on (.inr horizontal)))
    fun _ => avoids_done _

theorem avoids_switchOff : (Avl62x1.setLnbVoltage 0).Avoids bad may :=
  foreign.avoids_setLnbVoltage fun powers => absurd powers (by decide)

theorem avoids_lnbPowerDown : lnbPowerDown.Avoids bad may := by
  apply (foreign.avoids_quiet_op id).bind
  intro enabled
  refine Avoids.ite (fun _ => ?_) fun _ => avoids_done _
  apply (foreign.quiet (Avl62x1.plain_set22khzTone false).quiet).bind
  intro toned
  exact foreign.avoids_switchOff.bind fun _ => avoids_op (foreign.flag false)

theorem avoids_switchLnb {asked : Transponder} {relight changed : Bool}
    (on : Powers asked.lnbV → ¬ bad .on) : (switchLnb asked relight changed).Avoids bad may := by
  refine Avoids.ite (fun _ => Avoids.ite (fun _ => ?_) fun _ => ?_) fun _ => avoids_done _
  · exact foreign.avoids_lnbPowerDown.bind fun _ => avoids_done _
  · apply (foreign.avoids_quiet_op id).bind
    intro staged
    have cut : cutForRelight.Avoids bad may :=
      foreign.avoids_switchOff.bind fun _ => (foreign.quiet (quiet_sleep 120)).bind fun _ =>
        avoids_op (foreign.flag false)
    apply (Avoids.when fun _ => cut).bind
    intro ready
    apply (foreign.avoids_setLnbVoltage on).bind
    intro rc
    exact Avoids.ite (fun _ => avoids_done _) fun _ =>
      (avoids_op (foreign.flag true)).bind fun _ => foreign.quiet (plain_afterSwitchOn asked).quiet

theorem avoids_storeTransponder {asked : Transponder} {poll : Poll} :
    (storeTransponder asked poll).Avoids bad may := by
  apply (avoids_op (foreign.transponder _)).bind
  intro stored
  apply Avoids.ite
  · exact fun _ => (avoids_op (foreign.tuned true)).bind fun _ =>
      (foreign.avoids_quiet_op id).bind fun _ => avoids_done _
  · exact fun _ => (foreign.avoids_quiet_op id).bind fun _ => avoids_done _

theorem avoids_searchSignal {asked : Transponder} : (searchSignal asked).Avoids bad may := by
  apply (foreign.avoids_quiet_op id).bind
  intro staged
  apply (foreign.quiet (Avl62x1.plain_acquire _ _ _).quiet).bind
  intro rc
  refine Avoids.ite (fun _ => (foreign.avoids_quiet_op id).bind fun _ => avoids_done _) fun _ => ?_
  exact (foreign.quiet (quiet_pollSignal _ _ _)).bind fun _ => foreign.avoids_storeTransponder

/-- A tune performs no foreign operation, unless it is the switch-on for a
voltage it was asked for. -/
theorem avoids_daemonTune {asked : Transponder} (on : Powers asked.lnbV → ¬ bad .on) :
    (daemonTune asked).Avoids bad may := by
  apply (foreign.quiet plain_relightWanted.quiet).bind
  intro relight
  apply (foreign.quiet (plain_lnbChanged asked relight).quiet).bind
  intro changed
  apply (avoids_op (foreign.tuned false)).bind
  intro cleared
  apply (foreign.avoids_quiet_op id).bind
  intro reported
  apply (foreign.quiet (plain_programTuner asked).quiet).bind
  intro rc
  refine Avoids.ite (fun _ => (foreign.avoids_quiet_op id).bind fun _ => avoids_done _) fun _ => ?_
  apply (foreign.avoids_switchLnb on).bind
  intro lnbRc
  exact Avoids.ite (fun _ => avoids_done _) fun _ => foreign.avoids_searchSignal

theorem avoids_tune {asked : Transponder} (on : Powers asked.lnbV → ¬ bad .on) :
    (tune asked).Avoids bad may := by
  apply (foreign.quiet (quiet_sameTransponder asked)).bind
  intro skip
  refine Avoids.ite (fun _ => (foreign.avoids_quiet_op id).bind fun _ => avoids_done _) fun _ => ?_
  exact (foreign.avoids_quiet_op id).bind fun _ => (foreign.avoids_daemonTune on).bind fun _ =>
    (foreign.quiet quiet_releaseTune).bind fun _ => avoids_done _

theorem avoids_reacquire
    (on : ∀ cached, may .getTransponder cached → Powers cached.lnbV → ¬ bad .on) :
    reacquire.Avoids bad may := by
  apply (foreign.avoids_quiet_op id).bind
  intro asked
  apply (foreign.avoids_quiet_op id).bind
  intro logged
  refine ⟨fun isBad => foreign.books _ isBad, fun cached admitted => ?_⟩
  exact (foreign.avoids_daemonTune (on cached admitted)).bind fun _ => avoids_done _

/-- A monitor round performs no foreign operation, unless it tunes to a cached
transponder with LNB power. -/
theorem avoids_monitorRound
    (on : ∀ cached, may .getTransponder cached → Powers cached.lnbV → ¬ bad .on) :
    monitorRound.Avoids bad may := by
  have check : checkCarrier.Avoids bad may := by
    apply (foreign.quiet plain_askDemod.quiet).bind
    intro asked
    rcases asked with _ | status
    · apply (foreign.avoids_quiet_op id).bind
      intro tuned
      exact Avoids.ite (fun _ => foreign.avoids_quiet_op id) fun _ => foreign.avoids_reacquire on
    · exact Avoids.ite (fun _ => foreign.avoids_quiet_op id) fun _ => foreign.avoids_reacquire on
  apply (foreign.avoids_quiet_op id).bind
  intro quit
  refine Avoids.ite (fun _ => avoids_done _) fun _ => ?_
  apply (foreign.quiet (quiet_sleep 1000)).bind
  intro slept
  apply (foreign.avoids_quiet_op id).bind
  intro freqKhz
  refine Avoids.ite (fun _ => avoids_done _) fun _ => ?_
  apply (foreign.avoids_quiet_op id).bind
  intro quitting
  refine Avoids.ite (fun _ => avoids_done _) fun _ => ?_
  apply (foreign.quiet plain_streamSilent.quiet).bind
  intro silent
  refine Avoids.ite (fun _ => ?_) fun _ => avoids_done _
  exact (foreign.avoids_quiet_op id).bind fun _ => check.bind fun _ =>
    (foreign.quiet quiet_releaseTune).bind fun _ => avoids_done _

end Foreign

end Engine
