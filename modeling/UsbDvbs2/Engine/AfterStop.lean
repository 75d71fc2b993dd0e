import UsbDvbs2.Engine.CommandMonitor

/-! # The LNB after a STOP

A STOP powers the LNB down, and only a tune should bring it up again. The
monitor may do so too: a STOP leaves the tuned mark and the cached transponder
as they are, so a stream that falls silent is re-acquired, power included.
-/

namespace Engine

open Concurrency Program ThreadSystem

variable {may : (operation : Op) → operation.Answer → Prop}

theorem foreign_on : Foreign (· = .on) where
  books _ is := is ▸ .inl rfl
  flag _ is := nomatch is
  tuned _ is := nomatch is
  transponder _ is := nomatch is
  off is := absurd (Op.demodWrite.inj is).2 (by decide)
  select _ is := absurd (Op.demodWrite.inj is).1 (by decide)

/-- The cached transponder is read without LNB power. -/
def ReadsDark : (operation : Op) → operation.Answer → Prop
  | .getTransponder, cached => ¬ Powers cached.lnbV
  | _, _ => True

/-- Every public call but a tune leaves the LNB as it is or switches it off. -/
theorem Call.avoids_on {call : Call} (other : ∀ asked, call ≠ .tune asked) :
    call.code.Avoids (· = Op.on) may := by
  cases call with
  | tune asked => exact (other asked rfl).elim
  | setChannel channel => exact foreign_on.avoids_quiet_op id
  | lnbOff => exact foreign_on.avoids_lnbPowerDown
  | close =>
      have quits : (op .setQuit).Avoids (· = Op.on) may := avoids_op fun is => nomatch is
      have closes : (op .closeUsb).Avoids (· = Op.on) may := avoids_op fun is => nomatch is
      have quiet : ∀ {operation : Op}, ¬ operation.Books →
          (op operation).Avoids (· = Op.on) may := foreign_on.avoids_quiet_op
      apply (quiet id).bind
      intro running
      refine Avoids.ite (fun _ => ?_) fun _ => avoids_done _
      apply quits.bind
      intro quit
      apply (quiet id).bind
      intro joined
      apply foreign_on.avoids_lnbPowerDown.bind
      intro dark
      exact (Avoids.when fun _ => quiet id).bind fun _ => (quiet id).bind fun _ =>
        (quiet id).bind fun _ => (quiet id).bind fun _ => (quiet id).bind fun _ =>
          Avoids.when fun _ => closes

/-- Both threads are past everything that could switch the LNB on. -/
structure Settled (config : engine.Config) : Prop where
  command : config.Avoids .command (· = Op.on) fun _ _ => True
  monitor : config.Avoids .monitor (· = Op.on) ReadsDark

/-- One step of settled threads that begins no tune and reads no powered
transponder. -/
theorem Settled.step {config next : engine.Config} {event : engine.Event}
    (settled : Settled config) (step : engine.Step config event next)
    (noTune : ∀ asked, event ≠ .start .command (Call.tune asked))
    (unpowered : ∀ cached : Transponder,
      event = .perform .monitor ⟨Op.getTransponder, cached⟩ → ¬ Powers cached.lnbV) :
    Settled next ∧ ∀ thread performed, event = .perform thread performed →
      performed.1 ≠ Op.on := by
  have quietCall : ∀ call : Call, event = .start .command call →
      call.code.Avoids (· = Op.on) fun _ _ => True := by
    intro call begins
    exact Call.avoids_on fun asked equal => noTune asked (equal ▸ begins)
  have quietRound : monitorRound.Avoids (· = Op.on) ReadsDark :=
    foreign_on.avoids_monitorRound fun cached dark powers => (dark powers).elim
  have dark : ∀ performed, event = .perform .monitor performed →
      ReadsDark performed.1 performed.2 := by
    intro performed performs
    obtain ⟨operation, answer⟩ := performed
    cases operation with
    | getTransponder => exact unpowered answer performs
    | _ => trivial
  have command := command_avoids step settled.command quietCall fun _ _ => trivial
  have monitor := monitor_avoids step settled.monitor quietRound dark
  refine ⟨⟨command.1, monitor.1⟩, fun thread performed performs => ?_⟩
  cases thread with
  | command => exact command.2 performed performs
  | monitor => exact monitor.2 performed performs

/-- Once a STOP has returned and until the next tune begins, nothing switches
the LNB on, provided the monitor is not in a re-acquisition with its switch-on
still ahead, and starts none while the cached transponder has LNB power. -/
theorem lnb_stays_off_after_stop {clock : UInt32} {genericI2c : Bool}
    {before after : List engine.Event} {stopped final : engine.Config}
    (stops : engine.Run (opened clock genericI2c) (before ++ [.finish .command Call.lnbOff])
      stopped)
    (run : engine.Run stopped after final)
    (noTune : ∀ asked, .start .command (Call.tune asked) ∉ after)
    (settled : stopped.Avoids .monitor (· = Op.on) ReadsDark)
    (unpowered : ∀ cached : Transponder,
      .perform .monitor ⟨Op.getTransponder, cached⟩ ∈ after → ¬ Powers cached.lnbV) :
    ∀ thread performed, .perform thread performed ∈ after → performed.1 ≠ Op.on := by
  obtain ⟨locals, idle⟩ := stops.idle_of_finish
  have begins : Settled stopped := ⟨.of_idle idle, settled⟩
  have keeps : ∀ config event next, Settled config → event ∈ after →
      engine.Step config event next → Settled next ∧
        ∀ thread performed, event = .perform thread performed → performed.1 ≠ Op.on := by
    intro config event next settled member step
    apply settled.step step
    · exact fun asked tunes => noTune asked (tunes ▸ member)
    · exact fun cached reads => unpowered cached (reads ▸ member)
  have harmless := run.events_of_invariant Settled (· ∈ after) _ keeps (fun _ member => member)
    begins
  intro thread performed member
  exact harmless _ member thread performed rfl

/-- A whole monitor round while nothing was ever tuned. -/
def idleRound : List engine.Move := [.start .monitor (), .perform .monitor 9 silentReceiver]

def Event.readsCached : engine.Event → Bool
  | .perform _ ⟨.getTransponder, _⟩ => true
  | _ => false

/-- A STOP on a fresh engine. -/
def freshStop : engine.Config := ((opened 0 false).follow [.start .command Call.lnbOff,
  .perform .command 9 silentReceiver, .finish .command]).2

theorem freshStop_stops : engine.Run (opened 0 false) ([.start .command Call.lnbOff,
    .perform .command ⟨Op.getLnbEnabled, false⟩] ++ [.finish .command Call.lnbOff]) freshStop :=
  (opened 0 false).run_follow [.start .command Call.lnbOff, .perform .command 9 silentReceiver,
    .finish .command]

/-- Its next monitor round. -/
theorem lnb_stays_off_after_stop_fresh :
    (freshStop.follow idleRound).1.length = 4 ∧ ∀ thread performed,
      .perform thread performed ∈ (freshStop.follow idleRound).1 → performed.1 ≠ Op.on := by
  have quiet : (freshStop.follow idleRound).1.any Event.begins = false := by decide +kernel
  have unread : (freshStop.follow idleRound).1.any Event.readsCached = false := by decide +kernel
  refine ⟨by decide +kernel, lnb_stays_off_after_stop freshStop_stops
    (freshStop.run_follow idleRound) ?_ ?_ ?_⟩
  · exact fun asked member => List.any_eq_false.mp quiet _ member rfl
  · exact .of_idle rfl
  · exact fun cached member => (List.any_eq_false.mp unread _ member rfl).elim

/-! ### A run that breaks the promise -/

/-- A tune without a lock, then a STOP up to its return. -/
def stopSchedule : List engine.Move :=
  [.start .command (Call.tune someTransponder), .perform .command 400 silentReceiver,
    .finish .command, .start .command Call.lnbOff, .perform .command 400 silentReceiver]

def stopping : engine.Config := ((opened 0 false).follow stopSchedule).2

def stoppedConfig : engine.Config := (stopping.play (.finish .command)).2

theorem stopping_finishes :
    (stopping.play (.finish .command)).1 = [.finish .command Call.lnbOff] := by rfl

/-- The next monitor round finds more than five seconds of silence. -/
def silentRound : List engine.Move := [.start .monitor (), .perform .monitor 400 silentReceiver]

theorem lnb_switched_on_after_stop :
    ∃ (before after : List engine.Event) (stopped final : engine.Config),
      engine.Run (opened 0 false) (before ++ [.finish .command Call.lnbOff]) stopped ∧
      engine.Run stopped after final ∧
      (∀ asked, .start .command (Call.tune asked) ∉ after) ∧
      ∃ thread performed, .perform thread performed ∈ after ∧ performed.1 = Op.on := by
  have stops := ((opened 0 false).run_follow stopSchedule).append
    (stopping.run_play (.finish .command))
  rw [stopping_finishes] at stops
  have quiet : (stoppedConfig.follow silentRound).1.any Event.begins = false := by
    decide +kernel
  have switched : (stoppedConfig.follow silentRound).1.any Event.switchesOn = true := by
    decide +kernel
  refine ⟨_, _, _, _, stops, stoppedConfig.run_follow silentRound, ?_, ?_⟩
  · intro asked member
    exact List.any_eq_false.mp quiet _ member rfl
  · exact exists_on_of_any switched

end Engine
