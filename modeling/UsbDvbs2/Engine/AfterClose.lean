import UsbDvbs2.Engine.CommandMonitor

/-! # The receiver after a close

A close joins the stream thread and closes the USB handle under it. The monitor
is detached and may still be inside a round; what it then does to the closed
handle depends on where it was.
-/

namespace Engine

open Concurrency Program ThreadSystem

variable {may : (operation : Op) → operation.Answer → Prop}

/-- The operations that are commands on the USB bridge. -/
def Op.OnBridge : Op → Prop
  | .demodWrite .. | .demodSelect .. | .demodRead .. | .demodReadAt .. | .tunerWrite ..
  | .bringUp .. => True
  | _ => False

/-- The quit flag reads as set, and the tune lock is not taken. -/
def Leaving : (operation : Op) → operation.Answer → Prop
  | .getQuit, quit => quit = true
  | .lockTune, _ => False
  | _, _ => True

/-! ## The quit flag -/

theorem State.quit_passages (state : State) (passages : List Passage) :
    (passages.foldl State.pass state).quit = state.quit :=
  State.passages_keep State.quit (fun _ passage => by cases passage <;> rfl) state passages

theorem State.usbClosed_passages (state : State) (passages : List Passage) :
    (passages.foldl State.pass state).usbClosed = state.usbClosed :=
  State.passages_keep State.usbClosed (fun _ passage => by cases passage <;> rfl) state passages

/-- Only `setQuit` raises the quit mark, and nothing clears it. -/
theorem effect_quit {operation : Op} {input : Input} {state next : State}
    {answer : operation.Answer}
    (performed : effect operation input state = some (answer, next)) :
    (operation = .setQuit → next.quit = true) ∧ (state.quit = true → next.quit = true) := by
  cases operation with
  | setQuit => cases performed; exact ⟨fun _ => rfl, fun _ => rfl⟩
  | sleep | lockTune =>
      simp only [effect, Option.ite_none_right_eq_some, Option.ite_none_left_eq_some] at performed
      cases performed.2
      exact ⟨fun set => by contradiction, id⟩
  | paceWrite =>
      simp only [effect, State.paceWrite] at performed
      split at performed <;> (cases performed; exact ⟨fun set => by contradiction, id⟩)
  | spin => cases performed
  | _ => cases performed; exact ⟨fun set => by contradiction, id⟩

/-- Only `closeUsb` marks the handle as closed. -/
theorem effect_usbClosed {operation : Op} {input : Input} {state next : State}
    {answer : operation.Answer} (other : operation ≠ .closeUsb)
    (performed : effect operation input state = some (answer, next)) :
    next.usbClosed = state.usbClosed := by
  cases operation with
  | closeUsb => exact (other rfl).elim
  | sleep | lockTune =>
      simp only [effect, Option.ite_none_right_eq_some, Option.ite_none_left_eq_some] at performed
      cases performed.2
      rfl
  | paceWrite =>
      simp only [effect, State.paceWrite] at performed
      split at performed <;> (cases performed; rfl)
  | spin => cases performed
  | _ => cases performed; rfl

theorem exec_quit {operation : Op} {input : Input} {state next : State}
    {answer : operation.Answer}
    (performed : machine.exec operation input state = some (answer, next)) :
    (operation = .setQuit → next.quit = true) ∧ (state.quit = true → next.quit = true) := by
  have quit := effect_quit performed
  rwa [State.quit_passages] at quit

theorem foreign_closeUsb : Foreign (· = .closeUsb) where
  books _ is := is ▸ trivial
  flag _ is := nomatch is
  tuned _ is := nomatch is
  transponder _ is := nomatch is
  off is := nomatch is
  select _ is := nomatch is

/-- No call closes the handle without raising the quit mark first. -/
theorem Call.avoids_closeUsb (call : Call) :
    call.code.Avoids (· = Op.closeUsb) fun operation _ => operation ≠ Op.setQuit := by
  cases call with
  | tune asked =>
      exact (foreign_closeUsb.avoids_tune fun _ is => nomatch is).bind fun _ => avoids_done _
  | setChannel channel => exact foreign_closeUsb.avoids_quiet_op id
  | lnbOff => exact foreign_closeUsb.avoids_lnbPowerDown
  | close =>
      apply (foreign_closeUsb.avoids_quiet_op id).bind
      intro running
      refine Avoids.ite (fun _ => ?_) fun _ => avoids_done _
      exact ⟨fun is => (nomatch is), fun _ quits => (quits rfl).elim⟩

/-- The handle is only ever closed with the quit mark raised. -/
structure Orderly (config : engine.Config) : Prop where
  quit : config.shared.usbClosed = true → config.shared.quit = true
  command : config.shared.quit = true ∨
    config.Avoids .command (· = Op.closeUsb) fun operation _ => operation ≠ Op.setQuit
  monitor : config.Avoids .monitor (· = Op.closeUsb) fun _ _ => True

theorem orderly_opened (clock : UInt32) (genericI2c : Bool) :
    Orderly (opened clock genericI2c) :=
  ⟨nofun, .inr (.of_idle rfl), .of_idle rfl⟩

theorem Orderly.step {config next : engine.Config} {event : engine.Event}
    (orderly : Orderly config) (step : engine.Step config event next) : Orderly next := by
  have monitor := monitor_avoids step orderly.monitor
    (foreign_closeUsb.avoids_monitorRound fun _ _ _ is => nomatch is) fun _ _ => trivial
  -- while the mark is down the command thread is still short of closing
  have command : config.shared.quit = true ∨
      ((∀ performed, event = .perform .command performed → performed.1 ≠ Op.setQuit) →
        next.Avoids .command (· = Op.closeUsb) (fun operation _ => operation ≠ Op.setQuit) ∧
        ∀ performed, event = .perform .command performed → performed.1 ≠ Op.closeUsb) :=
    orderly.command.imp_right fun avoids others =>
      command_avoids step avoids (fun call _ => call.avoids_closeUsb) others
  cases step with
  | start =>
      refine ⟨orderly.quit, ?_, monitor.1⟩
      exact command.imp_right fun settles => (settles fun _ impossible => nomatch impossible).1
  | finish =>
      refine ⟨orderly.quit, ?_, monitor.1⟩
      exact command.imp_right fun settles => (settles fun _ impossible => nomatch impossible).1
  | @perform thread call operation rest input answer shared here performed =>
      have raises := exec_quit performed
      by_cases quits : operation = .setQuit
      · exact ⟨fun _ => raises.1 quits, .inl (raises.1 quits), monitor.1⟩
      rcases command with raised | settles
      · exact ⟨fun _ => raises.2 raised, .inl (raises.2 raised), monitor.1⟩
      obtain ⟨avoids, commandOpen⟩ := settles fun done equal => by cases equal; exact quits
      have other : operation ≠ .closeUsb := by
        cases thread with
        | command => exact commandOpen ⟨operation, answer⟩ rfl
        | monitor => exact monitor.2 ⟨operation, answer⟩ rfl
      have same : shared.usbClosed = config.shared.usbClosed :=
        (effect_usbClosed other performed).trans (State.usbClosed_passages ..)
      exact ⟨fun closed => raises.2 (orderly.quit (same ▸ closed)), .inr avoids, monitor.1⟩

/-! ## After the close -/

/-- The quit mark is up, the command thread is idle, and the monitor is past
everything that could reach the bridge. -/
structure Left (config : engine.Config) : Prop where
  quit : config.shared.quit = true
  command : config.Avoids .command (fun _ => True) fun _ _ => True
  monitor : config.Avoids .monitor Op.OnBridge Leaving

theorem monitorRound_leaves : monitorRound.Avoids Op.OnBridge Leaving := by
  refine ⟨id, fun quit raised => ?_⟩
  rw [show quit = true from raised]
  exact avoids_done _

theorem Left.step {config next : engine.Config} {event : engine.Event} (left : Left config)
    (step : engine.Step config event next)
    (noCall : ∀ call : Call, event ≠ .start .command call)
    (unlocked : event ≠ .perform .monitor ⟨Op.lockTune, ()⟩) :
    Left next ∧ ∀ thread performed, event = .perform thread performed →
      ¬ Op.OnBridge performed.1 := by
  have leaving : ∀ performed, event = .perform .monitor performed →
      Leaving performed.1 performed.2 := by
    intro performed performs
    obtain ⟨operation, answer⟩ := performed
    cases operation with
    | lockTune => exact unlocked performs
    | getQuit =>
        cases step with
        | start => cases performs
        | finish => cases performs
        | perform here ran =>
            cases performs
            cases ran
            exact (State.quit_passages ..).trans left.quit
    | _ => trivial
  have command := command_avoids step left.command
    (fun call begins => (noCall call begins).elim) fun _ _ => trivial
  have monitor := monitor_avoids step left.monitor monitorRound_leaves leaving
  have quit : next.shared.quit = true := by
    cases step with
    | start => exact left.quit
    | finish => exact left.quit
    | perform here ran => exact (exec_quit ran).2 left.quit
  refine ⟨⟨quit, command.1, monitor.1⟩, fun thread performed performs => ?_⟩
  cases thread with
  | command => exact (command.2 performed performs trivial).elim
  | monitor => exact monitor.2 performed performs

/-- Once a close has returned with the handle closed, no thread commands the
bridge again, provided the monitor was not in a round with bridge commands
still ahead and finds no silent stream afterwards. -/
theorem receiver_left_alone_after_close {clock : UInt32} {genericI2c : Bool}
    {before after : List engine.Event} {closed final : engine.Config}
    (closes : engine.Run (opened clock genericI2c) (before ++ [.finish .command Call.close]) closed)
    (released : closed.shared.usbClosed = true) (run : engine.Run closed after final)
    (noCall : ∀ call : Call, .start .command call ∉ after)
    (settled : closed.Avoids .monitor Op.OnBridge Leaving)
    (unlocked : .perform .monitor ⟨Op.lockTune, ()⟩ ∉ after) :
    ∀ thread performed, .perform thread performed ∈ after → ¬ Op.OnBridge performed.1 := by
  obtain ⟨locals, idle⟩ := closes.idle_of_finish
  have orderly : Orderly closed :=
    closes.invariant Orderly (fun _ => True) (fun _ _ _ orderly _ step => orderly.step step)
      (fun _ _ => trivial) (orderly_opened clock genericI2c)
  have begins : Left closed := ⟨orderly.quit released, .of_idle idle, settled⟩
  have keeps : ∀ config event next, Left config → event ∈ after →
      engine.Step config event next → Left next ∧
        ∀ thread performed, event = .perform thread performed → ¬ Op.OnBridge performed.1 := by
    intro config event next left member step
    apply left.step step
    · exact fun call calls => noCall call (calls ▸ member)
    · exact fun locks => unlocked (locks ▸ member)
  have harmless := run.events_of_invariant Left (· ∈ after) _ keeps (fun _ member => member) begins
  intro thread performed member
  exact harmless _ member thread performed rfl

/-- A close of a fresh engine. -/
def freshClose : List engine.Move :=
  [.start .command Call.close, .perform .command 400 silentReceiver]

def freshClosing : engine.Config := ((opened 0 false).follow freshClose).2

def freshClosed : engine.Config := (freshClosing.play (.finish .command)).2

theorem freshClosing_finishes :
    (freshClosing.play (.finish .command)).1 = [.finish .command Call.close] := by rfl

def Event.locksTune : engine.Event → Bool
  | .perform _ ⟨.lockTune, _⟩ => true
  | _ => false

/-- The monitor's last round after it. -/
def lastRound : List engine.Move :=
  [.start .monitor (), .perform .monitor 400 silentReceiver, .finish .monitor]

theorem receiver_left_alone_after_close_fresh :
    (freshClosed.follow lastRound).1.length = 3 ∧ ∀ thread performed,
      .perform thread performed ∈ (freshClosed.follow lastRound).1 →
        ¬ Op.OnBridge performed.1 := by
  have closes := ((opened 0 false).run_follow freshClose).append
    (freshClosing.run_play (.finish .command))
  rw [freshClosing_finishes] at closes
  have quiet : (freshClosed.follow lastRound).1.any Event.begins = false := by decide +kernel
  have unlocked : (freshClosed.follow lastRound).1.any Event.locksTune = false := by
    decide +kernel
  refine ⟨by decide +kernel, receiver_left_alone_after_close closes (by rfl)
    (freshClosed.run_follow lastRound) ?_ ?_ ?_⟩
  · exact fun call member => List.any_eq_false.mp quiet _ member rfl
  · exact .of_idle rfl
  · exact fun member => List.any_eq_false.mp unlocked _ member rfl

/-! ### A run that breaks the promise -/

/-- A tune without a lock; the monitor then begins to re-acquire, and has not
yet reached the tuner when the engine is closed. -/
def closeSchedule : List engine.Move :=
  [.start .command (Call.tune someTransponder), .perform .command 400 silentReceiver,
    .finish .command, .start .monitor (), .perform .monitor 14 silentReceiver,
    .start .command Call.close, .perform .command 400 silentReceiver]

def closing : engine.Config := ((opened 0 false).follow closeSchedule).2

def closedConfig : engine.Config := (closing.play (.finish .command)).2

theorem closing_finishes :
    (closing.play (.finish .command)).1 = [.finish .command Call.close] := by rfl

/-- The monitor finishes its tune on the closed handle and powers the LNB. -/
theorem receiver_driven_after_close :
    ∃ (before after : List engine.Event) (closed final : engine.Config),
      engine.Run (opened 0 false) (before ++ [.finish .command Call.close]) closed ∧
      closed.shared.usbClosed = true ∧ engine.Run closed after final ∧
      (∀ call : Call, .start .command call ∉ after) ∧
      ∃ thread performed, .perform thread performed ∈ after ∧ performed.1 = Op.on := by
  have closes := ((opened 0 false).run_follow closeSchedule).append
    (closing.run_play (.finish .command))
  rw [closing_finishes] at closes
  have quiet : (closedConfig.follow [.perform .monitor 400 silentReceiver]).1.any Event.begins =
      false := by decide +kernel
  have switched :
      (closedConfig.follow [.perform .monitor 400 silentReceiver]).1.any Event.switchesOn =
        true := by decide +kernel
  refine ⟨_, _, _, _, closes, by rfl,
    closedConfig.run_follow [.perform .monitor 400 silentReceiver], ?_, exists_on_of_any switched⟩
  exact fun call member => List.any_eq_false.mp quiet _ member rfl

end Engine
