import UsbDvbs2.Engine.Rda5815m

/-! # Tuning, the signal monitor, power down and close

The engine's entry points that drive the receiver, as the code of the threads
that run them.
-/

namespace Engine

open Concurrency Program

/-! ## LNB power and DiSEqC -/

/-- Cut LNB power and the tone. -/
def lnbPowerDown : Code Unit := do
  let enabled : Bool ← op .getLnbEnabled
  if enabled then
    let _ ← Avl62x1.set22khzTone false
    let _ ← Avl62x1.setLnbVoltage 0
    op (.setLnbEnabled false)
  else pure ()

/-- One pass over the switches: 1.1 first, then 1.0. -/
def diseqcPass (asked : Transponder) (repeated : Bool) : Code Int :=
  ifZero
    (if asked.uncommitted ≠ 0 then
      ifZero (Avl62x1.selectDiseqcUncommitted asked.uncommitted repeated) do
        sleep 50
        pure 0
    else pure 0)
    (if asked.diseqc ≠ 0 then
      ifZero (Avl62x1.selectDiseqcCommitted asked.diseqc (asked.lnbV == 18) (asked.tone == 22)
          repeated) do
        sleep 50
        pure 0
    else pure 0)

def diseqcPasses (asked : Transponder) : Nat → Bool → Code Int
  | 0, _ => .done 0
  | passes + 1, repeated =>
      ifZero (diseqcPass asked repeated) (diseqcPasses asked passes true)

/-- The pass counter is 32 bits wide, so the largest repeat count never ends. -/
def sendDiseqcSequence (asked : Transponder) : Code Int :=
  ifZero (diseqcPasses asked (asked.repeats.toNat + 1) false) <|
    if asked.repeats = 0xffffffff then do
      op .spin
      pure 0
    else if asked.burst ≠ 0 then
      ifZero (Avl62x1.sendToneBurst (asked.burst == 2)) do
        sleep 50
        pure 0
    else pure 0

theorem plain_diseqcPass (asked : Transponder) (repeated : Bool) :
    Plain (diseqcPass asked repeated) := by
  have pause : Plain (sleep 50 >>= fun _ => (pure 0 : Code Int)) :=
    .bind (plain_sleep 50) fun _ => .done 0
  apply Plain.ifZero
  · exact .ite (.ifZero (Avl62x1.plain_selectDiseqcUncommitted ..) pause) (.done 0)
  · exact .ite (.ifZero (Avl62x1.plain_selectDiseqcCommitted ..) pause) (.done 0)

theorem plain_sendDiseqcSequence (asked : Transponder) : Plain (sendDiseqcSequence asked) := by
  have passes : ∀ count repeated, Plain (diseqcPasses asked count repeated) := by
    intro count
    induction count with
    | zero => exact fun _ => .done 0
    | succ count ih => exact fun repeated => .ifZero (plain_diseqcPass asked repeated) (ih true)
  apply Plain.ifZero (passes _ _)
  apply Plain.ite (.bind (plain_op.mpr id) fun _ => .done 0)
  exact .ite (.ifZero (Avl62x1.plain_sendToneBurst _)
    (.bind (plain_sleep 50) fun _ => .done 0)) (.done 0)

/-! ## `daemon_tune` -/

/-- Whether the supply is power-cycled: asked for, or not locked. -/
def relightWanted : Code Bool := do
  let asked : Bool ← op .takeRelight
  if asked then pure true
  else
    let tuned : Bool ← op .getTuned
    pure (!tuned)

theorem plain_relightWanted : Plain relightWanted :=
  .bind (plain_op.mpr id) fun _ => .ite (.done _) (.bind (plain_op.mpr id) fun _ => .done _)

def Transponder.sameLnb (asked cached : Transponder) : Bool :=
  asked.lnbV == cached.lnbV && asked.tone == cached.tone && asked.diseqc == cached.diseqc &&
    asked.uncommitted == cached.uncommitted && asked.burst == cached.burst &&
    asked.repeats == cached.repeats

def lnbChanged (asked : Transponder) (relight : Bool) : Code Bool := do
  let cached : Transponder ← op .getLnbSettings
  if asked.sameLnb cached then
    let enabled : Bool ← op .getLnbEnabled
    pure (!enabled || relight)
  else pure true

theorem plain_lnbChanged (asked : Transponder) (relight : Bool) :
    Plain (lnbChanged asked relight) :=
  .bind (plain_op.mpr id) fun _ => .ite (.bind (plain_op.mpr id) fun _ => .done _) (.done _)

def blindFilterKsps : UInt32 := 40000
def blindNominalKsps : UInt32 := 20000

/-- A symbol rate of zero asks for a blind acquisition. -/
def Transponder.blind (asked : Transponder) : Bool := asked.srKsps == 0

def noSignal : SignalStatus := ⟨false, false, false, -10000, 0⟩

def programTuner (asked : Transponder) : Code Int := do
  op (.stage 92 "Tuning transponder")
  let rc ← ifZero (Avl62x1.setTunerI2c true)
    (Rda5815m.tune asked.freqKhz (if asked.blind then blindFilterKsps else asked.srKsps) false)
  let _ ← Avl62x1.setTunerI2c false
  pure rc

theorem plain_programTuner (asked : Transponder) : Plain (programTuner asked) := by
  apply Plain.bind (plain_op.mpr id)
  intro staged
  apply Plain.bind (.ifZero (Avl62x1.plain_setTunerI2c true) (Rda5815m.plain_tune ..))
  intro rc
  exact .bind (Avl62x1.plain_setTunerI2c false) fun _ => .done rc

/-- A board that latched its supply off needs the enable pin low once. -/
def cutForRelight : Code Unit := do
  let _ ← Avl62x1.setLnbVoltage 0
  sleep 120
  op (.setLnbEnabled false)

/-- What follows a successful switch to 13 or 18 V. -/
def afterSwitchOn (asked : Transponder) : Code Int := do
  let coldDone : Bool ← op .getLnbColdDone
  sleep (if coldDone then 150 else 500)
  op .setLnbColdDone
  let rc ← sendDiseqcSequence asked
  if rc ≠ 0 then pure (-1)
  else
    let _ ← Avl62x1.set22khzTone (asked.tone == 22)
    sleep 100
    pure 0

theorem plain_afterSwitchOn (asked : Transponder) : Plain (afterSwitchOn asked) := by
  apply Plain.bind (plain_op.mpr id)
  intro coldDone
  apply Plain.bind (plain_sleep _)
  intro slept
  apply Plain.bind (plain_op.mpr id)
  intro noted
  apply Plain.bind (plain_sendDiseqcSequence asked)
  intro rc
  apply Plain.ite (.done _)
  exact .bind (Avl62x1.plain_set22khzTone _) fun _ => .bind (plain_sleep 100) fun _ => .done 0

def switchOn (asked : Transponder) : Code Int := do
  let rc ← Avl62x1.setLnbVoltage asked.lnbV
  if rc ≠ 0 then pure (-1)
  else
    op (.setLnbEnabled true)
    afterSwitchOn asked

def switchLnb (asked : Transponder) (relight changed : Bool) : Code Int :=
  if changed then
    if asked.lnbV = 0 then do
      lnbPowerDown
      pure 0
    else do
      op (.stage 94 "Switching LNB / DiSEqC")
      when relight cutForRelight
      switchOn asked
  else .done 0

/-- What the poll loop knows: whether it locked, the symbol rate it found, and
how many complete samples came in a row. -/
structure Poll where
  locked : Bool := false
  foundSrKsps : UInt32 := 0
  stableSamples : Nat := 0

/-- LOCK can be raised before the other registers follow. -/
def SignalStatus.complete (status : SignalStatus) : Bool :=
  status.fecLocked && status.frameLocked && decide (status.snrDbX100 > -1000) &&
    status.symbolRateHz != 0

def twoDigits (value : Nat) : String :=
  if value < 10 then s!"0{value}" else s!"{value}"

def lockStableLine (blind : Bool) (status : SignalStatus) (poll : Nat) : String :=
  let how := if blind then " (blind)" else ""
  let whole := Int.tdiv status.snrDbX100 100
  let hundredths := twoDigits (Int.tmod status.snrDbX100 100).natAbs
  let ms := (poll + 1) * 80
  s!"Lock stable{how}: SNR={whole}.{hundredths} dB SR={status.symbolRateHz} ({ms} ms)\n"

def pollLimit (blind : Bool) : Nat := if blind then 45 else 25

/-- The poll loop with the polls still allowed; a failed read ends it. -/
def pollSignal (blind : Bool) : Nat → Poll → Code Poll
  | 0, poll => .done poll
  | left + 1, poll => do
      let quit : Bool ← op .getQuit
      if quit then pure poll
      else
        sleep 80
        match ← Avl62x1.getSignalStatus with
        | .error _ => pure poll
        | .ok status =>
            if status.locked then
              op (.setStatus status)
              if status.complete then
                let found := (status.symbolRateHz + 500) / 1000
                if poll.stableSamples + 1 ≥ 2 then
                  op (.log (lockStableLine blind status (pollLimit blind - (left + 1))))
                  pure ⟨true, found, poll.stableSamples + 1⟩
                else pollSignal blind left ⟨true, found, poll.stableSamples + 1⟩
              else pollSignal blind left ⟨true, poll.foundSrKsps, 0⟩
            else pollSignal blind left { poll with stableSamples := 0 }

theorem quiet_pollSignal (blind : Bool) (left : Nat) (poll : Poll) :
    Quiet (pollSignal blind left poll) := by
  induction left generalizing poll with
  | zero => exact .done poll
  | succ left ih =>
      apply Quiet.bind (quiet_op.mpr id)
      intro quit
      apply Quiet.ite (.done poll) (.bind (quiet_sleep 80) _)
      intro slept
      apply Quiet.bind Avl62x1.plain_getSignalStatus.quiet
      intro answer
      rcases answer with rc | status
      · exact .done poll
      · refine .ite (.bind (quiet_op.mpr id) fun _ => .ite (.ite ?_ (ih _)) (ih _)) (ih _)
        exact .bind (quiet_op.mpr id) fun _ => .done _

/-- Cache the transponder, with the symbol rate a blind search found. -/
def storeTransponder (asked : Transponder) (poll : Poll) : Code Int := do
  op (.setTransponder { asked with
    srKsps := if asked.blind && poll.locked && poll.foundSrKsps != 0 then poll.foundSrKsps
      else asked.srKsps })
  if poll.locked then
    op (.setTuned true)
    op (.stage 100 "Broadcast ready")
    pure 0
  else
    op (.log "No lock was achieved.\n")
    pure 1

def searchSignal (asked : Transponder) : Code Int := do
  op (.stage 96 "Searching for signal")
  let rc ← Avl62x1.acquire ((if asked.blind then blindNominalKsps else asked.srKsps) * 1000) 0
    asked.blind
  if rc ≠ 0 then
    op (.error s!"acquire rc={rc}\n")
    pure (-1)
  else
    let poll ← pollSignal asked.blind (pollLimit asked.blind) {}
    storeTransponder asked poll

def daemonTune (asked : Transponder) : Code Int := do
  let relight ← relightWanted
  let changed ← lnbChanged asked relight
  op (.setTuned false)
  op (.setStatus noSignal)
  let rc ← programTuner asked
  if rc ≠ 0 then
    op (.error s!"tune rc={rc}\n")
    pure (-1)
  else
    let rc ← switchLnb asked relight changed
    if rc ≠ 0 then pure (-1) else searchSignal asked

/-! ## Public calls -/

def sameTransponder (asked : Transponder) : Code Bool := do
  let cached : Transponder ← op .getTransponder
  if asked ≠ cached then pure false
  else
    let tuned : Bool ← op .getTuned
    if !tuned then pure false
    else
      let now : UInt32 ← op .tick32
      let last : UInt32 ← op .getStreamDataTick
      pure (decide (now - last < 3000))

theorem quiet_sameTransponder (asked : Transponder) : Quiet (sameTransponder asked) :=
  .bind (quiet_op.mpr id) fun _ => .ite (.done _) <| .bind (quiet_op.mpr id) fun _ =>
    .ite (.done _) <| .bind (quiet_op.mpr id) fun _ => .bind (quiet_op.mpr id) fun _ => .done _

/-- Restart the silence clock and let the next tune in. -/
def releaseTune : Code Unit := do
  let now : UInt32 ← op .tick32
  op (.setStreamDataTick now)
  op .unlockTune

theorem quiet_releaseTune : Quiet releaseTune :=
  .bind (quiet_op.mpr id) fun _ => .bind (quiet_op.mpr id) fun _ => quiet_op.mpr id

def tune (asked : Transponder) : Code Int := do
  let skip ← sameTransponder asked
  if skip then
    op (.log "TUNE skipped (same transponder).\n")
    pure 0
  else
    op .lockTune
    let rc ← daemonTune asked
    releaseTune
    pure rc

def lnbOff : Code Unit := lnbPowerDown

def setChannel (channel : Channel) : Code Unit := op (.setChannel channel)

/-- The USB handle is closed only when the stream thread came back. -/
def close : Code Unit := do
  let running : Bool ← op .getStreamThread
  if running then
    op .setQuit
    let rc : Int ← op (.joinStreamThread 8000)
    let streamStopped := rc == 0
    lnbPowerDown
    when (!streamStopped) (op .detachStreamThread)
    op .clearStreamThread
    op .stopCamd
    op .destroyCsa
    op .destroyLocks
    when streamStopped (op .closeUsb)
  else pure ()

/-! ## The signal monitor -/

/-- Never locked, or locked and then gone silent. -/
def streamSilent : Code Bool := do
  let now : UInt32 ← op .tick32
  let last : UInt32 ← op .getStreamDataTick
  let tuned : Bool ← op .getTuned
  pure (if tuned then decide (8000 < now - last) else decide (5000 < now - last))

theorem plain_streamSilent : Plain streamSilent :=
  .bind (plain_op.mpr id) fun _ => .bind (plain_op.mpr id) fun _ =>
    .bind (plain_op.mpr id) fun _ => .done _

/-- Only a status read that came back says anything about the carrier. -/
def askDemod : Code (Option SignalStatus) := do
  let tuned : Bool ← op .getTuned
  if tuned then
    match ← Avl62x1.getSignalStatus with
    | .error _ => pure none
    | .ok status => pure (some status)
  else pure none

theorem plain_askDemod : Plain askDemod := by
  apply Plain.bind (plain_op.mpr id)
  intro tuned
  apply Plain.ite _ (.done _)
  apply Plain.bind Avl62x1.plain_getSignalStatus
  intro answer
  rcases answer with rc | status
  · exact .done _
  · exact .done _

def reacquire : Code Unit := do
  op .setRelight
  op (.log "Re-acquiring the carrier.\n")
  let cached : Transponder ← op .getTransponder
  let _ ← daemonTune cached
  pure ()

def checkCarrier : Code Unit := do
  match ← askDemod with
  | some status =>
      if status.locked then
        op (.log "Carrier still locked; USB stream stalled, waiting it out.\n")
      else reacquire
  | none =>
      let tuned : Bool ← op .getTuned
      if tuned then
        op (.log "The demodulator could not be asked; USB stream stalled, waiting it out.\n")
      else reacquire

/-- One round of the monitor's loop; it answers whether the loop goes on. -/
def monitorRound : Code Bool := do
  let quit : Bool ← op .getQuit
  if quit then pure false
  else
    sleep 1000
    let freqKhz : UInt32 ← op .getFreqKhz
    if freqKhz = 0 then pure true
    else
      let quit : Bool ← op .getQuit
      if quit then pure true
      else
        let silent ← streamSilent
        if silent then
          op .lockTune
          checkCarrier
          releaseTune
          pure true
        else pure true

/-- 13 V on an ordinary carrier. -/
def someTransponder : Transponder := ⟨1200000, 27500, 13, 0, 0, 0, 0, 0⟩

/-- The status registers of a demodulator locked to it. -/
def lockedData : Op → List UInt8
  | .demodReadAt reg _ =>
      if reg = Avl62x1.regSymbolRate then [0x01, 0xa3, 0x9d, 0xe0]
      else if reg = Avl62x1.regSnrDbX100 then [0x04, 0xb0]
      else if reg = Avl62x1.regLock ∨ reg = Avl62x1.regFecLock ∨ reg = Avl62x1.regFrameLock then [1]
      else []
  | _ => []

/-- Every message goes through, and the demodulator is locked. -/
def lockedReceiver : Op → Input := environment (fun _ => false) lockedData

/-! ## Cold init -/

/-- The firmware is loaded into a bridge that does not answer with a version. -/
def loadBridgeFirmware : Code Int := do
  let version : Int ← op (.bringUp .queryFwVersion)
  if version ≠ 0 then op (.bringUp .loadBridgeFirmware) else pure 0

/-- From the USB device to the demodulator's chip id. -/
def bringUpBridge (deviceIndex : UInt32) : Code Int := do
  op (.stage 5 "Looking for USB tuner")
  let opened : Int ← op (.bringUp .openIndex)
  if opened ≠ 0 then
    op (.error s!"USB device {deviceIndex} could not be opened.\n")
    pure (-1)
  else
    let rc ← untilFailure [op (.bringUp .attach), op (.bringUp .identify)]
    if rc ≠ 0 then pure (-1)
    else
      op (.stage 15 "Loading USB bridge firmware")
      let loaded ← loadBridgeFirmware
      if loaded ≠ 0 then pure (-1)
      else
        let rc : Int ← op (.bringUp .bridgeInit)
        if rc ≠ 0 then pure (-1)
        else
          let _ ← op (.bringUp .setI2cBus)
          let _ ← op (.bringUp (.gpioSet true))
          sleep 100
          let _ ← op (.bringUp (.gpioSet false))
          sleep 200
          let _ ← op (.bringUp (.gpioSet true))
          sleep 100
          pure 0

def chipId : UInt32 := 0x62615ca8

def findDemod : Code Int := do
  match ← Avl62x1.read32 0x040000 with
  | .error _ =>
      op (.error "AVL6261 not found: 0x00000000\n")
      pure (-1)
  | .ok found =>
      if found ≠ chipId then
        let hex := found.toBitVec.toHex
        op (.error s!"AVL6261 not found: 0x{hex}\n")
        pure (-1)
      else pure 0

/-- The engine's transport stream output: serial, adaptive clock. -/
def tsConfig : Avl62x1.TsConfig where
  mode := 1
  format := 0
  clockRising := true
  clockPhase := 0
  adaptiveClock := true
  errorInverted := false
  validInverted := false
  serialDataPin := 0
  serialMsbFirst := true

def startTuner (core : UInt32) : Code Int :=
  ifZero (Avl62x1.initTunerI2c core) <|
    ifZero (Avl62x1.setTunerI2c true) do
      op (.stage 70 "Starting tuner")
      let rc ← Rda5815m.init
      let _ ← Avl62x1.setTunerI2c false
      pure rc

/-- The demodulator from its firmware to DiSEqC, with paced writes. -/
def startDemod : Code Int := do
  op (.setColdInitPacing true)
  op (.stage 35 "Loading demodulator firmware")
  let rc ← untilFailure [op (.bringUp .loadDemodFirmware), Avl62x1.waitReady 50 100]
  if rc ≠ 0 then
    op (.error "AVL6261 firmware failed to boot.\n")
    pure (-1)
  else
    op (.stage 55 "Configuring demodulator clocks")
    match ← Avl62x1.loadDefaults 1 120000000 with
    | .error _ => pure (-1)
    | .ok core =>
        if core < 10000000 ∨ core > 500000000 then pure (-1)
        else
          untilFailure [
            startTuner core,
            Avl62x1.initDemodInput false,
            Avl62x1.configureTs tsConfig true,
            do
              op (.stage 85 "Preparing LNB / DiSEqC")
              Avl62x1.initDiseqc core]

/-- `supported` says that the profile names the parts this code drives. -/
def daemonColdInit (supported : Bool) (deviceIndex : UInt32) : Code Int :=
  if supported then do
    let rc ← untilFailure [bringUpBridge deviceIndex, findDemod]
    if rc ≠ 0 then pure (-1)
    else
      let rc ← startDemod
      if rc ≠ 0 then
        op (.setColdInitPacing false)
        pure (-1)
      else
        let _ ← Avl62x1.set22khzTone false
        let _ ← Avl62x1.setLnbVoltage 0
        op (.setColdInitPacing false)
        op (.stage 90 "Hardware ready")
        op (.log "Daemon cold-init complete.\n")
        pure 0
  else .done (-1)

theorem plain_bringUpBridge (deviceIndex : UInt32) : Plain (bringUpBridge deviceIndex) := by
  have call : ∀ step, Plain (op (.bringUp step)) := fun step => plain_op.mpr id
  have say : ∀ percent text, Plain (op (.stage percent text)) := fun _ _ => plain_op.mpr id
  apply Plain.bind (say ..)
  intro staged
  apply Plain.bind (call _)
  intro opened
  apply Plain.ite (.bind (plain_op.mpr id) fun _ => .done _)
  apply Plain.bind (.untilFailure (by simp [call]))
  intro identified
  apply Plain.ite (.done _) (.bind (say ..) _)
  intro loading
  apply Plain.bind (.bind (call _) fun _ => .ite (call _) (.done 0))
  intro loaded
  apply Plain.ite (.done _) (.bind (call _) _)
  intro initialised
  apply Plain.ite (.done _)
  exact .bind (call _) fun _ => .bind (call _) fun _ => .bind (plain_sleep _) fun _ =>
    .bind (call _) fun _ => .bind (plain_sleep _) fun _ => .bind (call _) fun _ =>
      .bind (plain_sleep _) fun _ => .done 0

theorem plain_findDemod : Plain findDemod := by
  apply Plain.bind (Avl62x1.plain_read32 _)
  intro answer
  rcases answer with rc | found
  · exact .bind (plain_op.mpr id) fun _ => .done _
  · exact .ite (.bind (plain_op.mpr id) fun _ => .done _) (.done 0)

theorem plain_startDemod : Plain startDemod := by
  apply Plain.bind (plain_op.mpr id)
  intro paced
  apply Plain.bind (plain_op.mpr id)
  intro staged
  have load : Plain (op (.bringUp .loadDemodFirmware)) := plain_op.mpr id
  apply Plain.bind (.untilFailure (by simp [load, Avl62x1.plain_waitReady]))
  intro rc
  apply Plain.ite (.bind (plain_op.mpr id) fun _ => .done _) (.bind (plain_op.mpr id) _)
  intro configuring
  apply Plain.bind (Avl62x1.plain_loadDefaults ..)
  intro answer
  rcases answer with rc | core
  · exact .done _
  apply Plain.ite (.done _)
  have tuner : Plain (startTuner core) :=
    .ifZero (Avl62x1.plain_initTunerI2c core) (.ifZero (Avl62x1.plain_setTunerI2c true)
      (.bind (plain_op.mpr id) fun _ => .bind Rda5815m.plain_init fun _ =>
        .bind (Avl62x1.plain_setTunerI2c false) fun _ => .done _))
  have diseqc : Plain (op (.stage 85 "Preparing LNB / DiSEqC") >>= fun _ =>
      Avl62x1.initDiseqc core) :=
    .bind (plain_op.mpr id) fun _ => Avl62x1.plain_initDiseqc core
  apply Plain.untilFailure
  simp only [List.forall_mem_cons]
  exact ⟨tuner, Avl62x1.plain_initDemodInput false, Avl62x1.plain_configureTs tsConfig true,
    diseqc, fun _ none => (List.not_mem_nil none).elim⟩

end Engine
