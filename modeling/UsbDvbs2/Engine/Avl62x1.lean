import UsbDvbs2.Engine.Receiver

/-! # The AVL62x1 demodulator

Register access over the bridge, and the demodulator commands the engine uses:
tuning, status, the LNB control pins, the 22 kHz tone and DiSEqC. Every function
answers zero or the code of the first message that failed.
-/

namespace Engine

open Concurrency Program

def op (operation : Op) : Code operation.Answer := perform (S := signature) operation

def sleep (ms : UInt32) : Code Unit := op (.sleep ms)

@[simp] theorem quiet_op {operation : Op} : Quiet (op operation) ↔ ¬ operation.Books :=
  avoids_perform (S := signature) operation

@[simp] theorem quiet_sleep (ms : UInt32) : Quiet (sleep ms) := quiet_op.mpr id

@[simp] theorem plain_op {operation : Op} : Plain (op operation) ↔ ¬ operation.Desk :=
  avoids_perform (S := signature) operation

@[simp] theorem plain_sleep (ms : UInt32) : Plain (sleep ms) := plain_op.mpr id

namespace Avl62x1

/-! ## Register access -/

def writeDataMax : Nat := 32

def breathe : Code Unit := do
  let pause : Bool ← op .paceWrite
  when pause (sleep 1)

/-- The loop of `avl_write`: at most 32 bytes a message. -/
def writeChunks : Nat → UInt32 → List UInt8 → Code Int
  | 0, _, _ => .done 0
  | rounds + 1, reg, data =>
      if data.isEmpty then .done 0
      else ifZero (op (.demodWrite reg (data.take writeDataMax))) do
        breathe
        writeChunks rounds (reg + (data.take writeDataMax).length.toUInt32)
          (data.drop writeDataMax)

def write (reg : UInt32) (data : List UInt8) : Code Int :=
  writeChunks data.length reg data

def received (answer : Int × List UInt8) : Except Int (List UInt8) :=
  if answer.1 ≠ 0 then .error answer.1 else .ok answer.2

/-- The newer bridges take a register read as two messages. -/
def read (reg : UInt32) (size : Nat) : Code (Except Int (List UInt8)) := do
  let generic : Bool ← op .getGenericI2c
  if generic then
    let rc : Int ← op (.demodSelect reg)
    if rc ≠ 0 then pure (.error rc)
    else
      let answer : Int × List UInt8 ← op (.demodRead size)
      pure (received answer)
  else
    let answer : Int × List UInt8 ← op (.demodReadAt reg size)
    pure (received answer)

def read8 (reg : UInt32) : Code (Except Int UInt8) := do
  let bytes ← read reg 1
  pure (bytes.map fun data => data.getD 0 0)

def be16 (data : List UInt8) : UInt16 :=
  (data.getD 0 0).toUInt16 <<< 8 ||| (data.getD 1 0).toUInt16

def read16 (reg : UInt32) : Code (Except Int UInt16) := do
  let bytes ← read reg 2
  pure (bytes.map be16)

def read32 (reg : UInt32) : Code (Except Int UInt32) := do
  let bytes ← read reg 4
  pure (bytes.map fun data => (be32At data).getD 0)

def write8 (reg : UInt32) (value : UInt8) : Code Int := write reg [value]

def write16 (reg : UInt32) (value : UInt16) : Code Int :=
  write reg [(value >>> 8).toUInt8, value.toUInt8]

def bytes32 (value : UInt32) : List UInt8 :=
  [(value >>> 24).toUInt8, (value >>> 16).toUInt8, (value >>> 8).toUInt8, value.toUInt8]

def write32 (reg : UInt32) (value : UInt32) : Code Int := write reg (bytes32 value)

/-! None of these accesses disturbs the LNB books unless it names an LNB register. -/

theorem plain_breathe : Plain breathe := by
  apply Plain.bind (plain_op.mpr id)
  intro pause
  exact Avoids.when fun _ => plain_sleep 1

/-- Data of one message: the chunk loop runs once. -/
theorem write_single {data : List UInt8} (reg : UInt32) (some : data ≠ [])
    (short : data.length ≤ writeDataMax) :
    write reg data = ifZero (op (.demodWrite reg data)) (breathe >>= fun _ => .done 0) := by
  have once : ∀ rounds next, writeChunks rounds next [] = .done 0 := by
    intro rounds next
    cases rounds with
    | zero => rfl
    | succ rounds => rfl
  cases data with
  | nil => exact (some rfl).elim
  | cons first others =>
      simp only [write, List.length_cons, writeChunks, List.isEmpty_cons, Bool.false_eq_true,
        ↓reduceIte]
      rw [List.take_of_length_le short, List.drop_of_length_le short, once]

theorem plain_write {reg : UInt32} {data : List UInt8} (other : ¬ IsLnbReg reg) (some : data ≠ [])
    (short : data.length ≤ writeDataMax) : Plain (write reg data) := by
  rw [write_single reg some short]
  exact .ifZero (plain_op.mpr other) (.bind plain_breathe fun _ => .done 0)

@[simp] theorem plain_write8 {reg : UInt32} (value : UInt8) (other : ¬ IsLnbReg reg) :
    Plain (write8 reg value) := plain_write other nofun (by simp [writeDataMax])

@[simp] theorem plain_write16 {reg : UInt32} (value : UInt16) (other : ¬ IsLnbReg reg) :
    Plain (write16 reg value) := plain_write other nofun (by simp [writeDataMax])

@[simp] theorem plain_write32 {reg : UInt32} (value : UInt32) (other : ¬ IsLnbReg reg) :
    Plain (write32 reg value) := plain_write other nofun (by simp [bytes32, writeDataMax])

theorem plain_read (reg : UInt32) (size : Nat) : Plain (read reg size) := by
  apply Plain.bind (plain_op.mpr id)
  intro generic
  apply Plain.ite
  · apply Plain.bind (plain_op.mpr id)
    intro rc
    exact .ite (.done _) (.bind (plain_op.mpr id) fun _ => .done _)
  · exact .bind (plain_op.mpr id) fun _ => .done _

@[simp] theorem plain_read8 (reg : UInt32) : Plain (read8 reg) :=
  .bind (plain_read reg 1) fun _ => .done _

@[simp] theorem plain_read16 (reg : UInt32) : Plain (read16 reg) :=
  .bind (plain_read reg 2) fun _ => .done _

@[simp] theorem plain_read32 (reg : UInt32) : Plain (read32 reg) :=
  .bind (plain_read reg 4) fun _ => .done _

/-! ## Firmware commands -/

def regCommand : UInt32 := 0x000200
def cmdIdle : UInt16 := 0
def cmdLdDefault : UInt16 := 1
def cmdAcquire : UInt16 := 2
def cmdHalt : UInt16 := 3
def cmdFailed : UInt16 := 255

def getCommandStatus : Code Int :=
  ifRead (read16 regCommand) fun command =>
    .done (if command = cmdFailed then -4 else if command = cmdIdle then 0 else 1)

def pollCommandIdle : Nat → Code Int
  | 0 => .done (-3)
  | attempts + 1 => do
      let rc ← getCommandStatus
      if rc ≤ 0 then pure rc
      else
        sleep 10
        pollCommandIdle attempts

def waitCommandIdle : Code Int := pollCommandIdle 51

def sendCommand (command : UInt16) : Code Int :=
  untilFailure [waitCommandIdle, write16 regCommand command, waitCommandIdle]

@[simp] theorem plain_waitCommandIdle : Plain waitCommandIdle := by
  have polls : ∀ attempts, Plain (pollCommandIdle attempts) := by
    intro attempts
    induction attempts with
    | zero => exact .done _
    | succ attempts ih =>
        apply Plain.bind (.ifRead (plain_read16 _) fun _ => .done _)
        intro rc
        exact .ite (.done _) (.bind (plain_sleep 10) fun _ => ih)
  exact polls 51

@[simp] theorem plain_sendCommand (command : UInt16) : Plain (sendCommand command) :=
  .untilFailure (by simp [show ¬ IsLnbReg regCommand by decide])

def regCpuReset : UInt32 := 0x110840
def regReadyWord : UInt32 := 0x0000a0
def readyValue : UInt32 := 0x5aa57ff7

def isReady : Code (Except Int Bool) := do
  match ← read32 regCpuReset with
  | .error rc => pure (.error rc)
  | .ok reset =>
      let ready ← read32 regReadyWord
      pure (ready.map fun word => reset == 0 && word == readyValue)

/-- `waitReady delayMs retries` asks once more than it retries. -/
def waitReady (delayMs : UInt32) : Nat → Code Int
  | 0 => ifRead isReady fun ready => .done (if ready then 0 else -3)
  | retries + 1 => ifRead isReady fun ready =>
      if ready then .done 0
      else do
        sleep delayMs
        waitReady delayMs retries

theorem plain_waitReady (delayMs : UInt32) (retries : Nat) : Plain (waitReady delayMs retries) := by
  have asks : Plain isReady := by
    apply Plain.bind (plain_read32 _)
    intro answer
    rcases answer with rc | reset
    · exact .done _
    · exact .bind (plain_read32 _) fun _ => .done _
  induction retries with
  | zero => exact .ifRead asks fun _ => .done _
  | succ retries ih =>
      apply Plain.ifRead asks
      intro ready
      exact .ite (.done _) (.bind (plain_sleep delayMs) fun _ => ih)

/-! ## Bringing the demodulator up -/

def regXtal : UInt32 := 0x000205
def regSysClock : UInt32 := 0x00083c
def regFecClock : UInt32 := 0x000840
def regMpegClock : UInt32 := 0x000848

/-- Answers the core clock. -/
def loadDefaults (refClock : UInt8) (requestedMpegClockHz : UInt32) :
    Code (Except Int UInt32) :=
  if refClock > 3 ∨ requestedMpegClockHz = 0 then .done (.error (-1))
  else do
    let rc ← untilFailure [write32 regMpegClock requestedMpegClockHz, write8 regXtal refClock,
      sendCommand cmdLdDefault]
    if rc ≠ 0 then pure (.error rc)
    else
      match ← read32 regSysClock with
      | .error rc => pure (.error rc)
      | .ok core =>
        match ← read32 regFecClock with
        | .error rc => pure (.error rc)
        | .ok _ =>
          let mpeg ← read32 regMpegClock
          pure (mpeg.map fun _ => core)

theorem plain_loadDefaults (refClock : UInt8) (requestedMpegClockHz : UInt32) :
    Plain (loadDefaults refClock requestedMpegClockHz) := by
  apply Plain.ite (.done _)
  apply Plain.bind (.untilFailure (by simp +decide))
  intro rc
  apply Plain.ite (.done _)
  apply Plain.bind (plain_read32 _)
  intro answer
  rcases answer with rc | core
  · exact .done _
  · apply Plain.bind (plain_read32 _)
    intro answer
    rcases answer with rc | fec
    · exact .done _
    · exact .bind (plain_read32 _) fun _ => .done _

def regTunerSrst : UInt32 := 0x118000
def regTunerControl : UInt32 := 0x118004
def regTunerDivider : UInt32 := 0x118018
def regTunerRepeater : UInt32 := 0x11801c
def regGpioI2cData : UInt32 := 0x120014
def regGpioI2cClock : UInt32 := 0x120018
def regGpioM3Scl : UInt32 := 0x12009c
def regGpioM3Sda : UInt32 := 0x1200a0

def initTunerI2c (coreClockHz : UInt32) : Code Int :=
  if coreClockHz = 0 then .done (-1)
  else
    ifZero (untilFailure [write32 regTunerSrst 1, write32 regTunerSrst 0]) <|
      ifRead (read32 regTunerControl) fun control =>
        untilFailure [
          write32 regTunerControl (control &&& 0xfffffffe),
          write32 regTunerRepeater 6,
          write32 regTunerDivider (0x2a * (coreClockHz / 1000) / (240 * 1000)),
          write32 regGpioI2cClock 7,
          write32 regGpioI2cData 8,
          write32 regGpioM3Scl 6,
          write32 regGpioM3Sda 5]

theorem plain_initTunerI2c (coreClockHz : UInt32) : Plain (initTunerI2c coreClockHz) :=
  .ite (.done _) (.ifZero (.untilFailure (by simp +decide))
    (.ifRead (plain_read32 _) fun _ => .untilFailure (by simp +decide)))

/-- The latch is written three times, as the vendor does. -/
def setTunerI2c (enable : Bool) : Code Int :=
  let value := if enable then 7 else 6
  untilFailure [write32 regTunerRepeater value, write32 regTunerRepeater value,
    write32 regTunerRepeater value]

theorem plain_setTunerI2c (enable : Bool) : Plain (setTunerI2c enable) :=
  .untilFailure (by simp +decide)

def regInputFormat : UInt32 := 0x00082d
def regTunerSpectrum : UInt32 := 0x00082e
def regInputSelect : UInt32 := 0x00082f
def regRfAgcPolarity : UInt32 := 0x00080f
def regRfAgcMaxGain : UInt32 := 0x000864
def regRfAgcMinGain : UInt32 := 0x000866
def regAagcSdControl : UInt32 := 0x160900
def regGpioAgc1 : UInt32 := 0x120000
def regGpioAgc2 : UInt32 := 0x120010

def initDemodInput (spectrumInverted : Bool) : Code Int :=
  ifZero (untilFailure [
    write8 regInputFormat 0,
    write8 regInputSelect 1,
    write8 regTunerSpectrum (if spectrumInverted then 1 else 0),
    write8 regRfAgcPolarity 1,
    write16 regRfAgcMinGain (100 * 65536 / 3300 : UInt32).toUInt16,
    write16 regRfAgcMaxGain (3200 * 65536 / 3300 : UInt32).toUInt16]) <|
    ifRead (read32 regAagcSdControl) fun agcControl =>
      untilFailure [
        write32 regAagcSdControl (agcControl ||| 2),
        write32 regGpioAgc1 6,
        write32 regGpioAgc2 6]

theorem plain_initDemodInput (spectrumInverted : Bool) : Plain (initDemodInput spectrumInverted) :=
  .ifZero (.untilFailure (by simp +decide))
    (.ifRead (plain_read32 _) fun _ => .untilFailure (by simp +decide))

/-- `avl62x1_ts_config`. -/
structure TsConfig where
  mode : UInt8
  format : UInt8
  clockRising : Bool
  clockPhase : UInt8
  adaptiveClock : Bool
  errorInverted : Bool
  validInverted : Bool
  serialDataPin : UInt8
  serialMsbFirst : Bool

def regTsFormat : UInt32 := 0xa00209
def regTsContinuous : UInt32 := 0xa0020a
def regTsClockEdge : UInt32 := 0xa0020b
def regTsMode : UInt32 := 0xa0020c
def regTsBitOrder : UInt32 := 0xa0020e
def regTsSerialPin : UInt32 := 0xa0020f
def regTsValidPolarity : UInt32 := 0xa00210
def regTsErrorPolarity : UInt32 := 0xa00211
def regTsClockAdapt : UInt32 := 0xa00235
def regTsDriverStrength : UInt32 := 0xa00236
def regTsClockPhase : UInt32 := 0xa00237
def regTsBusOff : UInt32 := 0xb08410
def regTsBusEnableBits : UInt32 := 0xb08420

def flag (value : Bool) : UInt8 := if value then 1 else 0

def configureTs (config : TsConfig) (enableOutput : Bool) : Code Int :=
  if config.mode > 2 ∨ config.format > 1 ∨ config.clockPhase > 3 ∨ config.serialDataPin > 1 then
    .done (-1)
  else
    untilFailure [
      write8 regTsMode config.mode,
      write8 regTsFormat config.format,
      write8 regTsClockEdge (flag config.clockRising),
      write8 regTsClockPhase config.clockPhase,
      write8 regTsClockAdapt (flag config.adaptiveClock),
      write8 regTsDriverStrength 3,
      write8 regTsErrorPolarity (flag config.errorInverted),
      write8 regTsValidPolarity (flag config.validInverted),
      if config.mode = 1 then
        untilFailure [write8 regTsSerialPin config.serialDataPin,
          write8 regTsBitOrder (flag config.serialMsbFirst), write8 regTsContinuous 1]
      else if config.mode = 0 then
        untilFailure [write8 regTsClockAdapt 1, write8 regTsContinuous 0]
      else .done 0,
      write8 regTsBusOff (if enableOutput then 0x00 else 0xff),
      write32 regTsBusEnableBits (if enableOutput then 0x000 else 0xfff)]

theorem plain_configureTs (config : TsConfig) (enableOutput : Bool) :
    Plain (configureTs config enableOutput) := by
  apply Plain.ite (.done _) (.untilFailure _)
  simp +decide only [List.forall_mem_cons, List.not_mem_nil, false_imp_iff, forall_const,
    plain_write8, plain_write32, true_and, and_true, not_false_eq_true]
  exact .ite (.untilFailure (by simp +decide)) (.ite (.untilFailure (by simp +decide)) (.done _))

/-! ## Acquisition and status -/

def regBlindSymbolRate : UInt32 := 0x000851
def regBlindCfo : UInt32 := 0x000852
def regNomSymbolRate : UInt32 := 0x000804
def regNomCarrierOffset : UInt32 := 0x000830
def regPlScramble : UInt32 := 0x00085c
def regStreamRawT2mi : UInt32 := 0xa00604
def regStreamType : UInt32 := 0xa00605
def regStreamId : UInt32 := 0xa0060a

def acquire (symbolRateHz carrierOffsetHz : UInt32) (blindSymbolRate : Bool) : Code Int :=
  if symbolRateHz = 0 then .done (-1)
  else
    untilFailure [
      sendCommand cmdHalt,
      write8 regBlindSymbolRate (flag blindSymbolRate),
      write8 regBlindCfo 1,
      write32 regNomSymbolRate symbolRateHz,
      write32 regNomCarrierOffset carrierOffsetHz,
      write32 regPlScramble 0x00800000,
      write8 regStreamType 0xff,
      write8 regStreamId 0,
      write8 regStreamRawT2mi 0,
      sendCommand cmdAcquire]

theorem plain_acquire (symbolRateHz carrierOffsetHz : UInt32) (blindSymbolRate : Bool) :
    Plain (acquire symbolRateHz carrierOffsetHz blindSymbolRate) :=
  .ite (.done _) (.untilFailure (by simp +decide))

def regLock : UInt32 := 0x000408
def regFecLock : UInt32 := 0x00040a
def regFrameLock : UInt32 := 0x00040b
def regSnrDbX100 : UInt32 := 0x000412
def regSymbolRate : UInt32 := 0x00041c

def getSignalStatus : Code (Except Int SignalStatus) := do
  match ← read8 regLock with
  | .error rc => pure (.error rc)
  | .ok locked =>
    match ← read8 regFecLock with
    | .error rc => pure (.error rc)
    | .ok fecLocked =>
      match ← read8 regFrameLock with
      | .error rc => pure (.error rc)
      | .ok frameLocked =>
        match ← read16 regSnrDbX100 with
        | .error rc => pure (.error rc)
        | .ok snr =>
          match ← read32 regSymbolRate with
          | .error rc => pure (.error rc)
          | .ok symbolRateHz =>
              pure (.ok ⟨locked != 0, fecLocked != 0, frameLocked != 0, snr.toInt16.toInt,
                symbolRateHz⟩)

theorem plain_getSignalStatus : Plain getSignalStatus := by
  apply Plain.bind (plain_read8 _)
  intro answer
  rcases answer with rc | locked
  · exact .done _
  apply Plain.bind (plain_read8 _)
  intro answer
  rcases answer with rc | fecLocked
  · exact .done _
  apply Plain.bind (plain_read8 _)
  intro answer
  rcases answer with rc | frameLocked
  · exact .done _
  apply Plain.bind (plain_read16 _)
  intro answer
  rcases answer with rc | snr
  · exact .done _
  apply Plain.bind (plain_read32 _)
  intro answer
  rcases answer with rc | symbolRateHz
  · exact .done _
  · exact .done _

/-! ## The LNB supply, the tone and DiSEqC -/

def setLnbPins (enable select : UInt32) : Code Int :=
  untilFailure [write32 lnbPowerEnableReg enable, write32 lnbPowerSelectReg select]

def setLnbVoltage (volts : UInt32) : Code Int :=
  if volts = 0 then setLnbPins 0 0
  else if volts = 13 then setLnbPins 1 0
  else if volts = 18 then setLnbPins 1 1
  else .done (-1)

def regDiseqcTxControl : UInt32 := 0x16c000
def regDiseqcToneFracN : UInt32 := 0x16c004
def regDiseqcToneFracD : UInt32 := 0x16c008
def regDiseqcTxStatus : UInt32 := 0x16c00c
def regDiseqcRxTimeout : UInt32 := 0x16c018
def regDiseqcRxControl : UInt32 := 0x16c01c
def regDiseqcReset : UInt32 := 0x16c020
def regDiseqcSampleN : UInt32 := 0x16c028
def regDiseqcSampleD : UInt32 := 0x16c02c
def regDiseqcTxFifo : UInt32 := 0x16c080

/-- The waveform is being sent. -/
def toneBit : UInt32 := 0x400

def initDiseqc (coreClockHz : UInt32) : Code Int :=
  if coreClockHz = 0 then .done (-1)
  else
    ifZero (untilFailure [
      write32 regDiseqcReset 1,
      write32 regDiseqcSampleN 2000000,
      write32 regDiseqcSampleD coreClockHz,
      write32 regDiseqcToneFracN 44,
      write32 regDiseqcToneFracD (coreClockHz / 1000)]) <|
      ifRead (read32 regDiseqcTxControl) fun control =>
        let txControl := (control &&& 0x00000300) ||| 0x28
        untilFailure [
          write32 regDiseqcTxControl txControl,
          write32 regDiseqcTxControl (txControl &&& ~~~0x20),
          write32 regDiseqcRxControl 0x0a,
          write32 regDiseqcRxTimeout 0,
          write32 regDiseqcReset 0]

theorem plain_initDiseqc (coreClockHz : UInt32) : Plain (initDiseqc coreClockHz) :=
  .ite (.done _) (.ifZero (.untilFailure (by simp +decide))
    (.ifRead (plain_read32 _) fun _ => .untilFailure (by simp +decide)))

def set22khzTone (enable : Bool) : Code Int :=
  ifRead (read32 regDiseqcTxControl) fun control =>
    if enable then
      let continuous := (control &&& 0xfffffff8) ||| 0x03
      untilFailure [write32 regDiseqcTxControl continuous,
        write32 regDiseqcTxControl (continuous ||| toneBit)]
    else write32 regDiseqcTxControl (control &&& 0xfffff3ff)

theorem plain_set22khzTone (enable : Bool) : Plain (set22khzTone enable) :=
  .ifRead (plain_read32 _) fun _ =>
    .ite (.untilFailure (by simp +decide)) (plain_write32 _ (by decide))

/-- A continuous tone must stop before a modulated command. -/
def stopTone (control : UInt32) (rest : UInt32 → Code Int) : Code Int :=
  if control &&& toneBit ≠ 0 then
    ifZero (write32 regDiseqcTxControl (control &&& 0xfffff3ff)) do
      sleep 20
      rest (control &&& 0xfffff3ff)
  else rest control

theorem plain_stopTone {control : UInt32} {rest : UInt32 → Code Int}
    (later : ∀ value, Plain (rest value)) : Plain (stopTone control rest) :=
  .ite (.ifZero (plain_write32 _ (by decide)) (.bind (plain_sleep 20) fun _ => later _)) (later _)

/-- Ask up to `attempts` times, a millisecond apart, whether the command is out. -/
def pollTransmitted : Nat → Code Int
  | 0 => .done 0
  | attempts + 1 => do
      sleep 1
      ifRead (read32 regDiseqcTxStatus) fun status =>
        if status &&& 0x40 ≠ 0 then .done 0
        else if attempts = 0 then .done (-2)
        else pollTransmitted attempts

/-- What follows the transmission, with the tone resumed if it was on. -/
def finishTransmission (control : UInt32) : Code Int :=
  ifZero (pollTransmitted 500) do
    sleep 20
    if control &&& toneBit ≠ 0 then set22khzTone true else pure 0

theorem plain_pollTransmitted (attempts : Nat) : Plain (pollTransmitted attempts) := by
  induction attempts with
  | zero => exact .done _
  | succ attempts ih =>
      apply Plain.bind (plain_sleep 1)
      intro slept
      exact .ifRead (plain_read32 _) fun _ => .ite (.done _) (.ite (.done _) ih)

theorem plain_finishTransmission (control : UInt32) : Plain (finishTransmission control) :=
  .ifZero (plain_pollTransmitted 500)
    (.bind (plain_sleep 20) fun _ => .ite (plain_set22khzTone true) (.done _))

def sendDiseqc (message : List UInt8) : Code Int :=
  if message.length = 0 ∨ message.length > 8 then .done (-1)
  else
    ifRead (read32 regDiseqcTxControl) fun before =>
      stopTone before fun control =>
        ifRead (read32 regDiseqcRxControl) fun rxControl =>
          let fifo := control &&& 0xfffffff8
          ifZero (untilFailure [
            write32 regDiseqcRxControl (rxControl ||| 1),
            write32 regDiseqcRxControl (rxControl &&& ~~~1),
            write32 regDiseqcTxControl fifo,
            untilFailure (message.map fun byte => write32 regDiseqcTxFifo byte.toUInt32),
            write32 regDiseqcTxControl (fifo ||| 0x04)]) (finishTransmission before)

theorem plain_sendDiseqc (message : List UInt8) : Plain (sendDiseqc message) := by
  apply Plain.ite (.done _) (.ifRead (plain_read32 _) _)
  intro before
  apply plain_stopTone
  intro control
  apply Plain.ifRead (plain_read32 _)
  intro rxControl
  apply Plain.ifZero _ (plain_finishTransmission before)
  have bytes : Plain (untilFailure
      (message.map fun byte => write32 regDiseqcTxFifo byte.toUInt32)) := by
    apply Plain.untilFailure
    intro code member
    obtain ⟨byte, _, rfl⟩ := List.mem_map.mp member
    exact plain_write32 _ (by decide)
  exact .untilFailure (by simp +decide [bytes])

def selectDiseqcCommitted (port : UInt32) (horizontal highBand repeated : Bool) : Code Int :=
  if port < 1 ∨ port > 4 then .done (-1)
  else
    sendDiseqc [if repeated then 0xe1 else 0xe0, 0x10, 0x38,
      ((0xf0 : UInt32) ||| ((port - 1) <<< 2) ||| (if horizontal then 0x02 else 0)
        ||| (if highBand then 0x01 else 0)).toUInt8]

theorem plain_selectDiseqcCommitted (port : UInt32) (horizontal highBand repeated : Bool) :
    Plain (selectDiseqcCommitted port horizontal highBand repeated) :=
  .ite (.done _) (plain_sendDiseqc _)

def selectDiseqcUncommitted (port : UInt32) (repeated : Bool) : Code Int :=
  if port < 1 ∨ port > 16 then .done (-1)
  else
    sendDiseqc
      [if repeated then 0xe1 else 0xe0, 0x10, 0x39, (0xf0 ||| (port - 1) : UInt32).toUInt8]

theorem plain_selectDiseqcUncommitted (port : UInt32) (repeated : Bool) :
    Plain (selectDiseqcUncommitted port repeated) :=
  .ite (.done _) (plain_sendDiseqc _)

def sendToneBurst (secondPort : Bool) : Code Int :=
  ifRead (read32 regDiseqcTxControl) fun before =>
    stopTone before fun control =>
      let waveform := (control &&& 0xfffffff8) ||| (if secondPort then 0x02 else 0x01 : UInt32)
      ifZero (untilFailure [
        write32 regDiseqcTxControl waveform,
        write32 regDiseqcTxControl (waveform ||| 0x04)]) (finishTransmission before)

theorem plain_sendToneBurst (secondPort : Bool) : Plain (sendToneBurst secondPort) :=
  .ifRead (plain_read32 _) fun before => plain_stopTone fun _ =>
    .ifZero (.untilFailure (by simp +decide)) (plain_finishTransmission before)

end Avl62x1
end Engine
